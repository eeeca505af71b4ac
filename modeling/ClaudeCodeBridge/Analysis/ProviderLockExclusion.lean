import ClaudeCodeBridge.Model.ProviderLocks
import Mathlib.Logic.Relation

/-!
# Who holds a provider lock

A lock that is held has the advisory lock of a file (`LockSound.held`), and a file has one lock.
So two holders mean two locked files: one that the lock file is, and one that it was.  Each call
into the system leaves what other locks have (`Leaves`), so each move of a lock keeps all of them
sound (`sound_move`), and the name stays with the locked file in a run in which no locked file is
unlinked and none is locked that has been unlinked (`Guarded`).
-/

set_option autoImplicit false

namespace ClaudeCodeBridge.Analysis.ProviderLocks

open Program
open Model.ProviderLocks

variable {ι : Type} {pid : ι → Pid} {s u : State ι} {t t' : FileTable ι Content} {o other : ι}
  {lock : Lock} {d : ℕ}

structure LockSound (t : FileTable ι Content) (o : ι) (lock : Lock) : Prop where
  held : ∀ d, lock.held = some d →
    ∃ desc, t.opened d = some desc ∧ desc.owner = o ∧ t.locked desc.inode = some d
  own : ∀ d desc, lock.fd = some d → t.opened d = some desc → desc.owner = o
  bound : ∀ d, lock.fd = some d → d < t.next_descriptor
  /-- A call never works on the descriptor of an earlier one that is held. -/
  apart : ∀ d, lock.fd = some d → lock.held = some d → lock.doing = .idle
  writing : lock.doing = .writing →
    ∃ d desc, lock.fd = some d ∧ t.opened d = some desc ∧ t.locked desc.inode = some d

structure Leaves (o : ι) (t t' : FileTable ι Content) : Prop where
  opened : ∀ d desc, t.opened d = some desc → desc.owner ≠ o → t'.opened d = some desc
  locked : ∀ d desc, t.opened d = some desc → desc.owner ≠ o →
    t.locked desc.inode = some d → t'.locked desc.inode = some d
  older : ∀ d desc, d < t.next_descriptor → t'.opened d = some desc → t.opened d = some desc
  next : t.next_descriptor ≤ t'.next_descriptor

theorem LockSound.left (h : LockSound t other lock) (hne : other ≠ o) (hleaves : Leaves o t t') :
    LockSound t' other lock := by
  constructor
  · intro d hheld
    obtain ⟨desc, hopened, hown, hlocked⟩ := h.held d hheld
    have howner : desc.owner ≠ o := by rwa [hown]
    exact ⟨desc, hleaves.opened d desc hopened howner, hown,
      hleaves.locked d desc hopened howner hlocked⟩
  · intro d desc hfd hopened
    exact h.own d desc hfd (hleaves.older d desc (h.bound d hfd) hopened)
  · intro d hfd
    have hlt := h.bound d hfd
    have hle := hleaves.next
    omega
  · exact h.apart
  · intro hdoing
    obtain ⟨d, desc, hfd, hopened, hlocked⟩ := h.writing hdoing
    have howner : desc.owner ≠ o := by rwa [h.own d desc hfd hopened]
    exact ⟨d, desc, hfd, hleaves.opened d desc hopened howner,
      hleaves.locked d desc hopened howner hlocked⟩

theorem leaves_refl (o : ι) (t : FileTable ι Content) : Leaves o t t :=
  ⟨fun _ _ h _ => h, fun _ _ _ _ h => h, fun _ _ _ h => h, Nat.le_refl _⟩

theorem leaves_open (h : t.WellFormed) (o : ι) : Leaves o t (t.open_named .empty o).1 := by
  constructor
  · intro d desc hopened _
    have hlt := h.opened_lt d desc hopened
    rw [FileTable.opened_open_named, if_neg (by omega)]
    exact hopened
  · intro d desc _ _ hlocked
    rwa [FileTable.locked_open_named]
  · intro d desc hlt hopened
    rw [FileTable.opened_open_named, if_neg (by omega)] at hopened
    exact hopened
  · rw [FileTable.next_open_named]
    omega

theorem leaves_flock (o : ι) (h : t.flock d = some t') : Leaves o t t' := by
  have hlocked : ∀ i e, t.locked i = some e → t'.locked i = some e :=
    fun i e hlocked => FileTable.locked_of_flock h hlocked
  obtain ⟨desc, _, _, rfl⟩ := FileTable.flock_eq_some h
  exact ⟨fun _ _ hopened _ => hopened, fun _ _ _ _ hbefore => hlocked _ _ hbefore,
    fun _ _ _ hopened => hopened, Nat.le_refl _⟩

theorem leaves_unlock (hown : ∀ desc, t.opened d = some desc → desc.owner = o) :
    Leaves o t (t.unlock d) := by
  refine ⟨fun _ _ hopened _ => hopened, ?_, fun _ _ _ hopened => hopened, Nat.le_refl _⟩
  intro e desc hopened howner hlocked
  apply FileTable.locked_unlock_iff.mpr
  refine ⟨hlocked, ?_⟩
  rintro rfl
  exact howner (hown desc hopened)

theorem leaves_close (hown : ∀ desc, t.opened d = some desc → desc.owner = o) :
    Leaves o t (t.close d) := by
  constructor
  · intro e desc hopened howner
    rw [FileTable.opened_close, if_neg]
    · exact hopened
    · rintro rfl
      exact howner (hown desc hopened)
  · exact (leaves_unlock hown).locked
  · intro e desc _ hopened
    rw [FileTable.opened_close] at hopened
    split at hopened
    · cases hopened
    · exact hopened
  · exact Nat.le_refl _

theorem leaves_unlink (o : ι) (t : FileTable ι Content) : Leaves o t t.unlink :=
  ⟨fun _ _ h _ => h, fun _ _ _ _ h => h, fun _ _ _ h => h, Nat.le_refl _⟩

theorem leaves_write (o : ι) (t : FileTable ι Content) (d : ℕ) (content : Content) :
    Leaves o t (t.write d content) := by
  constructor
  · intro e desc hopened _
    rwa [FileTable.opened_write]
  · intro e desc _ _ hlocked
    rwa [FileTable.locked_write]
  · intro e desc _ hopened
    rwa [FileTable.opened_write] at hopened
  · exact Nat.le_of_eq (FileTable.next_write t d content).symm

theorem LockSound.doing (h : LockSound t o lock) (hbusy : lock.doing ≠ .idle) {doing : Doing}
    (hdoing : doing ≠ .writing) : LockSound t o { lock with doing := doing } := by
  refine ⟨h.held, h.own, h.bound, ?_, ?_⟩
  · intro d hfd hheld
    exact absurd (h.apart d hfd hheld) hbusy
  · intro hwriting
    exact absurd hwriting hdoing

theorem LockSound.open_file (h : LockSound t o lock) (hformed : t.WellFormed) {doing : Doing}
    (hdoing : doing ≠ .writing) :
    LockSound (t.open_named .empty o).1 o
      { lock with fd := some (t.open_named .empty o).2, doing := doing } := by
  constructor
  · intro d hheld
    obtain ⟨desc, hopened, hown, hlocked⟩ := h.held d hheld
    have hlt := hformed.opened_lt d desc hopened
    refine ⟨desc, ?_, hown, ?_⟩
    · rw [FileTable.opened_open_named, if_neg (by omega)]
      exact hopened
    · rwa [FileTable.locked_open_named]
  · intro d desc hfd hopened
    obtain rfl : t.next_descriptor = d := Option.some.inj hfd
    rw [FileTable.opened_open_named, if_pos rfl, Option.some.injEq] at hopened
    rw [← hopened]
  · intro d hfd
    obtain rfl : t.next_descriptor = d := Option.some.inj hfd
    rw [FileTable.next_open_named]
    omega
  · intro d hfd hheld
    obtain rfl : t.next_descriptor = d := Option.some.inj hfd
    obtain ⟨desc, hopened, _⟩ := h.held _ hheld
    have hlt := hformed.opened_lt _ desc hopened
    omega
  · intro hwriting
    exact absurd hwriting hdoing

theorem LockSound.flocked (h : LockSound t o lock) (hbusy : lock.doing ≠ .idle)
    (hfd : lock.fd = some d) (hlock : t.flock d = some t') :
    LockSound t' o { lock with doing := .writing } := by
  have hkept : ∀ i e, t.locked i = some e → t'.locked i = some e :=
    fun i e hlocked => FileTable.locked_of_flock hlock hlocked
  obtain ⟨desc, hopened, _, rfl⟩ := FileTable.flock_eq_some hlock
  refine ⟨?_, h.own, h.bound, ?_, ?_⟩
  · intro e hheld
    obtain ⟨held, hheld_opened, hown, hlocked⟩ := h.held e hheld
    exact ⟨held, hheld_opened, hown, hkept _ _ hlocked⟩
  · intro e hfd hheld
    exact absurd (h.apart e hfd hheld) hbusy
  · intro _
    refine ⟨d, desc, hfd, hopened, ?_⟩
    exact Function.update_self _ _ _

theorem LockSound.write_pid (h : LockSound t o lock) (hwriting : lock.doing = .writing)
    (hfd : lock.fd = some d) (content : Content) :
    LockSound (t.write d content) o
      { fd := some d, acquired := true, doing := .idle, held := some d } := by
  obtain ⟨e, desc, hsame, hopened, hlocked⟩ := h.writing hwriting
  obtain rfl : d = e := Option.some.inj (hfd.symm.trans hsame)
  constructor
  · intro e hheld
    obtain rfl : d = e := Option.some.inj hheld
    refine ⟨desc, ?_, h.own d desc hfd hopened, ?_⟩
    · rwa [FileTable.opened_write]
    · rwa [FileTable.locked_write]
  · intro e found he hfound
    obtain rfl : d = e := Option.some.inj he
    rw [FileTable.opened_write] at hfound
    exact h.own d found hfd hfound
  · intro e he
    obtain rfl : d = e := Option.some.inj he
    rw [FileTable.next_write]
    exact h.bound d hfd
  · intro _ _ _
    rfl
  · intro hdoing
    cases hdoing

theorem LockSound.unlink (h : LockSound t o lock) : LockSound t.unlink o lock :=
  ⟨h.held, h.own, h.bound, h.apart, h.writing⟩

theorem LockSound.drop (h : LockSound t o lock) (dead : ι → Bool) (hspared : dead o = false) :
    LockSound (t.drop dead) o lock := by
  constructor
  · intro d hheld
    obtain ⟨desc, hopened, rfl, hlocked⟩ := h.held d hheld
    exact ⟨desc, FileTable.opened_drop_iff.mpr ⟨hopened, hspared⟩, rfl,
      FileTable.locked_drop_iff.mpr ⟨hlocked, desc, hopened, hspared⟩⟩
  · intro d desc hfd hopened
    exact h.own d desc hfd (FileTable.opened_drop_iff.mp hopened).1
  · exact h.bound
  · exact h.apart
  · intro hwriting
    obtain ⟨d, desc, hfd, hopened, hlocked⟩ := h.writing hwriting
    obtain rfl := h.own d desc hfd hopened
    exact ⟨d, desc, hfd, FileTable.opened_drop_iff.mpr ⟨hopened, hspared⟩,
      FileTable.locked_drop_iff.mpr ⟨hlocked, desc, hopened, hspared⟩⟩

theorem LockSound.unlock (h : LockSound t o lock) (hbusy : lock.doing ≠ .idle)
    (hfd : lock.fd = some d) {doing : Doing} (hdoing : doing ≠ .writing) :
    LockSound (t.unlock d) o { lock with doing := doing } := by
  refine ⟨?_, h.own, h.bound, (h.doing hbusy hdoing).apart, fun hwriting => absurd hwriting hdoing⟩
  intro e hheld
  obtain ⟨desc, hopened, hown, hlocked⟩ := h.held e hheld
  refine ⟨desc, hopened, hown, FileTable.locked_unlock_iff.mpr ⟨hlocked, ?_⟩⟩
  rintro rfl
  exact hbusy (h.apart e hfd hheld)

/-- A busy lock closes its descriptor, and may forget it. -/
theorem LockSound.close (h : LockSound t o lock) (hbusy : lock.doing ≠ .idle)
    (hfd : lock.fd = some d) {after : Lock} (hheld : after.held = lock.held)
    (hafter : after.fd = none ∨ after.fd = some d ∧ after.doing ≠ .idle)
    (hdoing : after.doing ≠ .writing) : LockSound (t.close d) o after := by
  have hkeeps : ∀ {e}, after.fd = some e → d = e := by
    intro e he
    rcases hafter with hnone | ⟨hsame, _⟩
    · rw [hnone] at he
      cases he
    · exact Option.some.inj (hsame.symm.trans he)
  constructor
  · intro e he
    rw [hheld] at he
    obtain ⟨desc, hopened, hown, hlocked⟩ := h.held e he
    have hne : e ≠ d := by
      rintro rfl
      exact hbusy (h.apart e hfd he)
    refine ⟨desc, ?_, hown, FileTable.locked_close_iff.mpr ⟨hlocked, hne⟩⟩
    rw [FileTable.opened_close, if_neg hne]
    exact hopened
  · intro e desc he hopened
    obtain rfl := hkeeps he
    rw [FileTable.opened_close, if_pos rfl] at hopened
    cases hopened
  · intro e he
    obtain rfl := hkeeps he
    exact h.bound d hfd
  · intro e he hkept
    obtain rfl := hkeeps he
    rw [hheld] at hkept
    exact absurd (h.apart d hfd hkept) hbusy
  · intro hwriting
    exact absurd hwriting hdoing

theorem LockSound.begin_release (h : LockSound t o lock) (hidle : lock.doing = .idle) :
    LockSound t o lock.begin_release := by
  obtain ⟨fd, acquired, doing, held⟩ := lock
  cases fd with
  | none =>
    refine ⟨fun e he => ?_, h.own, h.bound, fun e he => ?_, fun hwriting => ?_⟩
    · cases he
    · cases he
    · rw [Lock.begin_release, hidle] at hwriting
      cases hwriting
  | some d =>
    refine ⟨fun e he => ?_, h.own, h.bound, fun e _ he => ?_, fun hwriting => ?_⟩
    · cases he
    · cases he
    · cases acquired
      · cases hwriting
      · cases hwriting

section Steps

variable [DecidableEq ι]

/-- The locks of the living are sound, and no file is locked but the named one. -/
structure Sound (pid : ι → Pid) (s : State ι) : Prop where
  formed : s.files.WellFormed
  on_name : s.files.OnName
  locks : ∀ o, s.alive (pid o) = true → LockSound s.files o (s.locks o)

/-- A step that unlinks no locked file and locks no file that has been unlinked. -/
inductive Guarded (pid : ι → Pid) : State ι → State ι → Prop where
  | move (s t : State ι) (o : ι) (halive : s.alive (pid o) = true) (h : Move pid s o t)
    (hunlink : ∀ mode, (s.locks o).doing = .unlinking mode →
      ∀ i, s.files.named = some i → s.files.locked i = none)
    (hlock : ∀ mode fd desc,
      (s.locks o).doing = .locking mode ∨ (s.locks o).doing = .relocking mode →
        (s.locks o).fd = some fd → s.files.opened fd = some desc →
          s.files.locked desc.inode = none → s.files.named = some desc.inode) :
    Guarded pid s t
  | time_up (s : State ι) (o : ι) (stale_checked : Bool) (halive : s.alive (pid o) = true)
    (h : (s.locks o).doing = .locking (.waiting stale_checked)) :
    Guarded pid s (s.set o { s.locks o with doing := .giving_up })
  | die (s : State ι) (dead : Pid) : Guarded pid s (s.die pid dead)

theorem Sound.moved (h : Sound pid s) {files : FileTable ι Content} (hformed : files.WellFormed)
    (hname : files.OnName) (hleaves : Leaves o s.files files) (hlock : LockSound files o lock) :
    Sound pid { s.set o lock with files := files } := by
  refine ⟨hformed, hname, ?_⟩
  intro other halive
  change LockSound files other (Function.update s.locks o lock other)
  by_cases hsame : other = o
  · subst hsame
    rw [Function.update_self]
    exact hlock
  · rw [Function.update_of_ne hsame]
    exact (h.locks other halive).left hsame hleaves

theorem Sound.within (h : Sound pid s) (hlock : LockSound s.files o lock) :
    Sound pid (s.set o lock) :=
  h.moved h.formed h.on_name (leaves_refl o s.files) hlock

theorem sound_open (h : Sound pid s) (halive : s.alive (pid o) = true) {doing : Doing}
    (hdoing : doing ≠ .writing) : Sound pid (s.open_file o doing) :=
  h.moved (h.formed.open_named .empty o) (h.on_name.open_named .empty o) (leaves_open h.formed o)
    ((h.locks o halive).open_file h.formed hdoing)

theorem sound_flock (h : Sound pid s) (halive : s.alive (pid o) = true)
    (hbusy : (s.locks o).doing ≠ .idle) (hfd : (s.locks o).fd = some d)
    {files : FileTable ι Content} (hlock : s.files.flock d = some files)
    (hnamed : ∀ desc, s.files.opened d = some desc → s.files.locked desc.inode = none →
      s.files.named = some desc.inode) :
    Sound pid { s.set o { s.locks o with doing := .writing } with files := files } := by
  have hname : ∀ desc, s.files.opened d = some desc → s.files.named = some desc.inode := by
    intro desc hopened
    obtain ⟨found, hfound, hfree, _⟩ := FileTable.flock_eq_some hlock
    obtain rfl := Option.some.inj (hfound.symm.trans hopened)
    rcases hfree with hnone | hmine
    · exact hnamed found hopened hnone
    · exact h.on_name _ _ hmine
  exact h.moved (h.formed.flock hlock) (h.on_name.flock hlock hname) (leaves_flock o hlock)
    ((h.locks o halive).flocked hbusy hfd hlock)

theorem sound_close (h : Sound pid s) (halive : s.alive (pid o) = true)
    (hbusy : (s.locks o).doing ≠ .idle) (hfd : (s.locks o).fd = some d)
    (hheld : lock.held = (s.locks o).held)
    (hafter : lock.fd = none ∨ lock.fd = some d ∧ lock.doing ≠ .idle)
    (hdoing : lock.doing ≠ .writing) : Sound pid (s.close_file o d lock) :=
  h.moved (h.formed.close d) (h.on_name.close d)
    (leaves_close fun desc hopened => (h.locks o halive).own d desc hfd hopened)
    ((h.locks o halive).close hbusy hfd hheld hafter hdoing)

theorem sound_doing (h : Sound pid s) (halive : s.alive (pid o) = true)
    (hbusy : (s.locks o).doing ≠ .idle) {doing : Doing} (hdoing : doing ≠ .writing) :
    Sound pid (s.set o { s.locks o with doing := doing }) :=
  h.within ((h.locks o halive).doing hbusy hdoing)

theorem refused_ne_writing (mode : Mode) : mode.refused ≠ .writing := by
  cases mode with
  | once => exact Doing.noConfusion
  | waiting stale_checked => cases stale_checked <;> exact Doing.noConfusion

theorem failed_ne_writing (mode : Mode) : mode.failed ≠ .writing := by
  cases mode <;> exact Doing.noConfusion

theorem checked_ne_writing (mode : Mode) (content : Option Content) :
    mode.checked content ≠ .writing := by
  cases content with
  | none => exact failed_ne_writing mode
  | some content =>
    cases content with
    | empty => exact failed_ne_writing mode
    | pid pid => exact Doing.noConfusion
    | other => exact failed_ne_writing mode

omit [DecidableEq ι] in
theorem busy {doing : Doing} (h : (s.locks o).doing = doing) (hne : doing ≠ .idle) :
    (s.locks o).doing ≠ .idle := by
  rwa [h]

theorem sound_move (h : Sound pid s) (halive : s.alive (pid o) = true) (hmove : Move pid s o u)
    (hunlink : ∀ mode, (s.locks o).doing = .unlinking mode →
      ∀ i, s.files.named = some i → s.files.locked i = none)
    (hlock : ∀ mode fd desc,
      (s.locks o).doing = .locking mode ∨ (s.locks o).doing = .relocking mode →
        (s.locks o).fd = some fd → s.files.opened fd = some desc →
          s.files.locked desc.inode = none → s.files.named = some desc.inode) :
    Sound pid u := by
  cases hmove with
  | try_acquire hdoing | acquire hdoing => exact sound_open h halive Doing.noConfusion
  | lock mode fd files hdoing hfd htaken =>
    exact sound_flock h halive (busy hdoing Doing.noConfusion) hfd htaken
      fun desc hopened hfree => hlock mode fd desc (Or.inl hdoing) hfd hopened hfree
  | refused mode fd hdoing hfd hblocked =>
    exact sound_doing h halive (busy hdoing Doing.noConfusion) (refused_ne_writing mode)
  | time_up stale_checked hdoing =>
    exact sound_doing h halive (busy hdoing Doing.noConfusion) Doing.noConfusion
  | write_pid fd hdoing hfd =>
    exact h.moved (h.formed.write fd _) (h.on_name.write fd _) (leaves_write o s.files fd _)
      ((h.locks o halive).write_pid hdoing hfd _)
  | read mode hdoing =>
    exact sound_doing h halive (busy hdoing Doing.noConfusion) (checked_ne_writing mode _)
  | test mode found hdoing =>
    refine sound_doing h halive (busy hdoing Doing.noConfusion) ?_
    split
    · exact failed_ne_writing mode
    · exact Doing.noConfusion
  | unlink mode hdoing =>
    exact h.moved h.formed.unlink (h.on_name.unlink (hunlink mode hdoing))
      (leaves_unlink o s.files)
      ((h.locks o halive).unlink.doing (busy hdoing Doing.noConfusion) Doing.noConfusion)
  | reclose mode fd hdoing hfd =>
    exact sound_close h halive (busy hdoing Doing.noConfusion) hfd rfl
      (Or.inr ⟨hfd, Doing.noConfusion⟩) Doing.noConfusion
  | reopen mode hdoing => exact sound_open h halive Doing.noConfusion
  | relock mode fd files hdoing hfd htaken =>
    exact sound_flock h halive (busy hdoing Doing.noConfusion) hfd htaken
      fun desc hopened hfree => hlock mode fd desc (Or.inr hdoing) hfd hopened hfree
  | refused_again mode fd hdoing hfd hblocked =>
    exact sound_doing h halive (busy hdoing Doing.noConfusion) (failed_ne_writing mode)
  | give_up fd hdoing hfd | close fd hdoing hfd =>
    exact sound_close h halive (busy hdoing Doing.noConfusion) hfd rfl (Or.inl rfl)
      Doing.noConfusion
  | release hdoing => exact h.within ((h.locks o halive).begin_release hdoing)
  | unlock fd hdoing hfd =>
    exact h.moved (h.formed.unlock fd) (h.on_name.unlock fd)
      (leaves_unlock fun desc hopened => (h.locks o halive).own fd desc hfd hopened)
      ((h.locks o halive).unlock (busy hdoing Doing.noConfusion) hfd Doing.noConfusion)

omit [DecidableEq ι] in
theorem sound_die (h : Sound pid s) (dead : Pid) : Sound pid (s.die pid dead) := by
  refine ⟨h.formed.drop fun o => pid o = dead, h.on_name.drop fun o => pid o = dead, ?_⟩
  intro o halive
  have hne : pid o ≠ dead := by
    rintro rfl
    change Function.update s.alive (pid o) false (pid o) = true at halive
    rw [Function.update_self] at halive
    cases halive
  change Function.update s.alive dead false (pid o) = true at halive
  rw [Function.update_of_ne hne] at halive
  exact (h.locks o halive).drop (fun o => pid o = dead) (decide_eq_false hne)

theorem sound_step (h : Sound pid s) (hstep : Guarded pid s u) : Sound pid u := by
  cases hstep with
  | move _ o halive hmove hunlink hlock => exact sound_move h halive hmove hunlink hlock
  | time_up o stale_checked halive hdoing =>
    exact sound_doing h halive (busy hdoing Doing.noConfusion) Doing.noConfusion
  | die dead => exact sound_die h dead

omit [DecidableEq ι] in
theorem sound_initial (h : Initial s) : Sound pid s := by
  refine ⟨⟨?_, ?_⟩, ?_, ?_⟩
  · intro d desc hopened
    rw [h.opened] at hopened
    cases hopened
  · intro i d hlocked
    rw [h.locked] at hlocked
    cases hlocked
  · intro i d hlocked
    rw [h.locked] at hlocked
    cases hlocked
  · intro o _
    rw [h.locks]
    refine ⟨fun d hheld => ?_, fun d desc hfd => ?_, fun d hfd => ?_, fun d hfd => ?_,
      fun hwriting => ?_⟩
    · cases hheld
    · cases hfd
    · cases hfd
    · cases hfd
    · cases hwriting

theorem sound_run (hinitial : Initial s) (h : Relation.ReflTransGen (Guarded pid) s u) :
    Sound pid u := by
  induction h with
  | refl => exact sound_initial hinitial
  | tail _ hstep ih => exact sound_step ih hstep

omit [DecidableEq ι] in
theorem Sound.exclusive (h : Sound pid s) (ho : Holds pid s o) (hother : Holds pid s other) :
    o = other := by
  obtain ⟨d, hd⟩ := Option.isSome_iff_exists.mp ho.2
  obtain ⟨e, he⟩ := Option.isSome_iff_exists.mp hother.2
  obtain ⟨desc, hopened, hown, hlocked⟩ := (h.locks o ho.1).held d hd
  obtain ⟨found, hfound, howner, hfound_locked⟩ := (h.locks other hother.1).held e he
  obtain rfl := h.on_name.unique hlocked hfound_locked
  obtain rfl := Option.some.inj (hopened.symm.trans hfound)
  exact hown.symm.trans howner

/-- In a run that unlinks no locked file and locks no file that has been unlinked, at most one
lock is held. -/
theorem provider_lock_exclusive (pid : ι → Pid) (s u : State ι) (hinitial : Initial s)
    (h : Relation.ReflTransGen (Guarded pid) s u) :
    ∀ o other, Holds pid u o → Holds pid u other → o = other :=
  fun _ _ ho hother => (sound_run hinitial h).exclusive ho hother

end Steps

/-- The lock file has the id of a process that is dead. -/
def left_over : State ℕ :=
  { files :=
      { named := some 0, next_inode := 1, content := fun _ => .pid 0, opened := fun _ => none
        next_descriptor := 0, locked := fun _ => none }
    locks := fun _ => Lock.new
    alive := fun pid => pid ≠ 0 }

theorem initial_left_over : Initial left_over := ⟨fun _ => rfl, fun _ => rfl, fun _ => rfl⟩

theorem Guarded.quiet [DecidableEq ι] (o : ι) (halive : s.alive (pid o) = true) (h : Move pid s o u)
    {doing : Doing} (hdoing : (s.locks o).doing = doing)
    (hne : ∀ mode, doing ≠ .unlinking mode ∧ doing ≠ .locking mode ∧ doing ≠ .relocking mode) :
    Guarded pid s u := by
  subst hdoing
  refine .move _ _ o halive h (fun mode hat => absurd hat (hne mode).1) fun mode _ _ hat => ?_
  rcases hat with hat | hat
  · exact absurd hat (hne mode).2.1
  · exact absurd hat (hne mode).2.2

theorem Guarded.on_name [DecidableEq ι] (o : ι) (d : ℕ) (halive : s.alive (pid o) = true)
    (h : Move pid s o u) {mode : Mode} (hdoing : (s.locks o).doing = .locking mode)
    (hfd : (s.locks o).fd = some d)
    (hnamed : s.files.named = (s.files.opened d).map fun desc => desc.inode) :
    Guarded pid s u := by
  refine .move _ _ o halive h (fun _ hat => ?_) fun _ fd found _ hfound hdesc _ => ?_
  · rw [hdoing] at hat
    cases hat
  · obtain rfl := Option.some.inj (hfd.symm.trans hfound)
    rw [hnamed, hdesc, Option.map_some]

theorem ne_of_idle (mode : Mode) : Doing.idle ≠ .unlinking mode ∧ Doing.idle ≠ .locking mode ∧
    Doing.idle ≠ .relocking mode :=
  ⟨Doing.noConfusion, Doing.noConfusion, Doing.noConfusion⟩

/-- The holder dies while a second process waits; a third is refused. -/
theorem provider_lock_exclusive_taken :
    ∃ u, Holds id u 2 ∧ ∀ o other, Holds id u o → Holds id u other → o = other := by
  have hopen : Relation.ReflTransGen (Guarded id) left_over _ := Relation.ReflTransGen.single
    (Guarded.quiet 1 rfl (Move.try_acquire rfl) rfl ne_of_idle)
  have hlock := hopen.tail (Guarded.on_name 1 0 rfl (Move.lock .once 0 _ rfl rfl rfl) rfl rfl rfl)
  have hwrite := hlock.tail (Guarded.quiet 1 rfl (Move.write_pid 0 rfl rfl) rfl
    fun _ => ⟨Doing.noConfusion, Doing.noConfusion, Doing.noConfusion⟩)
  have hwait := hwrite.tail (Guarded.quiet 2 rfl (Move.acquire rfl) rfl ne_of_idle)
  have hdie := hwait.tail (Guarded.die _ 1)
  have htaken := hdie.tail
    (Guarded.on_name 2 1 rfl (Move.lock (.waiting false) 1 _ rfl rfl rfl) rfl rfl rfl)
  have hwritten := htaken.tail (Guarded.quiet 2 rfl (Move.write_pid 1 rfl rfl) rfl
    fun _ => ⟨Doing.noConfusion, Doing.noConfusion, Doing.noConfusion⟩)
  have hthird := hwritten.tail (Guarded.quiet 3 rfl (Move.try_acquire rfl) rfl ne_of_idle)
  have hrefused := hthird.tail
    (Guarded.on_name 3 2 rfl (Move.refused .once 2 rfl rfl rfl) rfl rfl rfl)
  exact ⟨_, ⟨rfl, rfl⟩, provider_lock_exclusive id left_over _ initial_left_over hrefused⟩

/-- A process has the advisory lock and not yet written its id; another finds the id of the dead
one, takes the file away and locks a new one. -/
theorem provider_lock_not_exclusive :
    ¬ ∀ (s u : State ℕ), Initial s → Relation.ReflTransGen (Step id) s u →
      ∀ o other, Holds id u o → Holds id u other → o = other := by
  intro h
  have hopen : Relation.ReflTransGen (Step id) left_over _ :=
    Relation.ReflTransGen.single (Step.move _ _ 1 rfl (Move.try_acquire rfl))
  have hlock := hopen.tail (Step.move _ _ 1 rfl (Move.lock .once 0 _ rfl rfl rfl))
  have hopen2 := hlock.tail (Step.move _ _ 2 rfl (Move.try_acquire rfl))
  have hrefused := hopen2.tail (Step.move _ _ 2 rfl (Move.refused .once 1 rfl rfl rfl))
  have hread := hrefused.tail (Step.move _ _ 2 rfl (Move.read .once rfl))
  have htest := hread.tail (Step.move _ _ 2 rfl (Move.test .once 0 rfl))
  have hunlink := htest.tail (Step.move _ _ 2 rfl (Move.unlink .once rfl))
  have hclose := hunlink.tail (Step.move _ _ 2 rfl (Move.reclose .once 1 rfl rfl))
  have hreopen := hclose.tail (Step.move _ _ 2 rfl (Move.reopen .once rfl))
  have hrelock := hreopen.tail (Step.move _ _ 2 rfl (Move.relock .once 2 _ rfl rfl rfl))
  have hwrite2 := hrelock.tail (Step.move _ _ 2 rfl (Move.write_pid 2 rfl rfl))
  have hwrite := hwrite2.tail (Step.move _ _ 1 rfl (Move.write_pid 0 rfl rfl))
  have hsame : (1 : ℕ) = 2 := h left_over _ initial_left_over hwrite 1 2 ⟨rfl, rfl⟩ ⟨rfl, rfl⟩
  cases hsame

end ClaudeCodeBridge.Analysis.ProviderLocks
