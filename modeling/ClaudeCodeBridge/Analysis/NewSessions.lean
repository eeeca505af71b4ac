import ClaudeCodeBridge.Model.ClaudeSessions

/-!
# New session files

From the poll that selects a new session on, the polls return the entries of what is appended to
its log (`Followed`).  What the log held before is passed over: no entry is lost exactly when
there was none (`entries_append`).
-/

set_option autoImplicit false

namespace ClaudeCodeBridge.Analysis.ClaudeSession

open Program
open Model.ClaudeSession

variable {ε : Type} {text : LogText ε} {disk later created : Disk} {reader : LogReader}
  {watch after : Watch ε} {log base suffix more : Bytes} {session : ℕ}

theorem strip_blank {blank : Bytes} (h : blank.all is_space = true) (raw : Bytes) :
    strip (blank ++ raw) = strip raw := by
  unfold strip
  rw [List.dropWhile_append_of_pos fun byte hbyte => List.all_eq_true.mp h byte hbyte]

theorem parse_blank {blank : Bytes} (h : blank.all is_space = true) (raw : Bytes) :
    text.parse_jsonl_entry (blank ++ raw) = text.parse_jsonl_entry raw := by
  unfold LogText.parse_jsonl_entry
  rw [strip_blank h]

theorem parse_nil : text.parse_jsonl_entry [] = none := rfl

theorem entries_append (base suffix : Bytes) :
    text.entries (base ++ suffix) =
      text.entries base ++ text.entries (openLine newline base ++ suffix) := by
  unfold LogText.entries
  rw [linesOf_append, List.filterMap_append]

theorem entries_blank {blank : Bytes} (h : blank.all is_space = true) (hline : newline ∉ blank)
    (suffix : Bytes) : text.entries (blank ++ suffix) = text.entries suffix := by
  unfold LogText.entries
  obtain ⟨hnone, hnone'⟩ | ⟨line, lines, hlines, hlines'⟩ := linesOf_before hline suffix
  · rw [hnone, hnone']
  · rw [hlines, hlines', List.filterMap_cons, List.filterMap_cons, parse_blank h]

theorem entries_unbegun (h : text.Unbegun base) (suffix : Bytes) :
    text.entries (base ++ suffix) = text.entries suffix := by
  rw [entries_append, h.1, List.nil_append, entries_blank h.2 (notMem_openLine newline base)]

theorem read_incremental_append (text : LogText ε) (base suffix more : Bytes) :
    text.read_incremental_jsonl (base ++ suffix ++ more) (base ++ suffix).length
        (openLine newline suffix) =
      ((linesOf newline (openLine newline suffix ++ more)).filterMap text.parse_jsonl_entry,
        (base ++ suffix ++ more).length, openLine newline (suffix ++ more)) := by
  have hsize : ¬ (base ++ suffix ++ more).length < (base ++ suffix).length := by
    rw [List.length_append, List.length_append]
    omega
  unfold LogText.read_incremental_jsonl split_buffer_lines
  simp only [if_neg hsize, List.drop_left]
  rw [openLine_append newline suffix more]
  by_cases hopen : openLine newline (openLine newline suffix ++ more) = []
  · rw [if_pos hopen, hopen, List.filterMap_append, List.filterMap_cons_none parse_nil,
      List.filterMap_nil, List.append_nil]
    simp [Nat.add_assoc]
  · rw [if_neg hopen]
    simp [Nat.add_assoc]

theorem log_of_file {file : SessionFile} (h : disk.file session = some file) :
    (disk.log session).isSome := by
  unfold Disk.log
  rw [h]
  rfl

theorem log_of_mem {file : SessionFile} (h : file ∈ disk.files) : (disk.log file.path).isSome := by
  have hfound : (disk.file file.path).isSome := by
    unfold Disk.file
    rw [List.find?_isSome]
    exact ⟨file, h, by simp⟩
  obtain ⟨found, hfile⟩ := Option.isSome_iff_exists.mp hfound
  exact log_of_file hfile

theorem log_of_belongs (h : disk.session_belongs_to_current_project session = true) :
    (disk.log session).isSome := by
  unfold Disk.session_belongs_to_current_project at h
  cases hfile : disk.file session with
  | none =>
    rw [hfile] at h
    cases h
  | some file => exact log_of_file hfile

theorem log_of_newer {file : SessionFile} {index_session scanned : Option ℕ}
    (h : newer_candidate disk file index_session scanned = some session) :
    (disk.log session).isSome := by
  unfold newer_candidate at h
  obtain ⟨candidate, _, hsome⟩ := List.exists_of_findSome?_eq_some h
  obtain ⟨found, hfound, hnewer⟩ := Option.bind_eq_some_iff.mp hsome
  obtain ⟨path, _, hfile⟩ := Option.bind_eq_some_iff.mp hfound
  split at hnewer
  · cases hnewer
    exact log_of_mem (List.mem_of_find?_eq_some hfile)
  · cases hnewer

theorem log_of_scanned (h : text.scan_latest_session disk = some session) :
    (disk.log session).isSome := by
  unfold LogText.scan_latest_session at h
  obtain ⟨file, hbest, rfl⟩ := Option.map_eq_some_iff.mp h
  have hmem : file ∈ newest_first (disk.files.filter SessionFile.listed) := by
    unfold LogText.best_project_session at hbest
    simp only [Option.or_eq_some_iff] at hbest
    obtain (hfound | ⟨_, hfound⟩) | ⟨_, hfound⟩ := hbest
    · exact List.mem_of_find?_eq_some hfound
    · exact List.mem_of_find?_eq_some hfound
    · exact List.mem_of_head? hfound
  unfold newest_first at hmem
  rw [List.mem_insertionSort] at hmem
  exact log_of_mem (List.mem_filter.mp hmem).1

theorem log_of_any_project (h : scan_latest_session_any_project disk = some session) :
    (disk.log session).isSome := by
  unfold scan_latest_session_any_project at h
  obtain ⟨file, hlast, rfl⟩ := Option.map_eq_some_iff.mp h
  have hmem := List.mem_of_getLast? hlast
  rw [List.mem_insertionSort] at hmem
  exact log_of_mem (List.mem_filter.mp hmem).1

theorem log_of_preferred (h : (text.preferred_session disk reader).1 = some session) :
    (disk.log session).isSome := by
  unfold LogText.preferred_session at h
  cases hpreferred : reader.preferred_session with
  | none =>
    rw [hpreferred] at h
    cases h
  | some preferred =>
    simp only [hpreferred] at h
    split at h
    · cases h
    cases hfile : disk.file preferred with
    | none =>
      rw [hfile] at h
      cases h
    | some file =>
      simp only [hfile] at h
      split at h
      · cases h
        exact log_of_file hfile
      split at h
      · rename_i candidate hcandidate
        cases h
        exact log_of_newer hcandidate
      · cases h
        exact log_of_file hfile

theorem log_of_latest (h : (text.latest_session disk reader).1 = some session) :
    (disk.log session).isSome := by
  unfold LogText.latest_session at h
  split at h
  · rename_i preferred reader' hpreferred
    have hfirst : (text.preferred_session disk reader).1 = some session := by
      rw [hpreferred]
      exact h
    exact log_of_preferred hfirst
  split at h
  · cases h
  split at h
  · rename_i found hfound
    cases h
    unfold LogText.unpreferred_session at hfound
    simp only [Option.or_eq_some_iff] at hfound
    obtain (hindex | ⟨_, hscanned⟩) | ⟨_, hany⟩ := hfound
    · exact log_of_belongs (Option.filter_eq_some_iff.mp hindex).2
    · exact log_of_scanned hscanned
    · split at hany
      · exact log_of_any_project hany
      · cases hany
  · cases h

theorem growsTo_refl (disk : Disk) : disk.GrowsTo disk := by
  intro path log hlog
  exact ⟨[], by rw [List.append_nil, hlog]⟩

/-- The polls since a new session was selected have returned what was appended to its log. -/
structure Followed (text : LogText ε) (watch : Watch ε) (session : ℕ) (base suffix : Bytes) :
    Prop where
  seen : ∃ poll ∈ watch.polls, poll.first_seen = some base
  last : ∃ poll, watch.polls.getLast? = some poll ∧ poll.session = session ∧
    poll.log = base ++ suffix
  log : ∃ more, watch.disk.log session = some (base ++ suffix ++ more)
  offset : watch.state.offset = (base ++ suffix).length
  carry : watch.state.carry = openLine newline suffix
  entries : (watch.since_selected session).flatMap Poll.entries = text.entries suffix

/-- What holds of every watch: the last poll was of the session that is selected, and a session
that has been created since is followed. -/
structure Tracked (text : LogText ε) (created : Disk) (watch : Watch ε) : Prop where
  session : ∀ poll, watch.polls.getLast? = some poll → watch.state.session_path = some poll.session
  followed : ∀ session, created.log session = none → watch.state.session_path = some session →
    ∃ base suffix, Followed text watch session base suffix

theorem Followed.kept (hf : Followed text watch session base suffix)
    (hgrows : watch.disk.GrowsTo later) (reader : LogReader) :
    Followed text { watch with disk := later, reader := reader } session base suffix := by
  obtain ⟨more, hlog⟩ := hf.log
  obtain ⟨rest, hlater⟩ := hgrows session _ hlog
  exact
    { seen := hf.seen
      last := hf.last
      log := ⟨more ++ rest, by rw [← List.append_assoc]; exact hlater⟩
      offset := hf.offset
      carry := hf.carry
      entries := hf.entries }

theorem Tracked.kept (ht : Tracked text created watch) (hgrows : watch.disk.GrowsTo later)
    (reader : LogReader) :
    Tracked text created { watch with disk := later, reader := reader } := by
  refine ⟨ht.session, fun session hcreated hselected => ?_⟩
  obtain ⟨base, suffix, hf⟩ := ht.followed session hcreated hselected
  exact ⟨base, suffix, hf.kept hgrows reader⟩

theorem tracked_watch (text : LogText ε) (disk : Disk) (reader : LogReader) :
    Tracked text disk (text.watch disk reader) := by
  refine ⟨fun poll hlast => ?_, fun session hcreated hselected => ?_⟩
  · cases hlast
  · have hlatest : (text.latest_session disk reader).1 = some session := hselected
    have hlog := log_of_latest hlatest
    rw [hcreated] at hlog
    cases hlog

section

variable {seen : Bytes}

theorem state_read : (text.read_session session seen log later reader watch).state =
    (text.read_new_entries session log (watch.state.select session seen)).2 := rfl

theorem polls_read (text : LogText ε) (session : ℕ) (seen log : Bytes) (later : Disk)
    (reader : LogReader) (watch : Watch ε) : ∃ poll : Poll ε,
    (text.read_session session seen log later reader watch).polls = watch.polls ++ [poll] ∧
      poll.session = session ∧ poll.log = log ∧
      poll.first_seen = (if watch.state.session_path = some session then none else some seen) ∧
      poll.entries = (text.read_new_entries session log (watch.state.select session seen)).1 :=
  ⟨_, rfl, rfl, rfl, rfl, rfl⟩

theorem entries_read :
    ((text.read_session session seen log later reader watch).since_selected session).flatMap
        Poll.entries =
      (watch.since_selected session).flatMap Poll.entries ++
        (text.read_new_entries session log (watch.state.select session seen)).1 := by
  obtain ⟨poll, hpolls, hsession, -, -, hentries⟩ :=
    polls_read text session seen log later reader watch
  unfold Watch.since_selected
  rw [hpolls, ← hentries]
  simp [hsession]

end

/-- The first poll of a session. -/
theorem followed_selected (ht : Tracked text created watch) {seen : Bytes}
    (hlog : later.log session = some (seen ++ more)) (reader : LogReader)
    (hother : watch.state.session_path ≠ some session) :
    Followed text (text.read_session session seen (seen ++ more) later reader watch) session seen
      more := by
  have hread := read_incremental_append text seen [] more
  rw [List.append_nil, List.nil_append] at hread
  have hselect : watch.state.select session seen =
      { session_path := some session, offset := seen.length, carry := [] } := if_neg hother
  have hentries : text.read_new_entries session (seen ++ more) (watch.state.select session seen) =
      (text.entries more,
        { session_path := some session
          offset := (seen ++ more).length
          carry := openLine newline more }) := by
    rw [hselect, LogText.read_new_entries]
    dsimp only
    have hnil : openLine newline ([] : Bytes) = [] := rfl
    rw [hnil] at hread
    rw [hread]
    rfl
  have hsince : watch.since_selected session = [] := by
    unfold Watch.since_selected
    cases hlast : watch.polls.getLast? with
    | none =>
      rw [List.getLast?_eq_none_iff] at hlast
      rw [hlast]
      rfl
    | some poll =>
      obtain ⟨polls, hpolls⟩ := List.getLast?_eq_some_iff.mp hlast
      have hne : poll.session ≠ session := by
        rintro rfl
        exact hother (ht.session poll hlast)
      rw [hpolls]
      simp [hne]
  obtain ⟨poll, hpolls, hsession, hpoll, hseen, -⟩ :=
    polls_read text session seen (seen ++ more) later reader watch
  rw [if_neg hother] at hseen
  exact
    { seen := ⟨poll, by rw [hpolls]; exact List.mem_append_right _ List.mem_cons_self, hseen⟩
      last := ⟨poll, by rw [hpolls, List.getLast?_concat], hsession, hpoll⟩
      log := ⟨[], by rw [List.append_nil]; exact hlog⟩
      offset := by rw [state_read, hentries]
      carry := by rw [state_read, hentries]
      entries := by rw [entries_read, hsince, hentries]; rfl }

theorem followed_again (hf : Followed text watch session base suffix)
    (hlog : later.log session = some (base ++ suffix ++ more)) (reader : LogReader) {seen : Bytes}
    (hselected : watch.state.session_path = some session) :
    Followed text (text.read_session session seen (base ++ suffix ++ more) later reader watch)
      session base (suffix ++ more) := by
  have hread := read_incremental_append text base suffix more
  have hentries : text.read_new_entries session (base ++ suffix ++ more)
      (watch.state.select session seen) =
        ((linesOf newline (openLine newline suffix ++ more)).filterMap text.parse_jsonl_entry,
          { session_path := some session
            offset := (base ++ suffix ++ more).length
            carry := openLine newline (suffix ++ more) }) := by
    rw [ReaderState.select, if_pos hselected, LogText.read_new_entries, hf.offset, hf.carry, hread]
  obtain ⟨first, hfirst, hseen⟩ := hf.seen
  obtain ⟨poll, hpolls, hsession, hpoll, -, -⟩ :=
    polls_read text session seen (base ++ suffix ++ more) later reader watch
  rw [List.append_assoc] at hpoll
  exact
    { seen := ⟨first, by rw [hpolls]; exact List.mem_append_left _ hfirst, hseen⟩
      last := ⟨poll, by rw [hpolls, List.getLast?_concat], hsession, hpoll⟩
      log := ⟨[], by rw [List.append_nil, ← List.append_assoc]; exact hlog⟩
      offset := by rw [state_read, hentries, List.append_assoc]
      carry := by rw [state_read, hentries]
      entries := by rw [entries_read, hf.entries, hentries, entries_append]; rfl }

theorem tracked_read (ht : Tracked text created watch) (hgrows : watch.disk.GrowsTo later)
    {seen : Bytes} (hseen : watch.disk.log session = some seen)
    (hlog : later.log session = some log) (reader : LogReader) :
    Tracked text created (text.read_session session seen log later reader watch) := by
  have hpath : (text.read_session session seen log later reader watch).state.session_path =
      some session := rfl
  refine ⟨fun poll hlast => ?_, fun other hcreated hselected => ?_⟩
  · obtain ⟨last, hpolls, hsession, -⟩ := polls_read text session seen log later reader watch
    rw [hpolls, List.getLast?_concat, Option.some.injEq] at hlast
    rw [hpath, ← hlast, hsession]
  · rw [hpath, Option.some.injEq] at hselected
    subst hselected
    obtain ⟨more, hgrown⟩ := hgrows session seen hseen
    rw [hlog, Option.some.injEq] at hgrown
    rw [hgrown] at hlog ⊢
    by_cases hagain : watch.state.session_path = some session
    · obtain ⟨base, suffix, hf⟩ := ht.followed session hcreated hagain
      obtain ⟨rest, hrest⟩ := hf.log
      rw [hseen, Option.some.injEq] at hrest
      have hwhole : seen ++ more = base ++ suffix ++ (rest ++ more) := by
        rw [hrest, List.append_assoc]
      rw [hwhole] at hlog ⊢
      exact ⟨base, _, followed_again hf hlog reader hagain⟩
    · exact ⟨seen, more, followed_selected ht hlog reader hagain⟩

theorem tracked_step (ht : Tracked text created watch) (h : Moves text watch after) :
    Tracked text created after := by
  cases h with
  | grow later hgrows => exact ht.kept hgrows watch.reader
  | set_preferred_session path => exact ht.kept (growsTo_refl watch.disk) _
  | allow_preferred_session_rotation => exact ht.kept (growsTo_refl watch.disk) _
  | poll later hgrows =>
    unfold LogText.try_get_entries
    split
    rename_i selected reader _
    split
    · exact ht.kept hgrows reader
    split
    · rename_i seen log hseen hlog
      exact tracked_read ht hgrows hseen hlog reader
    · exact ht.kept hgrows reader

theorem tracked_run (h : Relation.ReflTransGen (Moves text) (text.watch disk reader) watch) :
    Tracked text disk watch := by
  induction h with
  | refl => exact tracked_watch text disk reader
  | tail _ hstep ih => exact tracked_step ih hstep

/-- Every entry of a session file that is created after the prompt was sent is returned once,
where nothing of an entry is in it when it is first selected. -/
theorem new_session_entries
    (hrun : Relation.ReflTransGen (Moves text) (text.watch disk reader) watch)
    (hunbegun : ∀ poll ∈ watch.polls, ∀ log, poll.first_seen = some log → text.Unbegun log)
    (hcreated : disk.log session = none) (hselected : watch.state.session_path = some session) :
    ∃ poll, watch.polls.getLast? = some poll ∧ poll.session = session ∧
      (watch.since_selected session).flatMap Poll.entries = text.entries poll.log := by
  obtain ⟨base, suffix, hf⟩ := (tracked_run hrun).followed session hcreated hselected
  obtain ⟨poll, hlast, hsession, hlog⟩ := hf.last
  obtain ⟨first, hfirst, hseen⟩ := hf.seen
  refine ⟨poll, hlast, hsession, ?_⟩
  rw [hf.entries, hlog, entries_unbegun (hunbegun first hfirst base hseen)]

def prompt_line : Bytes :=
  ascii "\x7b\"type\":\"user\",\"message\":\x7b\"content\":\"CCB_REQ_ID: req-1\"\x7d\x7d"

/-- The role and the text of the one line that is written. -/
def prompt_text : LogText (Text × Text) :=
  { event := fun line =>
      if line = prompt_line then some (asciiText "user", asciiText "CCB_REQ_ID: req-1") else none
    session_is_sidechain := fun _ => none }

def no_session : Disk := { files := [], index := none, allow_any_project_scan := false }

def one_session (log : Bytes) : Disk :=
  { files :=
      [{ path := 1, log := log, mtime := 1, belongs := true, listed := true, found := true }]
    index := none
    allow_any_project_scan := false }

def fresh_reader : LogReader := { preferred_session := none, preferred_session_locked := false }

theorem growsTo_no_session (later : Disk) : no_session.GrowsTo later := by
  intro path log hlog
  cases hlog

theorem growsTo_one_session (log more : Bytes) :
    (one_session log).GrowsTo (one_session (log ++ more)) := by
  intro path found hfound
  unfold Disk.log Disk.file one_session at hfound ⊢
  by_cases hpath : 1 = path
  · simp only [List.find?_cons, hpath, decide_true, Option.map_some, Option.some.injEq] at hfound ⊢
    exact ⟨more, by rw [hfound]⟩
  · simp [hpath] at hfound

/-- The session is polled when it is created, and again when the prompt has been written. -/
def polled_early : Watch (Text × Text) :=
  prompt_text.try_get_entries (one_session (prompt_line ++ [newline]))
    (prompt_text.try_get_entries (one_session [])
      { prompt_text.watch no_session fresh_reader with disk := one_session [] })

def polled_late : Watch (Text × Text) :=
  prompt_text.try_get_entries (one_session (prompt_line ++ [newline]))
    { prompt_text.watch no_session fresh_reader with
      disk := one_session (prompt_line ++ [newline]) }

theorem new_session_entries_early :
    ∃ poll, polled_early.polls.getLast? = some poll ∧ poll.session = 1 ∧
      (polled_early.since_selected 1).flatMap Poll.entries = prompt_text.entries poll.log := by
  have hrun : Relation.ReflTransGen (Moves prompt_text)
      (prompt_text.watch no_session fresh_reader) polled_early := by
    refine ((Relation.ReflTransGen.single (Moves.grow _ (one_session [])
      (growsTo_no_session _))).tail (Moves.poll _ (one_session []) ?_)).tail
        (Moves.poll _ (one_session (prompt_line ++ [newline])) ?_)
    · exact growsTo_one_session [] []
    · exact growsTo_one_session [] (prompt_line ++ [newline])
  have hseen : polled_early.polls.map Poll.first_seen = [some [], none] := by decide
  refine new_session_entries hrun (fun poll hpoll log hlog => ?_) rfl (by decide)
  have hmem : some log ∈ polled_early.polls.map Poll.first_seen := by
    rw [← hlog]
    exact List.mem_map_of_mem hpoll
  rw [hseen] at hmem
  simp only [List.mem_cons, Option.some.injEq, List.not_mem_nil, or_false, reduceCtorEq] at hmem
  rw [hmem]
  exact ⟨rfl, rfl⟩

/-- A prompt that is there when its session is first selected is passed over. -/
theorem new_session_entries_lost :
    ¬ ∀ (text : LogText (Text × Text)) (disk : Disk) (reader : LogReader)
        (watch : Watch (Text × Text)) (session : ℕ),
      Relation.ReflTransGen (Moves text) (text.watch disk reader) watch →
        disk.log session = none → watch.state.session_path = some session →
          ∃ poll, watch.polls.getLast? = some poll ∧ poll.session = session ∧
            (watch.since_selected session).flatMap Poll.entries = text.entries poll.log := by
  intro h
  have hrun : Relation.ReflTransGen (Moves prompt_text)
      (prompt_text.watch no_session fresh_reader) polled_late := by
    refine (Relation.ReflTransGen.single (Moves.grow _ (one_session (prompt_line ++ [newline]))
      (growsTo_no_session _))).tail (Moves.poll _ (one_session (prompt_line ++ [newline])) ?_)
    exact growsTo_refl _
  obtain ⟨poll, hlast, -, hentries⟩ := h prompt_text no_session fresh_reader polled_late 1 hrun rfl
    (by decide)
  have hlogs : (polled_late.polls.getLast?).map Poll.log = some (prompt_line ++ [newline]) := by
    decide
  rw [hlast, Option.map_some, Option.some.injEq] at hlogs
  have hreturned : (polled_late.since_selected 1).flatMap Poll.entries ≠
      prompt_text.entries (prompt_line ++ [newline]) := by
    decide
  rw [hlogs] at hentries
  exact hreturned hentries

end ClaudeCodeBridge.Analysis.ClaudeSession
