import ClaudeCodeBridge.Analysis.LeaseVersions
import ClaudeCodeBridge.Analysis.SummaryRace
import ClaudeCodeBridge.Analysis.CompletionDecisions
import ClaudeCodeBridge.Analysis.RelayIsolation
import ClaudeCodeBridge.Analysis.FollowupOrder
import ClaudeCodeBridge.Analysis.RetryAgreement
import ClaudeCodeBridge.Analysis.SessionReservations
import ClaudeCodeBridge.Analysis.PlanUpdates
import ClaudeCodeBridge.Analysis.DeviceRevocation
import ClaudeCodeBridge.Analysis.NotificationCursors
import ClaudeCodeBridge.Analysis.CompletionEvents
import ClaudeCodeBridge.Analysis.SealedStream
import ClaudeCodeBridge.Analysis.RefusedStreams
import ClaudeCodeBridge.Analysis.RoundImports
import ClaudeCodeBridge.Analysis.WorkgroupFrontier
import ClaudeCodeBridge.Analysis.PairingCodes
import ClaudeCodeBridge.Analysis.TaskSetMembership
import ClaudeCodeBridge.Analysis.TaskSetInterleavings
import ClaudeCodeBridge.Analysis.SupersededDaemons
import ClaudeCodeBridge.Analysis.LastingStops
import ClaudeCodeBridge.Analysis.BoundedDrains
import ClaudeCodeBridge.Analysis.PatchPlans
import ClaudeCodeBridge.Analysis.TurnTransparency
import ClaudeCodeBridge.Analysis.EventCursors
import ClaudeCodeBridge.Analysis.LayoutRendering
import ClaudeCodeBridge.Analysis.DraftClears
import ClaudeCodeBridge.Analysis.HeartbeatNotices
import ClaudeCodeBridge.Analysis.JournalRoundTrip
import ClaudeCodeBridge.Analysis.DeniedRequests
import ClaudeCodeBridge.Analysis.RecentJobViews
import ClaudeCodeBridge.Analysis.EdgeCacheCoherence
import ClaudeCodeBridge.Analysis.ReplayedItems
import ClaudeCodeBridge.Analysis.ProviderLockExclusion
import ClaudeCodeBridge.Analysis.CallbackEdges
import ClaudeCodeBridge.Analysis.RelayDelivery
import ClaudeCodeBridge.Analysis.ScopeOverlap
import ClaudeCodeBridge.Analysis.RateLimits
