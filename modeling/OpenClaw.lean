import OpenClaw.AgentCore.AbortedStart
import OpenClaw.AgentCore.Transcript
import OpenClaw.AuthProfiles.CooldownRuns
import OpenClaw.AuthProfiles.LazyClearing
import OpenClaw.AuthProfiles.OAuthIdentity
import OpenClaw.AuthProfiles.RotatedTokens
import OpenClaw.AutoReply.DebounceRuns
import OpenClaw.AutoReply.MarkdownKeeps
import OpenClaw.Config.ConfigWrite
import OpenClaw.Config.IncludeResolution
import OpenClaw.Config.MergePatchSpec
import OpenClaw.Cron.DueSlots
import OpenClaw.Cron.EventDriven
import OpenClaw.Cron.MaintenanceIdempotent
import OpenClaw.Cron.OutcomeProgress
import OpenClaw.Cron.Rollback
import OpenClaw.Cron.SingleExecution
import OpenClaw.Cron.StaggeredSlots
import OpenClaw.DevicePairing.PairedTokens
import OpenClaw.Exec.AllowlistPattern
import OpenClaw.Exec.ArgPattern
import OpenClaw.Exec.AuthorizationGroups
import OpenClaw.Exec.AuthorizedRender
import OpenClaw.Exec.DispatchTrustPlan
import OpenClaw.Exec.FailClosed
import OpenClaw.Exec.SafeBinSoundness
import OpenClaw.Exec.WindowsArgs
import OpenClaw.Followup.Accounting
import OpenClaw.Followup.Isolation
import OpenClaw.Followup.LifecycleProtocol
import OpenClaw.Followup.Order
import OpenClaw.Harness.CutPoint
import OpenClaw.Harness.LostAppends
import OpenClaw.Harness.PreviousSummary
import OpenClaw.Harness.QueuedMessages
import OpenClaw.Harness.SessionWrites
import OpenClaw.Harness.TruncateExact
import OpenClaw.Heartbeat.WakeRuns
import OpenClaw.ModelFallback.FallbackRuns
import OpenClaw.Process.LaneBound
import OpenClaw.Routing.RouteCache
import OpenClaw.Subagents.DeferredOutcomes
import OpenClaw.Tasks.InspectionAgreement
import OpenClaw.Tasks.TaskOutcomes
import OpenClaw.ToolCallRepair.StripBlocks
import OpenClaw.ToolCallRepair.Transparency
import OpenClaw.Transcript.Paired
import OpenClaw.Transcript.ToolCallAgreement
import OpenClaw.Transcript.ToolCallSanitize
