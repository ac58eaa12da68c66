import Tessivum.Agent.WakeTheorems
import Tessivum.Goal.LedgerRunTheorems
import Tessivum.Agent.TurnTheorems
import Tessivum.Agent.PairingTheorems
import Tessivum.Approval.SettledTheorems
import Tessivum.Approval.FailClosedTheorems
import Tessivum.Projection.FoldTheorems
import Tessivum.RemoteAccess.PairingTheorems
import Tessivum.Api.StreamTheorems
import Tessivum.Schedule.DeliveryTheorems
import Tessivum.Bridge.WasmPolicyTheorems
import Tessivum.Plugins.ProfileLockTheorems
import Tessivum.Storage.AnswerTheorems
import Tessivum.Attachments.StoreTheorems
import Tessivum.Sandbox.CallsTheorems
import Tessivum.Tools.RuntimeTheorems
import Tessivum.Goal.ArmingTheorems
import Tessivum.Subagent.HistoryTheorems
import Tessivum.Projection.SnapshotTheorems
import Tessivum.Host.ForkTheorems
import Tessivum.Session.RepairTheorems
import Tessivum.Persistence.CrashTheorems
import Tessivum.Persistence.RawArtifactTheorems
import Tessivum.Code.ExecuteTheorems
import Tessivum.Compaction.ProtectionTheorems
import Tessivum.Agent.RetryTheorems
import Tessivum.Filesystem.EditTheorems
import Tessivum.Settings.ConcealTheorems
import Tessivum.Settings.UpdateTheorems
import Tessivum.Schedule.OffsetTheorems
import Tessivum.Persistence.ListingTheorems
import Tessivum.Schedule.RecurrenceTheorems
import Tessivum.Attachments.ImageHeaderTheorems
import Tessivum.Attachments.InlineImageTheorems
import Tessivum.Llm.SseTheorems
import Tessivum.Filesystem.ReadTheorems
import Tessivum.Filesystem.PublishTheorems
import Tessivum.Plugins.PnpmArgsTheorems
import Tessivum.Bridge.WebBodyTheorems
import Tessivum.Settings.AgreementTheorems
