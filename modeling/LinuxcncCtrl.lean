import LinuxcncCtrl.Proofs.StatusStream
import LinuxcncCtrl.Proofs.PositionHistory
import LinuxcncCtrl.Proofs.ProgramActivation
import LinuxcncCtrl.Proofs.ResumableStop
import LinuxcncCtrl.Proofs.Availability
import LinuxcncCtrl.Proofs.ThreadingStop
import LinuxcncCtrl.Proofs.RemoteComponent
import LinuxcncCtrl.Proofs.RemoteFencing
import LinuxcncCtrl.Proofs.RemoteOrphans
import LinuxcncCtrl.Proofs.ScopeRoll
import LinuxcncCtrl.Proofs.ScopeStream
import LinuxcncCtrl.Proofs.CommandCoordinator
import LinuxcncCtrl.Proofs.NmlCompletion
import LinuxcncCtrl.Proofs.RemoteClient
import LinuxcncCtrl.Proofs.HalValueStream
import LinuxcncCtrl.Proofs.ErrorStream
import LinuxcncCtrl.Proofs.PreviewSession
import LinuxcncCtrl.Proofs.ExecutorPool
import LinuxcncCtrl.Proofs.ToolTable
import LinuxcncCtrl.Proofs.PreparedTool
import LinuxcncCtrl.Proofs.HalExecutor
import LinuxcncCtrl.Proofs.RtmodPath
import LinuxcncCtrl.Proofs.AvailabilityPins
import LinuxcncCtrl.Proofs.MachineOn
import LinuxcncCtrl.Proofs.CommandQueue
import LinuxcncCtrl.Proofs.WorkspaceLeases
import LinuxcncCtrl.Proofs.WorkspaceStore
import LinuxcncCtrl.Proofs.RemoteBudget
import LinuxcncCtrl.Proofs.HalTelemetrySlots
import LinuxcncCtrl.Proofs.HalSamplingBudget
import LinuxcncCtrl.Proofs.PositionPages
import LinuxcncCtrl.Proofs.ScopeFrameQueue
import LinuxcncCtrl.Proofs.RemoteUpdates
import LinuxcncCtrl.Proofs.HalBatchWrite
import LinuxcncCtrl.Proofs.RemoteItemNames
import LinuxcncCtrl.Proofs.RemoteCredit
import LinuxcncCtrl.Proofs.PreviewUrl
import LinuxcncCtrl.Proofs.DaemonConfig
import LinuxcncCtrl.Proofs.RemoteStarvation
import LinuxcncCtrl.Proofs.PowerFeed
import LinuxcncCtrl.Proofs.PowerJog
import LinuxcncCtrl.Proofs.PowerFeedSystem
