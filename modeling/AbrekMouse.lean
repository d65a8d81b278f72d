import AbrekMouse.RoundTrip
import AbrekMouse.Truncation
import AbrekMouse.MigrateOnce
import AbrekMouse.StatusProfile
import AbrekMouse.Commands
import AbrekMouse.ExportImport
import AbrekMouse.Retries
import AbrekMouse.Registry
import AbrekMouse.Shutdown
import AbrekMouse.Backoff
import AbrekMouse.IpcAccess
import AbrekMouse.IpcFraming
import AbrekMouse.Telemetry
import AbrekMouse.EventOrder
import AbrekMouse.RawPassthrough
import AbrekMouse.RawTelemetry
import AbrekMouse.MotionSum
import AbrekMouse.Batching
import AbrekMouse.FrameOutput
import AbrekMouse.DroppedEvents
import AbrekMouse.FlushMotion
import AbrekMouse.PollingRate
import AbrekMouse.LatStats
import AbrekMouse.MotionMath
import AbrekMouse.LutSort
import AbrekMouse.SingleInstance
import AbrekMouse.AtomicSave
import AbrekMouse.Correlation
import AbrekMouse.LateReplies
import AbrekMouse.Enumeration
import AbrekMouse.DpiList
import AbrekMouse.DeviceInfo
import AbrekMouse.PairingInfo
import AbrekMouse.OnboardProfiles
import AbrekMouse.RefusedWrites
import AbrekMouse.HardwareWrites
import AbrekMouse.ConfigPath
import AbrekMouse.StatusText
import AbrekMouse.Validate
import AbrekMouse.TextSearch
import AbrekMouse.SocketServer
import AbrekMouse.IpcClient
import AbrekMouse.StatusScan
import AbrekMouse.StatusReader
import AbrekMouse.FocusRelay
import AbrekMouse.HardwarePanel
import AbrekMouse.HardwareApplies
import AbrekMouse.DurablePush
import AbrekMouse.OnboardMemory
import AbrekMouse.GuiSave
