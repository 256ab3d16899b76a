import AutoExpo.Kit.TSys
import AutoExpo.Kit.Rank
import AutoExpo.Kit.Relay
import AutoExpo.Kit.Threads
import AutoExpo.Kit.Decimal
import AutoExpo.Kit.Calendar
import AutoExpo.Kit.Utc
import AutoExpo.Camera.State
import AutoExpo.Camera.Threads
import AutoExpo.Camera.Steps
import AutoExpo.Camera.Pipeline
import AutoExpo.Camera.FrameIntegrity
import AutoExpo.Camera.Shutdown
import AutoExpo.Camera.Counters
import AutoExpo.Main.SigHandler
import AutoExpo.Main.Interrupt
import AutoExpo.HandOver.Dispatch
import AutoExpo.Save.TimeText
import AutoExpo.Save.SaveData
import AutoExpo.Save.Directories
import AutoExpo.Save.OwnTime
import AutoExpo.Save.Paths
import AutoExpo.Kit.Runs
import AutoExpo.Control.CtrlVal
import AutoExpo.Watchdog.TraceError
import AutoExpo.Watchdog.Alarm
import AutoExpo.Watchdog.StaysAway
import AutoExpo.Main.Lock
import AutoExpo.Http.StartExpo
import AutoExpo.Http.StartUp
import AutoExpo.Camera.GoodExposure
import AutoExpo.Camera.Ends
import AutoExpo.Camera.Finish
import AutoExpo.Camera.Cooling
import AutoExpo.Kit.FullRing
import AutoExpo.Camera.Overflow
import AutoExpo.HandOver.LeftBehind
import AutoExpo.HandOver.Archive
import AutoExpo.HandOver.Destinations
import AutoExpo.HandOver.Candidates
import AutoExpo.HandOver.Days
import AutoExpo.HandOver.CommandLine
import AutoExpo.Mount.MountCheck
import AutoExpo.Watchdog.CutOff
import AutoExpo.Control.CoolerTemp
import AutoExpo.Control.Configure
import AutoExpo.Gps.Snapshot
import AutoExpo.Kit.Reader
import AutoExpo.Http.Parser
import AutoExpo.Http.Pieces
import AutoExpo.Http.Follows
import AutoExpo.Http.Router
import AutoExpo.Http.Routes
import AutoExpo.Http.Server
import AutoExpo.Http.Messages
import AutoExpo.Http.Watched
import AutoExpo.Http.AsyncSocket
import AutoExpo.Http.Clients
import AutoExpo.Http.Cork
import AutoExpo.Kit.SelfDelimiting
import AutoExpo.Http.Responses
import AutoExpo.Kit.Linked
import AutoExpo.Sockets.UsLoop
import AutoExpo.Sockets.Lists
import AutoExpo.Sockets.Sweep
import AutoExpo.Sockets.EventLoop
import AutoExpo.Sockets.Idle
import AutoExpo.Sockets.SlowClient
