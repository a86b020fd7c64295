import DualCan.Isotp.Delivery
import DualCan.Uds.AttemptLimit
import DualCan.Uds.Obligation
import DualCan.Uds.Authority
import DualCan.Uds.SessionTimeout
import DualCan.Uds.DelayWindow
import DualCan.Uds.Answered
import DualCan.Uds.ReadDid
import DualCan.Uds.Reject
import DualCan.Uds.Suppress
import DualCan.Emu.Lockstep
import DualCan.Param.Crash
import DualCan.Param.Ecu
import DualCan.Can.Recovery
import DualCan.App.ServiceIsotp
import DualCan.Isotp.Receiver
import DualCan.Isotp.Reassembly
import DualCan.Isotp.Uplink
import DualCan.Isotp.Tester
import DualCan.Isotp.Separation
import DualCan.Isotp.FlowControl
import DualCan.Isotp.FcWait
import DualCan.Isotp.Quiesce
import DualCan.Isotp.Fresh
import DualCan.Can.RxPath
import DualCan.Tools.Sessions
import DualCan.Tools.Resolve
import DualCan.Tools.CanHealth
import DualCan.Tools.SharedBus
import DualCan.Emu.Survive
import DualCan.Uds.Client
import DualCan.Param.Checksum
import DualCan.Param.Updates
import DualCan.Param.Load
import DualCan.Can.Counters
import DualCan.Emu.Keys
import DualCan.Dbc.Laws
import DualCan.Dbc.Agree
import DualCan.Uds.Response
import DualCan.Uds.Hooks
import DualCan.App.Watchdog
import DualCan.Uds.FaultTest
import DualCan.Uds.Transact
import DualCan.Tools.JobStats
import DualCan.Tools.Trace
import DualCan.Can.LossAccounting
import DualCan.App.PeerTester
import DualCan.App.StressMaster
import DualCan.Can.LoadSlots
import DualCan.App.FrameLoss
import DualCan.App.WindowWatchdog
import DualCan.App.Conversation
import DualCan.Emu.Unlock
import DualCan.Dbc.Scaled
import DualCan.Tools.IsotpTrace
