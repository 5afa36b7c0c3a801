import MazdaPort.Lib.Run
import MazdaPort.Safety.Machine
import MazdaPort.Safety.Authority
import MazdaPort.Safety.Envelope
import MazdaPort.Steering.Limiter
import MazdaPort.Steering.Stream
import MazdaPort.Lib.Framing
import MazdaPort.Usb.Wire
import MazdaPort.Usb.Resync
import MazdaPort.Gps.Nmea
import MazdaPort.Gps.Reader
import MazdaPort.Lib.Latest
import MazdaPort.Gps.Freshness
import MazdaPort.EngageFirst.Source
import MazdaPort.EngageFirst.Replacement
import MazdaPort.Safety.Forward
import MazdaPort.Safety.Residue
import MazdaPort.Board.Heartbeat
import MazdaPort.Lib.Memory
import MazdaPort.Usb.CommsWrite
import MazdaPort.Lib.Ring
import MazdaPort.Usb.CommsRead
import MazdaPort.Board.CanPath
import MazdaPort.Host.Buttons
import MazdaPort.Lib.Bits
import MazdaPort.Can.Signal
import MazdaPort.EngageFirst.Receive
import MazdaPort.Longitudinal.CrzInfo
import MazdaPort.EngageFirst.RadarReturn
import MazdaPort.Can.Parser
import MazdaPort.Can.Packer
import MazdaPort.Longitudinal.Patch
import MazdaPort.Longitudinal.Engaged
import MazdaPort.Longitudinal.CrzCtrl
import MazdaPort.Longitudinal.CarController
import MazdaPort.Longitudinal.HoldRelease
import MazdaPort.Longitudinal.StopBits
import MazdaPort.Longitudinal.ResumePhase
import MazdaPort.Host.Govern
import MazdaPort.Lib.Grouping
import MazdaPort.SpeedLimits.Grid
import MazdaPort.Lib.Capture
import MazdaPort.Serial.CommsTick
import MazdaPort.Serial.Resync
import MazdaPort.Serial.ControlHandler
import MazdaPort.Serial.Link
import MazdaPort.Serial.Lockstep
import MazdaPort.Board.FlowControl
import MazdaPort.Board.VehicleState
import MazdaPort.Gps.Loop
import MazdaPort.Host.GovernOrder
import MazdaPort.Lib.Pick
import MazdaPort.Safety.MadsBrake
import MazdaPort.SpeedLimits.Block
import MazdaPort.Usb.Watchdogs
import MazdaPort.Usb.CarryOver
import MazdaPort.Usb.FrozenCore
import MazdaPort.SpeedLimits.Posting
import MazdaPort.Lib.Ledger
import MazdaPort.Board.Gateway
import MazdaPort.Board.HostFeed
import MazdaPort.Usb.HostPack
import MazdaPort.Usb.HostWrite
import MazdaPort.Usb.HostUnpack
import MazdaPort.Diag.IsoTp
import MazdaPort.Diag.Exchange
import MazdaPort.Diag.Reassembly
import MazdaPort.Diag.Query
import MazdaPort.Lib.Montgomery
import MazdaPort.Lib.Words
import MazdaPort.Lib.Blocks
import MazdaPort.Lib.PowerMod
import MazdaPort.Lib.NorFlash
import MazdaPort.Boot.Rsa
import MazdaPort.Boot.Sha
import MazdaPort.Boot.Bootstub
import MazdaPort.Boot.Flasher
import MazdaPort.Steering.LkasFrame
import MazdaPort.Lib.Stretch
import MazdaPort.Selfdrived.StateMachine
import MazdaPort.Selfdrived.Mismatch
import MazdaPort.LaneChange.DesireHelper
import MazdaPort.LaneChange.DesirePulse
import MazdaPort.SpeedLimits.Target
