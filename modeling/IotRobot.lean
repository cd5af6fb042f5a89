import IotRobot.Lib.Dbl
import IotRobot.Lib.Rounding
import IotRobot.Lib.Doubles
import IotRobot.Lib.Runs
import IotRobot.Lib.Loops
import IotRobot.Lib.Text
import IotRobot.Lib.IpLiteral
import IotRobot.Lib.Framing
import IotRobot.Lib.Lines
import IotRobot.Lib.Decimal
import IotRobot.Lib.Dict
import IotRobot.Lib.Traces
import IotRobot.Lib.Programs
import IotRobot.Lib.Deque
import IotRobot.Lib.Streaks
import IotRobot.Lib.Motion
import IotRobot.Can.Frame
import IotRobot.Can.Cubemars
import IotRobot.Can.Deadlines
import IotRobot.Safe.Joint
import IotRobot.Safe.System
import IotRobot.Safe.Callbacks
import IotRobot.Safe.Heard
import IotRobot.Safe.Effects
import IotRobot.Safe.RealTime
import IotRobot.Safe.StopInvariant
import IotRobot.Safe.Slew
import IotRobot.Safe.Watchdog
import IotRobot.Safe.Activation
import IotRobot.Safe.Zeroing
import IotRobot.Safe.Stall
import IotRobot.Safe.Twins
import IotRobot.Safe.Mirror
import IotRobot.Safe.Release
import IotRobot.Safe.SameStop
import IotRobot.Can.StatusCodec
import IotRobot.Can.Commands
import IotRobot.Web.Logic
import IotRobot.Web.Bridge
import IotRobot.Web.Telemetry
import IotRobot.Web.Runs
import IotRobot.Web.Effects
import IotRobot.Web.Authority
import IotRobot.Web.Guard
import IotRobot.Web.Stricter
import IotRobot.Web.Numbers
import IotRobot.Web.Silence
import IotRobot.Web.Estop
import IotRobot.Web.Echo
import IotRobot.Web.Driver
import IotRobot.Web.Server
import IotRobot.Web.Modes
import IotRobot.Web.Switching
import IotRobot.Web.Page
import IotRobot.Web.StopPress
import IotRobot.Stm32.Protocol
import IotRobot.Stm32.Comments
import IotRobot.Stm32.Measurements
import IotRobot.Stm32.Bridge
import IotRobot.Stm32.Fault
import IotRobot.Stm32.Framing
import IotRobot.Tool.Moves
import IotRobot.Tool.Watch
import IotRobot.Tool.Runaway
import IotRobot.Tool.Yaml
import IotRobot.Tool.MotorConfig
import IotRobot.Tool.Accepted
import IotRobot.Tool.CanIdLines
import IotRobot.Tool.Layout
import IotRobot.Tool.BlockYaml
import IotRobot.Tool.WriteCanIds
import IotRobot.Tool.Renumbered
import IotRobot.Tool.Stop
import IotRobot.Tool.Identify
import IotRobot.Tool.Question
import IotRobot.Lib.UnitVectors
import IotRobot.Perception.Reid
import IotRobot.Perception.PersonDetector
import IotRobot.Perception.Localisation
import IotRobot.Perception.Enrollment
import IotRobot.Perception.Drift
import IotRobot.Imu.Lsm9ds1
import IotRobot.Imu.Bias
import IotRobot.Web.Hosts
import IotRobot.Web.Snapshot
import IotRobot.Web.JsonSafe
import IotRobot.Emulator.Motor
import IotRobot.Emulator.FakeCubeMars
import IotRobot.Emulator.Rest
import IotRobot.Emulator.Sent
import IotRobot.Emulator.Travel
import IotRobot.Emulator.Stopped
import IotRobot.Emulator.Faults
import IotRobot.Emulator.Zeroed
import IotRobot.Behavior.TargetFollower
import IotRobot.Bringup.Description
import IotRobot.Bringup.Started
import IotRobot.Web.FrameHub
import IotRobot.Web.Viewers
import IotRobot.Web.NewImages
import IotRobot.Imu.Driver
import IotRobot.Imu.Configured
import IotRobot.Imu.Readings
import IotRobot.Imu.Measured
import IotRobot.Web.Console
import IotRobot.Web.Owner
import IotRobot.Web.LetGo
import IotRobot.Stm32.FakeBoard
