import Quadcopter.Library.AtomicProgram
import Quadcopter.Library.Interleaving
import Quadcopter.Library.CircularWindow
import Quadcopter.Library.SelfDelimiting
import Quadcopter.Library.BoundedFifo
import Quadcopter.Library.MachineInt
import Quadcopter.Library.Numerals
import Quadcopter.Library.SectionTable
import Quadcopter.Library.Absorbing
import Quadcopter.Library.StepRuns
import Quadcopter.Library.ObservedRuns
import Quadcopter.Library.InterruptedLoop
import Quadcopter.Library.EulerAngles
import Quadcopter.Library.Settling
import Quadcopter.Library.Handles
import Quadcopter.Library.SmallTurns
import Quadcopter.Common.Ringbuf
import Quadcopter.Common.RingbufTraffic
import Quadcopter.Common.RingbufCalls
import Quadcopter.Common.RingbufWrite
import Quadcopter.Common.RingbufRead
import Quadcopter.Common.RingbufDisturbed
import Quadcopter.Common.RingbufFifo
import Quadcopter.Common.RingbufStored
import Quadcopter.Common.RingbufInterleaving
import Quadcopter.Common.RingbufIndexRace
import Quadcopter.Common.RingbufRacedRead
import Quadcopter.Common.Memory
import Quadcopter.Common.RingbufRestart
import Quadcopter.Common.Frame
import Quadcopter.Kmod.Uaccess
import Quadcopter.Kmod.ControlDevice
import Quadcopter.Kmod.ControlRead
import Quadcopter.Kmod.ControlWrite
import Quadcopter.Kmod.ControlFaults
import Quadcopter.Kmod.TwoWriters
import Quadcopter.Kmod.Machine
import Quadcopter.Kmod.Mmu
import Quadcopter.Kmod.MmuTable
import Quadcopter.Kmod.Start
import Quadcopter.Kmod.Isolation
import Quadcopter.Kmod.RunningMappings
import Quadcopter.Kmod.FirmwareDevice
import Quadcopter.Kmod.FirmwareRace
import Quadcopter.Kmod.Lifecycle
import Quadcopter.Kmod.ModuleHistory
import Quadcopter.Kmod.StartM3
import Quadcopter.A9.Mmu
import Quadcopter.A9.MapCalls
import Quadcopter.A9.Uart
import Quadcopter.A9.Boot
import Quadcopter.TraceStream
import Quadcopter.M3.Command
import Quadcopter.M3.CommandFraming
import Quadcopter.M3.CommandRuns
import Quadcopter.M3.CommandStreams
import Quadcopter.M3.CommandOps
import Quadcopter.M3.Telemetry
import Quadcopter.M3.Debug
import Quadcopter.M3.DebugDigits
import Quadcopter.M3.DebugConversion
import Quadcopter.M3.DebugFormat
import Quadcopter.M3.DebugStandard
import Quadcopter.M3.DebugArguments
import Quadcopter.M3.DebugSafety
import Quadcopter.M3.Vector
import Quadcopter.M3.VectorAlgebra
import Quadcopter.M3.Angle
import Quadcopter.M3.Pid
import Quadcopter.M3.Pwm
import Quadcopter.M3.PwmInterrupt
import Quadcopter.M3.PwmPulse
import Quadcopter.M3.Intr
import Quadcopter.M3.I2c
import Quadcopter.M3.Sensors
import Quadcopter.M3.Flight
import Quadcopter.M3.FlightCommands
import Quadcopter.M3.Control
import Quadcopter.M3.FilterTick
import Quadcopter.M3.AttitudeNorms
import Quadcopter.M3.AttitudeRotation
import Quadcopter.M3.FilterGradient
import Quadcopter.M3.MalformedFrames
import Quadcopter.M3.Disarmed
import Quadcopter.M3.Mixer
import Quadcopter.M3.MotorBand
import Quadcopter.M3.FailedRead
import Quadcopter.M3.Calibration
import Quadcopter.M3.AxisSigns
import Quadcopter.M3.PidError
import Quadcopter.M3.FlightTelemetry
import Quadcopter.M3.AttitudeAngles
import Quadcopter.M3.AttitudeSettles
import Quadcopter.M3.GyroIntegration
import Quadcopter.Maple.Board
import Quadcopter.Maple.Command
import Quadcopter.Maple.Atomic
import Quadcopter.Maple.Linearized
import Quadcopter.Host.Copter
import Quadcopter.Host.QuadStatus
import Quadcopter.Host.TalkMisc
import Quadcopter.Host.PyServ
import Quadcopter.Host.PacketServer
import Quadcopter.Host.PacketClient
import Quadcopter.Host.PacketRoundTrip
import Quadcopter.Host.RecvCommand
import Quadcopter.Host.SerialCopter
import Quadcopter.Host.ProcessCommand
import Quadcopter.Host.SetPoint
import Quadcopter.Host.TalkServer
import Quadcopter.Host.PyClient
import Quadcopter.Host.GroundStation
import Quadcopter.Host.FlightLink
