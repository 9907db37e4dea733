import UavTelemetry.Rtx.Clocks
import UavTelemetry.Rtx.Histories
import UavTelemetry.Rtx.RoundRobin
import UavTelemetry.Rtx.Timeouts
import UavTelemetry.Rtx.TimerQueue
import UavTelemetry.Broker.Owed
import UavTelemetry.Broker.Preemption
import UavTelemetry.Broker.Detaching
import UavTelemetry.Broker.Lifetime
import UavTelemetry.Broker.Locking
import UavTelemetry.Lists.Cursor
import UavTelemetry.Lists.Destructor
import UavTelemetry.Lists.Errors
import UavTelemetry.Lists.Sequence
import UavTelemetry.Lists.Simulation
import UavTelemetry.Receiver.Bounds
import UavTelemetry.Receiver.Checksum
import UavTelemetry.Receiver.Frames
import UavTelemetry.Receiver.Sharing
import UavTelemetry.Receiver.Uart
import UavTelemetry.System.Acknowledgement
import UavTelemetry.System.Alarm
import UavTelemetry.System.AlarmCode
import UavTelemetry.System.KeyCodes
import UavTelemetry.System.KeyEvents
import UavTelemetry.System.KeyFrames
import UavTelemetry.System.KeyLines
import UavTelemetry.System.Outcomes
import UavTelemetry.System.Snapshot
import UavTelemetry.System.Standstill
import UavTelemetry.System.Status
import UavTelemetry.System.StatusData
import UavTelemetry.Tasks.BeepPattern
import UavTelemetry.Tasks.LedFlasher
import UavTelemetry.Tasks.Wakeup
