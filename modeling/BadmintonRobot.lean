import BadmintonRobot.Can.Interleaving
import BadmintonRobot.Can.Dispatch
import BadmintonRobot.Image.Saved
import BadmintonRobot.Uart.Stabilisation
import BadmintonRobot.Semantics.Execution
import BadmintonRobot.Image.Attended
import BadmintonRobot.Image.Repeat
import BadmintonRobot.Can.Filter
import BadmintonRobot.Can.Handlers
import BadmintonRobot.Can.Receive
import BadmintonRobot.Semantics.RelyGuarantee
import BadmintonRobot.Mission.Board
import BadmintonRobot.Mission.Route
import BadmintonRobot.Mission.Arm
import BadmintonRobot.Mission.Protocol
import BadmintonRobot.Mission.Contract
import BadmintonRobot.Mission.Effects
import BadmintonRobot.Mission.Driving
import BadmintonRobot.Mission.Acting
import BadmintonRobot.Mission.System
import BadmintonRobot.Mission.Sequencing
import BadmintonRobot.Mission.Arrival
import BadmintonRobot.Can.Installation
import BadmintonRobot.Control.Pid
import BadmintonRobot.Control.Sharing
import BadmintonRobot.Numeric.Descent
import BadmintonRobot.Path.PointPath
import BadmintonRobot.Path.Search
import BadmintonRobot.Chassis.Realisation
import BadmintonRobot.Catching.Samples
import BadmintonRobot.Catching.Intersection
import BadmintonRobot.Motor.Line
import BadmintonRobot.Motor.Stages
import BadmintonRobot.Log.Pipeline
import BadmintonRobot.Log.Fidelity
import BadmintonRobot.Joystick.Handle
import BadmintonRobot.Joystick.Polling
import BadmintonRobot.Joystick.Countdown
import BadmintonRobot.Joystick.Alert
import BadmintonRobot.Joystick.Phase
import BadmintonRobot.Joystick.LostStop
import BadmintonRobot.Chassis.Realspe
import BadmintonRobot.Fan.Duty
import BadmintonRobot.Fan.Safety
import BadmintonRobot.Semantics.Inputs
import BadmintonRobot.Semantics.Sequential
import BadmintonRobot.Joystick.Limiter
import BadmintonRobot.Path.SetKeep
import BadmintonRobot.Handover.Interlock
import BadmintonRobot.Joystick.Ownership
import BadmintonRobot.Joystick.FailOver
import BadmintonRobot.Emergency.Robot
import BadmintonRobot.Joystick.Stillness
import BadmintonRobot.Emergency.Stop
import BadmintonRobot.Image.Overflow
import BadmintonRobot.Calibration.Store
import BadmintonRobot.Calibration.Layout
import BadmintonRobot.Calibration.RoundTrip
import BadmintonRobot.Camera.Recode
import BadmintonRobot.Numeric.LeakySum
import BadmintonRobot.Path.PosPid
import BadmintonRobot.Control.Separation
import BadmintonRobot.General.Lines
import BadmintonRobot.Numeric.Newton
import BadmintonRobot.General.Quartic
import BadmintonRobot.Numeric.Trapezoid
import BadmintonRobot.Path.GoLine
import BadmintonRobot.Path.Direction
import BadmintonRobot.Can.Relays
import BadmintonRobot.Calibration.EncoderSet
import BadmintonRobot.Sonic.PoleSonic
import BadmintonRobot.Can.Transmit
import BadmintonRobot.Control.Generic
import BadmintonRobot.Numeric.Decimal
import BadmintonRobot.Screen.Menu
import BadmintonRobot.General.Mystring
import BadmintonRobot.Screen.Lcd
import BadmintonRobot.Screen.Editors
import BadmintonRobot.Screen.InputList
import BadmintonRobot.Semantics.Gate
import BadmintonRobot.Mission.Fire
import BadmintonRobot.Calibration.Resave
import BadmintonRobot.Image.Timestamp
import BadmintonRobot.Scheduling.Hook
import BadmintonRobot.Image.Ledger
import BadmintonRobot.Screen.TextBuffer
import BadmintonRobot.Kernel.Heap
import BadmintonRobot.Semantics.Allocation
import BadmintonRobot.Kernel.HeapCells
import BadmintonRobot.Kernel.HeapChanges
import BadmintonRobot.Kernel.HeapCalls
import BadmintonRobot.Kernel.HeapReturns
import BadmintonRobot.Kernel.HeapRuns
import BadmintonRobot.Kernel.HeapUse
import BadmintonRobot.Kernel.Ipc
import BadmintonRobot.Semantics.Delivery
import BadmintonRobot.Semantics.Linked
import BadmintonRobot.Semantics.Sleepers
import BadmintonRobot.Kernel.MessageQueue
import BadmintonRobot.Kernel.MessageSlots
import BadmintonRobot.Kernel.MessageSteps
import BadmintonRobot.Kernel.MessageRuns
