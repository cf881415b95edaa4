import RtuA118.Lib.Store
import RtuA118.Common
import RtuA118.Csv
import RtuA118.Map.State
import RtuA118.Map.Load
import RtuA118.Map.Access
import RtuA118.Map.Modbus
import RtuA118.Map.Tables
import RtuA118.Map.Stores
import RtuA118.Map.BatchWrite
import RtuA118.Lib.Run
import RtuA118.Lib.Program
import RtuA118.Lib.View
import RtuA118.Lib.Calendar
import RtuA118.Lib.Fold
import RtuA118.Map.Run
import RtuA118.Map.Scan
import RtuA118.Map.RemapBoot
import RtuA118.Map.Snapshot
import RtuA118.Map.Frame
import RtuA118.Modbus.Crc
import RtuA118.Modbus.Receive
import RtuA118.Modbus.Reply
import RtuA118.Modbus.RequestBytes
import RtuA118.Modbus.Decodable
import RtuA118.Meter.Packet
import RtuA118.Meter.Analysis
import RtuA118.Meter.Calls
import RtuA118.Meter.Kind
import RtuA118.Meter.Param
import RtuA118.Meter.Delivery
import RtuA118.Meter.Sweep
import RtuA118.Serial.Thread
import RtuA118.Meter.FrameBytes
import RtuA118.Map.Protection
import RtuA118.Map.BootEvents
import RtuA118.Map.LoaderBounds
import RtuA118.Map.Life
import RtuA118.Map.Integrity
import RtuA118.Map.Clock
import RtuA118.Gpio.Outputs
import RtuA118.Gpio.Agreement
import RtuA118.Driver.GpioIrq
import RtuA118.Serial.Transaction
import RtuA118.Serial.Actuator
import RtuA118.Serial.Electrical
import RtuA118.Serial.Loop
import RtuA118.Serial.Frame
import RtuA118.Serial.Contexts
import RtuA118.Serial.Requests
import RtuA118.Serial.WellNumbers
import RtuA118.Serial.Divisions
import RtuA118.Modbus.Reads
import RtuA118.Zigbee.Reception
import RtuA118.Zigbee.Codec
import RtuA118.Zigbee.Resync
import RtuA118.Map.BatchRead
import RtuA118.Modbus.Guards
import RtuA118.Network.UdpServer
import RtuA118.Map.Restart
import RtuA118.Data.History
import RtuA118.Data.Stamp
import RtuA118.Data.Retrieval
import RtuA118.Meter.OwnWell
import RtuA118.Serial.OwnWell
import RtuA118.Meter.Electrical
import RtuA118.Meter.Cadence
import RtuA118.Data.RowCount
import RtuA118.Zigbee.Setup
import RtuA118.Network.TcpClient
import RtuA118.Network.TcpServer
import RtuA118.Map.RemapScope
import RtuA118.Lib.Interpolate
import RtuA118.Serial.Resampling
import RtuA118.Serial.ResampledRun
import RtuA118.Serial.Wakeups
import RtuA118.Map.StoreEffect
import RtuA118.Lib.Memory
import RtuA118.Map.Block
import RtuA118.Map.FailedStore
import RtuA118.Map.WriteOutlook
import RtuA118.Modbus.WriteReply
import RtuA118.Lib.Endian
import RtuA118.Words
import RtuA118.Serial.ActuatorParam
import RtuA118.Serial.PortRestart
import RtuA118.Zigbee.AtOrder
import RtuA118.Zigbee.ParaFrames
import RtuA118.Meter.ElectricalSync
import RtuA118.Meter.Diagrams
import RtuA118.Map.RangeRows
import RtuA118.Lib.Machine
import RtuA118.Map.LoaderSteps
import RtuA118.Map.Defaults
import RtuA118.Map.FactoryReset
import RtuA118.Zigbee.ConfigCache
import RtuA118.Lib.Numeral
import RtuA118.Network.Addresses
import RtuA118.Data.Compaction
import RtuA118.Map.SwappedRead
import RtuA118.Lib.Wrapping
import RtuA118.Serial.Deadline
import RtuA118.Map.ClockRead
import RtuA118.Lib.Crc
import RtuA118.Log
import RtuA118.Tools.Crc
import RtuA118.Lib.Undo
import RtuA118.Tools.Xxtea
import RtuA118.Serial.SamplingLoop
import RtuA118.Lib.ErrorDetection
import RtuA118.Modbus.LineErrors
import RtuA118.Modbus.Conversation
import RtuA118.Lib.Notify
import RtuA118.Network.Reconfiguration
import RtuA118.Config.Json
import RtuA118.Config.JsonText
import RtuA118.Config.JsonPrint
import RtuA118.Lib.Framing
import RtuA118.Network.Sessions
import RtuA118.Gpio.ResetButton
import RtuA118.Lib.Ring
import RtuA118.LogTail
import RtuA118.Network.HeartBeats
import RtuA118.Lib.Mapped
import RtuA118.Map.FlashAccess
import RtuA118.Map.BootFlash
import RtuA118.Map.PowerCut
import RtuA118.Map.Survival
