import OtaBoot.Foundation.Memory
import OtaBoot.Foundation.Faulty
import OtaBoot.Foundation.DualCopy
import OtaBoot.Foundation.LittleEndian
import OtaBoot.Foundation.Transition
import OtaBoot.Foundation.Raising
import OtaBoot.Foundation.Plain
import OtaBoot.Foundation.Ring
import OtaBoot.Foundation.Interrupts
import OtaBoot.Foundation.ShiftRegister
import OtaBoot.Foundation.Struct
import OtaBoot.Foundation.Bus
import OtaBoot.Foundation.Fate
import OtaBoot.Foundation.InOrder
import OtaBoot.Foundation.Credits
import OtaBoot.Foundation.Driven
import OtaBoot.Foundation.Transmitter
import OtaBoot.Firmware.Crc
import OtaBoot.Firmware.Flash
import OtaBoot.Firmware.FlashRegisters
import OtaBoot.Firmware.Metadata
import OtaBoot.Firmware.MetadataMgr
import OtaBoot.Firmware.Protocol
import OtaBoot.Firmware.Uart
import OtaBoot.Firmware.UartTx
import OtaBoot.Firmware.ProtocolMgr
import OtaBoot.Firmware.BootMain
import OtaBoot.Firmware.AppMain
import OtaBoot.Firmware.Startup
import OtaBoot.Ledger
import OtaBoot.Action
import OtaBoot.Decision
import OtaBoot.System
import OtaBoot.Lifecycle
import OtaBoot.Properties.Atomicity
import OtaBoot.Delivery
import OtaBoot.Loading
import OtaBoot.Undisturbed
import OtaBoot.Histories
import OtaBoot.Tracking
import OtaBoot.Properties.Truth
import OtaBoot.Properties.Jumps
import OtaBoot.Properties.Attempts
import OtaBoot.Properties.States
import OtaBoot.Properties.Fallback
import OtaBoot.Properties.Reach
import OtaBoot.Properties.Rollback
import OtaBoot.Host.Frame
import OtaBoot.Host.Transport
import OtaBoot.Host.Link
import OtaBoot.Host.Update
import OtaBoot.Host.FlashTool
import OtaBoot.Host.Deadlines
import OtaBoot.Host.Faults
import OtaBoot.Host.Parser
import OtaBoot.Replies
import OtaBoot.Properties.EndToEnd
import OtaBoot.Properties.Framing
import OtaBoot.Host.Network
import OtaBoot.Properties.Retransmission
import OtaBoot.Properties.Descriptions
import OtaBoot.DataFrames
import OtaBoot.Properties.Blocks
import OtaBoot.Sessions
import OtaBoot.Properties.Silence
import OtaBoot.Reactions
import OtaBoot.Announcement
import OtaBoot.Host.Exchanges
import OtaBoot.Properties.Faults
import OtaBoot.Properties.Agreement
import OtaBoot.Properties.Reception
import OtaBoot.Properties.Checksum
import OtaBoot.Host.WriteMetadata
import OtaBoot.Properties.Bootstrap
import OtaBoot.Properties.Interlock
import OtaBoot.Properties.Rejections
import OtaBoot.Properties.Trials
import OtaBoot.Properties.LateReplies
import OtaBoot.Properties.Acknowledgements
import OtaBoot.Properties.Assembly
import OtaBoot.Properties.Watchdog
import OtaBoot.Properties.Transmission
import OtaBoot.Device
import OtaBoot.Passes
import OtaBoot.Properties.Handover
import OtaBoot.Properties.Confirmation
import OtaBoot.Properties.Evidence
import OtaBoot.Properties.HeldLine
import OtaBoot.Properties.Listening
import OtaBoot.Properties.Workload
import OtaBoot.Properties.NewVersion
import OtaBoot.Host.Attached
import OtaBoot.Properties.OnDevice
import OtaBoot.Properties.UpdateCycle
import OtaBoot.Properties.Startup
import OtaBoot.Gateway.Esp32Ota
import OtaBoot.Properties.Gateway
import OtaBoot.Properties.TestDouble
