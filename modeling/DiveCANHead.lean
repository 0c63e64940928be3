import DiveCANHead.Lib.Rounding
import DiveCANHead.Lib.Runs
import DiveCANHead.Lib.Alarm
import DiveCANHead.Lib.BoundedQueue
import DiveCANHead.Lib.Bytes
import DiveCANHead.Lib.Segment
import DiveCANHead.Control.FireTiming
import DiveCANHead.Control.PidMath
import DiveCANHead.Control.Injection
import DiveCANHead.Solenoid.Driver
import DiveCANHead.Solenoid.Deadman
import DiveCANHead.IsoTp.Message
import DiveCANHead.IsoTp.TxQueue
import DiveCANHead.IsoTp.Send
import DiveCANHead.IsoTp.Enqueue
import DiveCANHead.IsoTp.Completion
import DiveCANHead.IsoTp.Rx
import DiveCANHead.IsoTp.Client
import DiveCANHead.IsoTp.ToClient
import DiveCANHead.IsoTp.RoundTrip
import DiveCANHead.IsoTp.Soundness
import DiveCANHead.FlashLog.Fcb
import DiveCANHead.FlashLog.Index
import DiveCANHead.FlashLog.Reader
import DiveCANHead.FlashLog.Window
import DiveCANHead.FlashLog.DiveRange
import DiveCANHead.FlashLog.BootRange
import DiveCANHead.LogDownload.Selector
import DiveCANHead.LogDownload.Machine
import DiveCANHead.LogDownload.Selection
import DiveCANHead.LogDownload.Outstanding
import DiveCANHead.Cells.Consensus
import DiveCANHead.Maintenance.Arena
import DiveCANHead.LogDownload.Transfer
import DiveCANHead.Uds.Head
import DiveCANHead.Uds.Ota
import DiveCANHead.Uds.OtaRuns
import DiveCANHead.Uds.Settings
import DiveCANHead.Uds.StateDid
import DiveCANHead.Uds.Read
import DiveCANHead.Uds.ReadBounds
import DiveCANHead.Uds.Write
import DiveCANHead.Uds.Dispatch
import DiveCANHead.Uds.Sessions
import DiveCANHead.Uds.Lengths
import DiveCANHead.Uds.Authorisation
import DiveCANHead.Calibration.Guard
import DiveCANHead.Calibration.SingleFlight
import DiveCANHead.Calibration.Store
import DiveCANHead.Calibration.Machine
import DiveCANHead.Calibration.Rollback
import DiveCANHead.Control.Setpoint
import DiveCANHead.Control.Autotune
import DiveCANHead.Control.AutotuneRuns
import DiveCANHead.Maintenance.WriterPause
import DiveCANHead.Maintenance.PauseRuns
import DiveCANHead.Post.Machine
import DiveCANHead.Post.Gate
import DiveCANHead.Factory.Flash
import DiveCANHead.Factory.Image
import DiveCANHead.Factory.Restored
import DiveCANHead.Factory.RestoreSound
import DiveCANHead.Factory.Captured
import DiveCANHead.Lib.Text
import DiveCANHead.Cells.Digital
import DiveCANHead.Cells.DiveO2
import DiveCANHead.Cells.DiveO2Frames
import DiveCANHead.Cells.DiveO2Runs
import DiveCANHead.Lib.Number
import DiveCANHead.Cells.O2S
import DiveCANHead.Cells.O2SRuns
import DiveCANHead.Cells.Analog
import DiveCANHead.Alarm.Channel
import DiveCANHead.Accessories.Shutdown
import DiveCANHead.Errors.Histogram
import DiveCANHead.Settings.Runtime
import DiveCANHead.UdsClient.Service
import DiveCANHead.UdsClient.Queue
import DiveCANHead.UdsClient.Turn
import DiveCANHead.UdsClient.QueueRuns
import DiveCANHead.UdsClient.Correlation
import DiveCANHead.Staging.Manager
import DiveCANHead.Staging.Link
import DiveCANHead.Staging.HeadSide
import DiveCANHead.Staging.Sync
import DiveCANHead.Staging.Steps
import DiveCANHead.Staging.Truthful
import DiveCANHead.Staging.LossyRuns
import DiveCANHead.Ble.Receive
import DiveCANHead.Ble.Lossless
import DiveCANHead.LogClient.Pull
import DiveCANHead.LogClient.Spliced
import DiveCANHead.Lib.LittleEndian
import DiveCANHead.UdsClient.ReadMany
import DiveCANHead.FlashLog.Record
import DiveCANHead.LogWriter.Batch
import DiveCANHead.LogWriter.Flush
import DiveCANHead.LogWriter.Order
import DiveCANHead.LogWriter.Loss
import DiveCANHead.LogDownload.Faults
import DiveCANHead.FlashLog.FastSeek
import DiveCANHead.LogPush.Push
import DiveCANHead.LogPush.Fifo
import DiveCANHead.Watchdog.Heartbeat
import DiveCANHead.Power.Shutdown
import DiveCANHead.Watchdog.Feed
import DiveCANHead.Uds.ImageHash
import DiveCANHead.Cells.DiveO2Framing
import DiveCANHead.Control.PidWindup
import DiveCANHead.Control.SetpointFlush
import DiveCANHead.Control.PlantModel
import DiveCANHead.Control.PlantSafety
import DiveCANHead.Control.PlantShift
import DiveCANHead.Control.PlantOutcome
import DiveCANHead.LogClient.Parse
import DiveCANHead.LogWriter.Container
import DiveCANHead.Cells.DiveO2Parse
import DiveCANHead.Calibration.MethodFrame
import DiveCANHead.Calibration.Recalibrate
import DiveCANHead.Lib.Packed
import DiveCANHead.FlashLog.Payload
import DiveCANHead.LogClient.Decode
import DiveCANHead.LogClient.Channels
import DiveCANHead.LogClient.TelemetryLog
import DiveCANHead.LogClient.Codecs
import DiveCANHead.LogClient.Counter
import DiveCANHead.Lib.Grouped
import DiveCANHead.Uds.MenuOrder
import DiveCANHead.Viewer.DiveWindows
import DiveCANHead.Settings.RoundTrip
import DiveCANHead.Bus.LineState
import DiveCANHead.Bus.Quiet
import DiveCANHead.Bus.Transact
import DiveCANHead.Accessories.Gauge
import DiveCANHead.Boot.History
import DiveCANHead.Boot.Sequence
import DiveCANHead.Solenoid.Current
import DiveCANHead.Solenoid.Judged
import DiveCANHead.Viewer.Decimate
import DiveCANHead.Viewer.Envelopes
import DiveCANHead.Viewer.Gaps
import DiveCANHead.Viewer.Stream
import DiveCANHead.Lib.Columns
import DiveCANHead.Viewer.Epochs
import DiveCANHead.Viewer.Tables
import DiveCANHead.Viewer.Faithful
import DiveCANHead.Viewer.SolenoidBoots
import DiveCANHead.LogClient.Anchor
import DiveCANHead.IsoTp.BlockingSend
import DiveCANHead.Lib.Paths
import DiveCANHead.Stack.WorstCase
import DiveCANHead.Lib.Hex
import DiveCANHead.Slcan.Codec
import DiveCANHead.Slcan.RoundTrip
import DiveCANHead.Adc.Ads1x1x
import DiveCANHead.LogClient.DownloadStore
import DiveCANHead.Diagnostics.Pause
import DiveCANHead.Broadcast.Frames
import DiveCANHead.Broadcast.Ppo2
import DiveCANHead.Broadcast.Shown
import DiveCANHead.Boot.OptionBytes
import DiveCANHead.Broadcast.Tanks
import DiveCANHead.LogClient.Ladder
import DiveCANHead.LogClient.Resumed
import DiveCANHead.LogClient.Completed
import DiveCANHead.LogWriter.ReadBack
import DiveCANHead.Control.Handset
import DiveCANHead.Lib.Csv
import DiveCANHead.Lib.Digits
import DiveCANHead.LogClient.CsvSource
import DiveCANHead.Maintenance.MassErase
