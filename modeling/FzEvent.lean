import FzEvent.Capture.ScreenCapture
import FzEvent.Common.InputEvent
import FzEvent.Evdev.SlotProtocol
import FzEvent.Lib.ByteCodec
import FzEvent.Lib.LockedProgram
import FzEvent.Lib.Stutter
import FzEvent.Lib.Transition
import FzEvent.Lib.Window
import FzEvent.Player.EventList
import FzEvent.Player.EventPlayer
import FzEvent.Player.PlayEvent
import FzEvent.Player.ReadEvent
import FzEvent.Receiver.CEvtRcv
import FzEvent.Receiver.DevicePacket
import FzEvent.Receiver.RecognizeEvent
import FzEvent.Receiver.Svc
import FzEvent.Recorder.Attribution
import FzEvent.Recorder.Delivery
import FzEvent.Recorder.Devices
import FzEvent.Recorder.EventIdMap
import FzEvent.Recorder.EventInfo
import FzEvent.Recorder.Gate
import FzEvent.Recorder.Gesture
import FzEvent.Recorder.GetEvent
import FzEvent.Recorder.PacketKind
import FzEvent.Recorder.ParseEvent
import FzEvent.Recorder.SessionEnd
import FzEvent.Recorder.SingleTouch
import FzEvent.Recorder.TouchCounter
import FzEvent.EndToEnd.BufferBound
import FzEvent.EndToEnd.EventFile
import FzEvent.EndToEnd.ReaderAgreement
import FzEvent.EndToEnd.RecordingSession
import FzEvent.EndToEnd.RemotePlay
import FzEvent.EndToEnd.ReportNumbers
import FzEvent.EndToEnd.Wire
import FzEvent.Transport.Packet
import FzEvent.Transport.Qlist
import FzEvent.Transport.TcpServer
import FzEvent.EndToEnd.Replay
import FzEvent.EndToEnd.Trajectory
import FzEvent.EndToEnd.SingleContact
import FzEvent.Receiver.TouchNames
import FzEvent.Receiver.EventReport
import FzEvent.EndToEnd.PacketDecoding
import FzEvent.Capture.SurfaceGetter
import FzEvent.Transport.RecvBuffer
import FzEvent.EndToEnd.FileGrammar
import FzEvent.EndToEnd.EntryTypes
import FzEvent.Recorder.DeviceTable
import FzEvent.EndToEnd.SendThreads
import FzEvent.Lib.FixedPoint
import FzEvent.Lib.RowMajor
import FzEvent.Lib.LinkedCells
import FzEvent.Lib.Block
import FzEvent.Lib.Words
import FzEvent.Capture.RawImage
import FzEvent.Capture.PixelLayout
import FzEvent.Transport.QueueCalls
import FzEvent.Player.LinkedEventList
import FzEvent.EndToEnd.MainLoop
import FzEvent.Player.ReplayTiming
import FzEvent.Recorder.SlotIndex
import FzEvent.Recorder.PollTable
import FzEvent.Recorder.PolledReads
import FzEvent.Recorder.EntryShape
import FzEvent.Lib.Decimal
import FzEvent.EndToEnd.DeviceNumber
import FzEvent.Lib.Channel
import FzEvent.EndToEnd.Pipeline
import FzEvent.EndToEnd.LiveRecording
import FzEvent.EndToEnd.Shutdown
import FzEvent.EndToEnd.ControlChannel
import FzEvent.Capture.GetBuffer
import FzEvent.Capture.CaptureRuns
import FzEvent.Recorder.Provenance
import FzEvent.EndToEnd.RecordedTiming
import FzEvent.EndToEnd.PlayerMain
import FzEvent.Lib.Volumes
import FzEvent.EndToEnd.Recordings
import FzEvent.Transport.Sockets
import FzEvent.Lib.Distinct
import FzEvent.Lib.Text
import FzEvent.Receiver.Labels
import FzEvent.Receiver.ReportText
import FzEvent.Lib.Overwrites
import FzEvent.Receiver.OutputFiles
