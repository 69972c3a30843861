import BetterParsec.Library.OrdMap
import BetterParsec.Library.Assoc
import BetterParsec.Library.Runs
import BetterParsec.Library.Refinement
import BetterParsec.Library.Elimination
import BetterParsec.Library.LittleEndian
import BetterParsec.Library.Interruption
import BetterParsec.Library.Delimited
import BetterParsec.Fec.Gf256
import BetterParsec.Fec.Encoder
import BetterParsec.Fec.Decoder
import BetterParsec.Fec.Channel
import BetterParsec.Fec.Equations
import BetterParsec.Fec.GaussianElim
import BetterParsec.Fec.WindowLaw
import BetterParsec.Fec.NativeDecoder
import BetterParsec.Fec.WebDecoder
import BetterParsec.Fec.Soundness
import BetterParsec.Fec.Bounds
import BetterParsec.Fec.Frontier
import BetterParsec.Fec.Delivery
import BetterParsec.Wire.Chunks
import BetterParsec.Wire.SymbolMessages
import BetterParsec.Wire.ControlMessages
import BetterParsec.Video.Receiver
import BetterParsec.Video.Moves
import BetterParsec.Video.Order
import BetterParsec.Video.Gate
import BetterParsec.Video.Anchor
import BetterParsec.Video.Acks
import BetterParsec.Video.Checked
import BetterParsec.Video.Bookkeeping
import BetterParsec.Video.Resolution
import BetterParsec.Video.Slices
import BetterParsec.Video.Sender
import BetterParsec.Video.Fidelity
import BetterParsec.Client.FrameQueue
import BetterParsec.Client.RxCore
import BetterParsec.Client.WireOrder
import BetterParsec.Client.NeedsIdrLatch
import BetterParsec.Client.Watchdog
import BetterParsec.Client.Ladders
import BetterParsec.Streamer.FecSender
import BetterParsec.Streamer.ReferenceChain
import BetterParsec.App.Supervisor
import BetterParsec.App.Truthfulness
import BetterParsec.App.Finality
import BetterParsec.App.Restarts
import BetterParsec.Broker.CaptureState
import BetterParsec.Server.LoginLimiter
import BetterParsec.Server.LoginGuesses
import BetterParsec.Server.JsonStorage
import BetterParsec.Server.StorageMoves
import BetterParsec.Server.Integrity
import BetterParsec.Server.FirstLogin
import BetterParsec.Server.Sessions
import BetterParsec.Server.WriteBack
import BetterParsec.Updater.Swap
import BetterParsec.Updater.CrashSafety
import BetterParsec.Updater.Canon
import BetterParsec.Updater.CanonText
import BetterParsec.Updater.Manifest
import BetterParsec.Updater.Coverage
import BetterParsec.Updater.Verify
import BetterParsec.Updater.Exactness
import BetterParsec.Library.Utf8
import BetterParsec.Library.JsNumber
import BetterParsec.Input.ByteBuffer
import BetterParsec.Input.InputWire
import BetterParsec.Input.Decoding
import BetterParsec.Input.BrowserText
import BetterParsec.Streamer.Clipboard
import BetterParsec.Streamer.ClipboardSync
import BetterParsec.Streamer.BitrateApply
import BetterParsec.Browser.FecWire
import BetterParsec.Browser.CodecAgreement
import BetterParsec.Browser.FecDecodePipe
import BetterParsec.Browser.PipeMoves
import BetterParsec.Browser.PipeOrder
import BetterParsec.Browser.PipeGate
import BetterParsec.Browser.ReceiverAgreement
import BetterParsec.Browser.Controllers
import BetterParsec.Streamer.QuRelay
import BetterParsec.Browser.QuOverlay
import BetterParsec.Streamer.Payloaders
import BetterParsec.App.Identity
import BetterParsec.App.Migration
import BetterParsec.Library.Utf16
import BetterParsec.Wire.DesktopControl
import BetterParsec.Browser.DesktopControl
import BetterParsec.Browser.DesktopAgreement
import BetterParsec.Driver.Interleaving
import BetterParsec.Driver.RingIntegrity
import BetterParsec.Driver.KeyDelivery
import BetterParsec.Driver.KeysReleased
import BetterParsec.Library.ShiftRegister
import BetterParsec.Wire.CrcBursts
import BetterParsec.Streamer.SymbolSizes
import BetterParsec.Fec.Recovery
import BetterParsec.Library.LossyUtf8
import BetterParsec.Streamer.Outbound
import BetterParsec.Browser.Channels
import BetterParsec.Browser.ChannelAgreement
import BetterParsec.Browser.MediaSource
import BetterParsec.Browser.AppendDiscipline
import BetterParsec.Streamer.Congestion
import BetterParsec.Client.PendingAck
import BetterParsec.Client.ControlRetry
import BetterParsec.Updater.CrashRecovery
import BetterParsec.Server.HumanJson
import BetterParsec.Server.HumanJsonLayout
import BetterParsec.App.Redaction
import BetterParsec.App.Hiding
import BetterParsec.App.BearerTokens
import BetterParsec.App.HiddenValues
import BetterParsec.Browser.ByteBuffers
import BetterParsec.Browser.ByteBufferLaw
import BetterParsec.Browser.ByteBufferReads
import BetterParsec.Streamer.CursorTracker
import BetterParsec.Streamer.CursorShapes
import BetterParsec.Wire.QuWire
import BetterParsec.Browser.QuWire
import BetterParsec.Wire.FileTransfer
import BetterParsec.Wire.DestName
import BetterParsec.Broker.BatchCodec
import BetterParsec.Library.StartCodes
import BetterParsec.Streamer.AnnexB
import BetterParsec.Streamer.NalReader
import BetterParsec.Streamer.Fragments
import BetterParsec.Streamer.FrameMarker
import BetterParsec.Browser.AnnexBTranslator
import BetterParsec.Browser.TranslatorAgreement
import BetterParsec.Browser.Mp4Fragment
import BetterParsec.Library.LateAnswers
import BetterParsec.Wire.OutputSelection
import BetterParsec.Browser.OutputSelection
import BetterParsec.App.MigrationResult
import BetterParsec.Library.Terminated
import BetterParsec.Library.HeldKeys
import BetterParsec.Driver.UpperFilters
import BetterParsec.App.BrokerRouter
import BetterParsec.App.BrokerKeys
import BetterParsec.App.UpdateStatus
import BetterParsec.Library.Truncation
import BetterParsec.Browser.Scroll
import BetterParsec.Streamer.ClipboardWire
import BetterParsec.Browser.ClipboardWire
import BetterParsec.Library.Frames
import BetterParsec.App.AudioConvert
import BetterParsec.App.AudioLoop
import BetterParsec.Streamer.VideoUnits
import BetterParsec.Browser.VideoChannel
import BetterParsec.Browser.TranslatorDescription
import BetterParsec.Browser.VideoDecoderPipe
import BetterParsec.Browser.DecoderDiscipline
import BetterParsec.Streamer.CcShared
import BetterParsec.Streamer.SampleQueue
import BetterParsec.Streamer.TransportMetrics
import BetterParsec.Broker.ServeClient
import BetterParsec.Broker.CaptureDelivery
import BetterParsec.Library.Calls
import BetterParsec.Server.Api
import BetterParsec.Server.Replies
import BetterParsec.Server.ApiService
import BetterParsec.Server.ApiRules
import BetterParsec.Server.ApiObjects
import BetterParsec.Server.Authorization
import BetterParsec.Server.Escalation
import BetterParsec.Updater.Installation
import BetterParsec.Updater.Provenance
