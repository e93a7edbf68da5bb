import RemoteControl.Foundations.Transition
import RemoteControl.Foundations.Interference
import RemoteControl.Foundations.Custody
import RemoteControl.Foundations.ByteStrings
import RemoteControl.Foundations.Alternation
import RemoteControl.Foundations.Base64
import RemoteControl.Foundations.Fifo
import RemoteControl.Foundations.Utf16
import RemoteControl.Foundations.Utf8
import RemoteControl.Foundations.Texts
import RemoteControl.Foundations.Timers
import RemoteControl.Foundations.Spacing
import RemoteControl.Foundations.Slices
import RemoteControl.Foundations.Histories
import RemoteControl.Foundations.Longs
import RemoteControl.Wire.Protocol
import RemoteControl.Wire.Serde
import RemoteControl.Wire.Tunnel
import RemoteControl.Wire.TunnelCopies
import RemoteControl.Server.Stores
import RemoteControl.Server.Connection
import RemoteControl.Server.FileHandlers
import RemoteControl.Server.FileNames
import RemoteControl.Server.PercentDecoding
import RemoteControl.Server.Clipboard
import RemoteControl.Server.Loop
import RemoteControl.Server.Frame
import RemoteControl.Server.Authentication
import RemoteControl.Server.Pairing
import RemoteControl.Server.RelayUrl
import RemoteControl.Server.Watchdog
import RemoteControl.Server.Upload
import RemoteControl.Server.UploadSizes
import RemoteControl.Server.CreatedFiles
import RemoteControl.Server.StreamGrammar
import RemoteControl.Server.StreamVersions
import RemoteControl.Relay.HostsFile
import RemoteControl.Relay.Registry
import RemoteControl.Server.Outbound
import RemoteControl.Server.PhoneSessions
import RemoteControl.Relay.Loops
import RemoteControl.Relay.Frame
import RemoteControl.Relay.Attachment
import RemoteControl.Relay.Uplink
import RemoteControl.Relay.Emission
import RemoteControl.Relay.Downlink
import RemoteControl.Relay.StreamOrder
import RemoteControl.Relay.Teardown
import RemoteControl.Relay.Takeover
import RemoteControl.Relay.TunnelEnd
import RemoteControl.Relay.Agreement
import RemoteControl.Server.WireOrder
import RemoteControl.Server.WriterPasses
import RemoteControl.Server.WriterReplies
import RemoteControl.Server.LanBridge
import RemoteControl.Server.VideoLoop
import RemoteControl.Server.AudioLoop
import RemoteControl.Server.GpuSession
import RemoteControl.Server.StreamWorkers
import RemoteControl.Server.Nv12
import RemoteControl.Phone.Messages
import RemoteControl.Phone.FrameFormat
import RemoteControl.Phone.VideoPlayer
import RemoteControl.Phone.AvSync
import RemoteControl.Phone.LongClock
import RemoteControl.Phone.RenderQueue
import RemoteControl.Phone.Downloads
import RemoteControl.Phone.DownloadNames
import RemoteControl.Phone.Authorities
import RemoteControl.Phone.Uploads
import RemoteControl.Phone.UriQuery
import RemoteControl.Phone.QrCode
import RemoteControl.Phone.Keyboard
import RemoteControl.Phone.TrustedServers
import RemoteControl.Phone.Client
import RemoteControl.Phone.Frame
import RemoteControl.Phone.DownloadLedger
import RemoteControl.Phone.Receipts
import RemoteControl.Phone.StaleSockets
import RemoteControl.Phone.SocketState
import RemoteControl.Phone.Fallback
import RemoteControl.Phone.Unauthenticated
import RemoteControl.Phone.Gestures
import RemoteControl.Phone.Handshake
import RemoteControl.Phone.RelayAgreement
import RemoteControl.Phone.RelayEndpoint
import RemoteControl.Phone.TransferCards
import RemoteControl.Phone.CardStates
import RemoteControl.Phone.Vocabulary
import RemoteControl.Phone.FileLink
import RemoteControl.Phone.Deliveries
import RemoteControl.Server.PairingCodes
import RemoteControl.Server.WelcomeKey
import RemoteControl.Server.TrustStore
import RemoteControl.Server.Rejections
import RemoteControl.Server.Transfers
import RemoteControl.Server.Pool
import RemoteControl.Server.Destinations
import RemoteControl.Server.Sends
import RemoteControl.Server.Spools
import RemoteControl.Server.SpoolContents
import RemoteControl.Server.SlotFrame
import RemoteControl.Server.BridgeSlot
