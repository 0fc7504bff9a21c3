import SyncClipboard.Run
import SyncClipboard.ServerModel
import SyncClipboard.Dispatcher
import SyncClipboard.Acts
import SyncClipboard.ClipIsolation
import SyncClipboard.FileIsolation
import SyncClipboard.OfferResult
import SyncClipboard.CacheRace
import SyncClipboard.PublishConnect
import SyncClipboard.Delivery
import SyncClipboard.FtAuth
import SyncClipboard.FtLan
import SyncClipboard.SenderAuth
import SyncClipboard.ReceiverAuth
import SyncClipboard.Base64
import SyncClipboard.Crypto
import SyncClipboard.ClipIntegrity
import SyncClipboard.Client
import SyncClipboard.Parties
import SyncClipboard.LevelGate
import SyncClipboard.ServerLimits
import SyncClipboard.FtProto
import SyncClipboard.FileWire
import SyncClipboard.Auth
import SyncClipboard.TokenOrigin
import SyncClipboard.LoginLimit
import SyncClipboard.LoginRace
import SyncClipboard.SessionCap
import SyncClipboard.Writes
import SyncClipboard.Android
import SyncClipboard.Received
import SyncClipboard.CString
import SyncClipboard.PublicAddr
import SyncClipboard.Requester
import SyncClipboard.Crossing
import SyncClipboard.Handshake
import SyncClipboard.Resources
import SyncClipboard.Announced
import SyncClipboard.RelayAnswer
import SyncClipboard.Config
import SyncClipboard.AuthRequired
import SyncClipboard.Echo
import SyncClipboard.Envelope
import SyncClipboard.Connection
import SyncClipboard.OneSocket
import SyncClipboard.ConnState
import SyncClipboard.PeerInfo
import SyncClipboard.Phone
import SyncClipboard.ReportedId
import SyncClipboard.Monitors
import SyncClipboard.OneShot
import SyncClipboard.Reoffer
import SyncClipboard.Reassembly
import SyncClipboard.FrameGrammar
import SyncClipboard.LimitPairs
import SyncClipboard.Base64Dialects
import SyncClipboard.TextDedup
import SyncClipboard.Ledger
import SyncClipboard.LanSockets
import SyncClipboard.ListenFds
import SyncClipboard.ClipChange
import SyncClipboard.Markers
import SyncClipboard.DibLayout
import SyncClipboard.KeyHex
import SyncClipboard.RelayBase64
import SyncClipboard.Lexical
import SyncClipboard.TempPath
import SyncClipboard.UrlDecode
import SyncClipboard.FileUri
import SyncClipboard.BmpFallback
import SyncClipboard.SetImage
import SyncClipboard.ConfigLines
import SyncClipboard.SizeCap
import SyncClipboard.GrowBuf
import SyncClipboard.LinkedQueue
import SyncClipboard.SendQueue
import SyncClipboard.BackOff
import SyncClipboard.AcquireTokens
import SyncClipboard.PartialIo
import SyncClipboard.PrefsMigration
import SyncClipboard.Properties
import SyncClipboard.UserFile
import SyncClipboard.SaveUsers
import SyncClipboard.PasswordMigration
import SyncClipboard.Json
import SyncClipboard.CJson
import SyncClipboard.CJsonRead
import SyncClipboard.CJsonPrint
import SyncClipboard.CJsonRoundTrip
import SyncClipboard.Messages
import SyncClipboard.TextPath
import SyncClipboard.PhoneLogin
import SyncClipboard.RelayPath
import SyncClipboard.X11Selection
import SyncClipboard.ClientLogin
import SyncClipboard.PhoneMessages
