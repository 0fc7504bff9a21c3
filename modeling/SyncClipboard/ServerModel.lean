import SyncClipboard.Keyed
import Mathlib.Data.List.Sort
import Mathlib.Logic.Function.Basic
import Mathlib.Data.Int.Notation

/-!
The state of the server and the services its handlers call: the session registry, the
clipboard cache and the store of file offers.

A field that the code may leave `null` is an `Option`. A frame is the message before it is
written as JSON. What the network does to one handler call is a function `Net` of the session
and the frame, so that every send of a call has its own outcome. The walk over the sessions takes
them in whatever order the concurrent map has them at that time, which `Net` gives as well.
-/

namespace SyncClipboard.ServerModel

open Keyed

abbrev SessionId := String

/-! ### Messages -/

structure HelloAck where
  v : ℤ
  accepted : List String
  serverFileLevel : ℤ
  udpPort : ℤ
  maxRelaySize : ℤ
  maxClipboardBytes : ℤ
  deriving DecidableEq

structure Clipboard where
  msgId : Option String
  content : Option String
  sender : Option String
  deriving DecidableEq

structure FileOffer where
  msgId : Option String
  fileId : Option String
  fileName : Option String
  mimeType : Option String
  fileSize : ℤ
  checksum : Option String
  localAddresses : Option (List String)
  deriving DecidableEq

structure FileNotify where
  fileId : String
  fileName : Option String
  mimeType : Option String
  fileSize : ℤ
  checksum : Option String
  sender : String
  sourceLocalAddresses : List String
  sourcePublicAddress : String
  maxRelaySize : ℤ
  udpPort : ℤ
  fileTransferLevel : ℤ
  deriving DecidableEq

structure FileRequest where
  msgId : Option String
  fileId : Option String
  localAddresses : Option (List String)
  deriving DecidableEq

structure FilePeerInfo where
  fileId : String
  peerId : String
  peerLocalAddresses : List String
  peerPublicAddress : String
  sameLan : Bool
  role : String
  fileTransferLevel : ℤ
  deriving DecidableEq

structure FileRelay where
  msgId : Option String
  fileId : Option String
  fileSize : ℤ
  targetDevice : Option String
  data : Option String
  deriving DecidableEq

structure FileRelayData where
  fileId : String
  fileName : Option String
  mimeType : Option String
  fileSize : ℤ
  checksum : Option String
  data : Option String
  sender : String
  deriving DecidableEq

structure FileRelayRequest where
  fileId : String
  requesterId : String
  deriving DecidableEq

structure FileTransferResult where
  fileId : Option String
  method : Option String
  success : Bool
  connectionMs : ℤ
  transferMs : ℤ
  deriving DecidableEq

structure Error where
  code : String
  message : String
  retryable : Bool
  deriving DecidableEq

/-- The protocol messages, in both directions. -/
inductive WsMessage
  | hello
  | helloAck (m : HelloAck)
  | clipboard (m : Clipboard)
  | fileOffer (m : FileOffer)
  | fileNotify (m : FileNotify)
  | fileRequest (m : FileRequest)
  | filePeerInfo (m : FilePeerInfo)
  | fileRelay (m : FileRelay)
  | fileRelayData (m : FileRelayData)
  | fileRelayRequest (m : FileRelayRequest)
  | fileTransferResult (m : FileTransferResult)
  | error (m : Error)
  | ping (ts : ℤ)
  | pong (ts : ℤ)
  deriving DecidableEq

def WsMessage.type : WsMessage → String
  | .hello => "hello"
  | .helloAck _ => "hello_ack"
  | .clipboard _ => "clipboard"
  | .fileOffer _ => "file_offer"
  | .fileNotify _ => "file_notify"
  | .fileRequest _ => "file_request"
  | .filePeerInfo _ => "file_peer_info"
  | .fileRelay _ => "file_relay"
  | .fileRelayData _ => "file_relay_data"
  | .fileRelayRequest _ => "file_relay_request"
  | .fileTransferResult _ => "file_transfer_result"
  | .error _ => "error"
  | .ping _ => "ping"
  | .pong _ => "pong"

/-! ### Configuration and state -/

/-- What the handshake left on a connection: the attributes of the verified token and the
remote address. -/
structure Handshake where
  username : Option String
  deviceId : Option String
  remoteAddress : Option String

/-- The configured values, and the connections: a session id names one connection for good,
so the attributes of a session are a function of its id. -/
structure Config where
  fileTransferLevel : ℤ
  udpPort : ℤ
  maxRelaySize : ℤ
  session : SessionId → Handshake

/-- Three connections of alice, on three devices. -/
def threeDevices : Config where
  fileTransferLevel := 3
  udpPort := 8081
  maxRelaySize := 307200
  session sid :=
    if sid = "a" then ⟨some "alice", some "laptop", some "198.51.100.1"⟩
    else if sid = "b" then ⟨some "alice", some "phone", some "203.0.113.7"⟩
    else if sid = "c" then ⟨some "alice", some "desktop", some "198.51.100.1"⟩
    else ⟨none, none, none⟩

structure ClientSession where
  session : SessionId
  authenticated : Bool
  loggedIn : Bool
  username : String
  deviceId : String
  deriving DecidableEq

structure CachedClipboard where
  encryptedContent : Option String
  fromDevice : String
  timestamp : ℤ
  deriving DecidableEq

/-- A registered file offer. -/
structure Offer where
  fileId : String
  fileName : Option String
  mimeType : Option String
  fileSize : ℤ
  checksum : Option String
  senderSessionId : SessionId
  senderDeviceId : String
  senderUsername : String
  senderLocalAddresses : Option (List String)
  senderPublicAddress : String
  timestamp : ℤ
  deriving DecidableEq

abbrev Registry := List ClientSession
abbrev Cache := String → Option CachedClipboard
abbrev Offers := String → Option Offer

structure Server where
  sessions : Registry
  cache : Cache
  activeOffers : Offers

def init : Server := ⟨[], fun _ => none, fun _ => none⟩

/-! ### What a handler does -/

/-- The state of a session when a frame is about to be sent to it. -/
inductive Link | ok | closed | ioException | runtimeException
  deriving DecidableEq

/-- What a handler call meets: the outcome of each send, and the place of each session in the map. -/
structure Net where
  link : SessionId → WsMessage → Link
  place : SessionId → ℕ

instance : CoeFun Net fun _ => SessionId → WsMessage → Link := ⟨Net.link⟩

def allOk : Net := ⟨fun _ _ => .ok, fun _ => 0⟩

@[simp] lemma allOk_link (sid : SessionId) (frame : WsMessage) : allOk sid frame = .ok := rfl

/-- A frame handed to a session, or a session closed by the server. -/
inductive Act
  | send (target : SessionId) (frame : WsMessage) (delivered : Bool)
  | close (target : SessionId) (code : ℕ) (reason : String)
  deriving DecidableEq

inductive Thrown | io | runtime
  deriving DecidableEq

/-- The outcome of a handler: the state it leaves, what it did, and what it threw. -/
structure Res where
  st : Server
  acts : List Act
  thrown : Option Thrown

/-- Run `k` after `r`, unless `r` threw. -/
def Res.andThen (r : Res) (k : Server → Res) : Res :=
  match r.thrown with
  | some _ => r
  | none => ⟨(k r.st).st, r.acts ++ (k r.st).acts, (k r.st).thrown⟩

/-- `WebSocketSession.sendMessage`. The container answers a closed session with an
`IllegalStateException`. -/
def sendMessage (net : Net) (sid : SessionId) (frame : WsMessage) (st : Server) : Res :=
  match net sid frame with
  | .ok => ⟨st, [.send sid frame true], none⟩
  | .ioException => ⟨st, [.send sid frame false], some .io⟩
  | .closed | .runtimeException => ⟨st, [.send sid frame false], some .runtime⟩

/-- `sendJson` of the dispatcher and `send` of the handler. -/
def sendJson (net : Net) (sid : SessionId) (frame : WsMessage) (st : Server) : Res :=
  if net sid frame = .closed then ⟨st, [], none⟩ else sendMessage net sid frame st

/-! ### SessionManager -/

def maxSessionsPerUser : ℕ := 10

def getSession (sid : SessionId) (reg : Registry) : Option ClientSession :=
  get ClientSession.session sid reg

def removeSession (sid : SessionId) (reg : Registry) : Registry :=
  remove ClientSession.session sid reg

/-- The number of logged-in sessions of a user. -/
def sessionCount (username : String) (reg : Registry) : ℕ :=
  (reg.filter fun s => s.loggedIn && decide (username = s.username)).length

def addAuthenticated (sid : SessionId) (username deviceId : String) (reg : Registry) :
    Option Registry :=
  if maxSessionsPerUser ≤ sessionCount username reg then none
  else some (put ClientSession.session ⟨sid, true, true, username, deviceId⟩ reg)

/-- The sessions `broadcastToUser` collects. -/
def broadcastTargets (username : String) (senderSessionId : SessionId) (reg : Registry) :
    List ClientSession :=
  reg.filter fun s =>
    s.loggedIn && decide (username = s.username) && decide (s.session ≠ senderSessionId)

/-- What the broadcast task of one target hands to it. -/
def taskActs (net : Net) (frame : WsMessage) (t : ClientSession) : List Act :=
  match net t.session frame with
  | .ok => [.send t.session frame true]
  | .closed => []
  | .ioException | .runtimeException => [.send t.session frame false]

/-- The broadcast task of a target takes it out of the registry when the session is closed
or the send fails with an `IOException`; any other exception ends in the future. -/
def taskRegistry (net : Net) (frame : WsMessage) (reg : Registry) (t : ClientSession) :
    Registry :=
  match net t.session frame with
  | .ok | .runtimeException => reg
  | .closed | .ioException => removeSession t.session reg

/-- The tasks run in parallel, each on a target of its own. -/
def broadcastToUser (net : Net) (username : String) (senderSessionId : SessionId)
    (frame : WsMessage) (st : Server) : Res :=
  let targets := broadcastTargets username senderSessionId st.sessions
  ⟨{ st with sessions := targets.foldl (taskRegistry net frame) st.sessions },
    targets.flatMap (taskActs net frame), none⟩

/-- The sessions `sendToDevice` sends to, with an open session each, in the order of the map. -/
def deviceTargets (net : Net) (username targetDeviceId : String) (frame : WsMessage)
    (reg : Registry) : List ClientSession :=
  (reg.filter fun s => s.loggedIn && decide (username = s.username) &&
    decide (targetDeviceId = s.deviceId) && decide (net s.session frame ≠ .closed)).insertionSort
      fun s t => net.place s.session ≤ net.place t.session

/-- Send to one session after the other; an `IOException` is logged, anything else ends the
loop. -/
def sendEach (net : Net) (frame : WsMessage) (st : Server) : List ClientSession → Res
  | [] => ⟨st, [], none⟩
  | t :: ts =>
    let r := sendMessage net t.session frame st
    if r.thrown = some .runtime then r
    else ⟨st, r.acts ++ (sendEach net frame st ts).acts, (sendEach net frame st ts).thrown⟩

def sendToDevice (net : Net) (username targetDeviceId : String) (frame : WsMessage)
    (st : Server) : Res :=
  sendEach net frame st (deviceTargets net username targetDeviceId frame st.sessions)

/-! ### ClipboardCacheService -/

def ttlMs : ℤ := 60 * 60 * 1000

def store (now : ℤ) (username : String) (encryptedContent : Option String) (fromDevice : String)
    (cache : Cache) : Cache :=
  Function.update cache username (some ⟨encryptedContent, fromDevice, now⟩)

/-- The frame replayed to a device, and the cache after the expiry branch. -/
def getForDevice (now : ℤ) (username deviceId : String) (cache : Cache) :
    Option WsMessage × Cache :=
  match cache username with
  | none => (none, cache)
  | some cached =>
    if cached.fromDevice = deviceId then (none, cache)
    else if ttlMs < now - cached.timestamp then (none, Function.update cache username none)
    else (some (.clipboard ⟨none, cached.encryptedContent, some cached.fromDevice⟩), cache)

def evictExpired (now : ℤ) (cache : Cache) : Cache :=
  fun u => (cache u).filter fun e => !decide (e.timestamp < now - ttlMs)

/-! ### FileTransferService -/

def offerTtlMs : ℤ := 120000

def registerOffer (offer : Offer) (offers : Offers) : Offers :=
  Function.update offers offer.fileId (some offer)

def removeOffer (fileId : String) (offers : Offers) : Offers :=
  Function.update offers fileId none

def cleanupExpired (now : ℤ) (offers : Offers) : Offers :=
  fun f => (offers f).filter fun o => !decide (o.timestamp < now - offerTtlMs)

end SyncClipboard.ServerModel
