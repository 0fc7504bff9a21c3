import SyncClipboard.Run
import SyncClipboard.ServerModel

/-!
The message dispatcher, the WebSocket handler around it, and runs of the server.

A handler call is one event: the callbacks of a connection, and the two scheduled clean-ups.
Whatever the network does during a call is part of the event.
-/

namespace SyncClipboard.Dispatcher

open Keyed ServerModel

variable (cfg : Config)

/-! ### MessageDispatcher -/

def publicAddr (sid : SessionId) : String := (cfg.session sid).remoteAddress.getD "unknown"

/-- A null list becomes the empty list. -/
def safe (l : Option (List String)) : List String := l.getD []

def handleClipboard (net : Net) (now : ℤ) (sid : SessionId) (cs : ClientSession)
    (msg : Clipboard) (st : Server) : Res :=
  broadcastToUser net cs.username sid (.clipboard ⟨msg.msgId, msg.content, some cs.deviceId⟩)
    { st with cache := store now cs.username msg.content cs.deviceId st.cache }

def offerOf (now : ℤ) (sid : SessionId) (cs : ClientSession) (fileId : String)
    (msg : FileOffer) : Offer :=
  ⟨fileId, msg.fileName, msg.mimeType, msg.fileSize, msg.checksum, sid, cs.deviceId, cs.username,
    msg.localAddresses, publicAddr cfg sid, now⟩

/-- The notification `handleFileOffer` broadcasts. -/
def notifyOf (sid : SessionId) (cs : ClientSession) (fileId : String) (msg : FileOffer) :
    WsMessage :=
  .fileNotify ⟨fileId, msg.fileName, msg.mimeType, msg.fileSize, msg.checksum, cs.deviceId,
    if 1 ≤ cfg.fileTransferLevel then safe msg.localAddresses else [],
    if 2 ≤ cfg.fileTransferLevel then publicAddr cfg sid else "",
    if 3 ≤ cfg.fileTransferLevel then cfg.maxRelaySize else 0,
    if 2 ≤ cfg.fileTransferLevel then cfg.udpPort else 0,
    cfg.fileTransferLevel⟩

def handleFileOffer (net : Net) (now : ℤ) (sid : SessionId) (cs : ClientSession)
    (msg : FileOffer) (st : Server) : Res :=
  if cfg.fileTransferLevel ≤ 0 then
    sendJson net sid (.error ⟨"FILE_TRANSFER_DISABLED", "File transfer is disabled on server",
      false⟩) st
  else match msg.fileId with
    -- the offer map takes no null key
    | none => ⟨st, [], some .runtime⟩
    | some fileId =>
      broadcastToUser net cs.username sid (notifyOf cfg sid cs fileId msg)
        { st with activeOffers := registerOffer (offerOf cfg now sid cs fileId msg) st.activeOffers }

/-- Send to the session that made the offer, if it is registered and open. -/
def sendToSender (net : Net) (offer : Offer) (frame : WsMessage) (st : Server) : Res :=
  match getSession offer.senderSessionId st.sessions with
  | none => ⟨st, [], none⟩
  | some s => sendJson net s.session frame st

def sameLan (sid : SessionId) (offer : Offer) : Bool :=
  decide (publicAddr cfg sid = offer.senderPublicAddress) &&
    !decide (publicAddr cfg sid = "unknown")

def peerInfoForSender (sid : SessionId) (cs : ClientSession) (fileId : String)
    (msg : FileRequest) (offer : Offer) : WsMessage :=
  .filePeerInfo ⟨fileId, cs.deviceId,
    if 1 ≤ cfg.fileTransferLevel then safe msg.localAddresses else [],
    if sameLan cfg sid offer then ""
      else if 2 ≤ cfg.fileTransferLevel then publicAddr cfg sid else "",
    sameLan cfg sid offer, "sender", cfg.fileTransferLevel⟩

def peerInfoForReceiver (sid : SessionId) (fileId : String) (offer : Offer) : WsMessage :=
  .filePeerInfo ⟨fileId, offer.senderDeviceId,
    if 1 ≤ cfg.fileTransferLevel then safe offer.senderLocalAddresses else [],
    if sameLan cfg sid offer then ""
      else if 2 ≤ cfg.fileTransferLevel then offer.senderPublicAddress else "",
    sameLan cfg sid offer, "receiver", cfg.fileTransferLevel⟩

def handleFileRequest (net : Net) (sid : SessionId) (cs : ClientSession) (msg : FileRequest)
    (st : Server) : Res :=
  match msg.fileId with
  | none => ⟨st, [], some .runtime⟩
  | some fileId =>
    match st.activeOffers fileId with
    | none =>
      sendJson net sid (.error ⟨"FILE_OFFER_NOT_FOUND", "File offer not found: " ++ fileId,
        false⟩) st
    | some offer =>
      (sendToSender net offer (peerInfoForSender cfg sid cs fileId msg offer) st).andThen
        (sendJson net sid (peerInfoForReceiver cfg sid fileId offer))

/-- The data frame `handleFileRelay` builds from the stored offer. -/
def relayDataOf (cs : ClientSession) (fileId : String) (msg : FileRelay) (offer : Offer) :
    WsMessage :=
  .fileRelayData ⟨fileId, offer.fileName, offer.mimeType, offer.fileSize, offer.checksum,
    msg.data, cs.deviceId⟩

def handleFileRelay (net : Net) (sid : SessionId) (cs : ClientSession) (msg : FileRelay)
    (st : Server) : Res :=
  if cfg.fileTransferLevel < 3 then
    sendJson net sid (.error ⟨"FILE_TRANSFER_DISABLED",
      "Server relay disabled (level=" ++ toString cfg.fileTransferLevel ++ ")", false⟩) st
  else match msg.fileId with
  | none => ⟨st, [], some .runtime⟩
  | some fileId =>
    match st.activeOffers fileId with
    | none => sendJson net sid (.error ⟨"FILE_OFFER_NOT_FOUND", "File offer not found", false⟩) st
    | some offer =>
      if cfg.maxRelaySize < msg.fileSize then
        sendJson net sid (.error ⟨"FILE_TOO_LARGE", "File too large for relay: " ++
          toString msg.fileSize ++ " > " ++ toString cfg.maxRelaySize, false⟩) st
      else match msg.targetDevice with
        | some target => sendToDevice net cs.username target (relayDataOf cs fileId msg offer) st
        | none => sendToSender net offer (.fileRelayRequest ⟨fileId, cs.deviceId⟩) st

def handleResult (msg : FileTransferResult) (st : Server) : Res :=
  match msg.fileId with
  | none => ⟨st, [], some .runtime⟩
  | some fileId =>
    match st.activeOffers fileId with
    | some _ => ⟨{ st with activeOffers := removeOffer fileId st.activeOffers }, [], none⟩
    | none => ⟨st, [], none⟩

/-- The handler of a message of a registered session. -/
def handle (net : Net) (now : ℤ) (sid : SessionId) (cs : ClientSession) (msg : WsMessage)
    (st : Server) : Res :=
  match msg with
  | .clipboard clip => handleClipboard net now sid cs clip st
  | .fileOffer offer => handleFileOffer cfg net now sid cs offer st
  | .fileRequest req => handleFileRequest cfg net sid cs req st
  | .fileRelay relay => handleFileRelay cfg net sid cs relay st
  | .fileTransferResult result => handleResult result st
  | .ping ts => sendJson net sid (.pong ts) st
  -- `hello` and the types only the server sends are logged
  | _ => ⟨st, [], none⟩

def dispatch (net : Net) (now : ℤ) (sid : SessionId) (msg : WsMessage) (st : Server) : Res :=
  match getSession sid st.sessions with
  | none => ⟨st, [.close sid 1000 ""], none⟩
  | some cs => handle cfg net now sid cs msg st

/-! ### V2WebSocketHandler -/

def sendError (net : Net) (sid : SessionId) (code message : String) (retryable : Bool)
    (st : Server) : Res :=
  sendJson net sid (.error ⟨code, message, retryable⟩) st

def helloAckFrame : WsMessage :=
  .helloAck ⟨2, ["clipboard", "file_lan", "file_nat", "file_relay"], cfg.fileTransferLevel,
    cfg.udpPort, cfg.maxRelaySize, 1024 * 1024⟩

def replay (net : Net) (now : ℤ) (sid : SessionId) (username deviceId : String) (st : Server) :
    Res :=
  match getForDevice now username deviceId st.cache with
  | (none, cache) => ⟨{ st with cache := cache }, [], none⟩
  | (some cached, cache) => sendMessage net sid cached { st with cache := cache }

def afterConnectionEstablished (net : Net) (now : ℤ) (sid : SessionId) (st : Server) : Res :=
  match (cfg.session sid).username, (cfg.session sid).deviceId with
  | some username, some deviceId =>
    match addAuthenticated sid username deviceId st.sessions with
    | none => ⟨st, [.close sid 1008 "too many sessions"], none⟩
    | some reg =>
      (sendJson net sid (helloAckFrame cfg) { st with sessions := reg }).andThen
        (replay net now sid username deviceId)
  | _, _ => ⟨st, [.close sid 1011 "auth attrs missing"], none⟩

/-- The payload is `none` when it does not parse. A `RuntimeException` of the dispatcher is
answered with an error frame, anything else leaves the handler. Two kinds of text frames are left
out: those of more than 2 MiB, for which the container closes the connection (1009) and calls no
handler, and the JSON text `null`, for which `msg.type()` throws once in `dispatch` and once more
where that is caught. Either ends the session it came from and does nothing else. -/
def handleTextMessage (net : Net) (now : ℤ) (sid : SessionId) (payload : Option WsMessage)
    (st : Server) : Res :=
  match payload with
  | none => sendError net sid "MSG_INVALID" "Invalid message format" false st
  | some msg =>
    let r := dispatch cfg net now sid msg st
    match r.thrown with
    | some .runtime =>
      let r' := sendError net sid "INTERNAL_ERROR" ("Server error handling " ++ msg.type) true r.st
      ⟨r'.st, r.acts ++ r'.acts, r'.thrown⟩
    | _ => r

/-! ### Runs -/

inductive Event
  | established (sid : SessionId) (now : ℤ) (net : Net)
  | text (sid : SessionId) (payload : Option WsMessage) (now : ℤ) (net : Net)
  -- `afterConnectionClosed` and `handleTransportError` do the same
  | closed (sid : SessionId)
  | evict (now : ℤ)
  | cleanup (now : ℤ)

def Event.session? : Event → Option SessionId
  | .established sid _ _ => some sid
  | .text sid _ _ _ => some sid
  | .closed sid => some sid
  | .evict _ => none
  | .cleanup _ => none

def react (st : Server) : Event → Res
  | .established sid now net => afterConnectionEstablished cfg net now sid st
  | .text sid payload now net => handleTextMessage cfg net now sid payload st
  | .closed sid => ⟨{ st with sessions := removeSession sid st.sessions }, [], none⟩
  | .evict now => ⟨{ st with cache := evictExpired now st.cache }, [], none⟩
  | .cleanup now => ⟨{ st with activeOffers := cleanupExpired now st.activeOffers }, [], none⟩

def step (st : Server) (e : Event) : Server × List Act := ((react cfg st e).st, (react cfg st e).acts)

/-- The frames delivered to one session, in order. -/
def deliveredTo (sid : SessionId) : List Act → List WsMessage
  | [] => []
  | .send t f true :: as => if t = sid then f :: deliveredTo sid as else deliveredTo sid as
  | _ :: as => deliveredTo sid as

end SyncClipboard.Dispatcher
