import SyncClipboard.Client
import SyncClipboard.FileWire

/-!
The file transfer of the Android client: the service with its message handlers, and the transfer
manager with its executor.

A transfer and the decoding of relayed data are tasks of the executor, and what has been received
is posted to the main thread; each of them is a step of its own. A temporary file is the list of
bytes its task has written. What the network, the file system and the media store return is part
of the step.
-/

namespace SyncClipboard.Android

open FtAuth FtProto ServerModel Client

/-- The configured values. -/
structure Store where
  fileTransferLevel : ℤ
  maxTransferSizeMb : ℤ

def Store.maxTransferBytes (store : Store) : ℤ := store.maxTransferSizeMb * 1024 * 1024

/-- `TransferState`, without the addresses. -/
structure TransferState where
  fileId : String
  fileName : String
  mimeType : String
  fileSize : ℤ
  checksum : String
  data : Option Bytes
  isSender : Bool
  maxRelaySize : ℤ
  fileTransferLevel : ℤ
  deriving DecidableEq

/-- Relayed data that waits for the executor. -/
structure Relayed where
  b64Data : String
  fileName : String
  mimeType : String
  deriving DecidableEq

/-- A received file on its way to the main thread. -/
structure Received where
  file : Bytes
  fileName : String
  mimeType : String
  method : String
  connectionMs : ℤ
  transferMs : ℤ
  deriving DecidableEq

structure Service where
  serverFileLevel : ℤ
  transferStarted : Bool
  currentState : Option TransferState
  transfers : List TransferState
  relayed : List Relayed
  posted : List Received
  deriving DecidableEq

def start : Service := ⟨3, false, none, [], [], []⟩

variable (lib : Lib) (store : Store)

/-! ### The messages -/

def handleFileNotify (localAddresses : List String) (m : FileNotify) (c : Service) :
    Service × List Did :=
  if store.fileTransferLevel ≤ 0 then (c, [])
  else
    ({ c with
      transferStarted := false
      currentState := some ⟨m.fileId, m.fileName.getD "file",
        m.mimeType.getD "application/octet-stream", m.fileSize, m.checksum.getD "", none, false,
        m.maxRelaySize, 3⟩ },
      [.send (.fileRequest ⟨none, some m.fileId, some localAddresses⟩)])

def handleFilePeerInfo (m : FilePeerInfo) (c : Service) : Service × List Did :=
  match c.currentState with
  | none => (c, [])
  | some state =>
    if c.transferStarted then (c, [])
    else
      let state := { state with fileTransferLevel :=
        (min (min store.fileTransferLevel c.serverFileLevel) m.fileTransferLevel) }
      ({ c with
        transferStarted := true
        currentState := some state
        transfers := c.transfers ++ [state] }, [])

def handleFileRelayRequest (m : FileRelayRequest) (c : Service) : Service × List Did :=
  match c.currentState with
  | none => (c, [])
  | some state =>
    match state.data with
    | none => (c, [])
    | some data =>
      (c, [.send (.fileRelay ⟨none, some state.fileId, state.fileSize, some m.requesterId,
        some (lib.base64Encode data)⟩)])

def handleFileRelayData (m : FileRelayData) (c : Service) : Service × List Did :=
  match m.data with
  | none => (c, [])
  | some b64 =>
    ({ c with relayed := c.relayed ++ [⟨b64, m.fileName.getD "file",
      m.mimeType.getD "application/octet-stream"⟩] }, [])

def handleMessage (localAddresses : List String) (m : WsMessage) (c : Service) :
    Service × List Did :=
  match m with
  | .helloAck m => ({ c with serverFileLevel := m.serverFileLevel }, [])
  | .fileNotify m => handleFileNotify store localAddresses m c
  | .filePeerInfo m => handleFilePeerInfo store m c
  | .fileRelayRequest m => handleFileRelayRequest lib m c
  | .fileRelayData m => handleFileRelayData m c
  -- texts have no part in file transfers; the other types are logged or ignored
  | _ => (c, [])

/-- `sendImageOffer`, for an image that has not been offered last. -/
def sendImageOffer (localAddresses : List String) (fileId mime : String) (data : Bytes)
    (c : Service) : Service × List Did :=
  let ext := if strstr "jpeg".toList mime.toList || strstr "jpg".toList mime.toList then ".jpg"
    else ".png"
  ({ c with
    transferStarted := false
    currentState := some ⟨fileId, "clipboard" ++ ext, mime, data.length, lib.sha256 data,
      some data, true, 0, 3⟩ },
    [.send (.fileOffer ⟨none, some fileId, some ("clipboard" ++ ext), some mime, data.length,
      some (lib.sha256 data), some localAddresses⟩)])

/-! ### The executor -/

/-- What became of the connection: its method and what comes on it, or `none`. -/
structure Arrival where
  sock : Option (String × List Bytes)
  disk : Disk
  before : Option Bytes
  connMs : ℤ
  xferMs : ℤ

def receiver (a : Arrival) : FileWire.Receiver :=
  .recvFileToPath store.maxTransferBytes a.disk a.before

/-- The file `runReceiver` has received, and the method. -/
def received (a : Arrival) : Option (Bytes × String) :=
  a.sock.bind fun sock =>
    ((receiver store a).receive sock.2).map fun receipt => (receipt.data, sock.1)

/-- The end of `runReceiver`; `runSender` ends without a message. -/
def transferEnd (i : ℕ) (a : Arrival) (c : Service) : Service × List Did :=
  match c.transfers[i]? with
  | none => (c, [])
  | some state =>
    let c := { c with transfers := c.transfers.eraseIdx i }
    if state.isSender then (c, [])
    else match received store a with
      | some (file, method) =>
        ({ c with posted := c.posted ++
          [⟨file, state.fileName, state.mimeType, method, a.connMs, a.xferMs⟩] }, [])
      | none =>
        if 3 ≤ state.fileTransferLevel ∧ state.fileSize ≤ state.maxRelaySize then
          (c, [.send (.fileRelay ⟨none, some state.fileId, 0, none, none⟩)])
        -- `onTransferFailed` only logs
        else (c, [])

/-- `handleRelayData`; a file that cannot be written ends in the exception handler. -/
def relayEnd (i : ℕ) (written : Bool) (c : Service) : Service × List Did :=
  match c.relayed[i]? with
  | none => (c, [])
  | some r =>
    let c := { c with relayed := c.relayed.eraseIdx i }
    match lib.base64Decode r.b64Data with
    | none => (c, [])
    | some data =>
      if written = false then (c, [])
      else ({ c with posted := c.posted ++ [⟨data, r.fileName, r.mimeType, "relay", 0, 0⟩] }, [])

/-! ### The main thread -/

def mimeToExtension (mime : String) : String :=
  let has (pat : String) : Bool := strstr pat.toList mime.toList
  if has "png" then ".png"
  else if has "jpeg" || has "jpg" then ".jpg"
  else if has "gif" then ".gif"
  else if has "webp" then ".webp"
  else if has "pdf" then ".pdf"
  else ""

/-- `substringBeforeLast(".")`. -/
def beforeLastDot (name : String) : String :=
  if '.' ∈ name.toList then
    String.ofList ((name.toList.reverse.dropWhile (· ≠ '.')).drop 1).reverse
  else name

def safeName (fileName mimeType : String) : String :=
  let ext := mimeToExtension mimeType
  if ext ≠ "" ∧ ext.toList.isSuffixOf fileName.toList = false then beforeLastDot fileName ++ ext
  else fileName

/-- What the main thread meets: whether the media store takes an image, and whether something
throws. -/
structure Main where
  saved : Bool
  throws : Bool

/-- The post of `onFileReceived`. The result names the file of the current state. -/
def onFileReceived (main : Main) (c : Service) : Service × List Did :=
  match c.posted with
  | [] => (c, [])
  | r :: posted =>
    let c := { c with posted := posted }
    if main.throws then (c, [])
    else
      (c, (if isImage r.mimeType && main.saved then [.setImage r.file "image/png"]
          else [.setFile (safeName r.fileName r.mimeType) r.file]) ++
        [.send (.fileTransferResult ⟨some ((c.currentState.map TransferState.fileId).getD ""),
          some r.method, true, r.connectionMs, r.transferMs⟩)])

/-! ### Runs -/

inductive Event
  | message (localAddresses : List String) (m : WsMessage)
  | image (localAddresses : List String) (fileId mime : String) (data : Bytes)
  | transferEnd (i : ℕ) (a : Arrival)
  | relayEnd (i : ℕ) (written : Bool)
  | post (main : Main)
  -- the service is destroyed
  | cleanup

def step (c : Service) : Event → Service × List Did
  | .message addrs m => handleMessage lib store addrs m c
  | .image addrs fileId mime data => sendImageOffer lib addrs fileId mime data c
  | .transferEnd i a => transferEnd store i a c
  | .relayEnd i written => relayEnd lib i written c
  | .post main => onFileReceived main c
  | .cleanup => ({ c with currentState := none }, [])

/-! ### What a step can do -/

/-- The event finds nothing to do. -/
def Void (c : Service) : Event → Prop
  | .message _ (.helloAck _) => False
  | .message _ (.fileNotify _) => store.fileTransferLevel ≤ 0
  | .message _ (.filePeerInfo _) => c.currentState = none ∨ c.transferStarted = true
  | .message _ (.fileRelayRequest _) => c.currentState.bind TransferState.data = none
  | .message _ (.fileRelayData m) => m.data = none
  | .message _ _ => True
  | .image _ _ _ _ => False
  | .transferEnd i _ => c.transfers[i]? = none
  | .relayEnd i _ => c.relayed[i]? = none
  | .post _ => c.posted = []
  | .cleanup => False

/-- The service after a step and what it has done, case by case. -/
inductive Does (c : Service) : Event → Service × List Did → Prop
  | nothing {e : Event} (hvoid : Void store c e) : Does c e (c, [])
  | levelled {addrs : List String} {m : HelloAck} :
      Does c (.message addrs (.helloAck m)) ({ c with serverFileLevel := m.serverFileLevel }, [])
  | requested {addrs : List String} {m : FileNotify} {state : TransferState}
      (hlevel : ¬ store.fileTransferLevel ≤ 0) (hid : state.fileId = m.fileId)
      (hdata : state.data = none) :
      Does c (.message addrs (.fileNotify m))
        ({ c with transferStarted := false, currentState := some state },
          [.send (.fileRequest ⟨none, some m.fileId, some addrs⟩)])
  | started {addrs : List String} {m : FilePeerInfo} {state : TransferState} {level : ℤ}
      (hstate : c.currentState = some state) (hstarted : c.transferStarted = false)
      (hlevel : level = min (min store.fileTransferLevel c.serverFileLevel) m.fileTransferLevel) :
      Does c (.message addrs (.filePeerInfo m))
        ({ c with
          transferStarted := true
          currentState := some { state with fileTransferLevel := level }
          transfers := c.transfers ++ [{ state with fileTransferLevel := level }] }, [])
  | answered {addrs : List String} {m : FileRelayRequest} {state : TransferState} {data : Bytes}
      (hstate : c.currentState = some state) (hdata : state.data = some data) :
      Does c (.message addrs (.fileRelayRequest m))
        (c, [.send (.fileRelay ⟨none, some state.fileId, state.fileSize, some m.requesterId,
          some (lib.base64Encode data)⟩)])
  | relayed {addrs : List String} {m : FileRelayData} {r : Relayed} (hdata : m.data = some r.b64Data) :
      Does c (.message addrs (.fileRelayData m)) ({ c with relayed := c.relayed ++ [r] }, [])
  | offered {addrs : List String} {fileId mime : String} {data : Bytes} :
      Does c (.image addrs fileId mime data) (sendImageOffer lib addrs fileId mime data c)
  | ended {i : ℕ} {a : Arrival} {state : TransferState} {ds : List Did}
      (hstate : c.transfers[i]? = some state) (hds : ∀ d ∈ ds, ∃ m, d = .send (.fileRelay m)) :
      Does c (.transferEnd i a) ({ c with transfers := c.transfers.eraseIdx i }, ds)
  | arrived {i : ℕ} {a : Arrival} {state : TransferState} {r : Received}
      (hstate : c.transfers[i]? = some state) (hrecv : received store a = some (r.file, r.method)) :
      Does c (.transferEnd i a)
        ({ c with transfers := c.transfers.eraseIdx i, posted := c.posted ++ [r] }, [])
  | dropped {i : ℕ} {written : Bool} {r : Relayed} (hr : c.relayed[i]? = some r) :
      Does c (.relayEnd i written) ({ c with relayed := c.relayed.eraseIdx i }, [])
  | decoded {i : ℕ} {written : Bool} {r : Relayed} {x : Received} (hr : c.relayed[i]? = some r)
      (hdec : lib.base64Decode r.b64Data = some x.file) :
      Does c (.relayEnd i written)
        ({ c with relayed := c.relayed.eraseIdx i, posted := c.posted ++ [x] }, [])
  | thrown {main : Main} {r : Received} {posted : List Received} (hposted : c.posted = r :: posted)
      (hthrows : main.throws = true) : Does c (.post main) ({ c with posted := posted }, [])
  | reported {main : Main} {r : Received} {posted : List Received} {d : Did}
      {res : FileTransferResult} (hposted : c.posted = r :: posted) (hthrows : main.throws = false)
      (hd : (∃ mime, d = .setImage r.file mime) ∨ ∃ name, d = .setFile name r.file)
      (hres : res.fileId = some ((c.currentState.map TransferState.fileId).getD "")) :
      Does c (.post main) ({ c with posted := posted }, [d, .send (.fileTransferResult res)])
  | destroyed : Does c .cleanup ({ c with currentState := none }, [])

variable {lib store} {c : Service}

lemma does_message (addrs : List String) (m : WsMessage) :
    Does lib store c (.message addrs m) (handleMessage lib store addrs m c) := by
  cases m with
  | helloAck m => exact .levelled
  | fileNotify m =>
    simp only [handleMessage, handleFileNotify]
    split_ifs with hlevel
    · exact .nothing hlevel
    · exact .requested hlevel rfl rfl
  | filePeerInfo m =>
    simp only [handleMessage, handleFilePeerInfo]
    cases hstate : c.currentState with
    | none => exact .nothing (.inl hstate)
    | some state =>
      dsimp only
      split_ifs with hstarted
      · exact .nothing (.inr hstarted)
      · exact .started hstate (Bool.eq_false_iff.mpr hstarted) rfl
  | fileRelayRequest m =>
    simp only [handleMessage, handleFileRelayRequest]
    cases hstate : c.currentState with
    | none =>
      have hvoid : c.currentState.bind TransferState.data = none := by rw [hstate, Option.bind_none]
      exact .nothing hvoid
    | some state =>
      dsimp only
      cases hdata : state.data with
      | none =>
        have hvoid : c.currentState.bind TransferState.data = none := by
          rw [hstate, Option.bind_some, hdata]
        exact .nothing hvoid
      | some data => exact .answered hstate hdata
  | fileRelayData m =>
    simp only [handleMessage, handleFileRelayData]
    cases hdata : m.data with
    | none => exact .nothing hdata
    | some b64 => exact .relayed hdata
  | _ => exact .nothing trivial

lemma does_transferEnd (i : ℕ) (a : Arrival) :
    Does lib store c (.transferEnd i a) (transferEnd store i a c) := by
  unfold transferEnd
  cases hstate : c.transfers[i]? with
  | none => exact .nothing hstate
  | some state =>
    dsimp only
    by_cases hsender : state.isSender = true
    · rw [if_pos hsender]
      exact .ended hstate (by simp)
    · rw [if_neg hsender]
      cases hrecv : received store a with
      | none =>
        dsimp only
        split_ifs
        · exact .ended hstate (by simp)
        · exact .ended hstate (by simp)
      | some p => exact .arrived hstate hrecv

lemma does_relayEnd (i : ℕ) (written : Bool) :
    Does lib store c (.relayEnd i written) (relayEnd lib i written c) := by
  unfold relayEnd
  cases hr : c.relayed[i]? with
  | none => exact .nothing hr
  | some r =>
    dsimp only
    cases hdec : lib.base64Decode r.b64Data with
    | none => exact .dropped hr
    | some data =>
      dsimp only
      split_ifs
      · exact .dropped hr
      · exact .decoded hr hdec

lemma does_post (main : Main) : Does lib store c (.post main) (onFileReceived main c) := by
  unfold onFileReceived
  cases hposted : c.posted with
  | nil => exact .nothing hposted
  | cons r posted =>
    dsimp only
    cases hthrows : main.throws with
    | true => exact .thrown hposted hthrows
    | false =>
      simp only [Bool.false_eq_true, if_false]
      split_ifs
      · exact .reported hposted hthrows (.inl ⟨_, rfl⟩) rfl
      · exact .reported hposted hthrows (.inr ⟨_, rfl⟩) rfl

/-- **What a step of the service can do.** -/
theorem does (c : Service) (e : Event) : Does lib store c e (step lib store c e) := by
  cases e with
  | message addrs m => exact does_message addrs m
  | image addrs fileId mime data => exact .offered
  | transferEnd i a => exact does_transferEnd i a
  | relayEnd i written => exact does_relayEnd i written
  | post main => exact does_post main
  | cleanup => exact .destroyed

end SyncClipboard.Android
