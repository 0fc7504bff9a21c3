import SyncClipboard.CString
import SyncClipboard.ServerModel

/-!
The file transfer of the Linux and Windows clients: what the WebSocket callback, the transfer
threads and the clipboard monitor do to the one `g_xfer` they share.

The monitor calls in when the clipboard has changed and the client has not suppressed the change.
What the network, the clipboard and the file system return is part of the call; the texts of a message
have been cut at a zero byte before (`Messages.cut`). The critical sections of a call make it one step; a
thread has two, its start and its end.
-/

namespace SyncClipboard.Client

open FtAuth ServerModel

inductive Platform
  | linux
  | windows
  deriving DecidableEq

/-- The configured values. -/
structure Options where
  platform : Platform
  fileTransferLevel : ℤ
  maxTransferSize : ℤ

structure Lib where
  sha256 : Bytes → String
  base64Encode : Bytes → String
  base64Decode : String → Option Bytes
  bmpToPng : Bytes → Option Bytes

/-! ### State -/

def invalidSock : ℤ := -1

/-- `TransferState`. -/
structure Xfer where
  fileId : String
  fileName : String
  mimeType : String
  fileSize : ℤ
  checksum : String
  data : Option Bytes
  sourcePath : String
  isSender : Bool
  listenFd : ℤ
  peerAddrs : List String
  peerPublicAddr : String
  fromDevice : String
  maxRelaySize : ℤ
  udpPort : ℤ
  phase : ℕ
  effFileLevel : ℤ
  sameLan : Bool
  deriving DecidableEq

def Xfer.zero : Xfer :=
  ⟨"", "", "", 0, "", none, "", false, 0, [], "", "", 0, 0, 0, 0, false⟩

/-- A transfer thread, which has a copy of `g_xfer`; it counts as active once it runs. -/
structure Thread where
  st : Xfer
  started : Bool
  deriving DecidableEq

/-- The globals of a client. -/
structure State where
  serverFileLevel : ℤ
  xfer : Xfer
  activeCount : ℕ
  threads : List Thread
  lastImgHash : String
  -- Windows only
  lastFileHash : String
  deriving DecidableEq

def start : State := ⟨3, .zero, 0, [], "", ""⟩

inductive Did
  | send (m : WsMessage)
  | natPunch (addr : String) (udpPort : ℤ)
  | close (fd : ℤ)
  | setImage (data : Bytes) (mime : String)
  | setFile (name : String) (data : Bytes)
  deriving DecidableEq

variable (lib : Lib) (opt : Options)

def effectiveFileLevel (c : State) : ℤ :=
  if c.serverFileLevel < opt.fileTransferLevel then c.serverFileLevel else opt.fileTransferLevel

/-- The characters that `CString.strncpy` copies. A part of the next one is written as zero, which is in no
C string. -/
def fitting : ℕ → List Char → List Char
  | _, [] => []
  | n, c :: cs =>
    if c.utf8Size ≤ n then c :: fitting (n - c.utf8Size) cs
    else if n = 0 then []
    else ['\x00']

def strncpy (n : ℕ) (s : String) : String := String.ofList (fitting n s.toList)

lemma fitting_eq_iff (n : ℕ) (cs : List Char) {ts : List Char} (h0 : '\x00' ∉ ts) : fitting n cs = ts ↔
    CString.strncpy n (cs.flatMap String.utf8EncodeChar) = ts.flatMap String.utf8EncodeChar := by
  induction cs generalizing n ts with
  | nil =>
    simp only [fitting, CString.strncpy, List.flatMap_nil, List.take_nil]
    cases ts with
    | nil => simp
    | cons d ts => simp [String.utf8EncodeChar_ne_nil]
  | cons c cs ih =>
    have hlen := String.length_utf8EncodeChar c
    rw [fitting, List.flatMap_cons, CString.strncpy]
    split_ifs with hfits hzero
    · rw [List.take_append, List.take_of_length_le (by omega), hlen]
      cases ts with
      | nil => simp [String.utf8EncodeChar_ne_nil]
      | cons d ts =>
        rw [List.flatMap_cons, List.cons_eq_cons, ih _ (fun hmem => h0 (List.mem_cons_of_mem _ hmem))]
        constructor
        · rintro ⟨rfl, htail⟩
          rw [← htail, CString.strncpy]
        · exact CString.utf8EncodeChar_append_inj
    · subst hzero
      cases ts with
      | nil => simp
      | cons d ts => simp [String.utf8EncodeChar_ne_nil]
    · refine iff_of_false ?_ ?_
      · rintro rfl
        exact h0 (List.mem_singleton_self _)
      · rw [List.take_append_of_le_length (by omega)]
        exact CString.take_utf8EncodeChar_ne (Nat.pos_of_ne_zero hzero) (by omega) ts

/-- **What `strcmp` finds of a copy** is what it finds of its bytes. -/
theorem strncpy_eq_iff (n : ℕ) (s : String) {t : String} (h0 : '\x00' ∉ t.toList) :
    strncpy n s = t ↔ CString.strncpy n (CString.utf8 s) = CString.utf8 t := by
  rw [strncpy, ← String.toList_inj, String.toList_ofList, fitting_eq_iff _ _ h0]
  rfl

lemma fitting_eq_self_iff (n : ℕ) (cs : List Char) :
    fitting n cs = cs ↔ (cs.flatMap String.utf8EncodeChar).length ≤ n := by
  induction cs generalizing n with
  | nil => simp [fitting]
  | cons c cs ih =>
    rw [fitting, List.flatMap_cons, List.length_append, String.length_utf8EncodeChar]
    split_ifs with hfits hzero
    · rw [List.cons_inj_right, ih]
      omega
    · have hpos := c.utf8Size_pos
      simp only [false_iff, not_le]
      omega
    · refine iff_of_false (fun heq => ?_) (by omega)
      obtain ⟨rfl, -⟩ := List.cons_eq_cons.mp heq
      have hsize : '\x00'.utf8Size = 1 := by decide
      omega

lemma strncpy_eq_self_iff (n : ℕ) (s : String) : strncpy n s = s ↔ (CString.utf8 s).length ≤ n := by
  rw [strncpy, ← String.toList_inj, String.toList_ofList, fitting_eq_self_iff]
  rfl

def ftMaxAddrs : ℕ := 8

def closeListen (x : Xfer) : List Did := if x.listenFd ≠ invalidSock then [.close x.listenFd] else []

/-- Whether `strstr` finds a text. -/
def strstr (pat : List Char) : List Char → Bool
  | [] => pat.isEmpty
  | c :: cs => pat.isPrefixOf (c :: cs) || strstr pat cs

/-- `strstr(mt, "image/") == mt`. -/
def isImage (mt : String) : Bool := "image/".toList.isPrefixOf mt.toList

/-- A received file goes to the clipboard; only Linux remembers its hash. -/
def place (mimeType fileName : String) (data : Bytes) : List Did :=
  if isImage mimeType then [.setImage data mimeType] else [.setFile fileName data]

def remember (data : Bytes) (c : State) : State :=
  match opt.platform with
  | .linux => { c with lastImgHash := lib.sha256 data }
  | .windows => c

lemma remember_same (data : Bytes) (c : State) :
    (remember lib opt data c).serverFileLevel = c.serverFileLevel ∧
      (remember lib opt data c).threads = c.threads ∧
      (remember lib opt data c).xfer = c.xfer := by
  unfold remember
  split <;> exact ⟨rfl, rfl, rfl⟩

/-! ### The WebSocket callback -/

/-- What `ft_start_server` and `ft_get_local_addresses` return. -/
structure Listening where
  fd : ℤ
  addrs : List String

def onFileNotify (l : Listening) (m : FileNotify) (c : State) : State × List Did :=
  if effectiveFileLevel opt c ≤ 0 then (c, [])
  else
    let xfer := { Xfer.zero with
      isSender := false
      fileId := strncpy 63 m.fileId
      fileName := strncpy 255 (m.fileName.getD "")
      mimeType := strncpy 63 (m.mimeType.getD "")
      checksum := strncpy 64 (m.checksum.getD "")
      fromDevice := strncpy 127 m.sender
      fileSize := m.fileSize
      maxRelaySize := m.maxRelaySize
      udpPort := m.udpPort
      listenFd := l.fd
      phase := 1 }
    ({ c with xfer := xfer },
      closeListen c.xfer ++ [.send (.fileRequest ⟨none, some m.fileId, some l.addrs⟩)])

/-- `g_xfer` as `file_peer_info` leaves it, and as the thread gets it. -/
def withPeer (m : FilePeerInfo) (x : Xfer) : Xfer :=
  { x with
    peerPublicAddr := strncpy 63 m.peerPublicAddress
    peerAddrs := (m.peerLocalAddresses.take ftMaxAddrs).map (strncpy 63)
    effFileLevel := if opt.fileTransferLevel < m.fileTransferLevel then opt.fileTransferLevel
      else m.fileTransferLevel
    sameLan := m.sameLan
    phase := 2 }

def onFilePeerInfo (m : FilePeerInfo) (c : State) : State × List Did :=
  if m.fileId ≠ c.xfer.fileId then (c, [])
  else if c.xfer.isSender = false ∧ (0 < c.activeCount ∨ 2 ≤ c.xfer.phase) then (c, [])
  else
    let st := withPeer opt m c.xfer
    -- the thread of a receiver takes the listening socket over
    ({ c with
      xfer := if st.isSender then st else { st with listenFd := invalidSock }
      threads := c.threads ++ [⟨st, false⟩] }, [])

def onFileRelayRequest (m : FileRelayRequest) (c : State) : State × List Did :=
  match c.xfer.data with
  | none => (c, [])
  | some data =>
    if data.length = 0 then (c, [])
    else (c, [.send (.fileRelay ⟨none, some c.xfer.fileId, c.xfer.fileSize, some m.requesterId,
      some (lib.base64Encode data)⟩)])

def onFileRelayData (m : FileRelayData) (c : State) : State × List Did :=
  match m.data.bind lib.base64Decode with
  | none => (c, [])
  | some dec =>
    (remember lib opt dec c,
      place (m.mimeType.getD "") (m.fileName.getD "file") dec ++
        [.send (.fileTransferResult ⟨some m.fileId, some "relay", true, 0, 0⟩)])

def onMessage (l : Listening) (m : WsMessage) (c : State) : State × List Did :=
  match m with
  | .helloAck m => ({ c with serverFileLevel := m.serverFileLevel }, [])
  | .fileNotify m => onFileNotify opt l m c
  | .filePeerInfo m => onFilePeerInfo opt m c
  | .fileRelayRequest m => onFileRelayRequest lib m c
  | .fileRelayData m => onFileRelayData lib opt m c
  -- texts have no part in file transfers; the other types are logged or ignored
  | _ => (c, [])

/-! ### The transfer threads -/

/-- The start of both threads, up to the call of `ft_nat_punch_start`. -/
def natPunch (st : Xfer) : List Did :=
  if st.sameLan = false ∧ st.peerPublicAddr ≠ "" ∧ 2 ≤ st.effFileLevel then
    [.natPunch st.peerPublicAddr st.udpPort]
  else []

def threadStart (i : ℕ) (c : State) : State × List Did :=
  match c.threads[i]? with
  | none => (c, [])
  | some t =>
    if t.started then (c, [])
    else ({ c with
      threads := c.threads.set i { t with started := true }
      activeCount := c.activeCount + 1 }, natPunch t.st)

/-- What became of the connection: the bytes received, or `none`. -/
structure Outcome where
  received : Option Bytes
  connMs : ℤ
  xferMs : ℤ

/-- The end of `receiver_thread`. -/
def receiverEnd (out : Outcome) (st : Xfer) : List Did :=
  (match out.received with
    | some data =>
      place st.mimeType st.fileName data ++
        [.send (.fileTransferResult ⟨some st.fileId, some "p2p", true, out.connMs, out.xferMs⟩)]
    | none =>
      if 3 ≤ st.effFileLevel ∧ st.fileSize ≤ st.maxRelaySize then
        [.send (.fileRelay ⟨none, some st.fileId, 0, none, none⟩)]
      else [.send (.fileTransferResult ⟨some st.fileId, some "failed", false, out.connMs, 0⟩)]) ++
    closeListen st

/-- A sender's thread ends without a message. -/
def threadEnd (i : ℕ) (out : Outcome) (c : State) : State × List Did :=
  match c.threads[i]? with
  | none => (c, [])
  | some t =>
    if t.started = false then (c, [])
    else
      let c' := { c with threads := c.threads.eraseIdx i, activeCount := c.activeCount - 1 }
      if t.st.isSender then (c', [])
      else (out.received.elim c' fun data => remember lib opt data c', receiverEnd out t.st)

/-! ### The clipboard -/

/-- What the clipboard holds: an image that is not empty, with its type; a file with its path, and
its content where it is a regular file, and whether that fits into memory; a text that is not the
last one, as it is sent. -/
structure Held where
  image : Option (String × Bytes)
  file : Option (String × Option Bytes)
  loaded : Bool
  text : Option String

def basename (sep : Char) (path : String) : String :=
  String.ofList (path.toList.reverse.takeWhile (· ≠ sep)).reverse

def fileNameOf (path : String) : String :=
  match opt.platform with
  | .linux => basename '/' path
  | .windows => if '\\' ∈ path.toList then basename '\\' path else basename '/' path

def lower (s : String) : String := String.ofList (s.toList.map Char.toLower)

/-- The type of a file, by the text after its last dot; Windows has no entry for `webp`. -/
def mimeFromExtension (filename : String) : String :=
  if '.' ∉ filename.toList then "application/octet-stream"
  else match opt.platform, lower (basename '.' filename) with
    | _, "png" => "image/png"
    | _, "jpg" => "image/jpeg"
    | _, "jpeg" => "image/jpeg"
    | _, "gif" => "image/gif"
    | .linux, "webp" => "image/webp"
    | _, "bmp" => "image/bmp"
    | _, "pdf" => "application/pdf"
    | _, "txt" => "text/plain"
    | _, _ => "application/octet-stream"

/-- The name Linux gives to an image, by whether its type mentions `jpeg`. -/
def imageName (mime : String) : String :=
  if strstr "jpeg".toList mime.toList then "clipboard.jpg" else "clipboard.png"

/-- `g_xfer` is set up for a file and the file is offered. -/
def offer (l : Listening) (x : Xfer) (c : State) : State × List Did :=
  let xfer := { x with isSender := true, listenFd := l.fd, phase := 1 }
  ({ c with xfer := xfer },
    closeListen c.xfer ++ [.send (.fileOffer ⟨none, some xfer.fileId, some xfer.fileName,
      some xfer.mimeType, xfer.fileSize, some xfer.checksum, some l.addrs⟩)])

/-- The image branch, with the hash compared and kept. -/
def offerImage (l : Listening) (uuid mime : String) (img : Bytes) (c : State) :
    State × List Did :=
  if lib.sha256 img = c.lastImgHash then (c, [])
  else
    let c := { c with lastImgHash := lib.sha256 img }
    if 0 < c.activeCount then (c, [])
    else match opt.platform with
      | .linux =>
        offer l { Xfer.zero with
          fileId := uuid
          fileName := imageName mime
          mimeType := strncpy 63 mime
          fileSize := img.length
          data := some img
          checksum := lib.sha256 img } c
      | .windows =>
        match (lib.bmpToPng img).filter fun png => decide (png ≠ []) with
        -- `g_xfer` has been reset for a sender, and nothing is offered
        | none =>
          ({ c with xfer := { Xfer.zero with
              isSender := true, fileId := uuid, listenFd := invalidSock } }, closeListen c.xfer)
        | some png =>
          offer l { Xfer.zero with
            fileId := uuid
            fileName := "clipboard.png"
            mimeType := "image/png"
            fileSize := png.length
            data := some png
            checksum := lib.sha256 png } c

/-- The file branch. Windows compares the hash, and holds the content; Linux keeps the path. -/
def offerFile (l : Listening) (uuid path : String) (content : Option Bytes) (loaded : Bool)
    (c : State) : State × List Did :=
  match content with
  | none => (c, [])
  | some data =>
    let size : ℤ := data.length
    if size ≤ 0 ∨ 1024 * 1024 * opt.maxTransferSize ≤ size then (c, [])
    else
      let xfer := { Xfer.zero with
        fileId := uuid
        fileName := strncpy 255 (fileNameOf opt path)
        mimeType := strncpy 63 (mimeFromExtension opt (fileNameOf opt path))
        fileSize := size
        checksum := lib.sha256 data }
      match opt.platform with
      | .linux =>
        if 0 < c.activeCount then (c, [])
        else offer l { xfer with sourcePath := strncpy 511 path }
          { c with lastImgHash := lib.sha256 data }
      | .windows =>
        if lib.sha256 data = c.lastFileHash then (c, [])
        else
          let c := { c with lastFileHash := lib.sha256 data }
          if loaded = false ∨ 0 < c.activeCount then (c, [])
          else offer l { xfer with data := some data } c

/-- `process_clipboard_change` on Linux, `on_clipboard_changed` on Windows. -/
def clipboardChange (l : Listening) (uuid : String) (held : Held) (c : State) :
    State × List Did :=
  let sendText : State × List Did :=
    (c, held.text.elim [] fun enc => [.send (.clipboard ⟨none, some enc, none⟩)])
  if effectiveFileLevel opt c ≤ 0 then sendText
  else match held.image with
    | some (mime, img) => offerImage lib opt l uuid mime img c
    | none => match held.file with
      | some (path, content) => offerFile lib opt l uuid path content held.loaded c
      | none => sendText

end SyncClipboard.Client
