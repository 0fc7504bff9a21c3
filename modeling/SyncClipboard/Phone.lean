import SyncClipboard.Android
import SyncClipboard.Connection

/-!
The clipboard of the Android client: the two services that listen to it, and the activity that reads it
for them.

Every change of the clipboard calls the listeners of both services, at some later time each. All of them
run on the main thread, so a callback is one step. Both services run. What a callback is allowed to
read, and what else it meets, is part of the step.
-/

namespace SyncClipboard.Phone

open FtAuth ServerModel Client Android

/-- What the content resolver says about a URI: its type, and its content. -/
structure Uri where
  type : Option String
  stream : Option Bytes

/-- The first item of a clip, and whether the description names an image type. -/
structure Clip where
  describesImage : Bool
  uri : Option Uri
  text : Option String

/-- Functions of the platform. -/
structure Platform where
  /-- the image that is decoded and compressed again -/
  encodePng : Bytes → Bytes
  /-- a file, through the file provider -/
  fileClip : String → Bytes → Clip
  hashCode : String → String

structure State where
  service : Service
  loggedIn : Bool
  suppressNext : Bool
  lastClipHash : String
  lastImgHash : String
  -- of the accessibility service
  seenClipHash : String
  clip : Clip
  -- callbacks that have not run yet: of the two listeners, of the reader and of announcements
  serviceCalls : ℕ
  accessibilityCalls : ℕ
  readers : ℕ
  announcements : ℕ

/-- What `primaryClip` returns: the clip, `null` or a `SecurityException`, or another exception. -/
inductive Access
  | clip
  | null
  | throws
  deriving DecidableEq

/-- What a callback meets. -/
structure Reading where
  access : Access
  -- the content of a URI can be read
  opens : Bool
  -- the text that is selected in the window
  selected : Option String
  -- the reader was not launched in the last two seconds
  launches : Bool
  encrypt : String → Option String
  fileId : String
  localAddresses : List String

variable (lib : Lib) (store : Store) (platform : Platform)

def State.setPrimaryClip (clip : Clip) (p : State) : State :=
  { p with
    clip := clip
    serviceCalls := p.serviceCalls + 1
    accessibilityCalls := p.accessibilityCalls + 1 }

/-- `primaryClip`, where every failure counts as `null`. -/
def primaryClip (r : Reading) (p : State) : Option Clip :=
  if r.access = .clip then some p.clip else none

def read (r : Reading) (uri : Uri) : Option Bytes := if r.opens then uri.stream else none

/-! ### Sending -/

/-- A text goes out, unless it is the one that was last sent or received. -/
def sendText (r : Reading) (text : String) (p : State) : State × List Did :=
  let hash := platform.hashCode text
  if hash = p.lastClipHash then (p, [])
  else
    ({ p with lastClipHash := hash },
      ((r.encrypt text).map fun enc => .send (.clipboard ⟨none, some enc, none⟩)).toList)

/-- An image is offered, unless it is the one that was last offered. -/
def sendImage (r : Reading) (data : Bytes) (mime : String) (p : State) : State × List Did :=
  let imgHash := lib.sha256 data
  if imgHash = p.lastImgHash then (p, [])
  else
    let next := sendImageOffer lib r.localAddresses r.fileId mime data p.service
    ({ p with lastImgHash := imgHash, service := next.1 }, next.2)

def sendClipboardFromExternal (r : Reading) (text : String) (p : State) : State × List Did :=
  if p.loggedIn = false then (p, []) else sendText platform r text p

def sendImageFromExternal (r : Reading) (data : Bytes) (mime : String) (p : State) :
    State × List Did :=
  if p.loggedIn = false then (p, []) else sendImage lib r data mime p

/-! ### ClipboardService -/

def pickImageMime (clip : Clip) : Option String :=
  if clip.describesImage then
    some ((clip.uri.bind Uri.type).getD "image/png")
  else (clip.uri.bind Uri.type).filter isImage

/-- The image that `checkAndSendImageClipboard` finds. -/
def imageOf (r : Reading) (clip : Clip) : Option (Bytes × String) :=
  (pickImageMime clip).bind fun mime =>
    ((clip.uri.bind (read r)).filter fun data => decide (data ≠ [])).map fun data => (data, mime)

/-- `none` where nothing is offered. -/
def checkAndSendImageClipboard (r : Reading) (clip : Clip) (p : State) :
    Option (State × List Did) :=
  if store.fileTransferLevel ≤ 0 ∨ p.service.serverFileLevel ≤ 0 then none
  else match imageOf r clip with
    | none => none
    | some (data, mime) =>
      if lib.sha256 data = p.lastImgHash then none else some (sendImage lib r data mime p)

/-- `onClipboardChanged` of the service. It launches the reader only where the other service does not
run. -/
def serviceChanged (r : Reading) (p : State) : State × List Did :=
  if p.loggedIn = false then (p, [])
  else if p.suppressNext then ({ p with suppressNext := false }, [])
  else match primaryClip r p with
    | none => (p, [])
    | some clip =>
      match checkAndSendImageClipboard lib store r clip p with
      | some next => next
      | none =>
        match clip.text.filter fun text => decide (text ≠ "") with
        | none => (p, [])
        | some text => sendText platform r text p

def handleClipboardMsg (plaintext : String) (p : State) : State :=
  { ({ p with suppressNext := true }.setPrimaryClip ⟨false, none, some plaintext⟩) with
    lastClipHash := platform.hashCode plaintext }

/-- The clip that `onFileReceived` makes of an image. -/
def imageClip (png : Bytes) : Clip := ⟨true, some ⟨some "image/png", some png⟩, none⟩

/-- The clipboard part of the post of `onFileReceived`. -/
def place (p : State) : Did → State
  | .setImage data _ =>
    { p with suppressNext := true }.setPrimaryClip (imageClip (platform.encodePng data))
  | .setFile name data => { p with suppressNext := true }.setPrimaryClip (platform.fileClip name data)
  | _ => p

def observeState (x : Connection.State) (p : State) : State :=
  match x with
  | .connected => { p with loggedIn := true }
  | .disconnected | .authFailed => { p with loggedIn := false }
  | .connecting | .idle => p

/-! ### ClipboardAccessibilityService -/

def forwardToClipboardService (r : Reading) (text : String) (p : State) : State × List Did :=
  let hash := platform.hashCode text
  if hash = p.seenClipHash then (p, [])
  else sendClipboardFromExternal platform r text { p with seenClipHash := hash }

def forwardImageToClipboardService (r : Reading) (uri : Uri) (p : State) : State × List Did :=
  match uri.type.filter isImage, (read r uri).filter fun data => decide (data ≠ []) with
  | some mime, some data => sendImageFromExternal lib r data mime p
  | _, _ => (p, [])

def launchClipboardReader (r : Reading) (p : State) : State :=
  if r.launches then { p with readers := p.readers + 1 } else p

/-- The selected text goes out, or the reader is launched. -/
def readSelectedOrLaunch (r : Reading) (p : State) : State × List Did :=
  match r.selected.filter fun text => decide (text ≠ "") with
  | some text => forwardToClipboardService platform r text p
  | none => (launchClipboardReader r p, [])

/-- `onClipboardChanged` of the accessibility service. -/
def accessibilityChanged (r : Reading) (p : State) : State × List Did :=
  match r.access with
  | .throws => (p, [])
  | .null => readSelectedOrLaunch platform r p
  | .clip =>
    match p.clip.text.filter (fun text => decide (text ≠ "")), p.clip.uri with
    | some text, _ => forwardToClipboardService platform r text p
    | none, some uri => forwardImageToClipboardService lib r uri p
    | none, none => readSelectedOrLaunch platform r p

/-- What `onAccessibilityEvent` posts for an announcement about copying. -/
def announcementPost (r : Reading) (p : State) : State × List Did :=
  match r.selected.filter fun text => decide (text ≠ "") with
  | some text => forwardToClipboardService platform r text p
  | none =>
    match (primaryClip r p).bind fun clip => clip.text.filter fun text => decide (text ≠ "") with
    | some text => forwardToClipboardService platform r text p
    | none => (launchClipboardReader r p, [])

/-! ### ClipboardReaderActivity -/

def readClipboard (r : Reading) (p : State) : State × List Did :=
  match primaryClip r p with
  | none => (p, [])
  | some clip =>
    match (clip.uri.bind Uri.type).filter isImage,
        (clip.uri.bind (read r)).filter fun data => decide (data ≠ []) with
    | some mime, some data => sendImageFromExternal lib r data mime p
    | _, _ =>
      match clip.text.filter fun text => decide (text ≠ "") with
      | some text => sendClipboardFromExternal platform r text p
      | none => (p, [])

/-! ### Runs -/

inductive Event
  /-- the user copies -/
  | copy (clip : Clip)
  /-- a text of a peer -/
  | text (plaintext : String)
  /-- file transfer -/
  | transfer (e : Android.Event)
  | state (x : Connection.State)
  | serviceCall (r : Reading)
  | accessibilityCall (r : Reading)
  | reader (r : Reading)
  | announcement
  | announced (r : Reading)

def step (p : State) : Event → State × List Did
  | .copy clip => (p.setPrimaryClip clip, [])
  | .text plaintext => (handleClipboardMsg platform plaintext p, [])
  -- images are offered by the callbacks only
  | .transfer (.image _ _ _ _) => (p, [])
  | .transfer e =>
    let next := Android.step lib store p.service e
    (next.2.foldl (place platform) { p with service := next.1 }, next.2)
  | .state x => (observeState x p, [])
  | .serviceCall r =>
    if p.serviceCalls = 0 then (p, [])
    else serviceChanged lib store platform r { p with serviceCalls := p.serviceCalls - 1 }
  | .accessibilityCall r =>
    if p.accessibilityCalls = 0 then (p, [])
    else accessibilityChanged lib platform r
      { p with accessibilityCalls := p.accessibilityCalls - 1 }
  | .reader r =>
    if p.readers = 0 then (p, [])
    else readClipboard lib platform r { p with readers := p.readers - 1 }
  | .announcement => ({ p with announcements := p.announcements + 1 }, [])
  | .announced r =>
    if p.announcements = 0 then (p, [])
    else announcementPost platform r { p with announcements := p.announcements - 1 }

end SyncClipboard.Phone
