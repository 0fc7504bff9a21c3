import SyncClipboard.Android
import SyncClipboard.Announced
import SyncClipboard.Base64

/-!
What the clients answer to a relay request.

A client holds one file, the last one that it offered or that was announced to it, and answers with
that file whatever the request asks for (`relay_answers_iff`). The Linux client holds the content of
an image, but of a file only the path, and so it has nothing to relay for a file
(`relay_fallback_iff`).
-/

namespace SyncClipboard.RelayAnswer

open FtAuth ServerModel Client Announced

/-- Every relay message with data has the id that was asked for and the bytes last offered under it,
and there is no such message unless the file that was asked for is the one held. -/
structure Answers (lib : Lib) (asked : String) (held : Option String)
    (offered : List (String × Bytes)) (ds : List Did) : Prop where
  same : ∀ m enc, Did.send (.fileRelay m) ∈ ds → m.data = some enc → m.fileId = some asked ∧
    ∃ bytes, offered.lookup asked = some bytes ∧ enc = lib.base64Encode bytes
  other : held ≠ some asked → ∀ m, Did.send (.fileRelay m) ∈ ds → m.data = none

variable {lib : Lib} {opt : Options}

lemma answers_nil (asked : String) (held : Option String) (offered : List (String × Bytes)) :
    Answers lib asked held offered [] := ⟨by simp, by simp⟩

/-- An answer with the file held is right exactly if that file was asked for. -/
lemma answers_held_iff {asked fileId target : String} {size : ℤ} {data : Bytes}
    {offered : List (String × Bytes)} (h : offered.lookup fileId = some data) :
    Answers lib asked (some fileId) offered [.send (.fileRelay ⟨none, some fileId, size, some target,
      some (lib.base64Encode data)⟩)] ↔ asked = fileId := by
  constructor
  · intro hright
    have hsame := (hright.same _ _ (List.mem_singleton.mpr rfl) rfl).1
    exact (Option.some.inj hsame).symm
  · rintro rfl
    refine ⟨?_, fun hne => absurd rfl hne⟩
    intro m enc hm henc
    have hm : m = ⟨none, some asked, size, some target, some (lib.base64Encode data)⟩ := by
      simpa using hm
    subst hm
    exact ⟨rfl, data, h, (Option.some.inj henc).symm⟩

/-! ### What the Linux and Windows clients hold -/

variable (opt) in
/-- The steps that reset `g_xfer`. -/
def resets (w : Node) : Resources.Event → Bool := Resources.resetsAt opt w.client w.pending

/-- Apart from a notification, no message changes which file is held. -/
lemma onMessage_slot {l : Listening} {m : WsMessage} {c : State} (hn : ∀ n, m ≠ .fileNotify n) :
    (onMessage lib opt l m c).1.xfer.data = c.xfer.data ∧
      (onMessage lib opt l m c).1.xfer.fileId = c.xfer.fileId := by
  cases m with
  | fileNotify n => exact absurd rfl (hn n)
  | filePeerInfo p =>
    simp only [onMessage, onFilePeerInfo]
    split_ifs <;> exact ⟨rfl, rfl⟩
  | _ =>
    rw [(Resources.onMessage_keeps (by simp) (by simp)).1]
    exact ⟨rfl, rfl⟩

variable (lib) in
/-- A step without a reset changes neither the file held nor what has been offered. -/
lemma step_slot {w : Node} {e : Resources.Event} (h : resets opt w e = false) :
    (step lib opt w e).1.client.xfer.data = w.client.xfer.data ∧
      (step lib opt w e).1.client.xfer.fileId = w.client.xfer.fileId ∧
      (step lib opt w e).1.offered = w.offered := by
  cases e with
  | message l m =>
    cases m with
    | fileNotify n =>
      have hlevel : effectiveFileLevel opt w.client ≤ 0 := by simpa [resets, Resources.resetsAt] using h
      simp [step, onMessage, onFileNotify, hlevel]
    | _ =>
      refine ⟨?_, ?_, rfl⟩
      · exact (onMessage_slot (by simp)).1
      · exact (onMessage_slot (by simp)).2
  | change held =>
    simp only [step]
    split_ifs
    · exact ⟨rfl, rfl, rfl⟩
    · dsimp only
      rw [(Resources.check_keeps held w.client).1]
      exact ⟨rfl, rfl, rfl⟩
  | offer l uuid =>
    have hnone : w.pending = none := by simpa [resets, Resources.resetsAt] using h
    simp [step, hnone]
  | threadStart i =>
    simp only [step, Resources.threadStart_xfer, and_self]
  | threadEnd i out =>
    simp only [step, Resources.threadEnd_xfer, and_self]

variable (lib opt) in
/-- An offer is held under its id, with its content if with any. -/
lemma reset_slot (l : Listening) (uuid : String) (p : Resources.Pending) (c : State) :
    (Resources.reset lib opt l uuid p c).1.xfer.fileId = uuid ∧
      ∀ data, (Resources.reset lib opt l uuid p c).1.xfer.data = some data →
        contentOf lib opt p = some data := by
  cases p with
  | image mime img =>
    simp only [Resources.reset, contentOf]
    cases opt.platform with
    | linux => exact ⟨rfl, fun _ hdata => hdata⟩
    | windows =>
      dsimp only
      split
      · exact ⟨rfl, fun _ hdata => nomatch hdata⟩
      · next png hpng => exact ⟨rfl, fun data hdata => hpng.trans hdata⟩
  | file path content =>
    simp only [Resources.reset, contentOf]
    cases opt.platform with
    | linux => exact ⟨rfl, fun _ hdata => nomatch hdata⟩
    | windows => exact ⟨rfl, fun _ hdata => hdata⟩

/-- What is held has been offered last under its id. -/
def Holds (w : Node) : Prop :=
  ∀ data, w.client.xfer.data = some data → w.offered.lookup w.client.xfer.fileId = some data

lemma step_holds (w : Node) (e : Resources.Event) (h : Holds w) : Holds (step lib opt w e).1 := by
  by_cases hre : resets opt w e = true
  · cases e with
    | message l m =>
      cases m with
      | fileNotify n =>
        have hlevel : ¬ effectiveFileLevel opt w.client ≤ 0 := by simpa [resets, Resources.resetsAt] using hre
        intro data hdata
        simp [step, onMessage, onFileNotify, hlevel, Xfer.zero] at hdata
      | _ => simp [resets, Resources.resetsAt] at hre
    | offer l uuid =>
      obtain ⟨p, hp⟩ : ∃ p, w.pending = some p := Option.isSome_iff_exists.mp hre
      obtain ⟨hid, hcontent⟩ := reset_slot lib opt l uuid p w.client
      intro data hdata
      simp only [step, hp] at hdata ⊢
      rw [hid, hcontent data hdata]
      exact List.lookup_cons_self
    | _ => simp [resets, Resources.resetsAt] at hre
  · obtain ⟨hdata, hid, hoffered⟩ := step_slot lib (Bool.eq_false_iff.mpr hre)
    intro data
    rw [hdata, hid, hoffered]
    exact h data

/-! ### What the Android client holds -/

/-- The service and what it has offered under which id, latest first. -/
structure Phone where
  service : Android.Service
  offered : List (String × Bytes)

def Phone.start : Phone := ⟨Android.start, []⟩

def androidOffers : Android.Event → List (String × Bytes)
  | .image _ fileId _ data => [(fileId, data)]
  | _ => []

def androidStep (lib : Lib) (store : Android.Store) (w : Phone) (e : Android.Event) :
    Phone × List Did :=
  let r := Android.step lib store w.service e
  (⟨r.1, androidOffers e ++ w.offered⟩, r.2)

def AndroidHolds (w : Phone) : Prop :=
  ∀ state data, w.service.currentState = some state → state.data = some data →
    w.offered.lookup state.fileId = some data

variable {store : Android.Store}

lemma AndroidHolds.keep {w : Phone} (h : AndroidHolds w) {c : Android.Service}
    (hslot : c.currentState = w.service.currentState) : AndroidHolds ⟨c, w.offered⟩ :=
  fun state data hstate => h state data (hslot.symm.trans hstate)

lemma androidStep_holds (w : Phone) (e : Android.Event) (h : AndroidHolds w) :
    AndroidHolds (androidStep lib store w e).1 := by
  unfold androidStep
  have hdoes := @Android.does lib store w.service e
  generalize Android.step lib store w.service e = next at hdoes ⊢
  cases hdoes with
  | nothing hvoid =>
    cases e with
    | image addrs fileId mime image => exact hvoid.elim
    | _ => exact h
  | requested hlevel hid hnone =>
    intro state data hstate hdata
    obtain rfl := Option.some.inj hstate
    rw [hnone] at hdata
    cases hdata
  | @started addrs m old level hold hstarted hlevel =>
    intro state data hstate hdata
    obtain rfl := Option.some.inj hstate
    exact h old data hold hdata
  | offered =>
    intro state data hstate hdata
    obtain rfl := Option.some.inj hstate
    obtain rfl := Option.some.inj hdata
    exact List.lookup_cons_self
  | destroyed => exact fun state data hstate => nomatch hstate
  | _ => exact h.keep rfl

/-! ### The answers -/

lemma answer_iff {w : Node} (h : Holds w) (l : Listening) (r : FileRelayRequest) :
    Answers lib r.fileId (some w.client.xfer.fileId) w.offered
        (step lib opt w (.message l (.fileRelayRequest r))).2 ↔
      r.fileId = w.client.xfer.fileId ∨ w.client.xfer.data.getD [] = [] := by
  simp only [step, onMessage, onFileRelayRequest]
  cases hdata : w.client.xfer.data with
  | none => exact ⟨fun _ => .inr rfl, fun _ => answers_nil _ _ _⟩
  | some data =>
    dsimp only
    by_cases hempty : data.length = 0
    · rw [if_pos hempty]
      exact ⟨fun _ => .inr (List.length_eq_zero_iff.mp hempty), fun _ => answers_nil _ _ _⟩
    · rw [if_neg hempty, answers_held_iff (h data hdata)]
      refine ⟨.inl, fun hor => hor.resolve_right fun hnil => hempty ?_⟩
      rw [show data = [] from hnil, List.length_nil]

lemma androidAnswer_iff {w : Phone} (h : AndroidHolds w) (addrs : List String)
    (r : FileRelayRequest) :
    Answers lib r.fileId (w.service.currentState.map Android.TransferState.fileId) w.offered
        (androidStep lib store w (.message addrs (.fileRelayRequest r))).2 ↔
      ∀ state, w.service.currentState = some state → r.fileId = state.fileId ∨ state.data = none := by
  simp only [androidStep, Android.step, Android.handleMessage, Android.handleFileRelayRequest]
  cases hcur : w.service.currentState with
  | none => exact ⟨fun _ state hstate => (by cases hstate), fun _ => answers_nil _ _ _⟩
  | some state =>
    cases hdata : state.data with
    | none =>
      simp only [hdata]
      refine ⟨fun _ state' hstate' => ?_, fun _ => answers_nil _ _ _⟩
      obtain rfl := Option.some.inj hstate'
      exact .inr hdata
    | some data =>
      simp only [hdata, Option.map_some]
      rw [answers_held_iff (h state data hcur hdata)]
      constructor
      · intro hasked state' hstate'
        obtain rfl := Option.some.inj hstate'
        exact .inl hasked
      · intro hall
        exact (hall state rfl).resolve_right (by simp [hdata])

/-- **Relay answers the file that was asked for.** In every run of a Linux or Windows client, and of
an Android client, the answer to a relay request is right if and only if the request asks for the
file held, or no content is held. -/
theorem relay_answers_iff (lib : Lib) (opt : Options) (store : Android.Store) :
    (∀ es l r, Answers lib r.fileId
        (some (Run.exec (step lib opt) Node.start es).client.xfer.fileId)
        (Run.exec (step lib opt) Node.start es).offered
        (step lib opt (Run.exec (step lib opt) Node.start es)
          (.message l (.fileRelayRequest r))).2 ↔
      r.fileId = (Run.exec (step lib opt) Node.start es).client.xfer.fileId ∨
        (Run.exec (step lib opt) Node.start es).client.xfer.data.getD [] = []) ∧
    (∀ es addrs r, Answers lib r.fileId
        ((Run.exec (androidStep lib store) Phone.start es).service.currentState.map
          Android.TransferState.fileId)
        (Run.exec (androidStep lib store) Phone.start es).offered
        (androidStep lib store (Run.exec (androidStep lib store) Phone.start es)
          (.message addrs (.fileRelayRequest r))).2 ↔
      ∀ state, (Run.exec (androidStep lib store) Phone.start es).service.currentState = some state →
        r.fileId = state.fileId ∨ state.data = none) := by
  refine ⟨fun es l r => ?_, fun es addrs r => ?_⟩
  · have hholds : Holds (Run.exec (step lib opt) Node.start es) :=
      Run.exec_inv step_holds (by simp [Holds, Node.start, Client.start, Xfer.zero]) es
    exact answer_iff hholds l r
  · have hholds : AndroidHolds (Run.exec (androidStep lib store) Phone.start es) :=
      Run.exec_inv androidStep_holds (by simp [AndroidHolds, Phone.start, Android.start]) es
    exact androidAnswer_iff hholds addrs r

/-- A text of characters below 256, by their numbers. -/
def ofBytes (bytes : Bytes) : String := String.ofList (bytes.map fun b => Char.ofNat b.toNat)

def toBytes (s : String) : Bytes := s.toList.map fun c => UInt8.ofNat c.toNat

lemma toBytes_ofBytes (bytes : Bytes) : toBytes (ofBytes bytes) = bytes := by
  have hall : ∀ n < 256, (Char.ofNat n).toNat = n := by decide +kernel
  have hchar : ∀ b : UInt8, UInt8.ofNat (Char.ofNat b.toNat).toNat = b := by
    intro b
    rw [hall b.toNat b.toNat_lt, UInt8.ofNat_toNat]
  simp [toBytes, ofBytes, Function.comp_def, hchar]

def sampleLib : Lib where
  sha256 data :=
    if data = [9] then "2b4c342f5433ebe591a1da77e013d1b72475562d48578dca8b84bac6651c3cb9"
    else if data = [1, 2, 3] then "039058c6f2c0cb492c533b0a4d14ef77cc0f78abccced5287d84a1a2011cfb81"
    else ""
  base64Encode data := ofBytes (Base64.encode data)
  base64Decode s := Base64.decode (toBytes s)
  bmpToPng _ := none

/-- Two images are copied and offered, one after the other. -/
def sampleCopies : List Resources.Event := [
  .change ⟨some ("image/png", [9]), none, true, none⟩,
  .offer ⟨5, ["192.168.0.3:40001"]⟩ Resources.sampleId,
  .change ⟨some ("image/png", [1, 2, 3]), none, true, none⟩,
  .offer ⟨6, ["192.168.0.3:40004"]⟩ secondId]

/-- A request for the first image is answered with the second. -/
theorem second_image_relayed :
    ¬ Answers sampleLib Resources.sampleId
      (some (Run.exec (step sampleLib sampleOptions) Node.start sampleCopies).client.xfer.fileId)
      (Run.exec (step sampleLib sampleOptions) Node.start sampleCopies).offered
      (step sampleLib sampleOptions (Run.exec (step sampleLib sampleOptions) Node.start sampleCopies)
        (.message ⟨7, []⟩ (.fileRelayRequest ⟨Resources.sampleId, "phone"⟩))).2 := by
  intro hright
  have hsent : Did.send (.fileRelay ⟨none, some secondId, 3, some "phone", some "AQID"⟩) ∈
      (step sampleLib sampleOptions (Run.exec (step sampleLib sampleOptions) Node.start sampleCopies)
        (.message ⟨7, []⟩ (.fileRelayRequest ⟨Resources.sampleId, "phone"⟩))).2 := by
    decide +kernel
  have hsame := (hright.same _ _ hsent rfl).1
  exact absurd hsame (by decide)

/-! ### The fallback of the Linux client -/

/-- The client queues relay data for a file: the id, and data that decode to its bytes, for the
device that asks. -/
def Relays (lib : Lib) (fileId target : String) (bytes : Bytes) (ds : List Did) : Prop :=
  ∃ m enc, Did.send (.fileRelay m) ∈ ds ∧ m.fileId = some fileId ∧ m.targetDevice = some target ∧
    m.data = some enc ∧ lib.base64Decode enc = some bytes

/-- As long as nothing resets `g_xfer`, the file held is the one that was offered. -/
lemma exec_slot {w : Node} {es : List Resources.Event}
    (h : Run.Steps (step lib opt) (fun w e => resets opt w e = false) w es) :
    (Run.exec (step lib opt) w es).client.xfer.data = w.client.xfer.data ∧
      (Run.exec (step lib opt) w es).client.xfer.fileId = w.client.xfer.fileId := by
  refine Run.exec_inv_of_steps (I := fun w' : Node => w'.client.xfer.data = w.client.xfer.data ∧
    w'.client.xfer.fileId = w.client.xfer.fileId) ?_ ⟨rfl, rfl⟩ h
  intro w' e hI hno
  obtain ⟨hdata, hid, -⟩ := step_slot lib hno
  exact ⟨hdata.trans hI.1, hid.trans hI.2⟩

/-- The bytes of an offer of the Linux client. -/
def bytesOf : Resources.Pending → Bytes
  | .image _ img => img
  | .file _ data => data

/-- What the Linux client holds of them in memory. -/
def heldOf : Resources.Pending → Option Bytes
  | .image _ img => some img
  | .file _ _ => none

lemma reset_data_linux (hlinux : opt.platform = .linux) (l : Listening) (uuid : String)
    (p : Resources.Pending) (c : State) :
    (Resources.reset lib opt l uuid p c).1.xfer.data = heldOf p := by
  cases p <;> simp only [Resources.reset, hlinux] <;> rfl

lemma relays_iff {w : Node} {uuid : String} {p : Resources.Pending} {maxRelaySize : ℤ}
    (hdecode : ∀ data : Bytes, data.length ≤ maxRelaySize →
      lib.base64Decode (lib.base64Encode data) = some data)
    (hsize : (bytesOf p).length ≤ maxRelaySize) (hid : w.client.xfer.fileId = uuid)
    (hdata : w.client.xfer.data = heldOf p) (l : Listening) (r : FileRelayRequest) :
    Relays lib uuid r.requesterId (bytesOf p)
        (step lib opt w (.message l (.fileRelayRequest r))).2 ↔
      ∃ mime img, p = .image mime img ∧ img ≠ [] := by
  simp only [step, onMessage, onFileRelayRequest, hdata, hid]
  cases p with
  | file path content =>
    constructor
    · rintro ⟨m, enc, hm, -⟩
      simp [heldOf] at hm
    · rintro ⟨mime, img, hp, -⟩
      cases hp
  | image mime img =>
    simp only [heldOf]
    by_cases hempty : img.length = 0
    · rw [if_pos hempty]
      constructor
      · rintro ⟨m, enc, hm, -⟩
        simp at hm
      · rintro ⟨_, _, hp, hne⟩
        cases hp
        exact absurd (List.length_eq_zero_iff.mp hempty) hne
    · rw [if_neg hempty]
      constructor
      · intro _
        exact ⟨mime, img, rfl, fun hnil => hempty (by rw [hnil, List.length_nil])⟩
      · intro _
        exact ⟨_, _, List.mem_singleton.mpr rfl, rfl, rfl, rfl, hdecode img hsize⟩

/-- **Relay fallback is complete.** In every run of the Linux client, when a relay request arrives
while an offer is still held, the client relays the bytes that were offered, if and only if it
offered an image. -/
theorem relay_fallback_iff (lib : Lib) (opt : Options) (hlinux : opt.platform = .linux)
    (maxRelaySize : ℤ)
    (hdecode : ∀ data : Bytes, data.length ≤ maxRelaySize →
      lib.base64Decode (lib.base64Encode data) = some data)
    (pre post : List Resources.Event) (l : Listening) (uuid : String) (p : Resources.Pending)
    (hoffer : (Run.exec (step lib opt) Node.start pre).pending = some p)
    (hsize : (bytesOf p).length ≤ maxRelaySize)
    (hcurrent : Run.Steps (step lib opt) (fun w e => resets opt w e = false)
      (Run.exec (step lib opt) Node.start (pre ++ [.offer l uuid])) post)
    (l' : Listening) (r : FileRelayRequest) :
    Relays lib uuid r.requesterId (bytesOf p)
        (step lib opt (Run.exec (step lib opt) Node.start (pre ++ .offer l uuid :: post))
          (.message l' (.fileRelayRequest r))).2 ↔
      ∃ mime img, p = .image mime img ∧ img ≠ [] := by
  have hsplit : Run.exec (step lib opt) Node.start (pre ++ .offer l uuid :: post) =
      Run.exec (step lib opt) (Run.exec (step lib opt) Node.start (pre ++ [.offer l uuid])) post := by
    rw [← Run.exec_append, List.append_assoc, List.singleton_append]
  obtain ⟨hdata, hid⟩ := exec_slot hcurrent
  have hreset : (Run.exec (step lib opt) Node.start (pre ++ [.offer l uuid])).client =
      (Resources.reset lib opt l uuid p (Run.exec (step lib opt) Node.start pre).client).1 := by
    rw [Run.exec_append]
    simp only [Run.exec_cons, Run.exec_nil, step, hoffer]
  rw [hreset] at hdata hid
  rw [hsplit]
  exact relays_iff hdecode hsize (hid.trans (reset_slot lib opt l uuid p _).1)
    (hdata.trans (reset_data_linux hlinux l uuid p _)) l' r

theorem copied_image_relayed :
    Relays sampleLib secondId "phone" [1, 2, 3]
      (step sampleLib sampleOptions
        (Run.exec (step sampleLib sampleOptions) Node.start
          (sampleCopies.take 3 ++ [.offer ⟨6, ["192.168.0.3:40004"]⟩ secondId, .threadStart 0]))
        (.message ⟨7, []⟩ (.fileRelayRequest ⟨secondId, "phone"⟩))).2 :=
  (relay_fallback_iff sampleLib sampleOptions rfl 1048576
    (fun data _ => by simp [sampleLib, toBytes_ofBytes, Base64.decode_encode])
    (sampleCopies.take 3) [.threadStart 0] ⟨6, ["192.168.0.3:40004"]⟩ secondId
    (.image "image/png" [1, 2, 3]) (by decide +kernel) (by decide) (by decide +kernel) ⟨7, []⟩
    ⟨secondId, "phone"⟩).mpr ⟨_, _, rfl, by decide⟩

/-- A text file is copied and offered. -/
def sampleFileCopy : List Resources.Event := [
  .change ⟨none, some ("/home/u/notes.txt", some [1, 2, 3]), true, none⟩,
  .offer ⟨5, ["192.168.0.3:40001"]⟩ Resources.sampleId]

/-- Nothing is relayed for a file. -/
theorem copied_file_not_relayed :
    (Run.exec (step sampleLib sampleOptions) Node.start sampleFileCopy).client.xfer.fileId =
        Resources.sampleId ∧
      (Run.exec (step sampleLib sampleOptions) Node.start sampleFileCopy).offered =
        [(Resources.sampleId, [1, 2, 3])] ∧
      ¬ Relays sampleLib Resources.sampleId "phone" [1, 2, 3]
        (step sampleLib sampleOptions
          (Run.exec (step sampleLib sampleOptions) Node.start sampleFileCopy)
          (.message ⟨7, []⟩ (.fileRelayRequest ⟨Resources.sampleId, "phone"⟩))).2 := by
  refine ⟨by decide +kernel, by decide +kernel, ?_⟩
  rintro ⟨m, enc, hm, -⟩
  have hnil : (step sampleLib sampleOptions
      (Run.exec (step sampleLib sampleOptions) Node.start sampleFileCopy)
      (.message ⟨7, []⟩ (.fileRelayRequest ⟨Resources.sampleId, "phone"⟩))).2 = [] := by
    decide +kernel
  rw [hnil] at hm
  cases hm

end SyncClipboard.RelayAnswer
