import SyncClipboard.Android
import SyncClipboard.Run

/-!
What a client has received when it reports success.

The bytes a client hands to its clipboard are the payload that arrived, all of it: a frame on a
connection, or the data of a relay message. Nothing compares them with the size and the checksum
that were announced. The local file and clipboard calls are taken to succeed.
-/

namespace SyncClipboard.Received

open FtAuth FtProto FileWire ServerModel Client Pieces

/-! ### Runs of the Linux and Windows clients -/

/-- What became of the connection of a receiver: what comes on it, or `none`. -/
structure Arrival where
  sock : Option (List Bytes)
  disk : Disk
  before : Option Bytes
  connMs : ℤ
  xferMs : ℤ

/-- `ft_set_max_file_size`, as both programs call it. -/
def maxFileSize (opt : Options) : UInt64 := UInt64.ofInt opt.maxTransferSize * 1024 * 1024

/-- Linux receives into a file, Windows into memory. -/
def receiver (opt : Options) (a : Arrival) : Receiver :=
  match opt.platform with
  | .linux => .ftRecvFileToPath (maxFileSize opt) a.disk a.before
  | .windows => .ftRecvFile .windows (maxFileSize opt)

def outcome (opt : Options) (a : Arrival) : Outcome :=
  ⟨a.sock.bind fun s => ((receiver opt a).receive s).map Receipt.data, a.connMs, a.xferMs⟩

inductive Event
  | message (l : Listening) (m : WsMessage)
  | copy (l : Listening) (uuid : String) (held : Held)
  | threadStart (i : ℕ)
  | threadEnd (i : ℕ) (a : Arrival)

variable (lib : Lib) (opt : Options)

def step (c : State) : Event → State × List Did
  | .message l m => onMessage lib opt l m c
  | .copy l uuid held => clipboardChange lib opt l uuid held c
  | .threadStart i => Client.threadStart i c
  | .threadEnd i a => Client.threadEnd lib opt i (outcome opt a) c

/-! ### Payloads -/

/-- The bytes a client hands to its clipboard. -/
def delivered (ds : List Did) : List Bytes :=
  ds.filterMap fun
    | .setImage data _ => some data
    | .setFile _ data => some data
    | _ => none

/-- A transfer is reported to have succeeded. -/
def reports : Did → Bool
  | .send (.fileTransferResult r) => r.success
  | _ => false

/-- The payloads that arrive with an event. -/
inductive Brings : Event → Bytes → Prop
  | p2p {i : ℕ} {a : Arrival} {pieces : List Bytes} {payload : Bytes} (hsock : a.sock = some pieces)
      (hframe : Frame (maxFileSize opt).toNat (available pieces) payload) :
      Brings (.threadEnd i a) payload
  | relay {l : Listening} {m : FileRelayData} {payload : Bytes}
      (hdata : m.data.bind lib.base64Decode = some payload) :
      Brings (.message l (.fileRelayData m)) payload

/-- The same for the Android client. -/
inductive AndroidBrings (store : Android.Store) : Android.Event → Bytes → Prop
  | p2p {i : ℕ} {a : Android.Arrival} {method : String} {pieces : List Bytes} {payload : Bytes}
      (hsock : a.sock = some (method, pieces))
      (hframe : Frame store.maxTransferBytes.toNat (available pieces) payload) :
      AndroidBrings store (.transferEnd i a) payload
  | relay {addrs : List String} {m : FileRelayData} {payload : Bytes}
      (hdata : m.data.bind lib.base64Decode = some payload) :
      AndroidBrings store (.message addrs (.fileRelayData m)) payload

/-- Where a client reports success, it hands one payload to its clipboard, which arrived before or
with this step. -/
def SuccessMeans {S E : Type} (step : S → E → S × List Did) (s : S) (B : E → Bytes → Prop) : Prop :=
  ∀ pre e, (step (Run.exec step s pre) e).2.any reports = true →
    ∃ e' ∈ pre ++ [e], ∃ payload, B e' payload ∧
      delivered (step (Run.exec step s pre) e).2 = [payload]

/-! ### One step of the Linux and Windows clients -/

/-- Nothing is reported to have succeeded. -/
def Quiet (ds : List Did) : Prop := ∀ d ∈ ds, reports d = false

lemma Quiet.append {ds es : List Did} (hd : Quiet ds) (he : Quiet es) : Quiet (ds ++ es) := by
  intro d h
  rcases List.mem_append.mp h with h | h
  · exact hd d h
  · exact he d h

lemma quiet_nil : Quiet [] := by simp [Quiet]

lemma quiet_singleton {d : Did} (h : reports d = false) : Quiet [d] := by simpa [Quiet] using h

lemma any_of_quiet {ds : List Did} (h : Quiet ds) : ds.any reports = false := by
  rw [List.any_eq_false]
  intro d hd
  simp [h d hd]

lemma quiet_closeListen (x : Xfer) : Quiet (closeListen x) := by
  unfold closeListen
  split_ifs
  · exact quiet_singleton rfl
  · exact quiet_nil

lemma delivered_closeListen (x : Xfer) : delivered (closeListen x) = [] := by
  unfold closeListen
  split_ifs <;> rfl

lemma delivered_append (ds es : List Did) : delivered (ds ++ es) = delivered ds ++ delivered es :=
  List.filterMap_append ..

lemma delivered_place (mimeType fileName : String) (data : Bytes) :
    delivered (place mimeType fileName data) = [data] := by
  unfold place
  split_ifs <;> rfl

lemma quiet_offer (l : Listening) (x : Xfer) (c : State) : Quiet (offer l x c).2 :=
  (quiet_closeListen _).append (quiet_singleton rfl)

variable {lib opt}

lemma quiet_offerImage (l : Listening) (uuid mime : String) (img : Bytes) (c : State) :
    Quiet (offerImage lib opt l uuid mime img c).2 := by
  unfold offerImage
  dsimp only
  split_ifs
  · exact quiet_nil
  · exact quiet_nil
  · cases opt.platform with
    | linux => exact quiet_offer _ _ _
    | windows =>
      dsimp only
      split
      · exact quiet_closeListen _
      · exact quiet_offer _ _ _

lemma quiet_offerFile (l : Listening) (uuid path : String) (content : Option Bytes) (loaded : Bool)
    (c : State) : Quiet (offerFile lib opt l uuid path content loaded c).2 := by
  unfold offerFile
  cases content with
  | none => exact quiet_nil
  | some data =>
    dsimp only
    split
    · exact quiet_nil
    · cases opt.platform with
      | linux =>
        dsimp only
        split_ifs
        · exact quiet_nil
        · exact quiet_offer _ _ _
      | windows =>
        dsimp only
        split_ifs
        · exact quiet_nil
        · exact quiet_nil
        · exact quiet_offer _ _ _

lemma quiet_clipboardChange (l : Listening) (uuid : String) (held : Held) (c : State) :
    Quiet (clipboardChange lib opt l uuid held c).2 := by
  have htext : Quiet (held.text.elim [] fun enc =>
      [Did.send (.clipboard ⟨none, some enc, none⟩)]) := by
    cases held.text with
    | none => exact quiet_nil
    | some enc => exact quiet_singleton rfl
  unfold clipboardChange
  dsimp only
  split_ifs
  · exact htext
  · split
    · exact quiet_offerImage _ _ _ _ _
    · split
      · exact quiet_offerFile _ _ _ _ _ _
      · exact htext

lemma quiet_threadStart (i : ℕ) (c : State) : Quiet (Client.threadStart i c).2 := by
  unfold Client.threadStart natPunch
  split
  · exact quiet_nil
  · split_ifs
    · exact quiet_nil
    · exact quiet_singleton rfl
    · exact quiet_nil

lemma quiet_onMessage {l : Listening} {m : WsMessage} {c : State}
    (h : ∀ d, m ≠ .fileRelayData d) : Quiet (onMessage lib opt l m c).2 := by
  cases m with
  | fileNotify m =>
    simp only [onMessage, onFileNotify]
    split_ifs
    · exact quiet_nil
    · exact (quiet_closeListen _).append (quiet_singleton rfl)
  | filePeerInfo m =>
    simp only [onMessage, onFilePeerInfo]
    split_ifs <;> exact quiet_nil
  | fileRelayRequest m =>
    simp only [onMessage, onFileRelayRequest]
    split
    · exact quiet_nil
    · split_ifs
      · exact quiet_nil
      · exact quiet_singleton rfl
  | fileRelayData m => exact absurd rfl (h m)
  | _ => exact quiet_nil

lemma delivered_relayData {m : FileRelayData} {c : State}
    (h : (onFileRelayData lib opt m c).2.any reports = true) :
    ∃ payload, m.data.bind lib.base64Decode = some payload ∧
      delivered (onFileRelayData lib opt m c).2 = [payload] := by
  unfold onFileRelayData at h ⊢
  cases hdec : m.data.bind lib.base64Decode with
  | none => simp [hdec] at h
  | some dec =>
    refine ⟨dec, rfl, ?_⟩
    dsimp only
    rw [delivered_append, delivered_place]
    rfl

/-- What a receiver's thread reports as received came in a frame. -/
lemma frame_of_outcome {a : Arrival} {payload : Bytes} (h : (outcome opt a).received = some payload) :
    ∃ pieces, a.sock = some pieces ∧
      Frame (maxFileSize opt).toNat (available pieces) payload := by
  obtain ⟨pieces, hsock, hmap⟩ := Option.bind_eq_some_iff.mp h
  obtain ⟨receipt, hreceipt, rfl⟩ := Option.map_eq_some_iff.mp hmap
  have hlimit : (receiver opt a).limit.toNat = (maxFileSize opt).toNat := by
    unfold receiver
    cases opt.platform <;> simp [Receiver.limit]
  refine ⟨pieces, hsock, ?_⟩
  rw [← hlimit]
  exact receive_eq_some _ hreceipt

lemma delivered_threadEnd {i : ℕ} {a : Arrival} {c : State}
    (h : (Client.threadEnd lib opt i (outcome opt a) c).2.any reports = true) :
    ∃ payload, (outcome opt a).received = some payload ∧
      delivered (Client.threadEnd lib opt i (outcome opt a) c).2 = [payload] := by
  unfold Client.threadEnd at h ⊢
  split at h
  · simp at h
  · next t hi =>
    dsimp only at h ⊢
    split_ifs at h ⊢ with hstarted hsender
    · simp at h
    · simp at h
    · dsimp only at h ⊢
      unfold receiverEnd at h ⊢
      cases hout : (outcome opt a).received with
      | some payload =>
        refine ⟨payload, rfl, ?_⟩
        dsimp only
        rw [delivered_append, delivered_append, delivered_place, delivered_closeListen]
        rfl
      | none =>
        rw [hout] at h
        dsimp only at h
        split_ifs at h
        all_goals
          rw [any_of_quiet ((quiet_singleton rfl).append (quiet_closeListen _))] at h
          cases h

/-- **Linux and Windows**: a reported success is about one payload, which has just arrived. -/
theorem step_reports {c : State} {e : Event} (h : (step lib opt c e).2.any reports = true) :
    ∃ payload, Brings lib opt e payload ∧ delivered (step lib opt c e).2 = [payload] := by
  have hquiet : ¬ Quiet (step lib opt c e).2 := fun hq => by simp [any_of_quiet hq] at h
  cases e with
  | message l m =>
    by_cases hm : ∃ d, m = .fileRelayData d
    · obtain ⟨d, rfl⟩ := hm
      obtain ⟨payload, hdata, hdel⟩ := delivered_relayData h
      exact ⟨payload, .relay hdata, hdel⟩
    · exact absurd (quiet_onMessage fun d hd => hm ⟨d, hd⟩) hquiet
  | copy l uuid held => exact absurd (quiet_clipboardChange l uuid held c) hquiet
  | threadStart i => exact absurd (quiet_threadStart i c) hquiet
  | threadEnd i a =>
    obtain ⟨payload, hrecv, hdel⟩ := delivered_threadEnd h
    obtain ⟨pieces, hsock, hframe⟩ := frame_of_outcome hrecv
    exact ⟨payload, .p2p hsock hframe, hdel⟩

/-! ### One step of the Android client -/

variable {store : Android.Store} {past : List Android.Event} {c : Android.Service}

variable (lib store c) in
/-- What a step does to the data on its way. -/
inductive Moves : Android.Event → Android.Service × List Did → Prop
  | idle {e : Android.Event} {p : Android.Service × List Did} (hrel : p.1.relayed = c.relayed)
      (hpost : p.1.posted ⊆ c.posted) (hquiet : Quiet p.2) : Moves e p
  | relayed {addrs : List String} {m : FileRelayData} {r : Android.Relayed}
      (hdata : m.data = some r.b64Data) :
      Moves (.message addrs (.fileRelayData m)) ({ c with relayed := c.relayed ++ [r] }, [])
  | received {i : ℕ} {a : Android.Arrival} {r : Android.Received} {transfers}
      (hrecv : Android.received store a = some (r.file, r.method)) :
      Moves (.transferEnd i a)
        ({ c with transfers := transfers, posted := c.posted ++ [r] }, [])
  | decoded {i : ℕ} {written : Bool} {r : Android.Relayed} {posted : List Android.Received}
      (hr : r ∈ c.relayed) (hposted : ∀ x ∈ posted, lib.base64Decode r.b64Data = some x.file) :
      Moves (.relayEnd i written)
        ({ c with relayed := c.relayed.eraseIdx i, posted := c.posted ++ posted }, [])
  | reported {main : Android.Main} {r : Android.Received} {posted : List Android.Received}
      {ds : List Did} (hposted : c.posted = r :: posted) (hdel : delivered ds = [r.file]) :
      Moves (.post main) ({ c with posted := posted }, ds)

theorem moves (c : Android.Service) (e : Android.Event) :
    Moves lib store c e (Android.step lib store c e) := by
  have hdoes := @Android.does lib store c e
  generalize Android.step lib store c e = next at hdoes ⊢
  cases hdoes with
  | requested hlevel hid hdata => exact .idle rfl (List.Subset.refl _) (quiet_singleton rfl)
  | answered hstate hdata => exact .idle rfl (List.Subset.refl _) (quiet_singleton rfl)
  | relayed hdata => exact .relayed hdata
  | offered => exact .idle rfl (List.Subset.refl _) (quiet_singleton rfl)
  | ended hstate hds =>
    refine .idle rfl (List.Subset.refl _) fun d hd => ?_
    obtain ⟨m, rfl⟩ := hds d hd
    rfl
  | arrived hstate hrecv => exact .received hrecv
  | @dropped i written r hr =>
    have hdropped : Moves lib store c (.relayEnd i written)
        ({ c with relayed := c.relayed.eraseIdx i, posted := c.posted ++ [] }, []) :=
      .decoded (List.mem_of_getElem? hr) (by simp)
    rwa [List.append_nil] at hdropped
  | decoded hr hdec => exact .decoded (List.mem_of_getElem? hr) (by simp [hdec])
  | thrown hposted hthrows =>
    exact .idle rfl (by rw [hposted]; exact List.subset_cons_self ..) quiet_nil
  | reported hposted hthrows hd hres =>
    refine .reported hposted ?_
    rcases hd with ⟨mime, rfl⟩ | ⟨name, rfl⟩ <;> rfl
  | _ => exact .idle rfl (List.Subset.refl _) quiet_nil

/-! ### Runs of the Android client -/

variable (lib store) in
/-- The payload came with an earlier event. -/
def Came (past : List Android.Event) (payload : Bytes) : Prop :=
  ∃ e ∈ past, AndroidBrings lib store e payload

lemma Came.append {payload : Bytes} (h : Came lib store past payload) (e : Android.Event) :
    Came lib store (past ++ [e]) payload := by
  obtain ⟨e', he', hb⟩ := h
  exact ⟨e', List.mem_append_left _ he', hb⟩

lemma came_now {e : Android.Event} {payload : Bytes} (h : AndroidBrings lib store e payload) :
    Came lib store (past ++ [e]) payload :=
  ⟨e, List.mem_append_right _ (List.mem_singleton_self e), h⟩

variable (lib store) in
/-- Relayed data that waits for the executor, and files on their way to the main thread, have come
with earlier events. -/
structure Traced (past : List Android.Event) (c : Android.Service) : Prop where
  relayed : ∀ r ∈ c.relayed, ∀ payload, lib.base64Decode r.b64Data = some payload →
    Came lib store past payload
  posted : ∀ r ∈ c.posted, Came lib store past r.file

lemma traced_start : Traced lib store [] Android.start where
  relayed _ hr := absurd hr List.not_mem_nil
  posted _ hr := absurd hr List.not_mem_nil

lemma Traced.append (h : Traced lib store past c) (e : Android.Event) :
    Traced lib store (past ++ [e]) c where
  relayed r hr payload hdec := (h.relayed r hr payload hdec).append e
  posted r hr := (h.posted r hr).append e

/-- What the executor has received on a connection came in a frame. -/
lemma brings_of_received {i : ℕ} {a : Android.Arrival} {file : Bytes} {method : String}
    (h : Android.received store a = some (file, method)) :
    AndroidBrings lib store (.transferEnd i a) file := by
  obtain ⟨⟨method', pieces⟩, hsock, hmap⟩ := Option.bind_eq_some_iff.mp h
  obtain ⟨receipt, hreceipt, heq⟩ := Option.map_eq_some_iff.mp hmap
  cases heq
  exact .p2p hsock (receive_eq_some _ hreceipt)

variable {e : Android.Event} {p : Android.Service × List Did}

lemma Moves.traced (hm : Moves lib store c e p) (h : Traced lib store past c) :
    Traced lib store (past ++ [e]) p.1 := by
  have hpast := h.append e
  cases hm with
  | idle hrel hpost hquiet =>
    exact ⟨fun r hr => hpast.relayed r (hrel ▸ hr), fun r hr => hpast.posted r (hpost hr)⟩
  | relayed hdata =>
    refine ⟨fun r' hr' payload hdec => ?_, hpast.posted⟩
    rcases List.mem_append.mp hr' with hr' | hr'
    · exact hpast.relayed r' hr' payload hdec
    · rw [List.mem_singleton.mp hr'] at hdec
      exact came_now (.relay (by rw [hdata]; exact hdec))
  | received hrecv =>
    refine ⟨hpast.relayed, fun r' hr' => ?_⟩
    rcases List.mem_append.mp hr' with hr' | hr'
    · exact hpast.posted r' hr'
    · rw [List.mem_singleton.mp hr']
      exact came_now (brings_of_received hrecv)
  | decoded hr hposted =>
    refine ⟨fun r' hr' => hpast.relayed r' (List.mem_of_mem_eraseIdx hr'), fun r' hr' => ?_⟩
    rcases List.mem_append.mp hr' with hr' | hr'
    · exact hpast.posted r' hr'
    · exact hpast.relayed _ hr _ (hposted r' hr')
  | reported hposted hdel =>
    refine ⟨hpast.relayed, fun r' hr' => hpast.posted r' ?_⟩
    rw [hposted]
    exact List.mem_cons_of_mem _ hr'

/-- **Android**: a reported success is about one file, which has been posted to the main thread. -/
theorem Moves.reports (hm : Moves lib store c e p) (h : p.2.any reports = true) :
    ∃ r ∈ c.posted, delivered p.2 = [r.file] := by
  have hloud : ¬ Quiet p.2 := fun hq => by simp [any_of_quiet hq] at h
  cases hm with
  | idle hrel hpost hquiet => exact absurd hquiet hloud
  | relayed hdata => exact absurd quiet_nil hloud
  | received hrecv => exact absurd quiet_nil hloud
  | decoded hr hposted => exact absurd quiet_nil hloud
  | @reported main r posted ds hposted hdel => exact ⟨r, by simp [hposted], hdel⟩

/-! ### Whole runs -/

variable (lib) in
/-- **A reported success is about what arrived**: in every run of a client, one payload, complete as
it came on a connection or in a relay message, is handed to the clipboard. -/
theorem success_means :
    (∀ opt, SuccessMeans (step lib opt) Client.start (Brings lib opt)) ∧
      ∀ store, SuccessMeans (Android.step lib store) Android.start (AndroidBrings lib store) := by
  constructor
  · intro opt pre e h
    obtain ⟨payload, hb, hdel⟩ := step_reports h
    exact ⟨e, List.mem_append_right _ (by simp), payload, hb, hdel⟩
  · intro store pre e h
    have htraced : Traced lib store ([] ++ pre) (Run.exec (Android.step lib store) Android.start pre) :=
      Run.exec_inv_of_past (I := Traced lib store) (fun _ c e ht => (moves c e).traced ht)
        traced_start pre
    obtain ⟨r, hr, hdel⟩ := (moves _ e).reports h
    obtain ⟨e', he', hb⟩ := htraced.posted r hr
    exact ⟨e', List.mem_append_left _ he', r.file, hb, hdel⟩

/-! ### The announced file -/

/-- What a success would mean if the announcement were compared with what arrived. -/
def AnnouncedReceived (lib : Lib) (opt : Options) : Prop :=
  ∀ pre e l m r, Event.message l (.fileNotify m) ∈ pre →
    Did.send (.fileTransferResult r) ∈ (step lib opt (Run.exec (step lib opt) Client.start pre) e).2 →
    r.success = true → r.fileId = some m.fileId →
    ∀ payload ∈ delivered (step lib opt (Run.exec (step lib opt) Client.start pre) e).2,
      (payload.length : ℤ) = m.fileSize ∧ some (lib.sha256 payload) = m.checksum

/-- The digests of two files; base64 of one of them. -/
def sampleLib : Lib where
  sha256 data :=
    if data = [1, 2, 3] then "039058c6f2c0cb492c533b0a4d14ef77cc0f78abccced5287d84a1a2011cfb81"
    else if data = [9] then "2b4c342f5433ebe591a1da77e013d1b72475562d48578dca8b84bac6651c3cb9"
    else ""
  base64Encode data := if data = [9] then "CQ==" else ""
  base64Decode s := if s = "CQ==" then some [9] else none
  bmpToPng _ := none

def sampleNotify : FileNotify :=
  ⟨"123e4567-e89b-12d3-a456-426614174000", some "a.bin", some "application/octet-stream", 3,
    some (sampleLib.sha256 [1, 2, 3]), "laptop", [], "", 1048576, 0, 3⟩

def samplePeer : FilePeerInfo := ⟨sampleNotify.fileId, "laptop", ["192.168.0.2:9999"], "", true,
  "receiver", 3⟩

def sampleOptions : Options := ⟨.linux, 3, 10⟩

/-- The announced file has three bytes, and another one of one byte comes on the connection. -/
def samplePast : List Event :=
  [.message ⟨5, []⟩ (.fileNotify sampleNotify), .message ⟨5, []⟩ (.filePeerInfo samplePeer),
    .threadStart 0]

def sampleArrival : Arrival :=
  ⟨some [ftMagic ++ ascii sampleNotify.fileId ++ [0, 0, 0, 0, 0, 0, 0, 1] ++ [9]], ⟨true, 100⟩, none,
    2, 1⟩

/-- A file that was not announced is reported as received. -/
theorem other_file_reported : ¬ AnnouncedReceived sampleLib sampleOptions := by
  intro h
  have hsize := (h samplePast (.threadEnd 0 sampleArrival) ⟨5, []⟩ sampleNotify
    ⟨some sampleNotify.fileId, some "p2p", true, 2, 1⟩ (by simp [samplePast]) (by decide +kernel) rfl
    rfl [9] (by decide +kernel)).1
  exact absurd hsize (by decide)

end SyncClipboard.Received
