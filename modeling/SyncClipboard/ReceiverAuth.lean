import SyncClipboard.Run
import SyncClipboard.FtAuth

/-!
The receiver's side of the handshake, with an adversary that forwards.

One sender and one receiver of the same file share a key. The adversary has connections to both
and sends on them what it likes, except that a tag it has not been shown is out of its reach. The
sender's message is the same on every connection, and nothing in it names the connection it is
meant for. So whoever is shown it can show it to the receiver, and the receiver is safe exactly as
long as the sender does not run its handshake with the adversary (`receiver_safe`).

The Android functions decide as the C functions do (`FtAuth.authSend_eq`, `FtAuth.authRecv_eq`).
-/

namespace SyncClipboard.ReceiverAuth

open Pieces FtAuth

abbrev Conn := ℕ

/-- Who is at the two ends of a connection. -/
inductive Ends
  | senderAdversary
  | receiverAdversary
  | senderReceiver
  deriving DecidableEq

/-- Where a handshake stands: not begun, the message sent, or ended with a code. -/
inductive Handshake
  | idle
  | waiting (takes : List ℕ)
  | ended (code : ℤ)
  deriving DecidableEq

/-- The pieces on their way to each side, the bytes the adversary has seen on each connection, the
two sides' handshakes, and the bytes the receiver has stored. -/
structure Net where
  toSender : Conn → List Bytes
  toReceiver : Conn → List Bytes
  seen : Conn → Bytes
  sender : Conn → Handshake
  receiver : Conn → Handshake
  stored : List (Conn × Bytes)

def start : Net := ⟨fun _ => [], fun _ => [], fun _ => [], fun _ => .idle, fun _ => .idle, []⟩

inductive Label
  | adversarySend (c : Conn) (bs : Bytes)
  /-- `ft_auth_send` sends its message. -/
  | senderStart (c : Conn) (takes : List ℕ)
  /-- `ft_auth_send` looks at the answer and returns. -/
  | senderFinish (c : Conn)
  /-- `ft_auth_recv` looks at what has arrived, answers and returns. -/
  | receiverRun (c : Conn) (takes : List ℕ)
  /-- `ft_recv_file` takes what follows the handshake. -/
  | receiveFile (c : Conn)

variable (H : Bytes → Bytes → Bytes) (ends : Conn → Ends) (fileId keyHex : Bytes)

/-- What the sender puts on a connection. -/
def Net.fromSender (s : Net) (c : Conn) (bs : Bytes) : Net :=
  if ends c = .senderAdversary then { s with seen := Function.update s.seen c (s.seen c ++ bs) }
  else { s with toReceiver := Function.update s.toReceiver c (s.toReceiver c ++ [bs]) }

/-- What the receiver puts on a connection. -/
def Net.fromReceiver (s : Net) (c : Conn) (bs : Bytes) : Net :=
  if ends c = .receiverAdversary then { s with seen := Function.update s.seen c (s.seen c ++ bs) }
  else { s with toSender := Function.update s.toSender c (s.toSender c ++ [bs]) }

/-- The peer of a side that finds these pieces whatever it has sent. -/
def arrived (takes : List ℕ) (pieces : List Bytes) : Peer := ⟨takes, fun _ => pieces⟩

/-- One step of one party. A label that does not fit does nothing. -/
def step (s : Net) : Label → Net × List Unit
  | .adversarySend c bs =>
    match ends c with
    | .senderAdversary =>
      ({ s with toSender := Function.update s.toSender c (s.toSender c ++ [bs]) }, [])
    | .receiverAdversary =>
      ({ s with toReceiver := Function.update s.toReceiver c (s.toReceiver c ++ [bs]) }, [])
    | .senderReceiver => (s, [])
  | .senderStart c takes =>
    if ends c ≠ .receiverAdversary ∧ s.sender c = .idle then
      let sent := (ftAuthSend H (arrived takes []) fileId keyHex).sent
      ({ s.fromSender ends c sent with
          sender := Function.update s.sender c (.waiting takes) }, [])
    else (s, [])
  | .senderFinish c =>
    match s.sender c with
    | .waiting takes =>
      let code := (ftAuthSend H (arrived takes (s.toSender c)) fileId keyHex).code
      ({ s with sender := Function.update s.sender c (.ended code) }, [])
    | _ => (s, [])
  | .receiverRun c takes =>
    if ends c ≠ .senderAdversary ∧ s.receiver c = .idle then
      let r := ftAuthRecv H (arrived takes (s.toReceiver c)) fileId keyHex
      ({ s.fromReceiver ends c r.sent with
          receiver := Function.update s.receiver c (.ended r.code) }, [])
    else (s, [])
  | .receiveFile c =>
    if s.receiver c = .ended 0 then
      ({ s with stored := s.stored ++ [(c, (available (s.toReceiver c)).drop 36)] }, [])
    else (s, [])

/-- The tag of the file under the shared key. -/
def tag : Bytes := (ftComputeHmac H fileId keyHex).getD []

/-- Without the key the adversary sends the tag only after it has seen it. -/
def Keyless (s : Net) : Label → Prop
  | .adversarySend c bs =>
    tag H fileId keyHex <:+: ((s.toSender c ++ [bs]).flatten) ∨
        tag H fileId keyHex <:+: ((s.toReceiver c ++ [bs]).flatten) →
      ∃ c', tag H fileId keyHex <:+: s.seen c'
  | _ => True

/-- The sender begins its handshake with the adversary. -/
def Shows : Label → Prop
  | .senderStart c _ => ends c = .senderAdversary
  | _ => False

/-- The receiver has accepted no connection of the adversary, and stored nothing from one. -/
def ReceiverSafe (s : Net) : Prop :=
  ∀ c, ends c = .receiverAdversary →
    s.receiver c ≠ .ended 0 ∧ ∀ bs, (c, bs) ∉ s.stored

/-! ### While the sender shows nothing -/

variable {H ends fileId keyHex}

lemma tag_length (hH : ∀ k m, (H k m).length = 32) (hk : ValidKey keyHex) :
    (tag H fileId keyHex).length = 32 := by
  obtain ⟨key, hc, -⟩ := hmac_valid hH hk fileId
  simp [tag, hc, hH]

lemma tag_of_code (hH : ∀ k m, (H k m).length = 32) (hk : ValidKey keyHex) {takes : List ℕ}
    {pieces : List Bytes} (h : (ftAuthRecv H (arrived takes pieces) fileId keyHex).code = 0) :
    tag H fileId keyHex <:+: pieces.flatten := by
  obtain ⟨key, hc, -⟩ := hmac_valid hH hk fileId
  have hpre := ((ftAuthRecv_code hc (hH _ _)).mp h).1
  have htag : tag H fileId keyHex = H key fileId := by simp [tag, hc]
  have hframe : H key fileId <:+: authFrame (H key fileId) := (List.suffix_append _ _).isInfix
  rw [htag]
  exact hframe.trans (hpre.trans (available_isPrefixOf pieces)).isInfix

variable (H ends fileId keyHex) in
/-- The adversary has seen at most the four bytes the receiver answers with, once on each
connection, and has not sent the tag. -/
structure Unshown (s : Net) : Prop where
  short : ∀ c, (s.seen c).length ≤ 4
  fresh : ∀ c, s.receiver c = .idle → s.seen c = []
  untagged : ∀ c, ends c = .receiverAdversary → ¬ tag H fileId keyHex <:+: (s.toReceiver c).flatten
  safe : ReceiverSafe ends s

lemma unshown_start (hlen : (tag H fileId keyHex).length = 32) :
    Unshown H ends fileId keyHex start where
  short c := by simp [start]
  fresh c _ := rfl
  untagged c _ h := by
    have hle : (tag H fileId keyHex).length ≤ 0 := h.length_le
    omega
  safe c _ := ⟨by simp [start], by simp [start]⟩

lemma Unshown.not_seen {s : Net} (h : Unshown H ends fileId keyHex s)
    (hlen : (tag H fileId keyHex).length = 32) (c : Conn) : ¬ tag H fileId keyHex <:+: s.seen c := by
  intro hseen
  have hle := hseen.length_le
  have hshort := h.short c
  omega

lemma Unshown.adversarySend {s : Net} (h : Unshown H ends fileId keyHex s)
    (hlen : (tag H fileId keyHex).length = 32) {c : Conn} {bs : Bytes}
    (hok : Keyless H fileId keyHex s (.adversarySend c bs)) :
    Unshown H ends fileId keyHex (step H ends fileId keyHex s (.adversarySend c bs)).1 := by
  cases hends : ends c with
  | senderAdversary =>
    simp only [step, hends]
    exact ⟨h.short, h.fresh, h.untagged, h.safe⟩
  | receiverAdversary =>
    simp only [step, hends]
    refine ⟨h.short, h.fresh, fun c' hc' htag => ?_, h.safe⟩
    dsimp only at htag
    by_cases hcc : c' = c
    · subst hcc
      rw [Function.update_self] at htag
      obtain ⟨x, hx⟩ := hok (.inr htag)
      exact h.not_seen hlen x hx
    · rw [Function.update_of_ne hcc] at htag
      exact h.untagged c' hc' htag
  | senderReceiver =>
    simp only [step, hends]
    exact h

lemma Unshown.senderStart {s : Net} (h : Unshown H ends fileId keyHex s) {c : Conn}
    {takes : List ℕ} (hok : ¬ Shows ends (.senderStart c takes)) :
    Unshown H ends fileId keyHex (step H ends fileId keyHex s (.senderStart c takes)).1 := by
  have hc : ends c ≠ .senderAdversary := hok
  simp only [step]
  split_ifs with hgo
  · rw [Net.fromSender, if_neg hc]
    refine ⟨h.short, h.fresh, fun c' hc' => ?_, h.safe⟩
    have hcc : c' ≠ c := by
      rintro rfl
      exact hgo.1 hc'
    show ¬ _ <:+: (Function.update s.toReceiver c _ c').flatten
    rw [Function.update_of_ne hcc]
    exact h.untagged c' hc'
  · exact h

lemma Unshown.receiverRun {s : Net} (h : Unshown H ends fileId keyHex s)
    (hH : ∀ k m, (H k m).length = 32) (hk : ValidKey keyHex) (c : Conn) (takes : List ℕ) :
    Unshown H ends fileId keyHex (step H ends fileId keyHex s (.receiverRun c takes)).1 := by
  simp only [step]
  split_ifs with hgo
  · -- the answer is short, and the verdict on a connection of the adversary is a refusal
    have hfour := ftAuthRecv_sent (H := H) (arrived takes (s.toReceiver c)) fileId keyHex
    have hcode : ends c = .receiverAdversary →
        (ftAuthRecv H (arrived takes (s.toReceiver c)) fileId keyHex).code ≠ 0 :=
      fun hc h0 => h.untagged c hc (tag_of_code hH hk h0)
    generalize ftAuthRecv H (arrived takes (s.toReceiver c)) fileId keyHex = r at hfour hcode
    have hseen : ∀ c', ((s.fromReceiver ends c r.sent).seen c').length ≤ 4 ∧
        (c' ≠ c → (s.fromReceiver ends c r.sent).seen c' = s.seen c') := by
      intro c'
      unfold Net.fromReceiver
      split_ifs
      · dsimp only
        by_cases hcc : c' = c
        · subst hcc
          simpa [h.fresh c' hgo.2] using hfour
        · rw [Function.update_of_ne hcc]
          exact ⟨h.short c', fun _ => rfl⟩
      · exact ⟨h.short c', fun _ => rfl⟩
    have hsame : (s.fromReceiver ends c r.sent).toReceiver = s.toReceiver ∧
        (s.fromReceiver ends c r.sent).stored = s.stored := by
      unfold Net.fromReceiver
      split_ifs <;> exact ⟨rfl, rfl⟩
    refine ⟨fun c' => (hseen c').1, fun c' hidle => ?_, fun c' hc' => ?_, fun c' hc' => ?_⟩
    · have hcc : c' ≠ c := by
        rintro rfl
        simp at hidle
      dsimp only at hidle
      rw [Function.update_of_ne hcc] at hidle
      rw [(hseen c').2 hcc]
      exact h.fresh c' hidle
    · rw [hsame.1]
      exact h.untagged c' hc'
    · refine ⟨?_, fun bs => ?_⟩
      · dsimp only
        by_cases hcc : c' = c
        · subst hcc
          simpa using hcode hc'
        · rw [Function.update_of_ne hcc]
          exact (h.safe c' hc').1
      · rw [hsame.2]
        exact (h.safe c' hc').2 bs
  · exact h

lemma Unshown.step {s : Net} (h : Unshown H ends fileId keyHex s)
    (hH : ∀ k m, (H k m).length = 32) (hk : ValidKey keyHex) {l : Label}
    (hok : Keyless H fileId keyHex s l) (hshow : ¬ Shows ends l) :
    Unshown H ends fileId keyHex (step H ends fileId keyHex s l).1 := by
  cases l with
  | adversarySend c bs => exact h.adversarySend (tag_length hH hk) hok
  | senderStart c takes => exact h.senderStart hshow
  | senderFinish c =>
    simp only [ReceiverAuth.step]
    split
    · exact ⟨h.short, h.fresh, h.untagged, h.safe⟩
    · exact h
  | receiverRun c takes => exact h.receiverRun hH hk c takes
  | receiveFile c =>
    simp only [ReceiverAuth.step]
    split_ifs with hacc
    · refine ⟨h.short, h.fresh, h.untagged, fun c' hc' => ⟨(h.safe c' hc').1, fun bs hmem => ?_⟩⟩
      rcases List.mem_append.mp hmem with hmem | hmem
      · exact (h.safe c' hc').2 bs hmem
      · obtain ⟨rfl, -⟩ := Prod.mk.inj (List.mem_singleton.mp hmem)
        exact (h.safe c' hc').1 hacc
    · exact h

/-! ### Once it has shown its message -/

/-- The adversary forwards the sender's message to the receiver. -/
def forward (H : Bytes → Bytes → Bytes) (fileId keyHex : Bytes) (r : Conn) : List Label :=
  [.adversarySend r (authFrame (tag H fileId keyHex)), .receiverRun r [4]]

lemma senderStart_seen {s : Net} {c : Conn} (hends : ends c = .senderAdversary)
    (hidle : s.sender c = .idle) {hmac : Bytes} (hc : ftComputeHmac H fileId keyHex = some hmac)
    (hlen : hmac.length = 32) :
    (step H ends fileId keyHex s (.senderStart c [36])).1.seen c = s.seen c ++ authFrame hmac := by
  have hroom : (ftAuthSend H (arrived [36] []) fileId keyHex).sent = authFrame hmac := by
    have hok : (ftSendAll (arrived [36] []) (authFrame hmac)).1 = true := by
      have hroom := writeAll_of_room (authFrame hmac)
      rwa [authFrame_length hlen] at hroom
    rw [ftAuthSend_sent_eq hc]
    exact ftSendAll_all hok
  simp [ReceiverAuth.step, hidle, hroom, Net.fromSender, hends]

variable (H fileId keyHex) in
lemma senderStart_receiver (s : Net) {c : Conn} (hends : ends c = .senderAdversary)
    (takes : List ℕ) :
    (step H ends fileId keyHex s (.senderStart c takes)).1.receiver = s.receiver ∧
      (step H ends fileId keyHex s (.senderStart c takes)).1.toReceiver = s.toReceiver := by
  simp only [ReceiverAuth.step, Net.fromSender, if_pos hends]
  split_ifs <;> exact ⟨rfl, rfl⟩

lemma forward_accepted {s : Net} {r : Conn} (hends : ends r = .receiverAdversary)
    (hidle : s.receiver r = .idle) (hempty : s.toReceiver r = []) {hmac : Bytes}
    (hc : ftComputeHmac H fileId keyHex = some hmac) (hlen : hmac.length = 32) :
    (Run.exec (step H ends fileId keyHex) s (forward H fileId keyHex r)).receiver r = .ended 0 := by
  have htag : tag H fileId keyHex = hmac := by simp [tag, hc]
  have hne : authFrame hmac ≠ [] := by
    intro hnil
    have h36 := authFrame_length hlen
    rw [hnil] at h36
    simp at h36
  have hcode : (ftAuthRecv H (arrived [4] [authFrame hmac]) fileId keyHex).code = 0 := by
    refine (ftAuthRecv_code hc hlen).mpr ⟨?_, writeAll_of_room (ascii "AKOK")⟩
    simp [arrived, available, hne]
  simp [forward, ReceiverAuth.step, hends, hidle, hempty, htag, hcode]

/-- **The receiver is as safe as the sender is silent.** Against an adversary without the key, in
every run in which the sender begins no handshake with the adversary, the receiver accepts none of
the adversary's connections and stores nothing from them. And wherever the sender does begin one,
the adversary can go on, with the sender showing nothing more, so that the receiver accepts it. -/
theorem receiver_safe (hH : ∀ k m, (H k m).length = 32) (hk : ValidKey keyHex) {ls : List Label}
    (hkeyless : Run.Steps (step H ends fileId keyHex) (Keyless H fileId keyHex) start ls) :
    ((∀ l ∈ ls, ¬ Shows ends l) →
      ReceiverSafe ends (Run.exec (step H ends fileId keyHex) start ls)) ∧
    ∀ c r, ends c = .senderAdversary → ends r = .receiverAdversary →
      (Run.exec (step H ends fileId keyHex) start ls).sender c = .idle →
      (Run.exec (step H ends fileId keyHex) start ls).receiver r = .idle →
      (Run.exec (step H ends fileId keyHex) start ls).toReceiver r = [] →
      ∃ more, (∀ l ∈ more, ¬ Shows ends l) ∧
        Run.Steps (step H ends fileId keyHex) (Keyless H fileId keyHex) start
          (ls ++ .senderStart c [36] :: more) ∧
        ¬ ReceiverSafe ends (Run.exec (step H ends fileId keyHex) start
          (ls ++ .senderStart c [36] :: more)) := by
  obtain ⟨key, hc, -⟩ := hmac_valid hH hk fileId
  constructor
  · intro hshow
    have hinv : Unshown H ends fileId keyHex (Run.exec (step H ends fileId keyHex) start ls) :=
      Run.exec_inv_of_steps (fun s l h hok => h.step hH hk hok.1 hok.2)
        (unshown_start (tag_length hH hk)) (Run.steps_and hkeyless hshow)
    exact hinv.safe
  · intro c r hcends hrends hidle hridle hempty
    generalize hs : Run.exec (step H ends fileId keyHex) start ls = s at hidle hridle hempty
    obtain ⟨hrec, hto⟩ := senderStart_receiver H fileId keyHex s hcends [36]
    have hseen := senderStart_seen hcends hidle hc (hH key fileId)
    refine ⟨forward H fileId keyHex r, by simp [forward, Shows], ?_, fun hsafe => ?_⟩
    · refine Run.steps_append.mpr ⟨hkeyless, ?_⟩
      rw [hs]
      -- the adversary has seen the tag before it forwards it
      refine ⟨trivial, fun _ => ⟨c, ?_⟩, trivial, trivial⟩
      have htag : tag H fileId keyHex = H key fileId := by simp [tag, hc]
      rw [hseen, htag, authFrame, ← List.append_assoc]
      exact (List.suffix_append _ _).isInfix
    · have hacc := forward_accepted (s := (step H ends fileId keyHex s (.senderStart c [36])).1)
        hrends (hrec ▸ hridle) (hto ▸ hempty) hc (hH key fileId)
      have hno := (hsafe r hrends).1
      rw [Run.exec_append, Run.exec_cons, hs] at hno
      exact hno hacc

/-! ### The sender's message, forwarded -/

/-- The adversary has connection 1 to the sender and connection 2 to the receiver. -/
def twoEnds : Conn → Ends
  | 1 => .senderAdversary
  | 2 => .receiverAdversary
  | _ => .senderReceiver

/-- The sender answers the adversary's connection with its message, and the adversary passes it
on to the receiver, with a file of its own. -/
def forwarded : List Label :=
  [.senderStart 1 [36], .adversarySend 2 (authFrame sampleTag), .receiverRun 2 [4],
    .adversarySend 2 [1, 2, 3], .receiveFile 2]

lemma forwarded_keyless : Run.Steps (step sampleHmac twoEnds sampleFileId sampleKeyHex)
    (Keyless sampleHmac sampleFileId sampleKeyHex) start forwarded := by
  have hseen : tag sampleHmac sampleFileId sampleKeyHex <:+: authFrame sampleTag := by decide
  exact ⟨trivial, fun _ => ⟨1, hseen⟩, trivial, fun _ => ⟨1, hseen⟩, trivial, trivial⟩

/-- The receiver stores the adversary's bytes. -/
theorem forwarded_accepted :
    ¬ ∀ ls, Run.Steps (step sampleHmac twoEnds sampleFileId sampleKeyHex)
        (Keyless sampleHmac sampleFileId sampleKeyHex) start ls →
      ReceiverSafe twoEnds (Run.exec (step sampleHmac twoEnds sampleFileId sampleKeyHex) start ls) := by
  intro h
  have hsafe := h forwarded forwarded_keyless 2 rfl
  exact hsafe.2 [1, 2, 3] (by decide)

/-- As long as the sender keeps its message to itself, the receiver refuses. -/
theorem unshown_refused :
    ReceiverSafe twoEnds (Run.exec (step sampleHmac twoEnds sampleFileId sampleKeyHex) start
      [.adversarySend 2 (authFrame (List.replicate 32 7)), .receiverRun 2 [4], .receiveFile 2]) := by
  refine (receiver_safe sampleHmac_length sampleKeyHex_valid ?_).1 (by simp [Shows])
  refine ⟨fun htag => absurd htag ?_, trivial, trivial, trivial⟩
  decide

end SyncClipboard.ReceiverAuth
