import SyncClipboard.Pieces
import Mathlib.Data.Int.Notation

/-!
The handshake before a file is sent from device to device.

The sender shows a proof, the HMAC of the file id under the shared key; the receiver checks it and
answers with four bytes. Strings are given by their bytes. The HMAC is a parameter `H`, of the key
and the message. A peer shows itself in what the socket calls take and find.
-/

namespace SyncClipboard.FtAuth

open Pieces

abbrev Bytes := List UInt8

def ascii (s : String) : Bytes := s.toList.map Char.toUInt8

/-! ### Sockets -/

/-- The other end of a connection: how much each `send` takes, and what `recv` finds once the
given bytes have been sent. -/
structure Peer where
  takes : List ℕ
  answers : Bytes → List Bytes

/-- `ft_send_all`: whether it succeeded, and the bytes it put on the wire. -/
def ftSendAll (peer : Peer) (buf : Bytes) : Bool × Bytes := writeAll peer.takes buf

/-- `ft_recv_all`, after the given bytes have been sent. Also what it leaves to read. -/
def ftRecvAll (peer : Peer) (sent : Bytes) (len : ℕ) : Option (Bytes × List Bytes) :=
  readAll len (peer.answers sent)

/-! ### The proof -/

def isSpace (b : UInt8) : Bool := b = 32 || (9 ≤ b && b ≤ 13)

def hexDigit (b : UInt8) : Option ℕ :=
  if 48 ≤ b ∧ b ≤ 57 then some (b.toNat - 48)
  else if 65 ≤ b ∧ b ≤ 70 then some (b.toNat - 55)
  else if 97 ≤ b ∧ b ≤ 102 then some (b.toNat - 87)
  else none

/-- `sscanf` with `%02x`, stored in an `unsigned char`: white space is skipped, then at most two
characters make an optionally signed hexadecimal number. As glibc has it, a prefix that uses up the
width is zero. -/
def sscanf02x (s : Bytes) : Option UInt8 :=
  match s.dropWhile isSpace with
  | [] => none
  | [a] => (hexDigit a).map UInt8.ofNat
  | a :: b :: _ =>
    if a = 43 then (hexDigit b).map UInt8.ofNat
    else if a = 45 then (hexDigit b).map fun d => UInt8.ofNat (256 - d)
    else match hexDigit a with
      | none => none
      | some x =>
        match hexDigit b with
        | some y => some (UInt8.ofNat (16 * x + y))
        -- the digit ends here; so does the zero of a prefix, which takes two characters
        | none => some (UInt8.ofNat x)

def parseKey : ℕ → Bytes → Option Bytes
  | 0, _ => some []
  | n + 1, s => (sscanf02x s).bind fun b => (parseKey n (s.drop 2)).map fun key => b :: key

variable (H : Bytes → Bytes → Bytes)

def ftComputeHmac (fileId keyHex : Bytes) : Option Bytes :=
  let klen := min (keyHex.length / 2) 32
  match parseKey klen keyHex with
  | none => none
  | some key =>
    if klen < 32 then none
    else if (H key fileId).length = 32 then some (H key fileId) else none

/-! ### The two sides -/

/-- The code a function returns, the bytes it has sent, and what it leaves to read. -/
structure Auth where
  code : ℤ
  sent : Bytes
  left : List Bytes
  deriving DecidableEq

def ftAuthSend (peer : Peer) (fileId keyHex : Bytes) : Auth :=
  match ftComputeHmac H fileId keyHex with
  | none => ⟨-1, [], peer.answers []⟩
  | some hmac =>
    let (ok, sent) := ftSendAll peer (ascii "AUTH" ++ hmac)
    if ok = false then ⟨-1, sent, peer.answers sent⟩
    else match ftRecvAll peer sent 4 with
      -- the stream has ended
      | none => ⟨-1, sent, []⟩
      | some (resp, left) => ⟨if resp = ascii "AKOK" then 0 else -1, sent, left⟩

/-- Answer with an error. -/
def refuse (peer : Peer) (left : List Bytes) : Auth := ⟨-1, (ftSendAll peer (ascii "FAIL")).2, left⟩

def ftAuthRecv (peer : Peer) (fileId keyHex : Bytes) : Auth :=
  match ftRecvAll peer [] 36 with
  | none => ⟨-1, [], []⟩
  | some (buf, left) =>
    if buf.take 4 ≠ ascii "AUTH" then refuse peer left
    else match ftComputeHmac H fileId keyHex with
      | none => refuse peer left
      | some expected =>
        if buf.drop 4 ≠ expected then refuse peer left
        else
          let (ok, sent) := ftSendAll peer (ascii "AKOK")
          if ok = false then ⟨-1, sent, left⟩ else ⟨0, sent, left⟩

/-! ### Android -/

/-- `substring(0, 2).toInt(16).toByte()`; `none` is an exception. -/
def toInt16 (s : Bytes) : Option UInt8 :=
  match s with
  | a :: b :: _ =>
    if a = 43 then (hexDigit b).map UInt8.ofNat
    else if a = 45 then (hexDigit b).map fun d => UInt8.ofNat (256 - d)
    else (hexDigit a).bind fun x => (hexDigit b).map fun y => UInt8.ofNat (16 * x + y)
  | _ => none

def parseKeyAndroid : ℕ → Bytes → Option Bytes
  | 0, _ => some []
  | n + 1, s => (toInt16 s).bind fun b => (parseKeyAndroid n (s.drop 2)).map fun key => b :: key

/-- `computeHmac`; a key without bytes is refused by `SecretKeySpec`. -/
def computeHmac (fileId keyHex : Bytes) : Option Bytes :=
  let klen := min (keyHex.length / 2) 32
  (parseKeyAndroid klen keyHex).bind fun key => if key = [] then none else some (H key fileId)

/-- Whether the peer was accepted, the bytes sent, and what is left to read. -/
structure Verdict where
  ok : Bool
  sent : Bytes
  left : List Bytes
  deriving DecidableEq

def Auth.verdict (r : Auth) : Verdict := ⟨decide (r.code = 0), r.sent, r.left⟩

/-- An exception ends the transfer as a refusal does. -/
def authSend (peer : Peer) (fileId keyHex : Bytes) : Verdict :=
  match computeHmac H fileId keyHex with
  | none => ⟨false, [], peer.answers []⟩
  | some hmac =>
    let (ok, sent) := ftSendAll peer (ascii "AUTH" ++ hmac)
    if ok = false then ⟨false, sent, peer.answers sent⟩
    else match ftRecvAll peer sent 4 with
      | none => ⟨false, sent, []⟩
      | some (resp, left) => ⟨decide (resp = ascii "AKOK"), sent, left⟩

def authRecv (peer : Peer) (fileId keyHex : Bytes) : Verdict :=
  match ftRecvAll peer [] 36 with
  | none => ⟨false, [], []⟩
  | some (buf, left) =>
    if buf.take 4 ≠ ascii "AUTH" then ⟨false, (ftSendAll peer (ascii "FAIL")).2, left⟩
    else match computeHmac H fileId keyHex with
      | none => ⟨false, [], left⟩
      | some expected =>
        if buf.drop 4 ≠ expected then ⟨false, (ftSendAll peer (ascii "FAIL")).2, left⟩
        else
          let (ok, sent) := ftSendAll peer (ascii "AKOK")
          ⟨ok, sent, left⟩

/-! ### Keys of 64 hexadecimal digits -/

def ValidKey (keyHex : Bytes) : Prop :=
  keyHex.length = 64 ∧ ∀ b ∈ keyHex, (hexDigit b).isSome = true

instance (keyHex : Bytes) : Decidable (ValidKey keyHex) := inferInstanceAs (Decidable (_ ∧ _))

/-- A hexadecimal digit is above the white space and the signs. -/
lemma hexDigit_some {b : UInt8} {x : ℕ} (h : hexDigit b = some x) :
    isSpace b = false ∧ b ≠ 43 ∧ b ≠ 45 := by
  have hge : 48 ≤ b.toNat := by
    unfold hexDigit at h
    split_ifs at h with h₁ h₂ h₃
    · exact UInt8.le_iff_toNat_le.mp h₁.1
    · have h65 : 65 ≤ b.toNat := UInt8.le_iff_toNat_le.mp h₂.1
      omega
    · have h97 : 97 ≤ b.toNat := UInt8.le_iff_toNat_le.mp h₃.1
      omega
  refine ⟨?_, ?_, ?_⟩
  · have h32 : b ≠ 32 := by rintro rfl; simp at hge
    have h13 : ¬ b ≤ 13 := by
      intro hle
      have h13' : b.toNat ≤ 13 := UInt8.le_iff_toNat_le.mp hle
      omega
    simp [isSpace, h32, h13]
  · rintro rfl; simp at hge
  · rintro rfl; simp at hge

lemma sscanf02x_digits {a b : UInt8} {x y : ℕ} (ha : hexDigit a = some x)
    (hb : hexDigit b = some y) (s : Bytes) :
    sscanf02x (a :: b :: s) = some (UInt8.ofNat (16 * x + y)) := by
  obtain ⟨hspace, hplus, hminus⟩ := hexDigit_some ha
  simp [sscanf02x, List.dropWhile, hspace, hplus, hminus, ha, hb]

lemma toInt16_digits {a b : UInt8} {x y : ℕ} (ha : hexDigit a = some x)
    (hb : hexDigit b = some y) (s : Bytes) :
    toInt16 (a :: b :: s) = some (UInt8.ofNat (16 * x + y)) := by
  obtain ⟨-, hplus, hminus⟩ := hexDigit_some ha
  simp [toInt16, hplus, hminus, ha, hb]

/-- The bytes that pairs of digits stand for. -/
def keyBytes : Bytes → Bytes
  | a :: b :: s => UInt8.ofNat (16 * (hexDigit a).getD 0 + (hexDigit b).getD 0) :: keyBytes s
  | _ => []

lemma parseKey_digits {n : ℕ} {s : Bytes} (hlen : s.length = 2 * n)
    (hs : ∀ b ∈ s, (hexDigit b).isSome = true) :
    parseKey n s = some (keyBytes s) ∧ parseKeyAndroid n s = some (keyBytes s) ∧
      (keyBytes s).length = n := by
  induction n generalizing s with
  | zero =>
    obtain rfl := List.length_eq_zero_iff.mp hlen
    exact ⟨rfl, rfl, rfl⟩
  | succ n ih =>
    match s, hlen, hs with
    | a :: b :: s, hlen, hs =>
      obtain ⟨x, hx⟩ := Option.isSome_iff_exists.mp (hs a (by simp))
      obtain ⟨y, hy⟩ := Option.isSome_iff_exists.mp (hs b (by simp))
      have hrest : s.length = 2 * n := by
        simp only [List.length_cons] at hlen
        omega
      obtain ⟨hkey, hkey', hn⟩ := ih hrest fun c hc => hs c (by simp [hc])
      refine ⟨?_, ?_, by simp [keyBytes, hn]⟩
      · simp [parseKey, keyBytes, sscanf02x_digits hx hy, hx, hy, hkey]
      · simp [parseKeyAndroid, keyBytes, toInt16_digits hx hy, hx, hy, hkey']
    | [a], hlen, _ => simp at hlen; omega
    | [], hlen, _ => simp at hlen

lemma parseKey_valid {keyHex : Bytes} (hk : ValidKey keyHex) :
    parseKey 32 keyHex = some (keyBytes keyHex) ∧
      parseKeyAndroid 32 keyHex = some (keyBytes keyHex) ∧ (keyBytes keyHex).length = 32 :=
  parseKey_digits hk.1 hk.2

variable {H}

/-- With a valid key both implementations compute the same proof. -/
lemma hmac_valid (hH : ∀ k m, (H k m).length = 32) {keyHex : Bytes} (hk : ValidKey keyHex)
    (fileId : Bytes) : ∃ key, ftComputeHmac H fileId keyHex = some (H key fileId) ∧
      computeHmac H fileId keyHex = some (H key fileId) := by
  have h64 : keyHex.length = 64 := hk.1
  have hklen : min (keyHex.length / 2) 32 = 32 := by omega
  obtain ⟨hkey, hkey', hlen⟩ := parseKey_valid hk
  have hne : keyBytes keyHex ≠ [] := by
    intro hnil
    simp [hnil] at hlen
  exact ⟨keyBytes keyHex, by simp [ftComputeHmac, hklen, hkey, hH],
    by simp [computeHmac, hklen, hkey', hne]⟩

/-! ### What the two sides accept -/

def authFrame (hmac : Bytes) : Bytes := ascii "AUTH" ++ hmac

lemma authFrame_length {hmac : Bytes} (h : hmac.length = 32) : (authFrame hmac).length = 36 := by
  have hauth : (ascii "AUTH").length = 4 := rfl
  rw [authFrame, List.length_append, hauth, h]

lemma ftRecvAll_eq_some {peer : Peer} {sent data : Bytes} {left : List Bytes} {len : ℕ}
    (h : ftRecvAll peer sent len = some (data, left)) :
    len ≤ (available (peer.answers sent)).length ∧
      data = (available (peer.answers sent)).take len ∧
      available left = (available (peer.answers sent)).drop len :=
  readAll_eq_some h

lemma ftRecvAll_eq_none {peer : Peer} {sent : Bytes} {len : ℕ} (h : ftRecvAll peer sent len = none) :
    (available (peer.answers sent)).length < len := by
  by_contra hge
  obtain ⟨left, hread, -⟩ := readAll_of_le (Nat.le_of_not_lt hge)
  rw [ftRecvAll, hread] at h
  cases h

lemma ftSendAll_within (peer : Peer) (buf : Bytes) : (ftSendAll peer buf).2 <+: buf :=
  (writeAll_spec peer.takes buf).1

lemma ftSendAll_all {peer : Peer} {buf : Bytes} (h : (ftSendAll peer buf).1 = true) :
    (ftSendAll peer buf).2 = buf :=
  (writeAll_spec peer.takes buf).2 h

/-- **The sender accepts whoever answers with the four bytes.** -/
theorem ftAuthSend_code {peer : Peer} {fileId keyHex hmac : Bytes}
    (h : ftComputeHmac H fileId keyHex = some hmac) :
    (ftAuthSend H peer fileId keyHex).code = 0 ↔
      (ftSendAll peer (authFrame hmac)).1 = true ∧
        ascii "AKOK" <+: available (peer.answers (authFrame hmac)) := by
  have hlen : (ascii "AKOK").length = 4 := rfl
  unfold ftAuthSend
  simp only [h]
  cases hok : (ftSendAll peer (ascii "AUTH" ++ hmac)).1 with
  | false => simp [authFrame, hok]
  | true =>
    have hsent := ftSendAll_all hok
    simp only [hsent, authFrame, hok, Bool.true_eq_false, if_false, true_and,
      List.prefix_iff_eq_take, hlen]
    cases hr : ftRecvAll peer (ascii "AUTH" ++ hmac) 4 with
    | none =>
      have hshort := ftRecvAll_eq_none hr
      refine ⟨by simp, fun htake => ?_⟩
      have := congrArg List.length htake
      rw [hlen, List.length_take] at this
      omega
    | some r =>
      obtain ⟨resp, left⟩ := r
      obtain ⟨-, rfl, -⟩ := ftRecvAll_eq_some hr
      dsimp only
      split_ifs with heq
      · simp [heq]
      · simpa using fun h' => heq h'.symm

/-- What the sender puts on the wire does not depend on the answer. -/
lemma ftAuthSend_sent_eq {fileId keyHex hmac : Bytes}
    (h : ftComputeHmac H fileId keyHex = some hmac) (peer : Peer) :
    (ftAuthSend H peer fileId keyHex).sent = (ftSendAll peer (authFrame hmac)).2 := by
  unfold ftAuthSend
  simp only [h]
  split_ifs
  · rfl
  · cases ftRecvAll peer (ftSendAll peer (ascii "AUTH" ++ hmac)).2 4 <;> rfl

lemma ftAuthSend_sent {peer : Peer} {fileId keyHex hmac : Bytes}
    (h : ftComputeHmac H fileId keyHex = some hmac) :
    (ftAuthSend H peer fileId keyHex).sent <+: authFrame hmac := by
  rw [ftAuthSend_sent_eq h]
  exact ftSendAll_within peer (authFrame hmac)

/-- **The receiver accepts whoever shows the proof.** -/
theorem ftAuthRecv_code {peer : Peer} {fileId keyHex hmac : Bytes}
    (h : ftComputeHmac H fileId keyHex = some hmac) (hlen : hmac.length = 32) :
    (ftAuthRecv H peer fileId keyHex).code = 0 ↔
      authFrame hmac <+: available (peer.answers []) ∧
        (ftSendAll peer (ascii "AKOK")).1 = true := by
  have hauth : (ascii "AUTH").length = 4 := rfl
  have h36 := authFrame_length hlen
  rw [List.prefix_iff_eq_take, h36]
  unfold ftAuthRecv
  cases hr : ftRecvAll peer [] 36 with
  | none =>
    have hshort := ftRecvAll_eq_none hr
    refine ⟨by simp, fun ⟨htake, _⟩ => ?_⟩
    have hlen' := congrArg List.length htake
    rw [h36, List.length_take] at hlen'
    omega
  | some r =>
    obtain ⟨buf, left⟩ := r
    obtain ⟨-, hbuf, -⟩ := ftRecvAll_eq_some hr
    rw [← hbuf]
    simp only [h]
    by_cases htag : buf.take 4 = ascii "AUTH"
    · by_cases hmac' : buf.drop 4 = hmac
      · -- the buffer is the message of the sender
        have hframe : authFrame hmac = buf := by
          rw [authFrame, ← htag, ← hmac', List.take_append_drop]
        simp only [htag, hmac', ne_eq, not_true, if_false, hframe, true_and]
        cases (ftSendAll peer (ascii "AKOK")).1 <;> simp
      · have hne : authFrame hmac ≠ buf := by
          rintro rfl
          exact hmac' (by simp [authFrame, hauth])
        simp [htag, hmac', hne, refuse]
    · have hne : authFrame hmac ≠ buf := by
        rintro rfl
        exact htag (by simp [authFrame, hauth])
      simp [htag, hne, refuse]

lemma ftAuthRecv_sent (peer : Peer) (fileId keyHex : Bytes) :
    (ftAuthRecv H peer fileId keyHex).sent.length ≤ 4 := by
  have hle : ∀ s, s.length = 4 → (ftSendAll peer s).2.length ≤ 4 := by
    intro s hs
    have := (ftSendAll_within peer s).length_le
    omega
  have hfail : ∀ left, (refuse peer left).sent.length ≤ 4 := fun _ => hle (ascii "FAIL") rfl
  have hok := hle (ascii "AKOK") rfl
  unfold ftAuthRecv
  split
  · simp
  · split_ifs
    · exact hfail _
    · split
      · exact hfail _
      · split_ifs
        · exact hfail _
        · dsimp only
          split_ifs <;> exact hok

/-- With a valid key the Android sender decides as the C sender does, and sends the same. -/
lemma authSend_eq (hH : ∀ k m, (H k m).length = 32) {keyHex : Bytes} (hk : ValidKey keyHex)
    (peer : Peer) (fileId : Bytes) :
    authSend H peer fileId keyHex = (ftAuthSend H peer fileId keyHex).verdict := by
  obtain ⟨key, hc, ha⟩ := hmac_valid hH hk fileId
  unfold authSend ftAuthSend Auth.verdict
  simp only [hc, ha]
  split_ifs
  · simp
  · split
    · simp
    · split_ifs with heq <;> simp [heq]

lemma authRecv_eq (hH : ∀ k m, (H k m).length = 32) {keyHex : Bytes} (hk : ValidKey keyHex)
    (peer : Peer) (fileId : Bytes) :
    authRecv H peer fileId keyHex = (ftAuthRecv H peer fileId keyHex).verdict := by
  obtain ⟨key, hc, ha⟩ := hmac_valid hH hk fileId
  unfold authRecv ftAuthRecv Auth.verdict
  simp only [hc, ha]
  split
  · simp
  · split_ifs with htag hmac hok
    · simp [refuse]
    · simp [refuse]
    · simp [hok]
    · simp [hok]

/-! ### A file and a key -/

def sampleFileId : Bytes := ascii "123e4567-e89b-12d3-a456-426614174000"

def sampleKeyHex : Bytes :=
  ascii "000102030405060708090a0b0c0d0e0f101112131415161718191a1b1c1d1e1f"

lemma sampleKeyHex_valid : ValidKey sampleKeyHex := by decide +kernel

def sampleTag : Bytes :=
  [0x47, 0xd8, 0x28, 0xb6, 0xb6, 0x4b, 0x89, 0xc0, 0xac, 0x6b, 0x6f, 0x28, 0xca, 0xc8, 0x39, 0x3c,
    0x69, 0xbe, 0x3d, 0xa0, 0xc5, 0x0a, 0x76, 0x10, 0x70, 0x07, 0x4c, 0x16, 0x6c, 0x97, 0x44, 0xc6]

/-- HMAC-SHA256 at the one point that is used. -/
def sampleHmac (key msg : Bytes) : Bytes :=
  if key = (List.range 32).map UInt8.ofNat ∧ msg = sampleFileId then sampleTag
  else List.replicate 32 0

lemma sampleHmac_length (key msg : Bytes) : (sampleHmac key msg).length = 32 := by
  unfold sampleHmac
  split_ifs <;> rfl

example : ftComputeHmac sampleHmac sampleFileId sampleKeyHex = some sampleTag := by decide

end SyncClipboard.FtAuth
