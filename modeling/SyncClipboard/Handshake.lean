import SyncClipboard.FtAuth

/-!
A sender and a receiver, each in C or on Android, at the two ends of one connection.

What the sender has sent is what the receiver finds, and the answer of the receiver is what the
sender finds, in whatever pieces. Then both succeed or both fail, by the proofs they compute, and
neither has read a byte of what follows.
-/

namespace SyncClipboard.Handshake

open Pieces FtAuth

inductive Impl | c | android
  deriving DecidableEq

variable (H : Bytes → Bytes → Bytes)

def Impl.send (peer : Peer) (fileId keyHex : Bytes) : Impl → Verdict
  | .c => (ftAuthSend H peer fileId keyHex).verdict
  | .android => authSend H peer fileId keyHex

def Impl.recv (peer : Peer) (fileId keyHex : Bytes) : Impl → Verdict
  | .c => (ftAuthRecv H peer fileId keyHex).verdict
  | .android => authRecv H peer fileId keyHex

/-- The two ends of a connection that is not lost: every send takes something, what one side has
sent and sends later (`more`, `more'`) is what the other finds. -/
structure Connected (ps pr : Peer) (sent answer more more' : Bytes) : Prop where
  senderTakes : Flows ps.takes 36
  receiverTakes : Flows pr.takes 4
  found : available (pr.answers []) = sent ++ more
  answered : available (ps.answers sent) = answer ++ more'

variable {H}

/-- With valid keys the implementation makes no difference. -/
lemma send_eq (hH : ∀ k m, (H k m).length = 32) {keyHex : Bytes} (hk : ValidKey keyHex)
    (peer : Peer) (fileId : Bytes) (s : Impl) :
    s.send H peer fileId keyHex = Impl.send H peer fileId keyHex .c := by
  cases s with
  | c => rfl
  | android => exact authSend_eq hH hk peer fileId

lemma recv_eq (hH : ∀ k m, (H k m).length = 32) {keyHex : Bytes} (hk : ValidKey keyHex)
    (peer : Peer) (fileId : Bytes) (r : Impl) :
    r.recv H peer fileId keyHex = Impl.recv H peer fileId keyHex .c := by
  cases r with
  | c => rfl
  | android => exact authRecv_eq hH hk peer fileId

lemma ftComputeHmac_valid (hH : ∀ k m, (H k m).length = 32) {keyHex : Bytes} (hk : ValidKey keyHex)
    (fileId : Bytes) : ftComputeHmac H fileId keyHex = some (H (keyBytes keyHex) fileId) := by
  have hklen : min (keyHex.length / 2) 32 = 32 := by
    rw [hk.1]
    rfl
  simp [ftComputeHmac, hklen, (parseKey_valid hk).1, hH]

lemma ftSendAll_flows {peer : Peer} {buf : Bytes} (h : Flows peer.takes buf.length) :
    ftSendAll peer buf = (true, buf) := by
  have hflows : Flows peer.takes (buf.length + 0) := h
  exact (writeAll_of_flows hflows).1

lemma ftRecvAll_append {peer : Peer} {sent data more : Bytes}
    (h : available (peer.answers sent) = data ++ more) :
    ∃ left, ftRecvAll peer sent data.length = some (data, left) ∧ available left = more := by
  have hle : data.length ≤ (available (peer.answers sent)).length := by simp [h]
  obtain ⟨left, hread, hleft⟩ := readAll_of_le hle
  rw [h, List.take_left] at hread
  rw [h, List.drop_left] at hleft
  exact ⟨left, hread, hleft⟩

section Sides

variable (hH : ∀ k m, (H k m).length = 32)
include hH

lemma ftAuthSend_sent_valid {peer : Peer} (ht : Flows peer.takes 36) {k : Bytes} (hk : ValidKey k)
    (f : Bytes) : (ftAuthSend H peer f k).sent = authFrame (H (keyBytes k) f) := by
  have h36 := authFrame_length (hH (keyBytes k) f)
  rw [ftAuthSend_sent_eq (ftComputeHmac_valid hH hk f), ftSendAll_flows (by rwa [h36])]

lemma ftAuthRecv_valid {peer : Peer} (ht : Flows peer.takes 4) {k : Bytes} (hk : ValidKey k)
    (f : Bytes) {hmac more : Bytes} (hlen : hmac.length = 32)
    (h : available (peer.answers []) = authFrame hmac ++ more) :
    ∃ left, available left = more ∧ ftAuthRecv H peer f k =
      if hmac = H (keyBytes k) f then ⟨0, ascii "AKOK", left⟩ else ⟨-1, ascii "FAIL", left⟩ := by
  have h36 := authFrame_length hlen
  have htag : (authFrame hmac).take 4 = ascii "AUTH" := List.take_left' rfl
  have hrest : (authFrame hmac).drop 4 = hmac := List.drop_left' rfl
  obtain ⟨left, hread, hleft⟩ := ftRecvAll_append h
  rw [h36] at hread
  have hok : ftSendAll peer (ascii "AKOK") = (true, ascii "AKOK") := ftSendAll_flows ht
  have hfail : ftSendAll peer (ascii "FAIL") = (true, ascii "FAIL") := ftSendAll_flows ht
  refine ⟨left, hleft, ?_⟩
  simp only [ftAuthRecv, hread, htag, hrest, ftComputeHmac_valid hH hk f, refuse, hok, hfail,
    ne_eq, not_true, if_false, ite_not]
  rfl

lemma ftAuthSend_valid {peer : Peer} (ht : Flows peer.takes 36) {k : Bytes} (hk : ValidKey k)
    (f : Bytes) {answer more : Bytes} (hlen : answer.length = 4)
    (h : available (peer.answers (authFrame (H (keyBytes k) f))) = answer ++ more) :
    ∃ left, available left = more ∧ ftAuthSend H peer f k =
      ⟨if answer = ascii "AKOK" then 0 else -1, authFrame (H (keyBytes k) f), left⟩ := by
  have h36 := authFrame_length (hH (keyBytes k) f)
  have hsend : ftSendAll peer (authFrame (H (keyBytes k) f)) = (true, _) :=
    ftSendAll_flows (by rwa [h36])
  obtain ⟨left, hread, hleft⟩ := ftRecvAll_append h
  rw [hlen] at hread
  refine ⟨left, hleft, ?_⟩
  rw [authFrame] at hsend hread ⊢
  simp [ftAuthSend, ftComputeHmac_valid hH hk f, hsend, hread]

end Sides

/-- **Both succeed or both fail.** Any sender and any receiver, with valid keys in any letter case
and any file ids, over any connection that is not lost and cut in any way: the sender succeeds if
and only if the receiver does, and the receiver does if and only if the two compute the same
proof. When they do, what each leaves to read is exactly what the other side sends next. -/
theorem handshake_interop (H : Bytes → Bytes → Bytes) (hH : ∀ k m, (H k m).length = 32) (s r : Impl)
    (k₁ k₂ f₁ f₂ : Bytes) (hk₁ : ValidKey k₁) (hk₂ : ValidKey k₂) (ps pr : Peer) (more more' : Bytes)
    (h : Connected ps pr (s.send H ps f₁ k₁).sent (r.recv H pr f₂ k₂).sent more more') :
    ((s.send H ps f₁ k₁).ok = true ↔ (r.recv H pr f₂ k₂).ok = true) ∧
    ((r.recv H pr f₂ k₂).ok = true ↔ H (keyBytes k₁) f₁ = H (keyBytes k₂) f₂) ∧
    ((r.recv H pr f₂ k₂).ok = true →
      available (r.recv H pr f₂ k₂).left = more ∧ available (s.send H ps f₁ k₁).left = more') := by
  obtain ⟨hsender, hreceiver, hfound, hanswered⟩ := h
  have hlen := hH (keyBytes k₁) f₁
  have hfail : ascii "FAIL" ≠ ascii "AKOK" := by decide
  rw [send_eq hH hk₁] at hfound hanswered ⊢
  rw [recv_eq hH hk₂] at hanswered ⊢
  simp only [Impl.send, Impl.recv, Auth.verdict, ftAuthSend_sent_valid hH hsender hk₁]
    at hfound hanswered ⊢
  obtain ⟨left, hleft, hrecv⟩ := ftAuthRecv_valid hH hreceiver hk₂ f₂ hlen hfound
  rw [hrecv] at hanswered ⊢
  -- the receiver answers with four bytes either way
  have hfour : (if H (keyBytes k₁) f₁ = H (keyBytes k₂) f₂ then (⟨0, ascii "AKOK", left⟩ : Auth)
      else ⟨-1, ascii "FAIL", left⟩).sent.length = 4 := by
    split_ifs <;> rfl
  obtain ⟨left', hleft', hsend⟩ := ftAuthSend_valid hH hsender hk₁ f₁ hfour hanswered
  rw [hsend]
  by_cases heq : H (keyBytes k₁) f₁ = H (keyBytes k₂) f₂
  · simp only [heq, if_true]
    exact ⟨by simp, by simp, fun _ => ⟨hleft, hleft'⟩⟩
  · simp only [heq, if_false, hfail]
    exact ⟨by simp, by simp, by simp⟩

def sampleKeyUpper : Bytes :=
  ascii "000102030405060708090A0B0C0D0E0F101112131415161718191A1B1C1D1E1F"

-- one byte at a time, answered in two pieces
def senderEnd : Peer := ⟨List.replicate 36 1, fun _ => [ascii "AK", ascii "OK"]⟩

/-- The receiver's end: the message comes byte by byte, with the beginning of the file behind it. -/
def receiverEnd : Peer :=
  ⟨List.replicate 4 1, fun _ => (authFrame sampleTag).map ([·]) ++ [ascii "SYNC"]⟩

/-- A sender in C and a receiver on Android that spell the key differently. -/
theorem handshake_interop_spellings :
    (Impl.c.send sampleHmac senderEnd sampleFileId sampleKeyHex).ok = true ∧
      available (Impl.android.recv sampleHmac receiverEnd sampleFileId sampleKeyUpper).left =
        ascii "SYNC" := by
  have hvalid : ValidKey sampleKeyUpper := by decide +kernel
  have hconnected : Connected senderEnd receiverEnd
      (Impl.c.send sampleHmac senderEnd sampleFileId sampleKeyHex).sent
      (Impl.android.recv sampleHmac receiverEnd sampleFileId sampleKeyUpper).sent
      (ascii "SYNC") [] := by
    refine ⟨⟨?_, ?_⟩, ⟨?_, ?_⟩, ?_, ?_⟩
    all_goals decide +kernel
  obtain ⟨hboth, hproof, hleft⟩ := handshake_interop sampleHmac sampleHmac_length .c .android
    sampleKeyHex sampleKeyUpper sampleFileId sampleFileId sampleKeyHex_valid hvalid senderEnd
    receiverEnd (ascii "SYNC") [] hconnected
  have hrecv := hproof.mpr (by decide +kernel)
  exact ⟨hboth.mpr hrecv, (hleft hrecv).1⟩

end SyncClipboard.Handshake
