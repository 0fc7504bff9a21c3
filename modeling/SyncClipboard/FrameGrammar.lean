import SyncClipboard.FtProto
import Mathlib.Data.Nat.Digits.Lemmas

/-!
What the three receivers of a file accept, whatever a peer sends.

A frame is `SYNC`, 36 bytes, a number in eight bytes and so many bytes after them. A receiver succeeds
on exactly the streams that start with a frame within its limit, and has its bytes then. Under the path
is what was there as long as the beginning of a frame has not been seen, and nothing if the frame is cut
short behind it (`receivers_iff`).
-/

namespace SyncClipboard.FrameGrammar

open Pieces FtAuth FtProto
open Client (Platform)

/-- The number that is written with its highest byte first. -/
def bigEndian (sb : Bytes) : ℕ := Nat.ofDigits 256 (sb.reverse.map UInt8.toNat)

/-- The stream starts with the beginning of a frame of `n` bytes, and goes on with `body`. -/
structure Begins (M : ℕ) (stream : Bytes) (n : ℕ) (body : Bytes) : Prop where
  split : ∃ fid sb, fid.length = 36 ∧ sb.length = 8 ∧ bigEndian sb = n ∧
    stream = ascii "SYNC" ++ fid ++ sb ++ body
  pos : 1 ≤ n
  le : n ≤ M

inductive Receiver
  | ftRecvFile
  | ftRecvFileToPath
  | recvFileToPath
  deriving DecidableEq

/-- Whether the call was successful, the bytes it has then, and what is under the path afterwards. -/
structure Outcome where
  ok : Bool
  data : Option Bytes
  path : Option Bytes
  deriving DecidableEq

/-- A receiver with the limit `M`; `ft_recv_file` leaves the path alone, and an Android receiver was
successful if it returns a size. -/
def Receiver.receive (platform : Platform) (M : ℕ) (disk : Disk) (before : Option Bytes) (pieces : List Bytes) :
    Receiver → Outcome
  | .ftRecvFile =>
    let r := FtProto.ftRecvFile platform (UInt64.ofNat M) pieces
    ⟨r.isSome, r.map fun r => r.1.data, before⟩
  | .ftRecvFileToPath =>
    let r := FtProto.ftRecvFileToPath disk (UInt64.ofNat M) before pieces
    ⟨r.1.isSome, r.2, r.2⟩
  | .recvFileToPath =>
    let r := FtProto.recvFileToPath disk M before ⟨[], pieces⟩
    ⟨r.1.any fun r => decide (0 ≤ r.1), r.2, r.2⟩

/-! ### The number -/

lemma toNat_shiftIn {fs : UInt64} (b : UInt8) (h : fs.toNat < 2 ^ 56) :
    (shiftIn fs b).toNat = b.toNat + 256 * fs.toNat := by
  have hshift : (fs <<< 8).toNat = fs.toNat <<< 8 := by
    simp only [UInt64.toNat_shiftLeft, Nat.shiftLeft_eq]
    exact Nat.mod_eq_of_lt (by change fs.toNat * 2 ^ 8 < 2 ^ 64; omega)
  have hb : b.toNat < 2 ^ 8 := b.toNat_lt
  rw [shiftIn, UInt64.toNat_or, hshift, UInt8.toNat_toUInt64, ← Nat.shiftLeft_add_eq_or_of_lt hb,
    Nat.shiftLeft_eq]
  omega

lemma bigEndian_lt (sb : Bytes) : bigEndian sb < 256 ^ sb.length := by
  have hdigits : ∀ d ∈ sb.reverse.map UInt8.toNat, d < 256 := by
    intro d hd
    obtain ⟨b, -, rfl⟩ := List.mem_map.mp hd
    exact b.toNat_lt
  have hlt := Nat.ofDigits_lt_base_pow_length (by decide) hdigits
  rwa [List.length_map, List.length_reverse] at hlt

lemma bigEndian_concat (sb : Bytes) (b : UInt8) :
    bigEndian (sb ++ [b]) = b.toNat + 256 * bigEndian sb := by
  rw [bigEndian, List.reverse_append, List.reverse_singleton, List.singleton_append, List.map_cons,
    Nat.ofDigits_cons]
  rfl

lemma toNat_sizeValue {sb : Bytes} (h : sb.length ≤ 8) : (sizeValue sb).toNat = bigEndian sb := by
  induction sb using List.reverseRecOn with
  | nil => rfl
  | append_singleton sb b ih =>
    rw [List.length_append, List.length_singleton] at h
    have hlt : bigEndian sb < 2 ^ 56 := calc
      bigEndian sb < 256 ^ sb.length := bigEndian_lt sb
      _ ≤ 256 ^ 7 := Nat.pow_le_pow_right (by decide) (by omega)
      _ = 2 ^ 56 := by decide
    have hprev := ih (by omega)
    rw [bigEndian_concat, sizeValue, List.foldl_append]
    rw [← hprev] at hlt
    exact (toNat_shiftIn b hlt).trans (by rw [hprev])

/-! ### The beginning of a frame -/

section Readers

variable {σ : Type*} (R : Reader σ UInt8) {M n : ℕ} {s : σ} {body : Bytes}

lemma Begins.read (h : Begins M (R.stream s) n body) :
    ∃ fid sb s₁ s₂ s₃, R.read 4 s = some (ascii "SYNC", s₁) ∧ R.read ftUuidLen s₁ = some (fid, s₂) ∧
      R.read 8 s₂ = some (sb, s₃) ∧ (sizeValue sb).toNat = n ∧ R.stream s₃ = body := by
  obtain ⟨fid, sb, hfid, hsb, hn, hsplit⟩ := h.split
  rw [List.append_assoc, List.append_assoc] at hsplit
  obtain ⟨s₁, hread₁, h₁⟩ := R.read_append hsplit
  obtain ⟨s₂, hread₂, h₂⟩ := R.read_append h₁
  obtain ⟨s₃, hread₃, h₃⟩ := R.read_append h₂
  rw [hfid] at hread₂
  rw [hsb] at hread₃
  exact ⟨fid, sb, s₁, s₂, s₃, hread₁, hread₂, hread₃, (toNat_sizeValue hsb.le).trans hn, h₃⟩

/-- Three reads that give a magic and a size in the range have seen the beginning of a frame. -/
lemma begins_of_read {fid sb : Bytes} {s₁ s₂ s₃ : σ} (hread₁ : R.read 4 s = some (ascii "SYNC", s₁))
    (hread₂ : R.read ftUuidLen s₁ = some (fid, s₂)) (hread₃ : R.read 8 s₂ = some (sb, s₃))
    (hpos : 1 ≤ (sizeValue sb).toNat) (hle : (sizeValue sb).toNat ≤ M) :
    Begins M (R.stream s) (sizeValue sb).toNat (R.stream s₃) := by
  obtain ⟨-, h₁⟩ := R.read_eq_some hread₁
  obtain ⟨hfid, h₂⟩ := R.read_eq_some hread₂
  obtain ⟨hsb, h₃⟩ := R.read_eq_some hread₃
  refine ⟨⟨fid, sb, hfid, hsb, (toNat_sizeValue hsb.le).symm, ?_⟩, hpos, hle⟩
  rw [h₁, h₂, h₃, List.append_assoc, List.append_assoc]

/-- The loop over the chunks has all the data, or fails. -/
lemma recvChunks_eq {room : ℕ} (hroom : n ≤ room) :
    (n ≤ (R.stream s).length →
      ∃ s', recvChunks R room n s [] = (some s', (R.stream s).take n)) ∧
    ((R.stream s).length < n → ∃ file, recvChunks R room n s [] = (none, file)) := by
  constructor
  · intro hle
    have hlen : ((R.stream s).take n).length = n := List.length_take_of_le hle
    have hfit : ([] : Bytes).length + ((R.stream s).take n).length ≤ room := by
      rw [hlen]
      simpa using hroom
    obtain ⟨s', hrecv, -⟩ := recvChunks_of_stream R hfit (List.take_append_drop n (R.stream s)).symm
    rw [hlen] at hrecv
    exact ⟨s', hrecv⟩
  · intro hlt
    rcases hrecv : recvChunks R room n s [] with ⟨_ | s', file⟩
    · exact ⟨file, rfl⟩
    · obtain ⟨data, -, hdata, hstream⟩ := recvChunks_eq_some R hrecv
      rw [hstream, List.length_append] at hlt
      omega

end Readers

section Limit

variable {M : ℕ} (hM : M < 2 ^ 31) (platform : Platform)

include hM

lemma toNat_limit : (UInt64.ofNat M).toNat = M := by
  rw [UInt64.toNat_ofNat']
  exact Nat.mod_eq_of_lt (by omega)

/-! ### The C receivers -/

lemma recvHeader_of_begins {n : ℕ} {pieces : List Bytes} {body : Bytes}
    (h : Begins M (available pieces) n body) :
    ∃ fileId fs rest, recvHeader (UInt64.ofNat M) pieces = some (fileId, fs, rest) ∧ fs.toNat = n ∧
      available rest = body := by
  obtain ⟨fid, sb, s₁, s₂, s₃, hread₁, hread₂, hread₃, hn, hbody⟩ := h.read direct
  have hrange : ¬ (sizeValue sb = 0 ∨ UInt64.ofNat M < sizeValue sb) := by
    rw [not_or, UInt64.not_lt, UInt64.le_iff_toNat_le, toNat_limit hM, hn]
    refine ⟨fun h0 => ?_, h.le⟩
    have hpos := h.pos
    rw [h0] at hn
    change 0 = n at hn
    omega
  refine ⟨fid.takeWhile (· ≠ 0), sizeValue sb, s₃, ?_, hn, hbody⟩
  simp only [direct] at hread₁ hread₂ hread₃
  simp only [recvHeader, hread₁, hread₂, hread₃, bind, Option.bind]
  rw [if_neg (by rw [not_not]; rfl), if_neg hrange]

lemma recvHeader_eq_none {pieces : List Bytes}
    (h : ∀ n body, ¬ Begins M (available pieces) n body) :
    recvHeader (UInt64.ofNat M) pieces = none := by
  cases hrecv : recvHeader (UInt64.ofNat M) pieces with
  | none => rfl
  | some r =>
    obtain ⟨fileId, fs, rest⟩ := r
    obtain ⟨fid, sb, hfid, hsb, rfl, hstream, hpos, hle⟩ := recvHeader_eq_some hrecv
    rw [toNat_limit hM] at hle
    exact absurd ⟨⟨fid, sb, hfid, hsb, (toNat_sizeValue hsb.le).symm, hstream⟩, hpos, hle⟩ (h _ _)

/-! ### The Android receiver -/

lemma toLong_eq {u : UInt64} (h : u.toNat ≤ M) : toLong u = u.toNat :=
  BitVec.toInt_eq_toNat_of_lt (by change 2 * u.toNat < 2 ^ 64; omega)

lemma recvFileToPath_of_begins {disk : Disk} (hopens : disk.opens = true) (before : Option Bytes)
    {n : ℕ} {s : Buffered UInt8} {body : Bytes} (h : Begins M (inputStream.stream s) n body) :
    ∃ s', inputStream.stream s' = body ∧
      recvFileToPath disk M before s =
        match recvChunks inputStream disk.room n s' [] with
        | (none, _) => (none, none)
        | (some s'', file) => (some ((n : ℤ), s''), some file) := by
  obtain ⟨fid, sb, s₁, s₂, s₃, hread₁, hread₂, hread₃, hn, hbody⟩ := h.read inputStream
  have hlong : toLong (sizeValue sb) = n := by
    rw [toLong_eq hM (hn.trans_le h.le), hn]
  have hpos := h.pos
  have hle := h.le
  refine ⟨s₃, hbody, ?_⟩
  simp only [recvFileToPath, hread₁, hread₂, hread₃, ne_eq, not_true_eq_false, if_false, hlong,
    hopens, Bool.true_eq_false, Int.toNat_natCast]
  exact if_neg (by omega)

omit hM in
lemma recvFileToPath_of_not_begins (disk : Disk) (before : Option Bytes) {s : Buffered UInt8}
    (h : ∀ n body, ¬ Begins M (inputStream.stream s) n body) :
    (recvFileToPath disk M before s).2 = before ∧
      ((recvFileToPath disk M before s).1 = none ∨
        ∃ s', (recvFileToPath disk M before s).1 = some (-1, s')) := by
  unfold recvFileToPath
  cases hread₁ : inputStream.read 4 s with
  | none => exact ⟨rfl, .inl rfl⟩
  | some r₁ =>
    obtain ⟨magic, s₁⟩ := r₁
    dsimp only
    by_cases hmagic : magic ≠ ascii "SYNC"
    · rw [if_pos hmagic]
      exact ⟨rfl, .inr ⟨s₁, rfl⟩⟩
    · rw [if_neg hmagic]
      rw [not_not] at hmagic
      subst hmagic
      cases hread₂ : inputStream.read ftUuidLen s₁ with
      | none => exact ⟨rfl, .inl rfl⟩
      | some r₂ =>
        obtain ⟨fid, s₂⟩ := r₂
        dsimp only
        cases hread₃ : inputStream.read 8 s₂ with
        | none => exact ⟨rfl, .inl rfl⟩
        | some r₃ =>
          obtain ⟨sb, s₃⟩ := r₃
          dsimp only
          by_cases hrange : (M : ℤ) < toLong (sizeValue sb) ∨ toLong (sizeValue sb) ≤ 0
          · rw [if_pos hrange]
            exact ⟨rfl, .inr ⟨s₃, rfl⟩⟩
          · -- a size in the range would be the beginning of a frame
            have hvalue : (toLong (sizeValue sb)).toNat = (sizeValue sb).toNat :=
              toNat_toLong (by omega)
            exact absurd (begins_of_read inputStream hread₁ hread₂ hread₃ (by omega) (by omega))
              (h _ _)

/-! ### All three -/

/-- A receiver that has seen the beginning of a frame. -/
lemma receive_of_begins (r : Receiver) {disk : Disk} (hopens : disk.opens = true)
    (hroom : M ≤ disk.room) (before : Option Bytes) {n : ℕ} {pieces : List Bytes} {body : Bytes}
    (h : Begins M (available pieces) n body) :
    (n ≤ body.length → (r.receive platform M disk before pieces).ok = true ∧
      (r.receive platform M disk before pieces).data = some (body.take n)) ∧
    (body.length < n → (r.receive platform M disk before pieces).ok = false ∧
      (r ≠ .ftRecvFile → (r.receive platform M disk before pieces).path = none)) := by
  have hfit : n ≤ disk.room := h.le.trans hroom
  cases r with
  | ftRecvFile =>
    obtain ⟨fileId, fs, rest, hheader, rfl, rfl⟩ := recvHeader_of_begins hM h
    have hlong := lt_tooLong (h.le.trans_lt hM) platform
    simp only [Receiver.receive, FtProto.ftRecvFile, hheader, ftRecvAll_eq_readAll hlong, bind, Option.bind]
    constructor
    · intro hle
      obtain ⟨rest', hread, -⟩ := readAll_of_le hle
      rw [hread]
      exact ⟨rfl, rfl⟩
    · intro hlt
      rw [readAll_of_lt hlt]
      exact ⟨rfl, fun hne => absurd rfl hne⟩
  | ftRecvFileToPath =>
    obtain ⟨fileId, fs, rest, hheader, rfl, rfl⟩ := recvHeader_of_begins hM h
    simp only [Receiver.receive, FtProto.ftRecvFileToPath, hheader, hopens, Bool.true_eq_false,
      if_false]
    obtain ⟨hall, hshort⟩ := @recvChunks_eq _ direct _ rest _ hfit
    constructor
    · intro hle
      obtain ⟨s', hrecv⟩ := hall hle
      rw [hrecv]
      exact ⟨rfl, rfl⟩
    · intro hlt
      obtain ⟨file, hrecv⟩ := hshort hlt
      rw [hrecv]
      exact ⟨rfl, fun _ => rfl⟩
  | recvFileToPath =>
    have hstart : Begins M (inputStream.stream ⟨[], pieces⟩) n body := h
    obtain ⟨s', rfl, heq⟩ := recvFileToPath_of_begins hM hopens before hstart
    simp only [Receiver.receive, heq]
    obtain ⟨hall, hshort⟩ := @recvChunks_eq _ inputStream _ s' _ hfit
    constructor
    · intro hle
      obtain ⟨s'', hrecv⟩ := hall hle
      rw [hrecv]
      exact ⟨by simp, rfl⟩
    · intro hlt
      obtain ⟨file, hrecv⟩ := hshort hlt
      rw [hrecv]
      exact ⟨rfl, fun _ => rfl⟩

lemma receive_of_not_begins (r : Receiver) (disk : Disk) (before : Option Bytes)
    {pieces : List Bytes} (h : ∀ n body, ¬ Begins M (available pieces) n body) :
    (r.receive platform M disk before pieces).ok = false ∧
      (r.receive platform M disk before pieces).path = before := by
  cases r with
  | ftRecvFile =>
    simp [Receiver.receive, FtProto.ftRecvFile, recvHeader_eq_none hM h]
  | ftRecvFileToPath =>
    simp [Receiver.receive, FtProto.ftRecvFileToPath, recvHeader_eq_none hM h]
  | recvFileToPath =>
    obtain ⟨hpath, hcode⟩ := @recvFileToPath_of_not_begins M disk before ⟨[], pieces⟩ h
    refine ⟨?_, hpath⟩
    rcases hcode with hcode | ⟨s', hcode⟩
    · simp [Receiver.receive, hcode]
    · simp [Receiver.receive, hcode]

/-- **The receivers accept exactly the frames.** Each succeeds if and only if the stream starts with a frame
within the limit, and has its bytes then; it leaves the path alone as long as the stream does not start
like a frame, and nothing under the path if the frame is cut short after that. -/
theorem receivers_iff (r : Receiver) (disk : Disk) (hopens : disk.opens = true)
    (hroom : M ≤ disk.room) (before : Option Bytes) (pieces : List Bytes) :
    ((r.receive platform M disk before pieces).ok = true ↔
      ∃ n body, Begins M (available pieces) n body ∧ n ≤ body.length) ∧
    (∀ n body, Begins M (available pieces) n body → n ≤ body.length →
      (r.receive platform M disk before pieces).data = some (body.take n)) ∧
    ((¬ ∃ n body, Begins M (available pieces) n body) →
      (r.receive platform M disk before pieces).path = before) ∧
    ∀ n body, Begins M (available pieces) n body → body.length < n → r ≠ .ftRecvFile →
      (r.receive platform M disk before pieces).path = none := by
  refine ⟨⟨fun hok => ?_, ?_⟩, ?_, fun h => ?_, ?_⟩
  · by_contra hno
    by_cases hbegins : ∃ n body, Begins M (available pieces) n body
    · obtain ⟨n, body, h⟩ := hbegins
      have hlt : body.length < n := by
        by_contra hle
        exact hno ⟨n, body, h, Nat.not_lt.mp hle⟩
      have hfail := ((receive_of_begins hM platform r hopens hroom before h).2 hlt).1
      rw [hok] at hfail
      cases hfail
    · have hfail := (receive_of_not_begins hM platform r disk before fun n body h => hbegins ⟨n, body, h⟩).1
      rw [hok] at hfail
      cases hfail
  · rintro ⟨n, body, h, hle⟩
    exact ((receive_of_begins hM platform r hopens hroom before h).1 hle).1
  · intro n body h hle
    exact ((receive_of_begins hM platform r hopens hroom before h).1 hle).2
  · exact (receive_of_not_begins hM platform r disk before fun n body hb => h ⟨n, body, hb⟩).2
  · intro n body h hlt hne
    exact ((receive_of_begins hM platform r hopens hroom before h).2 hlt).2 hne

end Limit

/-- Two bytes of a frame of three, from which Android has nothing. -/
theorem receivers_iff_short :
    (Receiver.recvFileToPath.receive .linux 10 ⟨true, 10⟩ (some [7])
      [ascii "SYNC" ++ List.replicate 36 65, [0, 0, 0, 0, 0, 0, 0, 3], [1, 2]]).path = none := by
  refine (receivers_iff (M := 10) (by decide) .linux .recvFileToPath ⟨true, 10⟩ rfl (by decide) (some [7])
    [ascii "SYNC" ++ List.replicate 36 65, [0, 0, 0, 0, 0, 0, 0, 3], [1, 2]]).2.2.2 3 [1, 2]
    ⟨⟨List.replicate 36 65, [0, 0, 0, 0, 0, 0, 0, 3], ?_, rfl, ?_, ?_⟩, ?_, ?_⟩ ?_ ?_
  · decide
  · decide
  · decide
  · decide
  · decide
  · decide
  · decide

end SyncClipboard.FrameGrammar
