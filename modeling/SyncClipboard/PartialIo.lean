import Mathlib.Algebra.Ring.Int.Defs
import Mathlib.Algebra.Ring.Nat
import SyncClipboard.Client

/-!
The loops `ft_send_all` and `ft_recv_all` of the C clients, for lengths as they are.

Every round asks the socket for the bytes that are missing, as an `int`. That is their number below
2 ^ 31. From there on some answers of the socket lead to a number that is zero, negative, or too large
(`partialIo_iff`). Where it is right, sending does what the other modules take it to do
(`ftSendAll_eq_writeAll`).
-/

namespace SyncClipboard.PartialIo

open FtAuth Pieces
open Client (Platform)

/-- A call of `send` or `recv`. -/
structure Io where
  offset : ℕ
  asked : ℤ
  count : ℤ
  deriving DecidableEq

/-- `(int)(len - done)` as the socket takes it: a `size_t` on Linux, an `int` on Windows. -/
def request (platform : Platform) (missing : ℕ) : ℤ :=
  match platform with
  | .linux => (missing : ℤ).bmod (2 ^ 32) % 2 ^ 64
  | .windows => (missing : ℤ).bmod (2 ^ 32)

/-- What has happened: the value returned, if the socket has answered often enough, the calls, and what the
calls have moved. -/
structure Run (σ : Type*) where
  code : Option ℤ
  ios : List Io
  moved : σ

/-- The loop of both functions. The socket answers with a count that is at most what it was asked for;
`move` moves that many bytes at an offset. -/
def transfer {σ : Type*} (platform : Platform) (len : ℕ) (move : σ → ℕ → ℕ → σ) : ℕ → σ → List ℤ → Run σ
  | done, s, [] => ⟨if done < len then none else some 0, [], s⟩
  | done, s, answer :: answers =>
    if done < len then
      let asked := request platform (len - done)
      let n := min answer asked
      if n ≤ 0 then ⟨some (-1), [⟨done, asked, n⟩], s⟩
      else
        let r := transfer platform len move ((done + n.toNat) % 2 ^ 64) (move s done n.toNat) answers
        ⟨r.code, ⟨done, asked, n⟩ :: r.ios, r.moved⟩
    else ⟨some 0, [], s⟩

def slice (p : ℕ → UInt8) (offset n : ℕ) : Bytes := (List.range n).map fun i => p (offset + i)

/-- What is moved goes behind what is on the wire. -/
def ftSendAll (platform : Platform) (p : ℕ → UInt8) (len : ℕ) (answers : List ℤ) : Run Bytes :=
  transfer platform len (fun wire offset n => wire ++ slice p offset n) 0 [] answers

/-- The buffer, and how much of the stream is used up. -/
structure Received where
  buf : ℕ → UInt8
  used : ℕ

def ftRecvAll (platform : Platform) (stream buf : ℕ → UInt8) (len : ℕ) (answers : List ℤ) : Run Received :=
  transfer platform len (fun r offset n =>
    ⟨fun j => if offset ≤ j ∧ j < offset + n then stream (r.used + (j - offset)) else r.buf j, r.used + n⟩)
    0 ⟨buf, 0⟩ answers

/-! ### What is expected -/

def total (ios : List Io) : ℕ := (ios.map fun io => io.count.toNat).sum

/-- Every call starts where the one before it ended. -/
def Contiguous : ℕ → List Io → Prop
  | _, [] => True
  | done, io :: ios => io.offset = done ∧ Contiguous (done + io.count.toNat) ios

/-- A run from an offset on asks for what is missing, goes on where it was, and returns what it should; and it
returns if the socket answers often enough. -/
structure Sound {σ : Type*} (done len : ℕ) (answers : List ℤ) (r : Run σ) : Prop where
  asked : ∀ io ∈ r.ios, 1 ≤ io.asked ∧ io.asked ≤ (len : ℤ) - io.offset
  contiguous : Contiguous done r.ios
  done_iff : r.code = some 0 ↔ done + total r.ios = len
  failed_iff : r.code = some (-1) ↔ ∃ io ∈ r.ios, io.count ≤ 0
  returns : len ≤ done + answers.length → r.code ≠ none

/-- **Partial transfers are correct** for a length. -/
def Correct (platform : Platform) (len : ℕ) : Prop :=
  (∀ p answers, Sound 0 len answers (ftSendAll platform p len answers) ∧
    (ftSendAll platform p len answers).moved = slice p 0 (total (ftSendAll platform p len answers).ios)) ∧
  ∀ stream buf answers,
    let r := ftRecvAll platform stream buf len answers
    Sound 0 len answers r ∧ r.moved.used = total r.ios ∧
      ∀ j, r.moved.buf j = if j < total r.ios then stream j else buf j

/-! ### The number that is asked for -/

lemma bmod_int (missing : ℕ) : (missing : ℤ).bmod (2 ^ 32) =
    if missing % 2 ^ 32 < 2 ^ 31 then ((missing % 2 ^ 32 : ℕ) : ℤ) else ((missing % 2 ^ 32 : ℕ) : ℤ) - 2 ^ 32 := by
  rw [Int.bmod_def]
  push_cast
  split_ifs <;> omega

lemma request_of_mod_lt {missing : ℕ} (platform : Platform) (h : missing % 2 ^ 32 < 2 ^ 31) :
    request platform missing = (missing % 2 ^ 32 : ℕ) := by
  have hbmod := bmod_int missing
  rw [if_pos h] at hbmod
  unfold request
  rw [hbmod]
  cases platform with
  | linux =>
    dsimp only
    omega
  | windows => rfl

lemma request_of_lt {missing : ℕ} (platform : Platform) (h : missing < 2 ^ 31) :
    request platform missing = missing := by
  have hmod : missing % 2 ^ 32 = missing := Nat.mod_eq_of_lt (by omega)
  rw [request_of_mod_lt platform (by omega), hmod]

lemma request_of_mod_ge {missing : ℕ} (platform : Platform) (h : 2 ^ 31 ≤ missing % 2 ^ 32) (hsize : missing < 2 ^ 63) :
    ¬ (1 ≤ request platform missing ∧ request platform missing ≤ missing) := by
  have hbmod := bmod_int missing
  rw [if_neg (by omega)] at hbmod
  unfold request
  rw [hbmod]
  cases platform with
  | linux =>
    dsimp only
    omega
  | windows =>
    dsimp only
    omega

/-! ### Lengths below 2 ^ 31 -/

variable {σ : Type*} {platform : Platform} {len : ℕ} {move : σ → ℕ → ℕ → σ}

lemma total_cons (io : Io) (ios : List Io) : total (io :: ios) = io.count.toNat + total ios := by
  simp [total]

/-- One round that the socket answers with something: it moves between one byte and all that is missing. -/
lemma transfer_round (hlen : len < 2 ^ 31) {done : ℕ} (hdone : done < len) (s : σ) {answer : ℤ} (hanswer : 0 < answer)
    (answers : List ℤ) :
    ∃ n : ℕ, 1 ≤ n ∧ done + n ≤ len ∧ (n : ℤ) = min answer (len - done : ℕ) ∧
      let r := transfer platform len move (done + n) (move s done n) answers
      transfer platform len move done s (answer :: answers) =
        ⟨r.code, ⟨done, ((len - done : ℕ) : ℤ), n⟩ :: r.ios, r.moved⟩ := by
  have hasked := @request_of_lt (len - done) platform (by omega)
  obtain ⟨n, hn⟩ : ∃ n : ℕ, (n : ℤ) = min answer (len - done : ℕ) :=
    ⟨(min answer (len - done : ℕ)).toNat, by omega⟩
  refine ⟨n, by omega, by omega, hn, ?_⟩
  have hmod : (done + n) % 2 ^ 64 = done + n := Nat.mod_eq_of_lt (by omega)
  rw [transfer, if_pos hdone]
  dsimp only
  rw [hasked, ← hn, if_neg (by omega), Int.toNat_natCast, hmod]

lemma transfer_done {done : ℕ} (hdone : ¬ done < len) (s : σ) (answers : List ℤ) :
    transfer platform len move done s answers = ⟨some 0, [], s⟩ := by
  cases answers with
  | nil => rw [transfer, if_neg hdone]
  | cons answer answers => rw [transfer, if_neg hdone]

lemma transfer_failed (hlen : len < 2 ^ 31) {done : ℕ} (hdone : done < len) (s : σ) {answer : ℤ} (hanswer : ¬ 0 < answer)
    (answers : List ℤ) :
    transfer platform len move done s (answer :: answers) =
      ⟨some (-1), [⟨done, ((len - done : ℕ) : ℤ), answer⟩], s⟩ := by
  have hasked := @request_of_lt (len - done) platform (by omega)
  have hmin : min answer ((len - done : ℕ) : ℤ) = answer := Int.min_eq_left (by omega)
  rw [transfer, if_pos hdone]
  dsimp only
  rw [hasked, hmin, if_pos (by omega)]

lemma sound_done (s : σ) (answers : List ℤ) : Sound len len answers (⟨some 0, [], s⟩ : Run σ) :=
  ⟨by simp, trivial, by simp [total], by simp, by simp⟩

lemma sound_failed {done : ℕ} (hdone : done < len) (s : σ) {answer : ℤ} (hanswer : ¬ 0 < answer) (answers : List ℤ) :
    Sound done len answers (⟨some (-1), [⟨done, ((len - done : ℕ) : ℤ), answer⟩], s⟩ : Run σ) := by
  have htotal : total [⟨done, ((len - done : ℕ) : ℤ), answer⟩] = 0 := by
    simp only [total, List.map_cons, List.map_nil, List.sum_singleton]
    omega
  refine ⟨?_, ⟨rfl, trivial⟩, ?_, ?_, by simp⟩
  · intro io hio
    obtain rfl := List.mem_singleton.mp hio
    dsimp only
    omega
  · dsimp only
    rw [htotal]
    exact ⟨nofun, fun h => by omega⟩
  · exact ⟨fun _ => ⟨_, List.mem_singleton.mpr rfl, by dsimp only; omega⟩, fun _ => rfl⟩

lemma Sound.cons {done n : ℕ} {answers : List ℤ} {r : Run σ} (h : Sound (done + n) len answers r) (hone : 1 ≤ n)
    (hfits : done + n ≤ len) (answer : ℤ) :
    Sound done len (answer :: answers) ⟨r.code, ⟨done, ((len - done : ℕ) : ℤ), n⟩ :: r.ios, r.moved⟩ := by
  refine ⟨?_, ⟨rfl, ?_⟩, ?_, ?_, ?_⟩
  · intro io hio
    rcases List.mem_cons.mp hio with rfl | hio
    · dsimp only
      omega
    · exact h.asked io hio
  · dsimp only
    rw [Int.toNat_natCast]
    exact h.contiguous
  · rw [total_cons, Int.toNat_natCast, ← Nat.add_assoc]
    exact h.done_iff
  · rw [List.exists_mem_cons_iff]
    dsimp only
    rw [h.failed_iff, or_iff_right (by omega)]
  · intro hmany
    rw [List.length_cons] at hmany
    exact h.returns (by omega)

lemma transfer_sound (hlen : len < 2 ^ 31) {done : ℕ} (hdone : done ≤ len) (s : σ) (answers : List ℤ) :
    Sound done len answers (transfer platform len move done s answers) := by
  rcases Nat.lt_or_eq_of_le hdone with hlt | rfl
  · induction answers generalizing done s with
    | nil =>
      rw [transfer, if_pos hlt]
      refine ⟨by simp, trivial, ?_, by simp, ?_⟩
      · simp only [total, List.map_nil, List.sum_nil]
        exact ⟨nofun, fun h => by omega⟩
      · rw [List.length_nil]
        omega
    | cons answer answers ih =>
      by_cases hanswer : 0 < answer
      · obtain ⟨n, hone, hfits, -, heq⟩ := @transfer_round σ platform len move hlen done hlt s answer hanswer answers
        have hrest : Sound (done + n) len answers (transfer platform len move (done + n) (move s done n) answers) := by
          rcases Nat.lt_or_eq_of_le hfits with hless | hall
          · exact ih hfits (move s done n) hless
          · rw [hall, transfer_done (Nat.lt_irrefl _)]
            exact sound_done _ answers
        rw [heq]
        exact hrest.cons hone hfits answer
      · rw [transfer_failed hlen hlt s hanswer]
        exact sound_failed hlt s hanswer _
  · rw [transfer_done (Nat.lt_irrefl _)]
    exact sound_done s answers

lemma transfer_moved (hlen : len < 2 ^ 31) {I : ℕ → σ → Prop}
    (hmove : ∀ done s n, I done s → I (done + n) (move s done n)) {done : ℕ} (hdone : done ≤ len) {s : σ}
    (h : I done s) (answers : List ℤ) :
    I (done + total (transfer platform len move done s answers).ios)
      (transfer platform len move done s answers).moved := by
  induction answers generalizing done s with
  | nil => simpa [transfer, total] using h
  | cons answer answers ih =>
    by_cases hlt : done < len
    · by_cases hanswer : 0 < answer
      · obtain ⟨n, -, hfits, -, heq⟩ := @transfer_round σ platform len move hlen done hlt s answer hanswer answers
        rw [heq]
        have hrest := ih hfits (hmove done s n h)
        dsimp only
        rwa [total_cons, Int.toNat_natCast, ← Nat.add_assoc]
      · have hzero : answer.toNat = 0 := by omega
        rw [transfer_failed hlen hlt s hanswer]
        simpa [total, hzero] using h
    · rw [transfer_done hlt]
      simpa [total] using h

lemma slice_append (p : ℕ → UInt8) (done n : ℕ) : slice p 0 (done + n) = slice p 0 done ++ slice p done n := by
  simp only [slice, List.range_add, List.map_append, List.map_map, Nat.zero_add]
  rfl

lemma correct_of_lt (platform : Platform) (hlen : len < 2 ^ 31) : Correct platform len := by
  constructor
  · intro p answers
    refine ⟨transfer_sound hlen (Nat.zero_le _) _ _, ?_⟩
    have hmoved := @transfer_moved Bytes platform len (fun wire offset n => wire ++ slice p offset n) hlen
      (fun done wire => wire = slice p 0 done) (fun done wire n h => by rw [h, ← slice_append]) 0 (Nat.zero_le _) []
      rfl answers
    rwa [Nat.zero_add] at hmoved
  · intro stream buf answers
    refine ⟨transfer_sound hlen (Nat.zero_le _) _ _, ?_⟩
    have hmoved := @transfer_moved Received platform len
      (fun r offset n =>
        ⟨fun j => if offset ≤ j ∧ j < offset + n then stream (r.used + (j - offset)) else r.buf j, r.used + n⟩) hlen
      (fun done r => r.used = done ∧ ∀ j, r.buf j = if j < done then stream j else buf j) ?_ 0 (Nat.zero_le _)
      ⟨buf, 0⟩ ⟨rfl, fun j => rfl⟩ answers
    · rwa [Nat.zero_add] at hmoved
    · rintro done r n ⟨rfl, hbuf⟩
      refine ⟨rfl, fun j => ?_⟩
      dsimp only
      by_cases hnew : r.used ≤ j ∧ j < r.used + n
      · rw [if_pos hnew, if_pos hnew.2, Nat.add_sub_cancel' hnew.1]
      · rw [if_neg hnew, hbuf j]
        split_ifs <;> first | rfl | omega

/-- The rest of a buffer is sent as `writeAll` writes it. -/
lemma transfer_eq_writeAll {data : Bytes} (hlen : data.length < 2 ^ 31) {done : ℕ} (hdone : done ≤ data.length)
    (wire : Bytes) (takes : List ℕ) :
    let r := transfer platform data.length (fun wire offset n => wire ++ slice (fun i => data.getD i 0) offset n)
      done wire (takes.map Int.ofNat)
    (r.code = some 0 ↔ (writeAll takes (data.drop done)).1 = true) ∧
      r.moved = wire ++ (writeAll takes (data.drop done)).2 := by
  induction takes generalizing done wire with
  | nil =>
    dsimp only
    rw [List.map_nil, transfer, writeAll]
    simp only [List.isEmpty_iff, List.drop_eq_nil_iff, List.append_nil, and_true]
    split_ifs with hlt
    · refine iff_of_false ?_ (by omega)
      intro h
      cases h
    · exact ⟨fun _ => by omega, fun _ => rfl⟩
  | cons n takes ih =>
    dsimp only
    rw [List.map_cons]
    by_cases hlt : done < data.length
    · have hmore : ¬ (data.drop done).isEmpty = true := by
        rw [List.isEmpty_iff, List.drop_eq_nil_iff]
        omega
      rw [writeAll, if_neg hmore]
      by_cases hn : n = 0
      · rw [transfer_failed hlen hlt wire (by simp [hn]), if_pos hn]
        simp
      · obtain ⟨k, hone, hfits, hk, heq⟩ := @transfer_round _ platform _
          (fun wire offset n => wire ++ slice (fun i => data.getD i 0) offset n) hlen done hlt wire n (by omega)
          (takes.map Int.ofNat)
        -- what the socket takes beyond the end does not matter
        have hdrop : (data.drop done).drop n = data.drop (done + k) := by
          rw [List.drop_drop]
          rcases Nat.lt_or_ge n (data.length - done) with hless | hall
          · rw [show k = n by omega]
          · rw [List.drop_of_length_le (by omega), List.drop_of_length_le (by omega)]
        have htake : slice (fun i => data.getD i 0) done k = (data.drop done).take n := by
          refine List.ext_getElem ?_ fun i hi hi' => ?_
          · simp only [slice, List.length_map, List.length_range, List.length_take, List.length_drop]
            omega
          · simp only [slice, List.length_map, List.length_range] at hi
            simp [slice, show done + i < data.length by omega]
        obtain ⟨hcode, hmoved⟩ := ih hfits (wire ++ slice (fun i => data.getD i 0) done k)
        rw [show Int.ofNat n = (n : ℤ) from rfl, heq, if_neg hn, hdrop]
        refine ⟨hcode, ?_⟩
        dsimp only
        rw [hmoved, htake, List.append_assoc]
    · have hempty : (data.drop done).isEmpty = true := by
        rw [List.isEmpty_iff, List.drop_eq_nil_iff]
        omega
      rw [transfer_done hlt, writeAll, if_pos hempty]
      simp

/-- **Sending a buffer below 2 ^ 31 bytes** is what it is taken for elsewhere. -/
theorem ftSendAll_eq_writeAll {data : Bytes} (hlen : data.length < 2 ^ 31) (peer : Peer) :
    let r := ftSendAll platform (fun i => data.getD i 0) data.length (peer.takes.map Int.ofNat)
    (r.code = some 0 ↔ (FtAuth.ftSendAll peer data).1 = true) ∧ r.moved = (FtAuth.ftSendAll peer data).2 :=
  @transfer_eq_writeAll platform data hlen 0 (Nat.zero_le _) [] peer.takes

/-! ### Longer ones -/

lemma transfer_first (hlen : 0 < len) (s : σ) (answer : ℤ) (answers : List ℤ) :
    ∃ count ios, (transfer platform len move 0 s (answer :: answers)).ios =
      ⟨0, request platform len, count⟩ :: ios := by
  rw [transfer, if_pos hlen]
  dsimp only
  split_ifs
  · exact ⟨_, _, rfl⟩
  · exact ⟨_, _, rfl⟩

/-- The second call, if the socket gives what the first one asks for. -/
lemma transfer_second {asked : ℕ} (hasked : request platform len = asked) (hpos : 0 < asked) (hlt : asked < len)
    (hsize : len < 2 ^ 63) (s : σ) :
    ∃ count ios, (transfer platform len move 0 s [asked, 1]).ios =
      ⟨0, asked, asked⟩ :: ⟨asked, request platform (len - asked), count⟩ :: ios := by
  have hmod : (0 + asked) % 2 ^ 64 = asked := by omega
  have hmin : min (asked : ℤ) asked = asked := by omega
  rw [transfer, if_pos (by omega)]
  dsimp only
  rw [Nat.sub_zero, hasked, hmin, if_neg (by omega), Int.toNat_natCast, hmod, transfer, if_pos hlt]
  dsimp only
  split_ifs
  · exact ⟨_, _, rfl⟩
  · exact ⟨_, _, rfl⟩

lemma asks_wrong (platform : Platform) (hlen : 2 ^ 31 ≤ len) (hsize : len < 2 ^ 63) :
    ∃ answers, ∃ io ∈ (ftSendAll platform (fun _ => 0) len answers).ios,
      ¬ (1 ≤ io.asked ∧ io.asked ≤ (len : ℤ) - io.offset) := by
  by_cases hupper : 2 ^ 31 ≤ len % 2 ^ 32
  · obtain ⟨count, ios, hios⟩ := @transfer_first _ platform len (fun wire offset n => wire ++ slice (fun _ => 0) offset n)
      (by omega) [] 1 []
    refine ⟨[1], ⟨0, request platform len, count⟩, ?_, ?_⟩
    · rw [ftSendAll, hios]
      exact List.mem_cons_self
    · have hbad := request_of_mod_ge platform hupper hsize
      simpa using hbad
  · have hasked := request_of_mod_lt platform (by omega : len % 2 ^ 32 < 2 ^ 31)
    by_cases hzero : len % 2 ^ 32 = 0
    · obtain ⟨count, ios, hios⟩ := @transfer_first _ platform len
        (fun wire offset n => wire ++ slice (fun _ => 0) offset n) (by omega) [] 1 []
      refine ⟨[1], ⟨0, request platform len, count⟩, ?_, ?_⟩
      · rw [ftSendAll, hios]
        exact List.mem_cons_self
      · dsimp only
        omega
    · -- the remainder is given, and what is left is a multiple
      obtain ⟨count, ios, hios⟩ := @transfer_second _ platform len
        (fun wire offset n => wire ++ slice (fun _ => 0) offset n) (len % 2 ^ 32) hasked (by omega) (by omega) hsize []
      have hnothing := request_of_mod_lt platform (by omega : (len - len % 2 ^ 32) % 2 ^ 32 < 2 ^ 31)
      refine ⟨[(len % 2 ^ 32 : ℕ), 1], ⟨len % 2 ^ 32, request platform (len - len % 2 ^ 32), count⟩, ?_, ?_⟩
      · rw [ftSendAll, hios]
        simp
      · dsimp only
        omega

/-- **Partial transfers are correct** for the lengths below 2 ^ 31, and only for them. -/
theorem partialIo_iff (platform : Platform) {m : ℕ} (hm : m < 2 ^ 31) (hlen : len ≤ m * 2 ^ 20) :
    Correct platform len ↔ len < 2 ^ 31 := by
  constructor
  · intro h
    by_contra hge
    obtain ⟨answers, io, hio, hbad⟩ := asks_wrong platform (by omega : 2 ^ 31 ≤ len) (by omega)
    exact hbad ((h.1 (fun _ => 0) answers).1.asked io hio)
  · exact correct_of_lt platform

/-- A file of the default size. -/
theorem partialIo_iff_default : Correct .windows (500 * 2 ^ 20) ↔ 500 * 2 ^ 20 < 2 ^ 31 :=
  @partialIo_iff (500 * 2 ^ 20) .windows 500 (by decide) (Nat.le_refl _)

/-- A file of four gigabytes, where the limit is one megabyte more: nothing is asked for. -/
theorem fourGigabytes_not_correct :
    ¬ ∀ (platform : Platform) (m len : ℕ), 0 < m → m < 2 ^ 31 → len ≤ m * 2 ^ 20 → Correct platform len := by
  intro h
  have hfour := h .windows 4097 (2 ^ 32) (by decide) (by decide) (by decide)
  have hasked := (hfour.1 (fun _ => 0) [1]).1.asked ⟨0, 0, 0⟩ (by decide)
  exact absurd hasked.1 (by decide)

end SyncClipboard.PartialIo
