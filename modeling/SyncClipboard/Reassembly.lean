import SyncClipboard.Crypto
import SyncClipboard.Run

/-!
How the Linux and Windows clients put a WebSocket message together.

The fragments are copied one behind the other into a buffer that grows and is kept from one message to
the next, and the last one is followed by a zero. The buffer grows when the fragments do not fit, which
leaves no place for the zero where they fit exactly. So all goes well as long as no message is as long
as the buffer is when it ends, and the parser, which stops at a zero, sees all of a message that has
none (`reassembly_iff`). A size is that of a block of memory, and no sum of two of them wraps around.
-/

namespace SyncClipboard.Reassembly

open FtAuth Crypto

/-- An event `LWS_CALLBACK_CLIENT_RECEIVE`. -/
structure Fragment where
  bytes : Bytes
  final : Bool
  deriving DecidableEq

/-- `g_recv_buf` with what it holds, `g_recv_len` and `g_recv_cap`. -/
structure Recv where
  buf : Bytes
  len : ℕ
  cap : ℕ
  deriving DecidableEq

def start : Recv := ⟨[], 0, 0⟩

inductive Did
  /-- `memcpy` to the places from `first` to `stop` -/
  | copied (first stop cap : ℕ)
  | terminated (place cap : ℕ)
  /-- `cJSON_Parse` -/
  | parsed (text : Bytes)
  deriving DecidableEq

/-- `while (new_cap < needed + 1) new_cap *= 2`. -/
def growCap (needed newCap : ℕ) (hpos : 0 < newCap) : ℕ :=
  if newCap < needed + 1 then growCap needed (newCap * 2) (by omega) else newCap
termination_by needed + 1 - newCap

/-- A write to a block of memory; what lies behind the block is not part of it. -/
def writeAt (buf : Bytes) (i : ℕ) (bytes : Bytes) : Bytes :=
  (buf.take i ++ bytes ++ buf.drop (i + bytes.length)).take buf.length

variable (junk : ℕ → UInt8)

/-- `realloc`, which keeps what the block has and promises nothing about the rest. -/
def realloc (buf : Bytes) (newCap : ℕ) : Bytes :=
  buf ++ (List.range (newCap - buf.length)).map fun i => junk (buf.length + i)

/-- The buffer before the copy. -/
def makeRoom (r : Recv) (needed : ℕ) : Recv :=
  if r.cap < needed then
    let newCap := growCap needed (if r.cap = 0 then 4096 else r.cap) (by split_ifs <;> omega)
    ⟨realloc junk r.buf newCap, r.len, newCap⟩
  else r

def step (r : Recv) (f : Fragment) : Recv × List Did :=
  let needed := r.len + f.bytes.length
  let r := makeRoom junk r needed
  let buf := writeAt r.buf r.len f.bytes
  if f.final = false then (⟨buf, needed, r.cap⟩, [.copied r.len needed r.cap])
  else
    let buf := writeAt buf needed [0]
    (⟨buf, 0, r.cap⟩, [.copied r.len needed r.cap, .terminated needed r.cap, .parsed (cString buf)])

/-! ### What is to be shown -/

/-- Every byte is written inside the buffer. -/
def Did.Inside : Did → Prop
  | .copied i stop cap => ∀ k, i ≤ k → k < stop → k < cap
  | .terminated i cap => i < cap
  | .parsed _ => True

/-- The bytes of the message that is not finished yet. -/
def opened (past : List Fragment) : Bytes :=
  past.foldl (fun msg f => if f.final then [] else msg ++ f.bytes) []

/-- All is written inside the buffer, and what is parsed is the whole message. -/
def Good (msg : Bytes) (r : Recv) (f : Fragment) : Prop :=
  (∀ d ∈ (step junk r f).2, d.Inside) ∧
    ∀ text, .parsed text ∈ (step junk r f).2 → text = msg ++ f.bytes


/-! ### The capacity -/

lemma lt_growCap (needed newCap : ℕ) (hpos : 0 < newCap) : needed < growCap needed newCap hpos := by
  fun_induction growCap needed newCap hpos with
  | case1 newCap hpos hlt ih => exact ih
  | case2 newCap hpos hge => omega

lemma le_growCap (needed newCap : ℕ) (hpos : 0 < newCap) : newCap ≤ growCap needed newCap hpos := by
  fun_induction growCap needed newCap hpos with
  | case1 newCap hpos hlt ih => omega
  | case2 newCap hpos hge => exact Nat.le_refl _

/-! ### The buffer -/

/-- The block is as long as its capacity, and begins with the bytes of the message so far. -/
structure Holds (msg : Bytes) (r : Recv) : Prop where
  size : r.buf.length = r.cap
  fits : r.len ≤ r.cap
  held : r.buf.take r.len = msg

lemma Holds.length {msg : Bytes} {r : Recv} (h : Holds msg r) : msg.length = r.len := by
  rw [← h.held, List.length_take, h.size]
  exact Nat.min_eq_left h.fits

lemma length_realloc {buf : Bytes} {newCap : ℕ} (h : buf.length ≤ newCap) :
    (realloc junk buf newCap).length = newCap := by
  rw [realloc, List.length_append, List.length_map, List.length_range]
  omega

lemma Holds.makeRoom {msg : Bytes} {r : Recv} (h : Holds msg r) (needed : ℕ) :
    Holds msg (makeRoom junk r needed) ∧ (makeRoom junk r needed).len = r.len ∧
      needed ≤ (makeRoom junk r needed).cap ∧
      (needed < (makeRoom junk r needed).cap ↔ needed ≠ r.cap) := by
  unfold Reassembly.makeRoom
  by_cases hgrow : r.cap < needed
  · rw [if_pos hgrow]
    dsimp only
    have hpos : 0 < if r.cap = 0 then 4096 else r.cap := by split_ifs <;> omega
    have hle : r.cap ≤ if r.cap = 0 then 4096 else r.cap := by split_ifs <;> omega
    have hmore := lt_growCap needed _ hpos
    have hkeep := Nat.le_trans hle (le_growCap needed _ hpos)
    have hsize := h.size
    have hfits := h.fits
    refine ⟨⟨length_realloc junk (by omega), by dsimp only; omega, ?_⟩, rfl, by omega, ?_⟩
    · dsimp only
      rw [realloc, List.take_append_of_le_length (by omega)]
      exact h.held
    · constructor
      · intro _
        omega
      · intro _
        exact hmore
  · rw [if_neg hgrow]
    refine ⟨h, rfl, by omega, ?_⟩
    omega

lemma length_writeAt (buf bytes : Bytes) (i : ℕ) (hi : i ≤ buf.length) :
    (writeAt buf i bytes).length = buf.length := by
  rw [writeAt, List.length_take, List.length_append, List.length_append, List.length_take,
    List.length_drop]
  omega

lemma take_writeAt {buf bytes : Bytes} {i : ℕ} (hi : i + bytes.length ≤ buf.length) :
    (writeAt buf i bytes).take (i + bytes.length) = buf.take i ++ bytes := by
  have hlen : (buf.take i ++ bytes).length = i + bytes.length := by
    rw [List.length_append, List.length_take]
    omega
  rw [writeAt, List.take_take, Nat.min_eq_left hi, ← hlen, List.take_left]

lemma cString_terminated {buf msg : Bytes} (hmsg : buf.take msg.length = msg)
    (hlt : msg.length < buf.length) : cString (writeAt buf msg.length [0]) = cString msg := by
  have htake : (writeAt buf msg.length [0]).take (msg.length + 1) = msg ++ [0] := by
    have hsize : msg.length + [(0 : UInt8)].length ≤ buf.length := hlt
    have hwrite := take_writeAt hsize
    rwa [hmsg] at hwrite
  rw [← List.take_append_drop (msg.length + 1) (writeAt buf msg.length [0]), htake,
    List.append_assoc]
  exact cString_append_zero msg _

lemma cString_eq_iff {msg : Bytes} : cString msg = msg ↔ 0 ∉ msg := by
  constructor
  · intro h h0
    rw [cString, List.takeWhile_eq_self_iff] at h
    simpa using h 0 h0
  · exact cString_eq

/-! ### Every run -/

lemma Holds.copy {msg : Bytes} {r : Recv} (h : Holds msg r) {bytes : Bytes}
    (hroom : r.len + bytes.length ≤ r.cap) :
    Holds (msg ++ bytes) ⟨writeAt r.buf r.len bytes, r.len + bytes.length, r.cap⟩ := by
  have hsize := h.size
  refine ⟨?_, hroom, ?_⟩
  · rw [← hsize]
    exact length_writeAt r.buf bytes r.len (by omega)
  · have htake := @take_writeAt r.buf bytes r.len (by omega)
    rwa [h.held] at htake

/-- What a fragment does, in terms of the buffer that has room for it. -/
lemma Holds.step_eq {msg : Bytes} {r : Recv} (h : Holds msg r) (f : Fragment) :
    ∃ room, Holds msg room ∧ room.len = r.len ∧ r.len + f.bytes.length ≤ room.cap ∧
      (r.len + f.bytes.length < room.cap ↔ r.len + f.bytes.length ≠ r.cap) ∧
      step junk r f =
        let buf := writeAt room.buf r.len f.bytes
        let needed := r.len + f.bytes.length
        if f.final = false then (⟨buf, needed, room.cap⟩, [.copied r.len needed room.cap])
        else (⟨writeAt buf needed [0], 0, room.cap⟩,
          [.copied r.len needed room.cap, .terminated needed room.cap,
            .parsed (cString (writeAt buf needed [0]))]) := by
  obtain ⟨hroom, hlen, hneeded, hlt⟩ := h.makeRoom junk (r.len + f.bytes.length)
  refine ⟨_, hroom, hlen, hneeded, hlt, ?_⟩
  unfold Reassembly.step
  dsimp only
  rw [hlen]

lemma Holds.step {msg : Bytes} {r : Recv} (h : Holds msg r) (f : Fragment) :
    Holds (if f.final then [] else msg ++ f.bytes) (step junk r f).1 := by
  obtain ⟨room, hroom, hlen, hneeded, -, heq⟩ := h.step_eq junk f
  rw [← hlen] at hneeded heq
  have hcopy := hroom.copy hneeded
  rw [heq]
  cases f.final with
  | false => exact hcopy
  | true =>
    refine ⟨?_, Nat.zero_le _, rfl⟩
    rw [← hcopy.size] at hneeded
    exact (length_writeAt _ [0] _ hneeded).trans hcopy.size

lemma holds_start : Holds [] start := ⟨rfl, Nat.le_refl 0, rfl⟩

lemma opened_concat (past : List Fragment) (f : Fragment) :
    opened (past ++ [f]) = if f.final then [] else opened past ++ f.bytes := by
  rw [opened, List.foldl_append]
  rfl

/-- At every point of a run the buffer holds the message that is not finished yet. -/
theorem exec_holds (es : List Fragment) :
    Holds (opened es) (Run.exec (Reassembly.step junk) start es) := by
  refine @Run.exec_inv_of_past _ _ _ (Reassembly.step junk) (fun past r => Holds (opened past) r)
    ?_ [] start holds_start es
  intro past r f h
  rw [opened_concat]
  exact h.step junk f

/-- One fragment: a final one needs a place for the zero, and a message without one. -/
lemma Holds.good_iff {msg : Bytes} {r : Recv} (h : Holds msg r) (f : Fragment) :
    Good junk msg r f ↔
      (f.final → r.len + f.bytes.length ≠ r.cap ∧ 0 ∉ msg ++ f.bytes) := by
  obtain ⟨room, hroom, hlen, hneeded, hlt, heq⟩ := h.step_eq junk f
  have hcopied : ∀ k, r.len ≤ k → k < r.len + f.bytes.length → k < room.cap := by
    intro k _ hk
    omega
  rw [Good, heq]
  cases f.final with
  | false => simpa [Did.Inside] using hcopied
  | true =>
    have hparsed (hin : r.len + f.bytes.length < room.cap) :
        cString (writeAt (writeAt room.buf r.len f.bytes) (r.len + f.bytes.length) [0]) =
          cString (msg ++ f.bytes) := by
      rw [← hlen] at hneeded hin ⊢
      have hcopy := hroom.copy hneeded
      have hfull := hcopy.length
      dsimp only at hfull
      rw [← hfull] at hin ⊢
      refine cString_terminated ?_ ?_
      · rw [hfull]
        exact hcopy.held
      · exact hin.trans_eq hcopy.size.symm
    simp only [Bool.true_eq_false, if_false, List.mem_cons, List.not_mem_nil, or_false,
      forall_eq_or_imp, forall_eq, Did.Inside, reduceCtorEq, false_or, Did.parsed.injEq,
      and_true, forall_true_left]
    constructor
    · rintro ⟨⟨-, hin⟩, htext⟩
      rw [hparsed hin] at htext
      exact ⟨hlt.mp hin, cString_eq_iff.mp htext⟩
    · rintro ⟨hne, hzero⟩
      have hin := hlt.mpr hne
      refine ⟨⟨hcopied, hin⟩, ?_⟩
      rw [hparsed hin]
      exact cString_eq hzero

/-- **The reassembly.** Whatever the fragments are, the buffer keeps every byte that is written and the
parser gets every message whole, exactly if no message is as long as the buffer is when its last fragment
arrives, and none has a zero in it. -/
theorem reassembly_iff (es : List Fragment) :
    (∀ pre f post, es = pre ++ f :: post →
      Good junk (opened pre) (Run.exec (Reassembly.step junk) start pre) f) ↔
    ∀ pre f post, es = pre ++ f :: post → f.final →
      (Run.exec (Reassembly.step junk) start pre).len + f.bytes.length ≠
          (Run.exec (Reassembly.step junk) start pre).cap ∧
        0 ∉ opened pre ++ f.bytes := by
  constructor
  · intro h pre f post hes
    exact ((exec_holds junk pre).good_iff junk f).mp (h pre f post hes)
  · intro h pre f post hes
    exact ((exec_holds junk pre).good_iff junk f).mpr (h pre f post hes)

/-- After a message of one byte the buffer has 4096 places, and a message that fills them is followed by a
zero at the place with number 4096. -/
theorem reassembly_behind :
    ¬ ∀ pre f post, [⟨[65], true⟩, ⟨List.replicate 4096 65, true⟩] = pre ++ f :: post →
      Good (fun _ => 0) (opened pre) (Run.exec (Reassembly.step fun _ => 0) start pre) f := by
  obtain ⟨big, hbig⟩ : ∃ big : Bytes, List.replicate 4096 65 = big := ⟨_, rfl⟩
  have hlen : big.length = 4096 := by rw [← hbig, List.length_replicate]
  rw [hbig]
  intro h
  have hgood := h [⟨[65], true⟩] ⟨big, true⟩ [] rfl
  have hcap : (Reassembly.step (fun _ => 0) start ⟨[65], true⟩).1.cap = 4096 := by
    change growCap 1 4096 (by omega) = 4096
    rw [growCap, if_neg (by omega)]
  have hroom := (((exec_holds _ _).good_iff _ _).mp hgood rfl).1
  rw [Run.exec_cons, Run.exec_nil, hcap, hlen] at hroom
  exact hroom rfl

end SyncClipboard.Reassembly
