import Mathlib.Algebra.Ring.Int.Defs
import Mathlib.Algebra.Ring.Nat
import SyncClipboard.Reassembly

/-!
The buffers of the C clients that grow as they are written: `HttpBuf`, which takes the answer of the
server, and `DynBuf`, which takes a picture as it is converted.

A capacity is doubled until what comes fits, and a doubling can wrap around. As long as all the chunks
together fit in half of `size_t` it does not: the capacity is a power of two, at most half of the range,
so the doubling ends and no write goes outside the buffer (`growable`).
-/

namespace SyncClipboard.GrowBuf

open FtAuth
open Reassembly (writeAt realloc length_realloc length_writeAt take_writeAt)

/-- `HttpBuf` and `DynBuf`. -/
structure Buf where
  data : Bytes
  len : ℕ
  cap : ℕ
  deriving DecidableEq

def empty : Buf := ⟨[], 0, 0⟩

inductive Fault
  /-- the loop has not ended -/
  | running
  /-- a write outside the block -/
  | overrun
  deriving DecidableEq

def memcpy (data : Bytes) (i : ℕ) (bytes : Bytes) : Except Fault Bytes :=
  if i + bytes.length ≤ data.length then .ok (writeAt data i bytes) else .error .overrun

/-! ### The program; `w` is the number of bits of `size_t` -/

section Program

variable (w : ℕ) (junk : ℕ → UInt8) (fuel : ℕ)

/-- `while (new_cap < needed) new_cap *= 2`, for so many rounds. -/
def growLoop (needed : ℕ) : ℕ → ℕ → Except Fault ℕ
  | 0, newCap => if newCap < needed then .error .running else .ok newCap
  | fuel + 1, newCap =>
    if newCap < needed then growLoop needed fuel (newCap * 2 % 2 ^ w) else .ok newCap

/-- The buffer before the copy; `first` is the capacity it starts with. -/
def makeRoom (first needed : ℕ) (buf : Buf) : Except Fault Buf :=
  if needed > buf.cap then do
    let newCap ← growLoop w needed fuel (if buf.cap = 0 then first else buf.cap * 2 % 2 ^ w)
    return ⟨realloc junk buf.data newCap, buf.len, newCap⟩
  else return buf

/-- The returned number tells libcurl how much was taken. -/
def writeCb (buf : Buf) (ptr : Bytes) (size nmemb : ℕ) : Except Fault (Buf × ℕ) := do
  let total := size * nmemb % 2 ^ w
  let buf ← makeRoom w junk fuel 1024 ((buf.len + total + 1) % 2 ^ w) buf
  let data ← memcpy buf.data buf.len (ptr.take total)
  let len := (buf.len + total) % 2 ^ w
  let data ← memcpy data len [0]
  return (⟨data, len, buf.cap⟩, total)

/-- An `int` becomes a `size_t`. -/
def toSize (size : ℤ) : ℕ := (size % 2 ^ w).toNat

def dynbufWrite (b : Buf) (bytes : Bytes) (size : ℤ) : Except Fault Buf := do
  let b ← makeRoom w junk fuel 4096 ((b.len + toSize w size) % 2 ^ w) b
  let data ← memcpy b.data b.len (bytes.take (toSize w size))
  return ⟨data, (b.len + toSize w size) % 2 ^ w, b.cap⟩

/-- What libcurl hands over in one call. -/
structure Chunk where
  bytes : Bytes
  size : ℕ
  nmemb : ℕ
  covers : bytes.length = size * nmemb

/-- What the picture writer hands over in one call. -/
structure Block where
  bytes : Bytes
  size : ℤ
  covers : bytes.length = size
  int : size < 2 ^ 31

def writeChunks (chunks : List Chunk) : Except Fault Buf :=
  chunks.foldlM (fun buf c => Prod.fst <$> writeCb w junk fuel buf c.bytes c.size c.nmemb) empty

def writeBlocks (blocks : List Block) : Except Fault Buf :=
  blocks.foldlM (fun b c => dynbufWrite w junk fuel b c.bytes c.size) empty

end Program

/-! ### The capacity -/

/-- Nothing yet, or a power of two of which `size_t` has the double. -/
def PowerCap (w first cap : ℕ) : Prop := cap = 0 ∨ first ≤ cap ∧ ∃ j < w, cap = 2 ^ j

lemma double {w j : ℕ} (hj : j + 1 < w) : 2 ^ j * 2 % 2 ^ w = 2 ^ (j + 1) := by
  rw [← pow_succ]
  exact Nat.mod_eq_of_lt (Nat.pow_lt_pow_right (by omega) hj)

lemma growLoop_ok {w needed j : ℕ} (hneeded : needed ≤ 2 ^ (w - 1)) (hj : j < w) {fuel : ℕ}
    (hfuel : w ≤ fuel + j + 1) :
    ∃ i < w, j ≤ i ∧ growLoop w needed fuel (2 ^ j) = .ok (2 ^ i) ∧ needed ≤ 2 ^ i := by
  induction fuel generalizing j with
  | zero =>
    have hlast : j = w - 1 := by omega
    subst hlast
    refine ⟨w - 1, hj, Nat.le_refl _, ?_, hneeded⟩
    rw [growLoop, if_neg (by omega)]
  | succ fuel ih =>
    rw [growLoop]
    by_cases hlt : 2 ^ j < needed
    · -- a power below what is needed is not the last one
      have hmore : j + 1 < w := by
        by_contra hlast
        rw [show j = w - 1 by omega] at hlt
        omega
      obtain ⟨i, hi, hji, hloop, hle⟩ := ih hmore (by omega)
      exact ⟨i, hi, by omega, by rw [if_pos hlt, double hmore, hloop], hle⟩
    · exact ⟨j, hj, Nat.le_refl _, if_neg hlt, by omega⟩

/-! ### The buffer -/

/-- The block is as long as its capacity and begins with `msg`. -/
structure Holds (w first : ℕ) (msg : Bytes) (b : Buf) : Prop where
  size : b.data.length = b.cap
  len : b.len = msg.length
  fits : b.len ≤ b.cap
  held : b.data.take b.len = msg
  cap : PowerCap w first b.cap

lemma holds_empty (w first : ℕ) : Holds w first [] empty :=
  ⟨rfl, rfl, Nat.le_refl _, rfl, .inl rfl⟩

variable {w : ℕ} {junk : ℕ → UInt8} {fuel : ℕ}

lemma Holds.makeRoom {k : ℕ} {msg : Bytes} {b : Buf} (h : Holds w (2 ^ k) msg b) (hk : k < w)
    (hfuel : w ≤ fuel) {needed : ℕ} (hneeded : needed ≤ 2 ^ (w - 1)) :
    ∃ b', makeRoom w junk fuel (2 ^ k) needed b = .ok b' ∧ Holds w (2 ^ k) msg b' ∧ needed ≤ b'.cap := by
  by_cases hgrow : needed > b.cap
  · -- where the doubling starts
    have hstart : ∃ j < w, k ≤ j ∧ b.cap ≤ 2 ^ j ∧
        (if b.cap = 0 then 2 ^ k else b.cap * 2 % 2 ^ w) = 2 ^ j := by
      rcases h.cap with hzero | ⟨hfirst, j, hj, hcap⟩
      · exact ⟨k, hk, Nat.le_refl _, by rw [hzero]; exact Nat.zero_le _, if_pos hzero⟩
      · have hmore : j + 1 < w := by
          by_contra hlast
          rw [hcap, show j = w - 1 by omega] at hgrow
          omega
        have hkj : k ≤ j := by
          rw [hcap] at hfirst
          exact (Nat.pow_le_pow_iff_right (by omega)).mp hfirst
        have hpos : 0 < 2 ^ j := Nat.two_pow_pos j
        refine ⟨j + 1, hmore, by omega, ?_, ?_⟩
        · rw [hcap]
          exact Nat.pow_le_pow_right (by omega) (by omega)
        · rw [if_neg (by omega), hcap, double hmore]
    obtain ⟨j, hj, hkj, hcap, hstart⟩ := hstart
    obtain ⟨i, hi, hji, hloop, hle⟩ := @growLoop_ok w needed j hneeded hj fuel (by omega)
    have hkeep : b.cap ≤ 2 ^ i := Nat.le_trans hcap (Nat.pow_le_pow_right (by omega) hji)
    have hsize := h.size
    have hfits := h.fits
    refine ⟨⟨realloc junk b.data (2 ^ i), b.len, 2 ^ i⟩, ?_,
      ⟨?_, h.len, Nat.le_trans hfits hkeep, ?_, .inr ⟨?_, i, hi, rfl⟩⟩, hle⟩
    · rw [GrowBuf.makeRoom, if_pos hgrow, hstart, hloop]
      rfl
    · exact length_realloc junk (by omega)
    · dsimp only
      rw [realloc, List.take_append_of_le_length (by omega)]
      exact h.held
    · exact Nat.pow_le_pow_right (by omega) (by omega)
  · refine ⟨b, ?_, h, by omega⟩
    rw [GrowBuf.makeRoom, if_neg hgrow]
    rfl

lemma Holds.memcpy {first : ℕ} {msg : Bytes} {b : Buf} (h : Holds w first msg b) {bytes : Bytes}
    (hroom : b.len + bytes.length ≤ b.cap) :
    ∃ data, memcpy b.data b.len bytes = .ok data ∧
      Holds w first (msg ++ bytes) ⟨data, b.len + bytes.length, b.cap⟩ := by
  have hsize := h.size
  have hfits := h.fits
  refine ⟨writeAt b.data b.len bytes, ?_, ?_, ?_, hroom, ?_, h.cap⟩
  · rw [GrowBuf.memcpy, if_pos (by omega)]
  · rw [length_writeAt _ _ _ (by omega), hsize]
  · rw [List.length_append, h.len]
  · dsimp only
    rw [take_writeAt (by omega), h.held]

/-! ### Every sequence of calls -/

/-- After a call of `write_cb` the bytes are there, followed by a zero, all inside the block. -/
def Terminated (msg : Bytes) (b : Buf) : Prop :=
  b.len + 1 ≤ b.cap ∧ b.data.length = b.cap ∧ b.data[b.len]? = some 0 ∧
    b.len = msg.length ∧ b.data.take b.len = msg

/-- After a call of `dynbuf_write` the bytes are there, all inside the block. -/
def Contained (msg : Bytes) (b : Buf) : Prop :=
  b.len ≤ b.cap ∧ b.data.length = b.cap ∧ b.len = msg.length ∧ b.data.take b.len = msg

lemma half_lt {n : ℕ} (h : n ≤ (2 ^ w - 1) / 2) (hw : 0 < w) : n + 1 ≤ 2 ^ (w - 1) ∧ n + 1 < 2 ^ w := by
  have hdouble : 2 ^ w = 2 ^ (w - 1) * 2 := by rw [← Nat.pow_succ, Nat.succ_eq_add_one, Nat.sub_add_cancel hw]
  have hpos := Nat.two_pow_pos (w - 1)
  rw [hdouble] at h ⊢
  omega

lemma Holds.terminated {first n cap : ℕ} {msg data : Bytes} (h : Holds w first (msg ++ [0]) ⟨data, n + 1, cap⟩) :
    Holds w first msg ⟨data, n, cap⟩ ∧ Terminated msg ⟨data, n, cap⟩ := by
  have hlen : n = msg.length := by simpa using h.len
  have hfits : n + 1 ≤ cap := h.fits
  have hheld : data.take (n + 1) = msg ++ [0] := h.held
  have htake : data.take n = msg := by
    have := congrArg (List.take n) hheld
    rwa [List.take_take, Nat.min_eq_left (Nat.le_succ n), hlen, List.take_left, ← hlen] at this
  have hzero : data[n]? = some 0 := by
    rw [← List.getElem?_take_of_lt (Nat.lt_succ_self n), hheld, hlen, List.getElem?_concat_length]
  exact ⟨⟨h.size, hlen, Nat.le_of_succ_le hfits, htake, h.cap⟩, hfits, h.size, hzero, hlen, htake⟩

lemma Holds.writeCb {msg : Bytes} {b : Buf} (h : Holds w (2 ^ 10) msg b) (hw : 32 ≤ w) (hfuel : w ≤ fuel)
    (c : Chunk) (htotal : (msg ++ c.bytes).length ≤ (2 ^ w - 1) / 2) :
    ∃ b', writeCb w junk fuel b c.bytes c.size c.nmemb = .ok (b', c.bytes.length) ∧
      Holds w (2 ^ 10) (msg ++ c.bytes) b' ∧ Terminated (msg ++ c.bytes) b' := by
  obtain ⟨hle, hlt⟩ := half_lt htotal (by omega)
  rw [List.length_append, ← h.len] at hle hlt
  have hchunk : c.size * c.nmemb % 2 ^ w = c.bytes.length := by
    rw [← c.covers]
    exact Nat.mod_eq_of_lt (by omega)
  have hneeded : (b.len + c.bytes.length + 1) % 2 ^ w = b.len + c.bytes.length + 1 := Nat.mod_eq_of_lt (by omega)
  have hlen : (b.len + c.bytes.length) % 2 ^ w = b.len + c.bytes.length := Nat.mod_eq_of_lt (by omega)
  obtain ⟨b₁, hroom, h₁, hcap⟩ := @Holds.makeRoom w junk fuel 10 msg b h (by omega) hfuel _ hle
  have hlen₁ : b₁.len = b.len := by rw [h₁.len, h.len]
  obtain ⟨data, hcopy, h₂⟩ := @Holds.memcpy w _ msg b₁ h₁ c.bytes (by omega)
  obtain ⟨data', hzero, h₃⟩ := @Holds.memcpy w _ _ _ h₂ [0] (by dsimp only [List.length_singleton]; omega)
  refine ⟨⟨data', b.len + c.bytes.length, b₁.cap⟩, ?_, ?_⟩
  · rw [GrowBuf.writeCb]
    dsimp only
    rw [hchunk, hneeded, show (1024 : ℕ) = 2 ^ 10 from rfl, hroom, List.take_length]
    simp only [bind, Except.bind, hcopy]
    rw [hlen₁, hlen]
    rw [hlen₁] at hzero
    simp only [hzero]
    rfl
  · rw [hlen₁] at h₃
    exact h₃.terminated

lemma Holds.dynbufWrite {msg : Bytes} {b : Buf} (h : Holds w (2 ^ 12) msg b) (hw : 32 ≤ w) (hfuel : w ≤ fuel)
    (c : Block) (htotal : (msg ++ c.bytes).length ≤ (2 ^ w - 1) / 2) :
    ∃ b', dynbufWrite w junk fuel b c.bytes c.size = .ok b' ∧ Holds w (2 ^ 12) (msg ++ c.bytes) b' := by
  obtain ⟨hle, hlt⟩ := half_lt htotal (by omega)
  rw [List.length_append, ← h.len] at hle hlt
  have hsize : toSize w c.size = c.bytes.length := by
    rw [toSize, ← c.covers]
    exact_mod_cast Nat.mod_eq_of_lt (by omega)
  have hlen : (b.len + c.bytes.length) % 2 ^ w = b.len + c.bytes.length := Nat.mod_eq_of_lt (by omega)
  obtain ⟨b₁, hroom, h₁, hcap⟩ := @Holds.makeRoom w junk fuel 12 msg b h (by omega) hfuel
    (b.len + c.bytes.length) (by omega)
  have hlen₁ : b₁.len = b.len := by rw [h₁.len, h.len]
  obtain ⟨data, hcopy, h₂⟩ := @Holds.memcpy w _ msg b₁ h₁ c.bytes (by omega)
  refine ⟨_, ?_, h₂⟩
  rw [GrowBuf.dynbufWrite, hsize, hlen, show (4096 : ℕ) = 2 ^ 12 from rfl, hroom, List.take_length]
  simp only [bind, Except.bind, hcopy]
  rw [hlen₁, hlen]
  rfl

/-- A run of writes, each of which is one more piece behind what the buffer holds. -/
lemma Holds.foldlM {α : Type*} {first bound : ℕ} {write : Buf → α → Except Fault Buf} {bytes : α → Bytes}
    (hwrite : ∀ {msg b}, Holds w first msg b → ∀ c, (msg ++ bytes c).length ≤ bound →
      ∃ b', write b c = .ok b' ∧ Holds w first (msg ++ bytes c) b') {msg : Bytes} {b : Buf}
    (h : Holds w first msg b) {cs : List α} (htotal : (msg ++ cs.flatMap bytes).length ≤ bound) :
    ∃ b', cs.foldlM write b = .ok b' ∧ Holds w first (msg ++ cs.flatMap bytes) b' := by
  induction cs generalizing msg b with
  | nil => exact ⟨b, rfl, by simpa using h⟩
  | cons c cs ih =>
    rw [List.flatMap_cons, ← List.append_assoc] at htotal ⊢
    have hfirst : (msg ++ bytes c).length ≤ bound := by
      rw [List.length_append] at htotal
      omega
    obtain ⟨b₁, hb₁, h₁⟩ := hwrite h c hfirst
    obtain ⟨b', hb', h'⟩ := ih h₁ htotal
    refine ⟨b', ?_, h'⟩
    rw [List.foldlM_cons, hb₁]
    exact hb'

/-- **No write goes outside the buffers**, and the loops end, as long as the chunks together fit in half
of `size_t`. -/
theorem growable (hw : 32 ≤ w) (junk : ℕ → UInt8) (hfuel : w ≤ fuel) :
    (∀ (chunks : List Chunk) (c : Chunk),
      ((chunks ++ [c]).flatMap Chunk.bytes).length ≤ (2 ^ w - 1) / 2 →
        ∃ before b, writeChunks w junk fuel chunks = .ok before ∧
          writeCb w junk fuel before c.bytes c.size c.nmemb = .ok (b, c.bytes.length) ∧
          Terminated ((chunks ++ [c]).flatMap Chunk.bytes) b) ∧
      ∀ (blocks : List Block) (c : Block),
        ((blocks ++ [c]).flatMap Block.bytes).length ≤ (2 ^ w - 1) / 2 →
          ∃ before b, writeBlocks w junk fuel blocks = .ok before ∧
            dynbufWrite w junk fuel before c.bytes c.size = .ok b ∧
            Contained ((blocks ++ [c]).flatMap Block.bytes) b := by
  constructor
  · intro chunks c htotal
    rw [List.flatMap_append, List.flatMap_singleton] at htotal ⊢
    have hbefore : ([] ++ chunks.flatMap Chunk.bytes).length ≤ (2 ^ w - 1) / 2 := by
      rw [List.length_append] at htotal
      rw [List.nil_append]
      omega
    have hstep : ∀ {msg b}, Holds w (2 ^ 10) msg b → ∀ c : Chunk, (msg ++ c.bytes).length ≤ (2 ^ w - 1) / 2 →
        ∃ b', Prod.fst <$> writeCb w junk fuel b c.bytes c.size c.nmemb = .ok b' ∧
          Holds w (2 ^ 10) (msg ++ c.bytes) b' := by
      intro msg b h c hc
      obtain ⟨b', hb', h', -⟩ := @Holds.writeCb w junk fuel msg b h hw hfuel c hc
      exact ⟨b', by rw [hb']; rfl, h'⟩
    obtain ⟨before, hrun, h⟩ := (holds_empty w (2 ^ 10)).foldlM hstep hbefore
    rw [List.nil_append] at h
    obtain ⟨b, hb, -, hterm⟩ := @Holds.writeCb w junk fuel _ before h hw hfuel c htotal
    exact ⟨before, b, hrun, hb, hterm⟩
  · intro blocks c htotal
    rw [List.flatMap_append, List.flatMap_singleton] at htotal ⊢
    have hbefore : ([] ++ blocks.flatMap Block.bytes).length ≤ (2 ^ w - 1) / 2 := by
      rw [List.length_append] at htotal
      rw [List.nil_append]
      omega
    have hstep : ∀ {msg b}, Holds w (2 ^ 12) msg b → ∀ c : Block, (msg ++ c.bytes).length ≤ (2 ^ w - 1) / 2 →
        ∃ b', dynbufWrite w junk fuel b c.bytes c.size = .ok b' ∧ Holds w (2 ^ 12) (msg ++ c.bytes) b' :=
      fun h c hc => h.dynbufWrite hw hfuel c hc
    obtain ⟨before, hrun, h⟩ := (holds_empty w (2 ^ 12)).foldlM hstep hbefore
    rw [List.nil_append] at h
    obtain ⟨b, hb, h'⟩ := @Holds.dynbufWrite w junk fuel _ before h hw hfuel c htotal
    exact ⟨before, b, hrun, hb, h'.fits, h'.size, h'.len, h'.held⟩

/-- An answer in two chunks, one of them empty, and a picture of three bytes. -/
theorem growable_two :
    (∃ before b, writeChunks 64 (fun _ => 7) 64 [⟨ascii "to", 1, 2, rfl⟩] = .ok before ∧
      writeCb 64 (fun _ => 7) 64 before [] 1 0 = .ok (b, 0) ∧ Terminated (ascii "to") b) ∧
      ∃ before b, writeBlocks 64 (fun _ => 7) 64 [] = .ok before ∧
        dynbufWrite 64 (fun _ => 7) 64 before [1, 2, 3] 3 = .ok b ∧ Contained [1, 2, 3] b := by
  obtain ⟨hchunks, hblocks⟩ := @growable 64 64 (by decide) (fun _ => 7) (by decide)
  exact ⟨hchunks [⟨ascii "to", 1, 2, rfl⟩] ⟨[], 1, 0, rfl⟩ (by decide),
    hblocks [] ⟨[1, 2, 3], 3, rfl, by decide⟩ (by decide)⟩

end SyncClipboard.GrowBuf
