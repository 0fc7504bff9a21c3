import SyncClipboard.CJson

/-!
The JSON printer of the Linux and Windows clients, on its growing buffer.

The printer asks `ensure` for room and then writes without looking. Some of its functions leave
`offset` in front of what they have written, and `update_offset` moves it on. `print_refines`: it never
writes behind the end of the buffer, what it returns is the rendering of the value, and it returns that
unless it is too long or the memory runs out.
-/

namespace SyncClipboard.CJson

open FtAuth (Bytes)
open Crypto (cString)
open Json (Value)

/-! ### Doubles -/

/-- What the C library does with doubles. -/
structure Doubles (D : Type) where
  /-- what `strtod` and `sscanf` make of the text they convert -/
  value : Bytes → D
  /-- neither `isnan` nor `isinf` -/
  isFinite : D → Bool
  eq : D → D → Bool
  le : D → D → Bool
  ofInt : ℤ → D
  /-- the conversion to `int` -/
  toInt : D → ℤ
  /-- `sprintf` with `%1.15g` and with `%1.17g` -/
  g : ℕ → D → Bytes
  compareDouble : D → D → Bool

def intMax : ℕ := 2147483647

section Print

variable {D : Type} (dbl : Doubles D)

/-- `valueint`, as `cJSON_CreateNumber` sets it. -/
def valueint (d : D) : ℤ :=
  if dbl.le (dbl.ofInt intMax) d then intMax
  else if dbl.le d (dbl.ofInt (-intMax - 1)) then -intMax - 1
  else dbl.toInt d

/-- `number_buffer`; it has room for 25 characters. -/
def numberText (d : D) : Option Bytes :=
  let text :=
    if !dbl.isFinite d then Json.null
    else if dbl.eq d (dbl.ofInt (valueint dbl d)) then Json.decimal (valueint dbl d)
    else
      let test := subject (dbl.g 15 d)
      if test = [] ∨ dbl.compareDouble (dbl.value test) d = false then dbl.g 17 d else dbl.g 15 d
  if 25 < text.length then none else some text

/-! ### Strings -/

def hexChar (d : ℕ) : UInt8 := UInt8.ofNat (if d < 10 then 0x30 + d else 0x61 + (d - 10))

/-- What is counted for a character on top of itself. -/
def escapeCharacters (c : UInt8) : ℕ :=
  if c = 0x22 ∨ c = 0x5C ∨ c = 0x08 ∨ c = 0x0C ∨ c = 0x0A ∨ c = 0x0D ∨ c = 0x09 then 1
  else if c < 32 then 5
  else 0

def escape (c : UInt8) : Bytes :=
  if 31 < c ∧ c ≠ 0x22 ∧ c ≠ 0x5C then [c]
  else
    0x5C :: (if c = 0x5C then [0x5C]
      else if c = 0x22 then [0x22]
      else if c = 0x08 then [0x62]
      else if c = 0x0C then [0x66]
      else if c = 0x0A then [0x6E]
      else if c = 0x0D then [0x72]
      else if c = 0x09 then [0x74]
      -- u%04x
      else [0x75, 0x30, 0x30, hexChar (c.toNat / 16), hexChar (c.toNat % 16)])

/-! ### The buffer -/

/-- The size of the buffer, the text in it up to its zero, the place of the next write, and whether
something has been written behind the end. -/
structure PrintBuffer where
  length : ℕ
  text : Bytes
  offset : ℕ
  overrun : Bool

/-- A function that returns whether it succeeded. -/
abbrev Step := PrintBuffer → Bool × PrintBuffer

def Step.andThen (f g : Step) : Step := fun p => if (f p).1 then g (f p).2 else (false, (f p).2)

/-- What is printed is too deep, or a number does not fit. -/
def refuse : Step := fun p => (false, p)

variable (realloc : ℕ → Bool)

/-- Make room for so many bytes and one more. -/
def ensure (needed : ℕ) : Step := fun p =>
  if 0 < p.length ∧ p.length ≤ p.offset then (false, p)
  else if intMax < needed then (false, p)
  else if needed + p.offset + 1 ≤ p.length then (true, p)
  else if intMax / 2 < needed + p.offset + 1 ∧ intMax < needed + p.offset + 1 then (false, p)
  else
    let newsize := if intMax / 2 < needed + p.offset + 1 then intMax else (needed + p.offset + 1) * 2
    if realloc newsize then (true, { p with length := newsize }) else (false, { p with length := 0 })

/-- Write at `offset`, with so many zeros at the end. -/
def write (zeros : ℕ) (bytes : Bytes) : Step := fun p =>
  (true, { p with
    text := p.text.take p.offset ++ bytes
    overrun := p.overrun || decide (p.length < p.offset + bytes.length + zeros) })

def advance (n : ℕ) : Step := fun p => (true, { p with offset := p.offset + n })

/-- `offset` moves to the zero. -/
def updateOffset : Step := fun p => (true, { p with offset := p.text.length })

/-! ### Values -/

def printNumber (d : D) : Step :=
  match numberText dbl d with
  | none => refuse
  | some text => ((ensure realloc (text.length + 1)).andThen (write 1 text)).andThen (advance text.length)

def printStringPtr (input : Bytes) : Step :=
  let outputLength := input.length + (input.map escapeCharacters).sum
  (ensure realloc (outputLength + 3)).andThen
    (if (input.map escapeCharacters).sum = 0 then write 1 (0x22 :: (input ++ [0x22]))
    else write 1 ((0x22 :: input.flatMap escape).take (outputLength + 1) ++ [0x22]))

/-- The loop of `print_array`. -/
def printElements (printValue : Item D → Step) : List (Item D) → Step
  | [] => fun p => (true, p)
  | v :: vs =>
    ((printValue v).andThen updateOffset).andThen
      (if vs.isEmpty then printElements printValue vs
      else
        (((ensure realloc 2).andThen (write 1 [0x2C])).andThen (advance 1)).andThen
          (printElements printValue vs))

def printArray (printValue : Item D → Step) (items : List (Item D)) : Step :=
  ((((ensure realloc 1).andThen (write 0 [0x5B])).andThen (advance 1)).andThen
    (printElements realloc printValue items)).andThen ((ensure realloc 2).andThen (write 1 [0x5D]))

def printMembers (printValue : Item D → Step) : List (Bytes × Item D) → Step
  | [] => fun p => (true, p)
  | (name, v) :: ms =>
    let comma : Bytes := if ms.isEmpty then [] else [0x2C]
    ((((printStringPtr realloc (cString name)).andThen updateOffset).andThen
      (((ensure realloc 1).andThen (write 0 [0x3A])).andThen (advance 1))).andThen
      ((printValue v).andThen updateOffset)).andThen
      ((((ensure realloc (comma.length + 1)).andThen (write 1 comma)).andThen (advance comma.length)).andThen
        (printMembers printValue ms))

def printObject (printValue : Item D → Step) (members : List (Bytes × Item D)) : Step :=
  ((((ensure realloc 2).andThen (write 0 [0x7B])).andThen (advance 1)).andThen
    (printMembers realloc printValue members)).andThen ((ensure realloc 2).andThen (write 1 [0x7D]))

def printValue : ℕ → Item D → Step
  | _, .null => (ensure realloc 5).andThen (write 1 Json.null)
  | _, .bool false => (ensure realloc 6).andThen (write 1 Json.false_)
  | _, .bool true => (ensure realloc 5).andThen (write 1 Json.true_)
  | _, .number d => printNumber dbl realloc d
  | _, .string s => printStringPtr realloc (cString s)
  | 0, .array _ => refuse
  | n + 1, .array items => printArray realloc (printValue n) items
  | 0, .object _ => refuse
  | n + 1, .object members => printObject realloc (printValue n) members

/-- `print`, up to the last reallocation: whether it has succeeded so far, and the buffer. -/
def printed (v : Item D) : Bool × PrintBuffer :=
  (printValue dbl realloc nestingLimit v).andThen updateOffset ⟨256, [], 0, false⟩

/-- `cJSON_PrintUnformatted`. -/
def print (v : Item D) : Option Bytes :=
  if realloc 256 ∧ (printed dbl realloc v).1 ∧ realloc ((printed dbl realloc v).2.offset + 1) then
    some ((printed dbl realloc v).2.text.take (printed dbl realloc v).2.offset)
  else none

/-! ### What is to be printed -/

def renderString (s : Bytes) : Bytes := 0x22 :: (s.flatMap escape ++ [0x22])

/-- One text after the other. -/
def append (a b : Option Bytes) : Option Bytes := a.bind fun a => b.map fun b => a ++ b

def renderElements (render : Item D → Option Bytes) : List (Item D) → Option Bytes
  | [] => some []
  | v :: vs => append (render v) (append (some (if vs.isEmpty then [] else [0x2C])) (renderElements render vs))

def renderMembers (render : Item D → Option Bytes) : List (Bytes × Item D) → Option Bytes
  | [] => some []
  | (name, v) :: ms =>
    append (append (some (renderString (cString name))) (append (some [0x3A]) (render v)))
      (append (some (if ms.isEmpty then [] else [0x2C])) (renderMembers render ms))

/-- The text of a value, where it is not nested too deep. -/
def render : ℕ → Item D → Option Bytes
  | _, .null => some Json.null
  | _, .bool false => some Json.false_
  | _, .bool true => some Json.true_
  | _, .number d => numberText dbl d
  | _, .string s => some (renderString (cString s))
  | 0, .array _ => none
  | n + 1, .array items => append (some [0x5B]) (append (renderElements (render n) items) (some [0x5D]))
  | 0, .object _ => none
  | n + 1, .object members => append (some [0x7B]) (append (renderMembers (render n) members) (some [0x7D]))

end Print

/-! ### What a step does to the buffer -/

section Moves

variable {realloc : ℕ → Bool}

/-- `offset` is at the zero, and there is room for it. -/
structure Settled (p : PrintBuffer) : Prop where
  offset : p.offset = p.text.length
  room : p.offset < p.length
  max : p.length ≤ intMax
  inside : p.overrun = false

/-- There is memory for every size that is asked for. -/
def Enough (realloc : ℕ → Bool) : Prop := ∀ n ≤ intMax, realloc n = true

/-- The step writes nothing behind the end; it puts the given text behind what is there, or it fails;
and it does not fail where there is memory and the text is not too long. -/
structure Moves (realloc : ℕ → Bool) (s : Step) (out : Option Bytes) : Prop where
  inside {p : PrintBuffer} (hp : Settled p) : (s p).2.overrun = false
  moved {p : PrintBuffer} (hp : Settled p) (h : (s p).1 = true) :
    ∃ bytes, out = some bytes ∧ (s p).2.text = p.text ++ bytes ∧ Settled (s p).2
  succeeds {p : PrintBuffer} (hp : Settled p) (hmem : Enough realloc) {bytes : Bytes}
    (hout : out = some bytes) (hlen : p.text.length + bytes.length + 2 ≤ intMax) : (s p).1 = true

lemma Moves.refuse : Moves realloc refuse none where
  inside hp := hp.inside
  moved _ h := by cases h
  succeeds _ _ _ h := by cases h

lemma Moves.nothing : Moves realloc (fun p => (true, p)) (some []) where
  inside hp := hp.inside
  moved {p} hp _ := ⟨[], rfl, (List.append_nil p.text).symm, hp⟩
  succeeds _ _ _ _ _ := rfl

lemma Moves.andThen {s t : Step} {a b : Option Bytes} (hs : Moves realloc s a) (ht : Moves realloc t b) :
    Moves realloc (s.andThen t) (append a b) where
  inside {p} hp := by
    unfold Step.andThen
    split_ifs with h
    · obtain ⟨bytes, -, -, hq⟩ := hs.moved hp h
      exact ht.inside hq
    · exact hs.inside hp
  moved {p} hp h := by
    simp only [Step.andThen] at h ⊢
    split_ifs at h ⊢ with hok
    · obtain ⟨bytes, rfl, htext, hq⟩ := hs.moved hp hok
      obtain ⟨bytes', rfl, htext', hq'⟩ := ht.moved hq h
      exact ⟨bytes ++ bytes', rfl, by rw [htext', htext, List.append_assoc], hq'⟩
  succeeds {p} hp hmem bytes hout hlen := by
    obtain ⟨bytes₁, rfl, hrest⟩ := Option.bind_eq_some_iff.mp hout
    obtain ⟨bytes₂, rfl, rfl⟩ := Option.map_eq_some_iff.mp hrest
    rw [List.length_append] at hlen
    have hok := hs.succeeds hp hmem rfl (by omega)
    obtain ⟨bytes₁', heq, htext, hq⟩ := hs.moved hp hok
    obtain rfl := Option.some.inj heq
    have hok' := ht.succeeds hq hmem rfl (by
      rw [htext, List.length_append]
      omega)
    simp only [Step.andThen, if_pos hok, hok']

lemma ensure_cases {needed : ℕ} {p : PrintBuffer} (hp : Settled p) :
    (ensure realloc needed p).2.overrun = false ∧
    ((ensure realloc needed p).1 = true → needed + p.offset + 1 ≤ (ensure realloc needed p).2.length ∧
      (ensure realloc needed p).2.length ≤ intMax ∧
      (ensure realloc needed p).2.text = p.text ∧ (ensure realloc needed p).2.offset = p.offset) ∧
    (Enough realloc → needed + p.offset + 1 ≤ intMax → (ensure realloc needed p).1 = true) := by
  have hroom := hp.room
  have hmax := hp.max
  have hinside := hp.inside
  unfold ensure
  rw [if_neg (by omega)]
  by_cases h₁ : intMax < needed
  · rw [if_pos h₁]
    exact ⟨hinside, by simp, fun _ _ => by omega⟩
  rw [if_neg h₁]
  by_cases h₂ : needed + p.offset + 1 ≤ p.length
  · rw [if_pos h₂]
    exact ⟨hinside, fun _ => ⟨h₂, hmax, rfl, rfl⟩, fun _ _ => rfl⟩
  rw [if_neg h₂]
  by_cases h₃ : intMax / 2 < needed + p.offset + 1 ∧ intMax < needed + p.offset + 1
  · rw [if_pos h₃]
    exact ⟨hinside, by simp, fun _ _ => by omega⟩
  rw [if_neg h₃]
  obtain ⟨size, hsize⟩ : ∃ size, size = if intMax / 2 < needed + p.offset + 1 then intMax
    else (needed + p.offset + 1) * 2 := ⟨_, rfl⟩
  have hfits : needed + p.offset + 1 ≤ size ∧ size ≤ intMax := by
    rw [hsize]
    split_ifs <;> omega
  simp only [← hsize]
  split_ifs with h₄
  · exact ⟨hinside, fun _ => ⟨hfits.1, hfits.2, rfl, rfl⟩, fun _ _ => rfl⟩
  · exact ⟨hinside, by simp, fun hmem _ => absurd (hmem size hfits.2) h₄⟩

lemma Step.andThen_assoc (f g h : Step) : (f.andThen g).andThen h = f.andThen (g.andThen h) := by
  funext p
  by_cases hf : (f p).1 = true
  · simp [Step.andThen, hf]
  · simp [Step.andThen, hf]

/-- Room is made, something is written with so many zeros behind it, and `offset` goes behind it. -/
lemma Moves.put (needed zeros : ℕ) (bytes : Bytes) {s : Step} (hroom : bytes.length ≤ needed)
    (hzero : bytes.length + zeros ≤ needed + 1) (hneeded : needed ≤ bytes.length + 1)
    (hs : ∀ p : PrintBuffer, p.text.length = p.offset + bytes.length →
      s p = (true, { p with offset := p.offset + bytes.length })) :
    Moves realloc (((ensure realloc needed).andThen (write zeros bytes)).andThen s) (some bytes) := by
  have hall {p : PrintBuffer} (hp : Settled p) (hok : (ensure realloc needed p).1 = true) :
      ∃ q, (((ensure realloc needed).andThen (write zeros bytes)).andThen s) p = (true, q) ∧
        q.text = p.text ++ bytes ∧ Settled q := by
    obtain ⟨hinside, hgives, -⟩ := @ensure_cases realloc needed p hp
    obtain ⟨hlen, hmax, htext, hoffset⟩ := hgives hok
    have htake : p.text.take p.offset = p.text := by rw [hp.offset, List.take_length]
    rw [Step.andThen_assoc]
    simp only [Step.andThen, if_pos hok, write, hoffset, htext, htake, if_true]
    rw [hs _ (by rw [List.length_append, ← hp.offset])]
    refine ⟨_, rfl, rfl, ⟨?_, ?_, hmax, ?_⟩⟩
    · simp only [List.length_append]
      rw [hp.offset]
    · simp only []
      omega
    · simp only [hinside, Bool.false_or, decide_eq_false_iff_not]
      omega
  have hfail {p : PrintBuffer} (hok : ¬(ensure realloc needed p).1 = true) :
      (((ensure realloc needed).andThen (write zeros bytes)).andThen s) p =
        (false, (ensure realloc needed p).2) := by
    rw [Step.andThen_assoc]
    simp only [Step.andThen, if_neg hok]
  constructor
  · intro p hp
    by_cases hok : (ensure realloc needed p).1 = true
    · obtain ⟨q, heq, -, hq⟩ := hall hp hok
      rw [heq]
      exact hq.inside
    · rw [hfail hok]
      exact (ensure_cases hp).1
  · intro p hp h
    by_cases hok : (ensure realloc needed p).1 = true
    · obtain ⟨q, heq, htext, hq⟩ := hall hp hok
      rw [heq]
      exact ⟨bytes, rfl, htext, hq⟩
    · rw [hfail hok] at h
      cases h
  · intro p hp hmem out hout hlen
    obtain rfl := Option.some.inj hout
    have hoffset := hp.offset
    have hok := (@ensure_cases realloc needed p hp).2.2 hmem (by omega)
    obtain ⟨q, heq, -, -⟩ := hall hp hok
    rw [heq]

lemma advance_moves (bytes : Bytes) (p : PrintBuffer) : advance bytes.length p =
    (true, { p with offset := p.offset + bytes.length }) := rfl

lemma updateOffset_moves {bytes : Bytes} {p : PrintBuffer} (h : p.text.length = p.offset + bytes.length) :
    updateOffset p = (true, { p with offset := p.offset + bytes.length }) := by
  rw [updateOffset, h]

/-- Where `offset` is already at the zero it stays there. -/
lemma Moves.updateOffset {s : Step} {out : Option Bytes} (hs : Moves realloc s out) :
    Moves realloc (s.andThen updateOffset) out := by
  have hsame {p : PrintBuffer} (hp : Settled p) : (s.andThen CJson.updateOffset) p = s p := by
    simp only [Step.andThen, CJson.updateOffset]
    split_ifs with h
    · obtain ⟨bytes, -, -, hq⟩ := hs.moved hp h
      rw [← hq.offset, ← h]
    · simp only [Bool.not_eq_true] at h
      rw [← h]
  constructor
  · intro p hp
    rw [hsame hp]
    exact hs.inside hp
  · intro p hp h
    rw [hsame hp] at h ⊢
    exact hs.moved hp h
  · intro p hp hmem bytes hout hlen
    rw [hsame hp]
    exact hs.succeeds hp hmem hout hlen

/-! ### The printer -/

lemma escape_length (c : UInt8) : (escape c).length = 1 + escapeCharacters c := by
  unfold escape escapeCharacters
  by_cases hplain : 31 < c ∧ c ≠ 0x22 ∧ c ≠ 0x5C
  · have hlow (b : UInt8) (hb : b ≤ 31) : c ≠ b := fun h => absurd (h ▸ hplain.1) (UInt8.not_lt.mpr hb)
    have hctl : ¬c < 32 := by
      have := UInt8.lt_iff_toNat_lt.mp hplain.1
      rw [UInt8.lt_iff_toNat_lt]
      have h31 : (31 : UInt8).toNat = 31 := rfl
      have h32 : (32 : UInt8).toNat = 32 := rfl
      omega
    simp [hplain, hlow 0x08 (by decide), hlow 0x0C (by decide), hlow 0x0A (by decide),
      hlow 0x0D (by decide), hlow 0x09 (by decide), hctl]
  · have hctl : c ≠ 0x5C → c ≠ 0x22 → c < 32 := fun hslash hquote => by
      have hle : c ≤ 31 := UInt8.not_lt.mp fun h => hplain ⟨h, hquote, hslash⟩
      exact UInt8.lt_of_le_of_lt hle (by decide)
    rw [if_neg hplain]
    by_cases hslash : c = 0x5C
    · simp [hslash]
    by_cases hquote : c = 0x22
    · simp [hquote]
    simp only [hslash, hquote, hctl hslash hquote, if_false, if_true, false_or, List.length_cons]
    split_ifs <;> simp_all

lemma escapes_length (s : Bytes) :
    (s.flatMap escape).length = s.length + (s.map escapeCharacters).sum := by
  induction s with
  | nil => rfl
  | cons c s ih =>
    simp only [List.flatMap_cons, List.length_append, List.length_cons, List.map_cons, List.sum_cons,
      escape_length, ih]
    omega

lemma escapes_none {s : Bytes} (h : (s.map escapeCharacters).sum = 0) : s.flatMap escape = s := by
  induction s with
  | nil => rfl
  | cons c s ih =>
    simp only [List.map_cons, List.sum_cons, Nat.add_eq_zero_iff] at h
    have hone : (escape c).length = 1 := by rw [escape_length, h.1]
    have hself : escape c = [c] := by
      unfold escape at hone ⊢
      split_ifs at hone ⊢ <;> simp_all
    rw [List.flatMap_cons, hself, ih h.2]
    rfl

lemma printStringPtr_moves (s : Bytes) :
    Moves realloc ((printStringPtr realloc s).andThen updateOffset) (some (renderString s)) := by
  have hlen := escapes_length s
  have hwrite : (if (s.map escapeCharacters).sum = 0 then write 1 (0x22 :: (s ++ [0x22]))
      else write 1 ((0x22 :: s.flatMap escape).take (s.length + (s.map escapeCharacters).sum + 1) ++ [0x22])) =
      write 1 (renderString s) := by
    split_ifs with hnone
    · rw [renderString, escapes_none hnone]
    · rw [← hlen, renderString, ← List.length_cons (a := 0x22), List.take_length]
      rfl
  have hrender : (renderString s).length = s.length + (s.map escapeCharacters).sum + 2 := by
    simp only [renderString, List.length_cons, List.length_append, List.length_nil, hlen]
  simp only [printStringPtr, hwrite]
  exact Moves.put _ _ _ (by omega) (by omega) (by omega) fun _ => updateOffset_moves

variable {D : Type} (dbl : Doubles D)

lemma printNumber_moves (d : D) : Moves realloc (printNumber dbl realloc d) (numberText dbl d) := by
  unfold printNumber
  split
  · next h => rw [h]; exact Moves.refuse
  · next text h =>
    rw [h]
    exact Moves.put _ _ _ (by omega) (by omega) (by omega) fun p _ => advance_moves text p

variable {dbl} {pv : Item D → Step} {rd : Item D → Option Bytes}

/-- A printer of values, each with `update_offset` behind it, and the renderings it makes. -/
def Prints (realloc : ℕ → Bool) (pv : Item D → Step) (rd : Item D → Option Bytes) : Prop :=
  ∀ v, Moves realloc ((pv v).andThen updateOffset) (rd v)

lemma printElements_moves (hpv : Prints realloc pv rd) (vs : List (Item D)) :
    Moves realloc (printElements realloc pv vs) (renderElements rd vs) := by
  induction vs with
  | nil => exact Moves.nothing
  | cons v vs ih =>
    rw [printElements, renderElements]
    refine (hpv v).andThen ?_
    cases hempty : vs.isEmpty with
    | true =>
      simp only [if_true]
      exact Moves.nothing.andThen ih
    | false =>
      exact (Moves.put 2 1 [0x2C] (by decide) (by decide) (by decide) fun p _ => advance_moves [0x2C] p).andThen ih

lemma printArray_moves (hpv : Prints realloc pv rd) (items : List (Item D)) :
    Moves realloc ((printArray realloc pv items).andThen updateOffset)
      (append (some [0x5B]) (append (renderElements rd items) (some [0x5D]))) := by
  have hopen : Moves realloc (((ensure realloc 1).andThen (write 0 [0x5B])).andThen (advance 1)) (some [0x5B]) :=
    Moves.put 1 0 [0x5B] (by decide) (by decide) (by decide) fun p _ => advance_moves [0x5B] p
  have hclose : Moves realloc (((ensure realloc 2).andThen (write 1 [0x5D])).andThen updateOffset) (some [0x5D]) :=
    Moves.put 2 1 [0x5D] (by decide) (by decide) (by decide) fun _ => updateOffset_moves
  have h := hopen.andThen ((printElements_moves hpv items).andThen hclose)
  simpa only [printArray, Step.andThen_assoc] using h

lemma printMembers_moves (hpv : Prints realloc pv rd) (ms : List (Bytes × Item D)) :
    Moves realloc (printMembers realloc pv ms) (renderMembers rd ms) := by
  induction ms with
  | nil => exact Moves.nothing
  | cons m ms ih =>
    obtain ⟨name, v⟩ := m
    have hcolon : Moves realloc (((ensure realloc 1).andThen (write 0 [0x3A])).andThen (advance 1)) (some [0x3A]) :=
      Moves.put 1 0 [0x3A] (by decide) (by decide) (by decide) fun p _ => advance_moves [0x3A] p
    have hcomma (comma : Bytes) : Moves realloc (((ensure realloc (comma.length + 1)).andThen
        (write 1 comma)).andThen (advance comma.length)) (some comma) :=
      Moves.put _ 1 comma (by omega) (by omega) (by omega) fun p _ => advance_moves comma p
    have h := ((printStringPtr_moves (cString name)).andThen (hcolon.andThen (hpv v))).andThen
      ((hcomma (if ms.isEmpty then [] else [0x2C])).andThen ih)
    simpa only [printMembers, renderMembers, Step.andThen_assoc] using h

lemma printObject_moves (hpv : Prints realloc pv rd) (ms : List (Bytes × Item D)) :
    Moves realloc ((printObject realloc pv ms).andThen updateOffset)
      (append (some [0x7B]) (append (renderMembers rd ms) (some [0x7D]))) := by
  have hopen : Moves realloc (((ensure realloc 2).andThen (write 0 [0x7B])).andThen (advance 1)) (some [0x7B]) :=
    Moves.put 2 0 [0x7B] (by decide) (by decide) (by decide) fun p _ => advance_moves [0x7B] p
  have hclose : Moves realloc (((ensure realloc 2).andThen (write 1 [0x7D])).andThen updateOffset) (some [0x7D]) :=
    Moves.put 2 1 [0x7D] (by decide) (by decide) (by decide) fun _ => updateOffset_moves
  have h := hopen.andThen ((printMembers_moves hpv ms).andThen hclose)
  simpa only [printObject, Step.andThen_assoc] using h

lemma literal_moves (bytes : Bytes) : Moves realloc (((ensure realloc (bytes.length + 1)).andThen
    (write 1 bytes)).andThen updateOffset) (some bytes) :=
  Moves.put _ 1 bytes (by omega) (by omega) (by omega) fun _ => updateOffset_moves

lemma printValue_moves (n : ℕ) : Prints realloc (printValue dbl realloc n) (render dbl n) := by
  induction n with
  | zero =>
    intro v
    cases v with
    | null => exact literal_moves Json.null
    | bool b =>
      cases b with
      | false => exact literal_moves Json.false_
      | true => exact literal_moves Json.true_
    | number d => exact (printNumber_moves dbl d).updateOffset
    | string s => exact printStringPtr_moves (cString s)
    | array items => exact Moves.refuse.updateOffset
    | object ms => exact Moves.refuse.updateOffset
  | succ n ih =>
    intro v
    cases v with
    | null => exact literal_moves Json.null
    | bool b =>
      cases b with
      | false => exact literal_moves Json.false_
      | true => exact literal_moves Json.true_
    | number d => exact (printNumber_moves dbl d).updateOffset
    | string s => exact printStringPtr_moves (cString s)
    | array items => exact printArray_moves ih items
    | object ms => exact printObject_moves ih ms

lemma settled_start : Settled ⟨256, [], 0, false⟩ := ⟨rfl, by decide, by decide, rfl⟩

/-- What is not too long is printed, if there is memory. -/
lemma print_render (hmem : Enough realloc) {v : Item D} {t : Bytes} (hrender : render dbl nestingLimit v = some t)
    (hlen : t.length + 2 ≤ intMax) : print dbl realloc v = some t := by
  have hmoves : Moves realloc _ (render dbl nestingLimit v) := printValue_moves nestingLimit v
  have hok : (printed dbl realloc v).1 = true :=
    hmoves.succeeds settled_start hmem hrender (by
      simp only [List.length_nil]
      omega)
  obtain ⟨bytes, hrender', htext, hq⟩ := hmoves.moved settled_start hok
  obtain rfl : t = bytes := Option.some.inj (hrender.symm.trans hrender')
  have hoffset : (printed dbl realloc v).2.offset = t.length := by
    rw [show (printed dbl realloc v).2.offset = _ from hq.offset, htext]
    rfl
  have hall : (printed dbl realloc v).2.text.take (printed dbl realloc v).2.offset = t := by
    rw [show (printed dbl realloc v).2.offset = _ from hq.offset, printed, List.take_length, htext]
    rfl
  have hlast : realloc ((printed dbl realloc v).2.offset + 1) = true := hmem _ (by omega)
  rw [print, if_pos ⟨hmem 256 (by decide), hok, hlast⟩, hall]

variable (dbl realloc)

/-- **The printer stays inside its buffer**; what it returns is the rendering of the value; and it does
return that if it is not too long and there is memory. -/
theorem print_refines (v : Item D) :
    (printed dbl realloc v).2.overrun = false ∧
    (∀ t, print dbl realloc v = some t → render dbl nestingLimit v = some t) ∧
    (Enough realloc → ∀ t, render dbl nestingLimit v = some t → t.length + 2 ≤ intMax →
      print dbl realloc v = some t) := by
  have hmoves : Moves realloc _ (render dbl nestingLimit v) := printValue_moves nestingLimit v
  refine ⟨hmoves.inside settled_start, fun t h => ?_, fun hmem t hrender hlen => print_render hmem hrender hlen⟩
  unfold print at h
  split_ifs at h with hok
  obtain ⟨bytes, hrender, htext, hq⟩ := hmoves.moved settled_start hok.2.1
  have hall : (printed dbl realloc v).2.text.take (printed dbl realloc v).2.offset = bytes := by
    rw [show (printed dbl realloc v).2.offset = _ from hq.offset, printed, List.take_length, htext]
    rfl
  rw [hrender, ← h, hall]

end Moves

end SyncClipboard.CJson
