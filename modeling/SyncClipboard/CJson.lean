import Mathlib.Tactic.Ring
import SyncClipboard.Crypto
import SyncClipboard.Json

/-!
The JSON parser of the Linux and Windows clients.

The parse buffer is what is left of the text with the zero at its end; a step of `offset` is a step
along the list. The depth still allowed is counted down. Doubles are a parameter, with the value that
`strtod` gives to what it converts. Allocations of the parser do not fail.

The results are about any input at all. `written_le`: what `parse_string` writes fits into what it has
allocated. `parseValue_within`: the parser goes forward, and not past the zero at the end of the text.
-/

namespace SyncClipboard.CJson

open FtAuth (Bytes ascii)
open Crypto (cString)
open Json (Value isDigit hexDigit shortEscape)

/-- A `cJSON` item. -/
abbrev Item (D : Type) := Value D Bytes

/-! ### Numbers -/

def isNumberChar (c : UInt8) : Bool :=
  isDigit c || c == 0x2B || c == 0x2D || c == 0x65 || c == 0x45 || c == 0x2E

def sign : Bytes → Bytes
  | c :: _ => if c = 0x2B ∨ c = 0x2D then [c] else []
  | [] => []

def fraction : Bytes → Bytes
  | c :: t => if c = 0x2E then c :: t.takeWhile isDigit else []
  | [] => []

def exponent : Bytes → Bytes
  | c :: t =>
    let digits := (t.drop (sign t).length).takeWhile isDigit
    if (c = 0x65 ∨ c = 0x45) ∧ digits ≠ [] then c :: (sign t ++ digits) else []
  | [] => []

/-- What `strtod` converts of a text of digits, signs, points and exponents. -/
def subject (s : Bytes) : Bytes :=
  let s₁ := s.drop (sign s).length
  let int := s₁.takeWhile isDigit
  let s₂ := s₁.drop int.length
  if int = [] ∧ (fraction s₂).tail = [] then []
  else sign s ++ int ++ fraction s₂ ++ exponent (s₂.drop (fraction s₂).length)

/-! ### Strings -/

/-- `parse_hex4`, with the digits still to read; an invalid one makes it 0. -/
def hexLoop : Bytes → ℕ → ℕ
  | [], h => h
  | c :: rest, h =>
    match hexDigit c with
    | none => 0
    | some d => hexLoop rest (if rest = [] then h + d else (h + d) <<< 4)

def parseHex4 (input : Bytes) : ℕ := hexLoop (input.take 4) 0

/-- The bytes after the first, the last one first, and what is left of the code point. -/
def continuation : ℕ → ℕ → Bytes → ℕ × Bytes
  | 0, codepoint, out => (codepoint, out)
  | n + 1, codepoint, out =>
    continuation n (codepoint >>> 6) (UInt8.ofNat ((codepoint ||| 0x80) &&& 0xBF) :: out)

def encode (utf8Length firstByteMark codepoint : ℕ) : Bytes :=
  let (codepoint, out) := continuation (utf8Length - 1) codepoint []
  UInt8.ofNat (if 1 < utf8Length then (codepoint ||| firstByteMark) &&& 0xFF else codepoint &&& 0x7F) :: out

def toUtf8 (codepoint : ℕ) : Option Bytes :=
  if codepoint < 0x80 then some (encode 1 0 codepoint)
  else if codepoint < 0x800 then some (encode 2 0xC0 codepoint)
  else if codepoint < 0x10000 then some (encode 3 0xE0 codepoint)
  else if codepoint ≤ 0x10FFFF then some (encode 4 0xF0 codepoint)
  else none

/-- The bytes written and the length of the sequence read. -/
def utf16LiteralToUtf8 (input : Bytes) : Option (Bytes × ℕ) :=
  if input.length < 6 then none
  else
    let firstCode := parseHex4 (input.drop 2)
    if 0xDC00 ≤ firstCode ∧ firstCode ≤ 0xDFFF then none
    else if 0xD800 ≤ firstCode ∧ firstCode ≤ 0xDBFF then
      let second := input.drop 6
      if second.length < 6 then none
      else if second.take 2 ≠ [0x5C, 0x75] then none
      else
        let secondCode := parseHex4 (second.drop 2)
        if secondCode < 0xDC00 ∨ 0xDFFF < secondCode then none
        else
          (toUtf8 (0x10000 + (((firstCode &&& 0x3FF) <<< 10) ||| (secondCode &&& 0x3FF)))).map (·, 12)
    else (toUtf8 firstCode).map (·, 6)

/-- What stands before the closing quote, and what follows it. -/
def closing : Bytes → Option (Bytes × Bytes)
  | [] => none
  | c :: rest =>
    if c = 0x22 then some ([], rest)
    else if c = 0x5C then
      match rest with
      | [] => none
      | d :: rest => (closing rest).map fun (body, after) => (c :: d :: body, after)
    else (closing rest).map fun (body, after) => (c :: body, after)

/-- `skipped_bytes`. -/
def skippedBytes : Bytes → ℕ
  | [] => 0
  | [_] => 0
  | c :: d :: rest => if c = 0x5C then skippedBytes rest + 1 else skippedBytes (d :: rest)

/-- The size that is allocated for the content of a string. -/
def allocation (body : Bytes) : ℕ := body.length + 1 - skippedBytes body + 1

def wrote (out : Bytes) (r : Bytes × Bool) : Bytes × Bool := (out ++ r.1, r.2)

/-- The loop through the literal: the bytes written, and whether it came to the end. -/
def unescape : ℕ → Bytes → Bytes × Bool
  | _, [] => ([], true)
  | 0, _ :: _ => ([], false)
  | n + 1, c :: rest =>
    if c ≠ 0x5C then wrote [c] (unescape n rest)
    else
      -- behind a backslash that is the last byte stands the closing quote
      let d := rest.headD 0x22
      if d = 0x75 then
        match utf16LiteralToUtf8 (c :: rest) with
        | none => ([], false)
        | some (out, sequenceLength) => wrote out (unescape n ((c :: rest).drop sequenceLength))
      else
        match shortEscape d with
        | none => ([], false)
        | some b => wrote [b] (unescape n rest.tail)

/-- What is in the buffer of the string, and what follows the literal. -/
def parseString : Bytes → Option (Bytes × Bytes)
  | [] => none
  | c :: rest =>
    if c ≠ 0x22 then none
    else
      match closing rest with
      | none => none
      | some (body, after) =>
        if (unescape body.length body).2 then some ((unescape body.length body).1, after) else none

/-! ### Values -/

/-- `buffer_skip_whitespace`: at the end of the buffer it takes one step back. -/
def skipWhitespace (rest : Bytes) : Bytes :=
  match rest.dropWhile (· ≤ 32) with
  | [] => rest.getLast?.toList
  | r => r

section Parse

variable {D : Type} (value : Bytes → D)

def parseNumber (rest : Bytes) : Option (Item D × Bytes) :=
  let s := subject (rest.takeWhile isNumberChar)
  if s = [] then none else some (.number (value s), rest.drop s.length)

variable {value}

/-- The loop of `parse_array`. -/
def parseElements (parseValue : Bytes → Option (Item D × Bytes)) :
    ℕ → Bytes → Option (List (Item D) × Bytes)
  | 0, _ => none
  | n + 1, rest =>
    match parseValue (skipWhitespace rest) with
    | none => none
    | some (v, rest) =>
      match skipWhitespace rest with
      | [] => none
      | c :: rest =>
        if c = 0x2C then (parseElements parseValue n rest).map fun (vs, rest) => (v :: vs, rest)
        else if c = 0x5D then some ([v], rest)
        else none

/-- From behind the bracket on. -/
def parseArray (parseValue : Bytes → Option (Item D × Bytes)) (rest : Bytes) : Option (Item D × Bytes) :=
  match skipWhitespace rest with
  | [] => none
  | c :: tail =>
    if c = 0x5D then some (.array [], tail)
    else (parseElements parseValue rest.length (c :: tail)).map fun (vs, rest) => (.array vs, rest)

/-- One turn of the loop of `parse_object`, up to the comma or the brace. -/
def parseMember (parseValue : Bytes → Option (Item D × Bytes)) (rest : Bytes) :
    Option ((Bytes × Item D) × Bytes) :=
  if rest = [] then none
  else
    match parseString (skipWhitespace rest) with
    | none => none
    | some (name, rest) =>
      match skipWhitespace rest with
      | [] => none
      | c :: rest =>
        if c ≠ 0x3A then none
        else (parseValue (skipWhitespace rest)).map fun (v, rest) => ((name, v), rest)

def parseMembers (parseValue : Bytes → Option (Item D × Bytes)) :
    ℕ → Bytes → Option (List (Bytes × Item D) × Bytes)
  | 0, _ => none
  | n + 1, rest =>
    match parseMember parseValue rest with
    | none => none
    | some (m, rest) =>
      match skipWhitespace rest with
      | [] => none
      | c :: rest =>
        if c = 0x2C then (parseMembers parseValue n rest).map fun (ms, rest) => (m :: ms, rest)
        else if c = 0x7D then some ([m], rest)
        else none

def parseObject (parseValue : Bytes → Option (Item D × Bytes)) (rest : Bytes) : Option (Item D × Bytes) :=
  match skipWhitespace rest with
  | [] => none
  | c :: tail =>
    if c = 0x7D then some (.object [], tail)
    else (parseMembers parseValue rest.length (c :: tail)).map fun (ms, rest) => (.object ms, rest)

variable (value)

/-- The array and the object are refused where no depth is left. -/
def parseValue (levels : ℕ) (rest : Bytes) : Option (Item D × Bytes) :=
  if Json.null <+: rest then some (.null, rest.drop 4)
  else if Json.false_ <+: rest then some (.bool false, rest.drop 5)
  else if Json.true_ <+: rest then some (.bool true, rest.drop 4)
  else
    match rest with
    | [] => none
    | c :: tail =>
      if c = 0x22 then (parseString (c :: tail)).map fun (s, rest) => (.string s, rest)
      else if c = 0x2D ∨ isDigit c then parseNumber value (c :: tail)
      else if c = 0x5B then
        match levels with
        | 0 => none
        | n + 1 => parseArray (parseValue n) tail
      else if c = 0x7B then
        match levels with
        | 0 => none
        | n + 1 => parseObject (parseValue n) tail
      else none

/-- `CJSON_NESTING_LIMIT`. -/
def nestingLimit : ℕ := 1000

def skipUtf8Bom (buffer : Bytes) : Bytes :=
  if 4 < buffer.length ∧ [0xEF, 0xBB, 0xBF] <+: buffer then buffer.drop 3 else buffer

/-- `cJSON_Parse`, with the strings as they are in their buffers. What follows the value is not looked at. -/
def parseBuffers (text : Bytes) : Option (Item D) :=
  (parseValue value nestingLimit (skipWhitespace (skipUtf8Bom (cString text ++ [0])))).map Prod.fst

/-- What its callers see: a string ends at its first zero. -/
def parse (text : Bytes) : Option (Item D) := (parseBuffers value text).map fun v => v.map id cString

end Parse

/-! ### What is allocated for a string -/

lemma hexDigit_lt {c : UInt8} {d : ℕ} (h : hexDigit c = some d) : d < 16 := by
  have hlt := c.toNat_lt
  unfold hexDigit at h
  split_ifs at h with h₁ h₂ h₃ <;> simp only [Option.some.injEq, UInt8.le_iff_toNat_le] at *
  · have : c.toNat ≤ 57 := h₁.2
    omega
  · have : c.toNat ≤ 70 := h₂.2
    omega
  · have : c.toNat ≤ 102 := h₃.2
    omega

lemma hexDigit_plain {c : UInt8} {d : ℕ} (h : hexDigit c = some d) : c ≠ 0x22 ∧ c ≠ 0x5C := by
  constructor
  · rintro rfl
    simp [hexDigit] at h
  · rintro rfl
    simp [hexDigit] at h

/-- The characters and escapes that the scan for the closing quote passes over. -/
def steps : Bytes → ℕ
  | [] => 0
  | [_] => 1
  | c :: d :: rest => if c = 0x5C then steps rest + 1 else steps (d :: rest) + 1

lemma steps_skipped (s : Bytes) : steps s + skippedBytes s = s.length := by
  induction s using steps.induct with
  | case1 => rfl
  | case2 c => rfl
  | case3 d rest ih =>
    simp only [steps, skippedBytes, if_true, List.length_cons]
    omega
  | case4 c d rest hc ih =>
    simp only [steps, skippedBytes, if_neg hc, List.length_cons] at ih ⊢
    omega

lemma steps_plain {c : UInt8} (hc : c ≠ 0x5C) (s : Bytes) : steps (c :: s) = steps s + 1 := by
  cases s with
  | nil => rfl
  | cons d rest => simp [steps, hc]

/-- One byte more is at most one step more, and never one less. -/
lemma steps_cons (c : UInt8) (s : Bytes) : steps s ≤ steps (c :: s) ∧ steps (c :: s) ≤ steps s + 1 := by
  induction s generalizing c with
  | nil => simp [steps]
  | cons d rest ih =>
    by_cases hc : c = 0x5C
    · have hstep : steps (c :: d :: rest) = steps rest + 1 := by simp [steps, hc]
      obtain ⟨hle, hge⟩ := ih d
      omega
    · rw [steps_plain hc]
      omega

lemma steps_drop (n : ℕ) (s : Bytes) : steps (s.drop n) ≤ steps s := by
  induction n generalizing s with
  | zero => rfl
  | succ n ih =>
    cases s with
    | nil => rfl
    | cons c s => exact (ih s).trans (steps_cons c s).1

lemma hexLoop_ne_zero {s : Bytes} {h : ℕ} (hne : hexLoop s h ≠ 0) : ∀ c ∈ s, c ≠ 0x5C := by
  induction s generalizing h with
  | nil => simp
  | cons c rest ih =>
    cases hc : hexDigit c with
    | none => exact absurd (by simp [hexLoop, hc]) hne
    | some d =>
      have hrest : ∀ b ∈ rest, b ≠ 0x5C := ih (by simpa [hexLoop, hc] using hne)
      intro b hb
      rcases List.mem_cons.mp hb with rfl | hb
      · exact (hexDigit_plain hc).2
      · exact hrest b hb

lemma steps_append {s : Bytes} (hs : ∀ c ∈ s, c ≠ 0x5C) (t : Bytes) : steps (s ++ t) = s.length + steps t := by
  induction s with
  | nil => simp
  | cons c s ih =>
    rw [List.cons_append, steps_plain (hs c (by simp)), ih fun b hb => hs b (List.mem_cons_of_mem c hb),
      List.length_cons]
    omega

lemma parseHex4_ne_zero {input : Bytes} (hlen : 4 ≤ input.length) (h : parseHex4 input ≠ 0) :
    steps input = 4 + steps (input.drop 4) := by
  have hsteps := steps_append (hexLoop_ne_zero h) (input.drop 4)
  rw [List.take_append_drop, List.length_take_of_le hlen] at hsteps
  exact hsteps

lemma hexLoop_lt (c : UInt8) (s : Bytes) (h : ℕ) : hexLoop (c :: s) h < (h + 16) * 16 ^ s.length := by
  induction s generalizing c h with
  | nil =>
    cases hc : hexDigit c with
    | none => simp [hexLoop, hc]
    | some d =>
      have hd := hexDigit_lt hc
      simp [hexLoop, hc, hd]
  | cons b s ih =>
    cases hc : hexDigit c with
    | none => simp [hexLoop, hc]
    | some d =>
      have hd := hexDigit_lt hc
      have hstep : hexLoop (c :: b :: s) h = hexLoop (b :: s) ((h + d) * 16) := by
        simp [hexLoop, hc, Nat.shiftLeft_eq]
      calc hexLoop (c :: b :: s) h
        _ < ((h + d) * 16 + 16) * 16 ^ s.length := by rw [hstep]; exact ih b _
        _ ≤ ((h + 16) * 16) * 16 ^ s.length := Nat.mul_le_mul_right _ (by omega)
        _ = (h + 16) * 16 ^ (b :: s).length := by rw [List.length_cons, Nat.pow_succ']; ring

lemma parseHex4_lt (input : Bytes) : parseHex4 input < 0x10000 := by
  unfold parseHex4
  cases htake : input.take 4 with
  | nil => simp [hexLoop]
  | cons c s =>
    have hlen : s.length ≤ 3 := by
      have := congrArg List.length htake
      simp only [List.length_take, List.length_cons] at this
      omega
    calc hexLoop (c :: s) 0
      _ < (0 + 16) * 16 ^ s.length := hexLoop_lt c s 0
      _ ≤ 16 * 16 ^ 3 := by
        rw [Nat.zero_add]
        exact Nat.mul_le_mul_left 16 (Nat.pow_le_pow_right (by decide) hlen)
      _ = 0x10000 := rfl

lemma continuation_length (n v : ℕ) (out : Bytes) : (continuation n v out).2.length = n + out.length := by
  induction n generalizing v out with
  | zero => simp [continuation]
  | succ n ih =>
    rw [continuation, ih, List.length_cons]
    omega

lemma toUtf8_length {v : ℕ} {out : Bytes} (h : toUtf8 v = some out) :
    out.length ≤ 4 ∧ (v < 0x10000 → out.length ≤ 3) ∧ (v < 0x80 → out.length ≤ 1) := by
  simp only [toUtf8] at h
  split_ifs at h <;> obtain rfl := Option.some.inj h <;>
    simp only [encode, List.length_cons, continuation_length, List.length_nil] <;> omega

/-- A literal takes at least as many steps as the bytes it is converted to. -/
lemma utf16_steps {rest out : Bytes} {len : ℕ}
    (h : utf16LiteralToUtf8 (0x5C :: 0x75 :: rest) = some (out, len)) :
    out.length + steps ((0x5C :: 0x75 :: rest).drop len) ≤ steps (0x5C :: 0x75 :: rest) ∧ 6 ≤ len := by
  have hfirst : steps (0x5C :: 0x75 :: rest) = steps rest + 1 := by simp [steps]
  have hmono := steps_drop 4 rest
  unfold utf16LiteralToUtf8 at h
  simp only [List.drop_succ_cons, List.drop_zero] at h
  split_ifs at h with hlen hlow hhigh hlen' hslash hcode
  · -- the pair: eight digits that are no backslashes
    obtain ⟨out', hout, heq⟩ := Option.map_eq_some_iff.mp h
    obtain ⟨rfl, rfl⟩ := Prod.mk.inj heq
    have hrest : 4 ≤ rest.length := by
      simp only [List.length_cons] at hlen
      omega
    have h₁ := parseHex4_ne_zero hrest (by omega)
    obtain ⟨rest', hrest'⟩ : ∃ rest', rest.drop 4 = 0x5C :: 0x75 :: rest' := by
      match hr : rest.drop 4, hslash with
      | a :: b :: rest', hslash =>
        have hab : [a, b] = [0x5C, 0x75] := Classical.not_not.mp hslash
        injection hab with ha hb
        injection hb with hb
        exact ⟨rest', by rw [ha, hb]⟩
      | [a], hslash => simp at hslash
      | [], hslash => simp at hslash
    rw [hrest'] at h₁ hlen' hcode
    have hlen'' : 4 ≤ rest'.length := by
      simp only [List.length_cons] at hlen'
      omega
    have h₂ := parseHex4_ne_zero hlen'' (by
      simp only [List.drop_succ_cons, List.drop_zero] at hcode
      omega)
    have hsecond : steps (0x5C :: 0x75 :: rest') = steps rest' + 1 := by simp [steps]
    have hdrop : List.drop 12 (0x5C :: 0x75 :: rest) = rest'.drop 4 := by
      have : rest.drop 10 = (rest.drop 4).drop 6 := by rw [List.drop_drop]
      simp [this, hrest']
    have hout' := (toUtf8_length hout).1
    rw [hdrop]
    omega
  · obtain ⟨out', hout, heq⟩ := Option.map_eq_some_iff.mp h
    obtain ⟨rfl, rfl⟩ := Prod.mk.inj heq
    have hrest : 4 ≤ rest.length := by
      simp only [List.length_cons] at hlen
      omega
    have hdrop : List.drop 6 (0x5C :: 0x75 :: rest) = rest.drop 4 := rfl
    obtain ⟨-, hthree, hone⟩ := toUtf8_length hout
    rw [hdrop]
    by_cases hzero : parseHex4 rest = 0
    · -- the code of four characters that are no digits
      have := hone (by omega)
      omega
    · have h₁ := parseHex4_ne_zero hrest hzero
      have := hthree (by
        have := parseHex4_lt rest
        omega)
      omega

/-- What is written never takes more than a byte for each step. -/
lemma unescape_steps (n : ℕ) (body : Bytes) : (unescape n body).1.length ≤ steps body := by
  induction n generalizing body with
  | zero => cases body <;> simp [unescape]
  | succ n ih =>
    cases body with
    | nil => simp [unescape]
    | cons c rest =>
      rw [unescape.eq_def]
      simp only []
      split_ifs with hc hu
      · have := ih rest
        simp only [wrote, List.length_append, List.length_singleton, steps_plain hc]
        omega
      · obtain rfl : c = 0x5C := Classical.not_not.mp hc
        obtain ⟨rest', rfl⟩ : ∃ rest', rest = 0x75 :: rest' := by
          cases rest with
          | nil => exact absurd hu (by decide)
          | cons d rest' => exact ⟨rest', by rw [← hu]; rfl⟩
        split
        · simp
        · next out len hlit =>
          have hsteps := (utf16_steps hlit).1
          have := ih ((0x5C :: 0x75 :: rest').drop len)
          simp only [wrote, List.length_append]
          omega
      · obtain rfl : c = 0x5C := Classical.not_not.mp hc
        split
        · simp
        · next b hb =>
          have := ih rest.tail
          simp only [wrote, List.length_append, List.length_singleton]
          cases rest with
          | nil =>
            simp only [List.tail_nil, steps] at this ⊢
            omega
          | cons d rest' =>
            simp only [List.tail_cons] at this ⊢
            simp only [steps, if_true]
            omega

/-- **What is written fits into what is allocated**, with the zero at its end, whether the string is
accepted or refused half way. -/
theorem written_le {n : ℕ} (body : Bytes) : (unescape n body).1.length + 1 ≤ allocation body := by
  have hsteps := unescape_steps n body
  have hsum := steps_skipped body
  unfold allocation
  omega

/-! ### The parser goes forward -/

/-- A part of the buffer ends with the zero that the text ends with. -/
def Terminated (rest : Bytes) : Prop := rest.getLast? = some 0

/-- What is left is behind what was there, and the zero is still in it. -/
def Behind (r rest : Bytes) : Prop := r <:+ rest ∧ r.length < rest.length ∧ Terminated r

lemma Terminated.suffix {r rest : Bytes} (h : Terminated rest) (hr : r <:+ rest) (hne : r ≠ []) :
    Terminated r := by
  obtain ⟨t, rfl⟩ := hr
  rwa [Terminated, List.getLast?_append_of_ne_nil _ hne] at h

lemma Terminated.tail {c : UInt8} {rest : Bytes} (h : Terminated (c :: rest)) (hc : c ≠ 0) :
    Terminated rest := by
  cases rest with
  | nil => exact absurd (Option.some.inj h) hc
  | cons b rest => exact h.suffix ⟨[c], rfl⟩ (by simp)

lemma Terminated.behind {c : UInt8} {rest : Bytes} (h : Terminated (c :: rest)) (hc : c ≠ 0) :
    Behind rest (c :: rest) := ⟨⟨[c], rfl⟩, by simp, h.tail hc⟩

lemma Behind.trans {r s t : Bytes} (h : Behind r s) (h' : s <:+ t) : Behind r t :=
  ⟨h.1.trans h', Nat.lt_of_lt_of_le h.2.1 h'.length_le, h.2.2⟩

lemma skipWhitespace_suffix (rest : Bytes) : skipWhitespace rest <:+ rest := by
  cases hdrop : rest.dropWhile (· ≤ 32) with
  | nil =>
    have hskip : skipWhitespace rest = rest.getLast?.toList := by rw [skipWhitespace, hdrop]
    rw [hskip]
    cases hlast : rest.getLast? with
    | none => exact List.nil_suffix
    | some b =>
      obtain ⟨r, rfl⟩ := List.getLast?_eq_some_iff.mp hlast
      exact ⟨r, rfl⟩
  | cons c r =>
    have hskip : skipWhitespace rest = rest.dropWhile (· ≤ 32) := by rw [skipWhitespace, hdrop]
    rw [hskip]
    exact List.dropWhile_suffix _

lemma skipWhitespace_terminated {rest : Bytes} (h : Terminated rest) : Terminated (skipWhitespace rest) := by
  refine h.suffix (skipWhitespace_suffix rest) ?_
  cases hdrop : rest.dropWhile (· ≤ 32) with
  | nil =>
    rw [skipWhitespace, hdrop, show rest.getLast? = some 0 from h]
    simp
  | cons c r =>
    rw [skipWhitespace, hdrop]
    simp

lemma closing_eq {rest body after : Bytes} (h : closing rest = some (body, after)) :
    rest = body ++ 0x22 :: after := by
  induction rest using closing.induct generalizing body with
  | case1 => simp [closing] at h
  | case2 rest =>
    rw [closing.eq_def] at h
    obtain ⟨rfl, rfl⟩ := Prod.mk.inj (Option.some.inj h)
    rfl
  | case3 => simp [closing] at h
  | case4 d rest _ ih =>
    rw [closing] at h
    simp only [if_neg (show ¬(0x5C : UInt8) = 0x22 by decide), if_true] at h
    obtain ⟨⟨body', after'⟩, hrest, heq⟩ := Option.map_eq_some_iff.mp h
    obtain ⟨rfl, rfl⟩ := Prod.mk.inj heq
    rw [ih hrest]
    rfl
  | case5 c rest hquote hslash ih =>
    rw [closing.eq_def] at h
    simp only [if_neg hquote, if_neg hslash] at h
    obtain ⟨⟨body', after'⟩, hrest, heq⟩ := Option.map_eq_some_iff.mp h
    obtain ⟨rfl, rfl⟩ := Prod.mk.inj heq
    rw [ih hrest]
    rfl

lemma parseString_behind {rest s after : Bytes} (h : parseString rest = some (s, after))
    (hrest : Terminated rest) : Behind after rest := by
  unfold parseString at h
  split at h
  · cases h
  next c rest =>
  split_ifs at h with hquote
  split at h
  · cases h
  next body after' hclose =>
  split_ifs at h
  obtain ⟨rfl, rfl⟩ := Prod.mk.inj (Option.some.inj h)
  obtain rfl := closing_eq hclose
  have hsuffix : 0x22 :: after' <:+ c :: (body ++ 0x22 :: after') := ⟨c :: body, rfl⟩
  exact ((hrest.suffix hsuffix (by simp)).behind (by decide)).trans hsuffix

section Forward

variable {D : Type} {value : Bytes → D} {p : Bytes → Option (Item D × Bytes)}

/-- A parser that leaves less than it was given, and the zero at the end. -/
def Forward (p : Bytes → Option (Item D × Bytes)) : Prop :=
  ∀ rest v r, Terminated rest → p rest = some (v, r) → Behind r rest

/-- What follows a value, after white space, up to the next byte that is no zero. -/
lemma Behind.next {r rest : Bytes} {c : UInt8} {tail : Bytes} (h : Behind r rest)
    (hskip : skipWhitespace r = c :: tail) (hc : c ≠ 0) : Behind tail rest := by
  have hterm := skipWhitespace_terminated h.2.2
  have hsuffix := skipWhitespace_suffix r
  rw [hskip] at hterm hsuffix
  exact (hterm.behind hc).trans (hsuffix.trans h.1)

lemma parseElements_behind (hp : Forward p) {n : ℕ} {rest r : Bytes} {vs : List (Item D)}
    (hrest : Terminated rest) (h : parseElements p n rest = some (vs, r)) : Behind r rest := by
  induction n generalizing rest vs with
  | zero => simp [parseElements] at h
  | succ n ih =>
    rw [parseElements] at h
    split at h
    · cases h
    next v rest₁ hread =>
    have h₁ := (hp _ _ _ (skipWhitespace_terminated hrest) hread).trans (skipWhitespace_suffix rest)
    split at h
    · cases h
    next c rest₂ hskip =>
    split_ifs at h with hcomma hclose
    · obtain ⟨⟨vs', r'⟩, hmore, heq⟩ := Option.map_eq_some_iff.mp h
      obtain ⟨rfl, rfl⟩ := Prod.mk.inj heq
      have h₂ := h₁.next hskip (by rw [hcomma]; decide)
      exact (ih h₂.2.2 hmore).trans h₂.1
    · obtain ⟨rfl, rfl⟩ := Prod.mk.inj (Option.some.inj h)
      exact h₁.next hskip (by rw [hclose]; decide)

lemma parseMember_behind (hp : Forward p) {rest r : Bytes} {m : Bytes × Item D}
    (hrest : Terminated rest) (h : parseMember p rest = some (m, r)) : Behind r rest := by
  unfold parseMember at h
  split_ifs at h
  split at h
  · cases h
  next name rest₁ hread =>
  have h₁ := (parseString_behind hread (skipWhitespace_terminated hrest)).trans (skipWhitespace_suffix rest)
  split at h
  · cases h
  next c rest₂ hskip =>
  split_ifs at h with hcolon
  have hcolon : c = 0x3A := Classical.not_not.mp hcolon
  have h₂ := h₁.next hskip (by rw [hcolon]; decide)
  obtain ⟨⟨v, r'⟩, hvalue, heq⟩ := Option.map_eq_some_iff.mp h
  obtain ⟨rfl, rfl⟩ := Prod.mk.inj heq
  exact (hp _ _ _ (skipWhitespace_terminated h₂.2.2) hvalue).trans ((skipWhitespace_suffix _).trans h₂.1)

lemma parseMembers_behind (hp : Forward p) {n : ℕ} {rest r : Bytes} {ms : List (Bytes × Item D)}
    (hrest : Terminated rest) (h : parseMembers p n rest = some (ms, r)) : Behind r rest := by
  induction n generalizing rest ms with
  | zero => simp [parseMembers] at h
  | succ n ih =>
    rw [parseMembers] at h
    split at h
    · cases h
    next m rest₁ hread =>
    have h₁ := parseMember_behind hp hrest hread
    split at h
    · cases h
    next c rest₂ hskip =>
    split_ifs at h with hcomma hclose
    · obtain ⟨⟨ms', r'⟩, hmore, heq⟩ := Option.map_eq_some_iff.mp h
      obtain ⟨rfl, rfl⟩ := Prod.mk.inj heq
      have h₂ := h₁.next hskip (by rw [hcomma]; decide)
      exact (ih h₂.2.2 hmore).trans h₂.1
    · obtain ⟨rfl, rfl⟩ := Prod.mk.inj (Option.some.inj h)
      exact h₁.next hskip (by rw [hclose]; decide)

/-- The first byte of what a skip leaves is no zero if it closes the container. -/
lemma skip_behind {rest : Bytes} {c : UInt8} {tail : Bytes} (hrest : Terminated rest)
    (hskip : skipWhitespace rest = c :: tail) (hc : c ≠ 0) : Behind tail rest := by
  have hterm := skipWhitespace_terminated hrest
  have hsuffix := skipWhitespace_suffix rest
  rw [hskip] at hterm hsuffix
  exact (hterm.behind hc).trans hsuffix

lemma parseArray_behind (hp : Forward p) {rest r : Bytes} {v : Item D} (hrest : Terminated rest)
    (h : parseArray p rest = some (v, r)) : Behind r rest := by
  unfold parseArray at h
  split at h
  · cases h
  next c tail hskip =>
  split_ifs at h with hclose
  · obtain ⟨rfl, rfl⟩ := Prod.mk.inj (Option.some.inj h)
    exact skip_behind hrest hskip (by rw [hclose]; decide)
  · obtain ⟨⟨vs, r'⟩, hmore, heq⟩ := Option.map_eq_some_iff.mp h
    obtain ⟨rfl, rfl⟩ := Prod.mk.inj heq
    rw [← hskip] at hmore
    exact (parseElements_behind hp (skipWhitespace_terminated hrest) hmore).trans (skipWhitespace_suffix rest)

lemma parseObject_behind (hp : Forward p) {rest r : Bytes} {v : Item D} (hrest : Terminated rest)
    (h : parseObject p rest = some (v, r)) : Behind r rest := by
  unfold parseObject at h
  split at h
  · cases h
  next c tail hskip =>
  split_ifs at h with hclose
  · obtain ⟨rfl, rfl⟩ := Prod.mk.inj (Option.some.inj h)
    exact skip_behind hrest hskip (by rw [hclose]; decide)
  · obtain ⟨⟨ms, r'⟩, hmore, heq⟩ := Option.map_eq_some_iff.mp h
    obtain ⟨rfl, rfl⟩ := Prod.mk.inj heq
    rw [← hskip] at hmore
    exact (parseMembers_behind hp (skipWhitespace_terminated hrest) hmore).trans (skipWhitespace_suffix rest)

lemma Terminated.drop {s rest : Bytes} (h : Terminated rest) (hs : s <+: rest) (hne : s ≠ [])
    (h0 : ∀ c ∈ s, c ≠ 0) : Behind (rest.drop s.length) rest := by
  obtain ⟨r, rfl⟩ := hs
  rw [List.drop_left]
  have hr : r ≠ [] := by
    rintro rfl
    rw [Terminated, List.append_nil] at h
    exact h0 0 (List.mem_of_getLast? h) rfl
  refine ⟨⟨s, rfl⟩, ?_, h.suffix ⟨s, rfl⟩ hr⟩
  have := List.length_pos_iff.mpr hne
  rw [List.length_append]
  omega

lemma prefix_append {a b s : Bytes} (ha : a <+: s) (hb : b <+: s.drop a.length) : a ++ b <+: s := by
  obtain ⟨t, rfl⟩ := ha
  rw [List.drop_left] at hb
  exact (List.prefix_append_right_inj a).mpr hb

lemma sign_start (s : Bytes) : sign s <+: s := by
  cases s with
  | nil => exact List.nil_prefix
  | cons c t =>
    rw [sign]
    split_ifs
    · exact ⟨t, rfl⟩
    · exact List.nil_prefix

lemma fraction_start (s : Bytes) : fraction s <+: s := by
  cases s with
  | nil => exact List.nil_prefix
  | cons c t =>
    rw [fraction]
    split_ifs
    · exact (List.prefix_cons_inj c).mpr (List.takeWhile_prefix _)
    · exact List.nil_prefix

lemma exponent_start (s : Bytes) : exponent s <+: s := by
  cases s with
  | nil => exact List.nil_prefix
  | cons c t =>
    simp only [exponent]
    split_ifs
    · exact (List.prefix_cons_inj c).mpr (prefix_append (sign_start t) (List.takeWhile_prefix _))
    · exact List.nil_prefix

lemma subject_start (s : Bytes) : subject s <+: s := by
  simp only [subject]
  split_ifs
  · exact List.nil_prefix
  · have hint := prefix_append (sign_start s) (List.takeWhile_prefix (p := isDigit) (l := s.drop (sign s).length))
    have hfrac := prefix_append hint (b := fraction ((s.drop (sign s).length).drop
      ((s.drop (sign s).length).takeWhile isDigit).length)) (by
        rw [List.length_append, ← List.drop_drop]
        exact fraction_start _)
    refine prefix_append hfrac ?_
    rw [List.length_append, List.length_append, ← List.drop_drop, ← List.drop_drop]
    exact exponent_start _

lemma parseNumber_behind {rest r : Bytes} {v : Item D} (hrest : Terminated rest)
    (h : parseNumber value rest = some (v, r)) : Behind r rest := by
  simp only [parseNumber] at h
  split_ifs at h with hne
  obtain ⟨rfl, rfl⟩ := Prod.mk.inj (Option.some.inj h)
  have hsub := subject_start (rest.takeWhile isNumberChar)
  refine hrest.drop (hsub.trans (List.takeWhile_prefix _)) hne ?_
  rintro c hc rfl
  exact absurd (List.mem_takeWhile_imp (hsub.subset hc)) (by decide)

lemma parseValue_step {levels : ℕ} (ih : ∀ n, levels = n + 1 → Forward (parseValue value n)) :
    Forward (parseValue value levels) := by
  intro rest v r hrest h
  rw [parseValue.eq_def] at h
  split_ifs at h with hnull hfalse htrue
  · obtain ⟨-, rfl⟩ := Prod.mk.inj (Option.some.inj h)
    exact hrest.drop hnull (by decide) (by decide +kernel)
  · obtain ⟨-, rfl⟩ := Prod.mk.inj (Option.some.inj h)
    exact hrest.drop hfalse (by decide) (by decide +kernel)
  · obtain ⟨-, rfl⟩ := Prod.mk.inj (Option.some.inj h)
    exact hrest.drop htrue (by decide) (by decide +kernel)
  split at h
  · cases h
  next c tail =>
  split_ifs at h with hquote hnum harray hobject
  · obtain ⟨⟨s, r'⟩, hread, heq⟩ := Option.map_eq_some_iff.mp h
    obtain ⟨-, rfl⟩ := Prod.mk.inj heq
    exact parseString_behind hread hrest
  · exact parseNumber_behind hrest h
  · have htail := hrest.behind (by rw [harray]; decide)
    split at h
    · cases h
    · exact (parseArray_behind (ih _ rfl) htail.2.2 h).trans htail.1
  · have htail := hrest.behind (by rw [hobject]; decide)
    split at h
    · cases h
    · exact (parseObject_behind (ih _ rfl) htail.2.2 h).trans htail.1

lemma parseValue_forward (levels : ℕ) : Forward (parseValue value levels) := by
  induction levels with
  | zero => exact parseValue_step fun n hn => absurd hn (by omega)
  | succ n ih =>
    refine parseValue_step fun m hm => ?_
    obtain rfl : n = m := by omega
    exact ih

/-- **The parser leaves less than it was given**, whatever that is, and does not pass the zero at the end of
the text. -/
theorem parseValue_within (levels : ℕ) {rest r : Bytes} {v : Item D} (hrest : Terminated rest)
    (h : parseValue value levels rest = some (v, r)) :
    r <:+ rest ∧ r.length < rest.length ∧ Terminated r :=
  parseValue_forward levels rest v r hrest h

/-- A number that the text ends with. -/
theorem parseValue_within_number :
    ([0] : Bytes) <:+ [0x37, 0] ∧ ([0] : Bytes).length < ([0x37, 0] : Bytes).length ∧ Terminated [0] :=
  @parseValue_within Bytes id 0 [0x37, 0] [0] (.number [0x37]) (by unfold Terminated; decide) (by rfl)

lemma Terminated.pos {rest : Bytes} (h : Terminated rest) : 0 < rest.length := by
  cases rest with
  | nil => cases h
  | cons c rest => simp

/-- The loop of `parse_array` ends by itself. -/
lemma parseElements_fuel (hp : Forward p) {n m : ℕ} {rest : Bytes} (hrest : Terminated rest)
    (hn : rest.length ≤ n) (hm : rest.length ≤ m) : parseElements p n rest = parseElements p m rest := by
  have hpos := hrest.pos
  induction n generalizing m rest with
  | zero => omega
  | succ n ih =>
    obtain ⟨m, rfl⟩ : ∃ m', m = m' + 1 := ⟨m - 1, by omega⟩
    simp only [parseElements]
    cases hread : p (skipWhitespace rest) with
    | none => rfl
    | some vr =>
      obtain ⟨v, r⟩ := vr
      have h₁ := (hp _ _ _ (skipWhitespace_terminated hrest) hread).trans (skipWhitespace_suffix rest)
      cases hskip : skipWhitespace r with
      | nil => simp only [hskip]
      | cons c tail =>
        simp only [hskip]
        split_ifs with hcomma
        · have h₂ := h₁.next hskip (by rw [hcomma]; decide)
          have hlt := h₂.2.1
          rw [ih h₂.2.2 (by omega) (by omega : tail.length ≤ m) h₂.2.2.pos]
        · rfl
        · rfl

lemma parseMembers_fuel (hp : Forward p) {n m : ℕ} {rest : Bytes} (hrest : Terminated rest)
    (hn : rest.length ≤ n) (hm : rest.length ≤ m) : parseMembers p n rest = parseMembers p m rest := by
  have hpos := hrest.pos
  induction n generalizing m rest with
  | zero => omega
  | succ n ih =>
    obtain ⟨m, rfl⟩ : ∃ m', m = m' + 1 := ⟨m - 1, by omega⟩
    simp only [parseMembers]
    cases hread : parseMember p rest with
    | none => rfl
    | some mr =>
      obtain ⟨member, r⟩ := mr
      have h₁ := parseMember_behind hp hrest hread
      cases hskip : skipWhitespace r with
      | nil => simp only [hskip]
      | cons c tail =>
        simp only [hskip]
        split_ifs with hcomma
        · have h₂ := h₁.next hskip (by rw [hcomma]; decide)
          have hlt := h₂.2.1
          rw [ih h₂.2.2 (by omega) (by omega : tail.length ≤ m) h₂.2.2.pos]
        · rfl
        · rfl

end Forward

end SyncClipboard.CJson
