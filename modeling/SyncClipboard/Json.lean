import Mathlib.Data.Int.Notation
import Mathlib.Data.List.Basic
import Mathlib.Tactic.IntervalCases

/-!
JSON texts as bytes, and the values they stand for.

The grammar is the usual one. What a number token and the content of a string stand for is a
parameter, so that a reader with its own numbers and its own strings reads the same grammar. The
relation `Denotes` counts how deep a value is nested. A text denotes one value with every choice of
the parameters (`Text.map`).
-/

namespace SyncClipboard.Json

abbrev Bytes := List UInt8

/-- A value with numbers in `D` and strings in `S`. -/
inductive Value (D S : Type)
  | null
  | bool (b : Bool)
  | number (d : D)
  | string (s : S)
  | array (items : List (Value D S))
  | object (members : List (S × Value D S))

/-- The value with other numbers and other strings. -/
def Value.map {D S D' S' : Type} (f : D → D') (g : S → S') : Value D S → Value D' S'
  | .null => .null
  | .bool b => .bool b
  | .number d => .number (f d)
  | .string s => .string (g s)
  | .array items => .array (items.map fun v => v.map f g)
  | .object members => .object (members.map fun m => (g m.1, m.2.map f g))
termination_by v => v
decreasing_by
  · rename_i hv
    have := List.sizeOf_lt_of_mem hv
    simp only [array.sizeOf_spec]
    omega
  · rename_i hm
    have hlt := List.sizeOf_lt_of_mem hm
    have hsnd : sizeOf m.2 < sizeOf m := by
      obtain ⟨k, v⟩ := m
      simp only [Prod.mk.sizeOf_spec]
      omega
    simp only [object.sizeOf_spec]
    omega

lemma Value.map_cancel {D S D' S' : Type} {f : D → D'} {g : S → S'} {f' : D' → D} {g' : S' → S}
    (hf : ∀ d, f' (f d) = d) (hg : ∀ s, g' (g s) = s) (v : Value D S) : (v.map f g).map f' g' = v := by
  induction v using Value.map.induct with
  | case1 => rw [Value.map, Value.map]
  | case2 b => rw [Value.map, Value.map]
  | case3 d => rw [Value.map, Value.map, hf]
  | case4 s => rw [Value.map, Value.map, hg]
  | case5 items ih =>
    rw [Value.map, Value.map, List.map_map]
    exact congrArg _ ((List.map_congr_left ih).trans (List.map_id _))
  | case6 members ih =>
    rw [Value.map, Value.map, List.map_map]
    refine congrArg _ ((List.map_congr_left fun m hm => ?_).trans (List.map_id _))
    exact Prod.ext (hg m.1) (ih m hm)

/-! ### Tokens -/

def isWs (b : UInt8) : Bool := b == 0x20 || b == 0x09 || b == 0x0A || b == 0x0D

def Ws (t : Bytes) : Prop := ∀ b ∈ t, isWs b = true

def isDigit (b : UInt8) : Bool := 0x30 ≤ b && b ≤ 0x39

def Digits (t : Bytes) : Prop := t ≠ [] ∧ ∀ b ∈ t, isDigit b = true

/-- A number token: sign, integer part without leading zeros, fraction, exponent. -/
inductive IsNumber : Bytes → Prop
  | mk {minus int frac exp : Bytes}
    (hminus : minus = [] ∨ minus = [0x2D])
    (hint : Digits int) (hzero : int.head? = some 0x30 → int = [0x30])
    (hfrac : frac = [] ∨ ∃ ds, Digits ds ∧ frac = 0x2E :: ds)
    (hexp : exp = [] ∨ ∃ e sign ds, (e = 0x65 ∨ e = 0x45) ∧
      (sign = [] ∨ sign = [0x2B] ∨ sign = [0x2D]) ∧ Digits ds ∧ exp = e :: (sign ++ ds)) :
    IsNumber (minus ++ int ++ frac ++ exp)

def decimal (i : ℤ) : Bytes :=
  (if i < 0 then [0x2D] else []) ++ (Nat.toDigits 10 i.natAbs).map Char.toUInt8

/-- The letter of an escape of one character, and the character. -/
def shortEscape : UInt8 → Option UInt8
  | 0x22 => some 0x22
  | 0x5C => some 0x5C
  | 0x2F => some 0x2F
  | 0x62 => some 0x08
  | 0x66 => some 0x0C
  | 0x6E => some 0x0A
  | 0x72 => some 0x0D
  | 0x74 => some 0x09
  | _ => none

def hexDigit (b : UInt8) : Option ℕ :=
  if 0x30 ≤ b ∧ b ≤ 0x39 then some (b.toNat - 0x30)
  else if 0x41 ≤ b ∧ b ≤ 0x46 then some (b.toNat - 0x41 + 10)
  else if 0x61 ≤ b ∧ b ≤ 0x66 then some (b.toNat - 0x61 + 10)
  else none

inductive Hex4 : Bytes → ℕ → Prop
  | mk {a b c d : UInt8} {w x y z : ℕ} (ha : hexDigit a = some w) (hb : hexDigit b = some x)
    (hc : hexDigit c = some y) (hd : hexDigit d = some z) :
    Hex4 [a, b, c, d] (((w * 16 + x) * 16 + y) * 16 + z)

def utf8 (codepoint : ℕ) : Bytes := String.utf8EncodeChar (Char.ofNat codepoint)

/-- What stands between the quotes of a string, and the bytes it stands for. -/
inductive Chars : Bytes → Bytes → Prop
  | nil : Chars [] []
  | plain {b : UInt8} {t s : Bytes} (hctl : 0x20 ≤ b) (hquote : b ≠ 0x22) (hslash : b ≠ 0x5C)
    (rest : Chars t s) : Chars (b :: t) (b :: s)
  | short {c b : UInt8} {t s : Bytes} (hc : shortEscape c = some b) (rest : Chars t s) :
    Chars (0x5C :: c :: t) (b :: s)
  | unicode {h t s : Bytes} {u : ℕ} (hh : Hex4 h u) (hu : u < 0xD800 ∨ 0xDFFF < u)
    (rest : Chars t s) : Chars (0x5C :: 0x75 :: (h ++ t)) (utf8 u ++ s)
  | surrogates {h h' t s : Bytes} {u u' : ℕ} (hh : Hex4 h u) (hu : 0xD800 ≤ u ∧ u ≤ 0xDBFF)
    (hh' : Hex4 h' u') (hu' : 0xDC00 ≤ u' ∧ u' ≤ 0xDFFF) (rest : Chars t s) :
    Chars (0x5C :: 0x75 :: (h ++ 0x5C :: 0x75 :: (h' ++ t)))
      (utf8 (0x10000 + (u - 0xD800) * 0x400 + (u' - 0xDC00)) ++ s)

/-! ### Texts -/

section Denotes

variable {D S : Type} (num : Bytes → D) (str : Bytes → S)

def null : Bytes := [0x6E, 0x75, 0x6C, 0x6C]
def true_ : Bytes := [0x74, 0x72, 0x75, 0x65]
def false_ : Bytes := [0x66, 0x61, 0x6C, 0x73, 0x65]

inductive Scalar : Bytes → Value D S → Prop
  | null : Scalar null .null
  | true_ : Scalar true_ (.bool true)
  | false_ : Scalar false_ (.bool false)
  | number {t : Bytes} (ht : IsNumber t) : Scalar t (.number (num t))
  | string {t s : Bytes} (ht : Chars t s) : Scalar (0x22 :: (t ++ [0x22])) (.string (str s))

/-- The elements of an array, with the commas between them. -/
inductive Elements (P : Bytes → Value D S → Prop) : Bytes → List (Value D S) → Prop
  | last {pre t post : Bytes} {v : Value D S} (hpre : Ws pre) (ht : P t v) (hpost : Ws post) :
    Elements P (pre ++ t ++ post) [v]
  | cons {pre t post rest : Bytes} {v : Value D S} {vs : List (Value D S)} (hpre : Ws pre)
    (ht : P t v) (hpost : Ws post) (hrest : Elements P rest vs) :
    Elements P (pre ++ t ++ post ++ 0x2C :: rest) (v :: vs)

inductive Member (P : Bytes → Value D S → Prop) : Bytes → S × Value D S → Prop
  | mk {k s pre mid mid' t post : Bytes} {v : Value D S} (hpre : Ws pre) (hk : Chars k s)
    (hmid : Ws mid) (hmid' : Ws mid') (ht : P t v) (hpost : Ws post) :
    Member P (pre ++ 0x22 :: (k ++ 0x22 :: (mid ++ 0x3A :: (mid' ++ t ++ post)))) (str s, v)

inductive Members (P : Bytes → Value D S → Prop) : Bytes → List (S × Value D S) → Prop
  | last {t : Bytes} {m : S × Value D S} (ht : Member str P t m) : Members P t [m]
  | cons {t rest : Bytes} {m : S × Value D S} {ms : List (S × Value D S)} (ht : Member str P t m)
    (hrest : Members P rest ms) : Members P (t ++ 0x2C :: rest) (m :: ms)

inductive Container (P : Bytes → Value D S → Prop) : Bytes → Value D S → Prop
  | emptyArray {ws : Bytes} (hws : Ws ws) : Container P (0x5B :: (ws ++ [0x5D])) (.array [])
  | array {t : Bytes} {vs : List (Value D S)} (ht : Elements P t vs) :
    Container P (0x5B :: (t ++ [0x5D])) (.array vs)
  | emptyObject {ws : Bytes} (hws : Ws ws) : Container P (0x7B :: (ws ++ [0x7D])) (.object [])
  | object {t : Bytes} {ms : List (S × Value D S)} (ht : Members str P t ms) :
    Container P (0x7B :: (t ++ [0x7D])) (.object ms)

/-- A text without space around it, and its value, which is nested at most so deep. -/
def Denotes : ℕ → Bytes → Value D S → Prop
  | 0 => Scalar num str
  | n + 1 => fun t v => Scalar num str t v ∨ Container str (Denotes n) t v

inductive Text (n : ℕ) : Bytes → Value D S → Prop
  | mk {pre t post : Bytes} {v : Value D S} (hpre : Ws pre) (ht : Denotes num str n t v)
    (hpost : Ws post) : Text n (pre ++ t ++ post) v

/-! ### Texts without white space -/

variable {str} {P : Bytes → Value D S → Prop}

lemma ws_nil : Ws [] := by simp [Ws]

lemma Elements.single {t : Bytes} {v : Value D S} (ht : P t v) : Elements P t [v] := by
  simpa using Elements.last ws_nil ht ws_nil

lemma Elements.comma {t rest : Bytes} {v : Value D S} {vs : List (Value D S)} (ht : P t v)
    (hrest : Elements P rest vs) : Elements P (t ++ 0x2C :: rest) (v :: vs) := by
  simpa using Elements.cons ws_nil ht ws_nil hrest

lemma Member.compact {k s t : Bytes} {v : Value D S} (hk : Chars k s) (ht : P t v) :
    Member str P (0x22 :: (k ++ 0x22 :: 0x3A :: t)) (str s, v) := by
  simpa using Member.mk ws_nil hk ws_nil ws_nil ht ws_nil

end Denotes

/-! ### Integers -/

lemma toNat_toUInt8 {c : Char} (h : c.isDigit = true) :
    c.toUInt8.toNat = c.toNat ∧ 48 ≤ c.toNat ∧ c.toNat ≤ 57 := by
  simp only [Char.isDigit, Bool.and_eq_true, decide_eq_true_eq, UInt32.le_iff_toNat_le] at h
  have hlow : 48 ≤ c.toNat := h.1
  have hhigh : c.toNat ≤ 57 := h.2
  refine ⟨?_, hlow, hhigh⟩
  show c.toNat % 256 = c.toNat
  omega

lemma toUInt8_digit {c : Char} (h : c.isDigit = true) : isDigit c.toUInt8 = true := by
  obtain ⟨hbyte, hlow, hhigh⟩ := toNat_toUInt8 h
  simp only [isDigit, Bool.and_eq_true, decide_eq_true_eq, UInt8.le_iff_toNat_le, hbyte]
  exact ⟨hlow, hhigh⟩

lemma eq_zero_of_toUInt8 {c : Char} (h : c.isDigit = true) (hc : c.toUInt8 = 0x30) : c = '0' := by
  have hbyte := (toNat_toUInt8 h).1
  rw [hc] at hbyte
  have hnat : ('0' : Char).toNat = c.toNat := hbyte
  exact (Char.toNat_inj.mp hnat).symm

lemma head_toDigits (n : ℕ) : (Nat.toDigits 10 n).head? = some '0' → n = 0 := by
  induction n using Nat.strongRecOn with
  | ind n ih =>
    by_cases hn : n < 10
    · rw [Nat.toDigits_of_lt_base hn]
      intro h
      interval_cases n <;> simp_all [Nat.digitChar]
    · rw [Nat.toDigits_of_base_le (by decide) (by omega)]
      intro h
      have hhead : (Nat.toDigits 10 (n / 10)).head? = some '0' := by
        rwa [List.head?_append_of_ne_nil _ Nat.toDigits_ne_nil] at h
      have := ih (n / 10) (by omega) hhead
      omega

lemma isNumber_decimal (i : ℤ) : IsNumber (decimal i) := by
  have hdigits : Digits ((Nat.toDigits 10 i.natAbs).map Char.toUInt8) := by
    constructor
    · simp [Nat.toDigits_ne_nil]
    · intro b hb
      obtain ⟨c, hc, rfl⟩ := List.mem_map.mp hb
      exact toUInt8_digit (Nat.isDigit_of_mem_toDigits (by decide) (by decide) hc)
  have hzero : ((Nat.toDigits 10 i.natAbs).map Char.toUInt8).head? = some 0x30 →
      (Nat.toDigits 10 i.natAbs).map Char.toUInt8 = [0x30] := by
    intro h
    obtain ⟨c, hc, hbyte⟩ : ∃ c, (Nat.toDigits 10 i.natAbs).head? = some c ∧ c.toUInt8 = 0x30 := by
      simpa using h
    have hdigit := Nat.isDigit_of_mem_toDigits (by decide) (by decide) (List.mem_of_head? hc)
    have hzero := head_toDigits i.natAbs (by rw [hc, eq_zero_of_toUInt8 hdigit hbyte])
    rw [hzero]
    rfl
  have hnum := @IsNumber.mk (if i < 0 then [0x2D] else []) _ [] [] (by split <;> simp) hdigits hzero
    (Or.inl rfl) (Or.inl rfl)
  simpa [decimal] using hnum

/-! ### Other parameters -/

section Map

variable {D S D' S' : Type} {num : Bytes → D} {str : Bytes → S} {f : D → D'} {g : S → S'}
  {P : Bytes → Value D S → Prop} {Q : Bytes → Value D' S' → Prop}

lemma Elements.map (hPQ : ∀ t v, P t v → Q t (v.map f g)) {t : Bytes} {vs : List (Value D S)}
    (h : Elements P t vs) : Elements Q t (vs.map fun v => v.map f g) := by
  induction h with
  | last hpre ht hpost => exact Elements.last hpre (hPQ _ _ ht) hpost
  | cons hpre ht hpost hrest ih => exact Elements.cons hpre (hPQ _ _ ht) hpost ih

lemma Member.map (hPQ : ∀ t v, P t v → Q t (v.map f g)) {t : Bytes} {m : S × Value D S}
    (h : Member str P t m) : Member (g ∘ str) Q t (g m.1, m.2.map f g) := by
  cases h with
  | mk hpre hk hmid hmid' ht hpost => exact Member.mk hpre hk hmid hmid' (hPQ _ _ ht) hpost

lemma Members.map (hPQ : ∀ t v, P t v → Q t (v.map f g)) {t : Bytes} {ms : List (S × Value D S)}
    (h : Members str P t ms) : Members (g ∘ str) Q t (ms.map fun m => (g m.1, m.2.map f g)) := by
  induction h with
  | last ht => exact Members.last (ht.map hPQ)
  | cons ht hrest ih => exact Members.cons (ht.map hPQ) ih

lemma Scalar.map {t : Bytes} {v : Value D S} (h : Scalar num str t v) :
    Scalar (f ∘ num) (g ∘ str) t (v.map f g) := by
  cases h with
  | null => simpa [Value.map] using Scalar.null
  | true_ => simpa [Value.map] using Scalar.true_
  | false_ => simpa [Value.map] using Scalar.false_
  | number ht => simpa [Value.map] using @Scalar.number _ _ (f ∘ num) (g ∘ str) _ ht
  | string ht => simpa [Value.map] using @Scalar.string _ _ (f ∘ num) (g ∘ str) _ _ ht

lemma Container.map (hPQ : ∀ t v, P t v → Q t (v.map f g)) {t : Bytes} {v : Value D S}
    (h : Container str P t v) : Container (g ∘ str) Q t (v.map f g) := by
  cases h with
  | emptyArray hws => simpa [Value.map] using Container.emptyArray hws
  | array ht => simpa [Value.map] using Container.array (ht.map hPQ)
  | emptyObject hws => simpa [Value.map] using Container.emptyObject hws
  | object ht => simpa [Value.map] using Container.object (ht.map hPQ)

/-- A text that is read with other parameters stands for the value with these. -/
theorem Text.map {n : ℕ} {t : Bytes} {v : Value D S} (h : Text num str n t v) :
    Text (f ∘ num) (g ∘ str) n t (v.map f g) := by
  have hden {n : ℕ} {t : Bytes} {v : Value D S} (h : Denotes num str n t v) :
      Denotes (f ∘ num) (g ∘ str) n t (v.map f g) := by
    induction n generalizing t v with
    | zero => exact Scalar.map h
    | succ n ih =>
      rcases h with h | h
      · exact Or.inl h.map
      · exact Or.inr (Container.map (fun _ _ ht => ih ht) h)
  cases h with
  | mk hpre ht hpost => exact Text.mk hpre (hden ht) hpost

lemma Elements.comap (hPQ : ∀ t w, Q t w → ∃ v, P t v ∧ v.map f g = w) {t : Bytes} {ws : List (Value D' S')}
    (h : Elements Q t ws) : ∃ vs, Elements P t vs ∧ (vs.map fun v => v.map f g) = ws := by
  induction h with
  | last hpre ht hpost =>
    obtain ⟨v, hv, rfl⟩ := hPQ _ _ ht
    exact ⟨[v], Elements.last hpre hv hpost, rfl⟩
  | cons hpre ht hpost hrest ih =>
    obtain ⟨v, hv, rfl⟩ := hPQ _ _ ht
    obtain ⟨vs, hvs, rfl⟩ := ih
    exact ⟨v :: vs, Elements.cons hpre hv hpost hvs, rfl⟩

lemma Member.comap (hPQ : ∀ t w, Q t w → ∃ v, P t v ∧ v.map f g = w) {t : Bytes} {m' : S' × Value D' S'}
    (h : Member (g ∘ str) Q t m') : ∃ m, Member str P t m ∧ (g m.1, m.2.map f g) = m' := by
  cases h with
  | mk hpre hk hmid hmid' ht hpost =>
    obtain ⟨v, hv, rfl⟩ := hPQ _ _ ht
    exact ⟨_, Member.mk hpre hk hmid hmid' hv hpost, rfl⟩

lemma Members.comap (hPQ : ∀ t w, Q t w → ∃ v, P t v ∧ v.map f g = w) {t : Bytes} {ms' : List (S' × Value D' S')}
    (h : Members (g ∘ str) Q t ms') :
    ∃ ms, Members str P t ms ∧ (ms.map fun m => (g m.1, m.2.map f g)) = ms' := by
  induction h with
  | last ht =>
    obtain ⟨m, hm, rfl⟩ := ht.comap hPQ
    exact ⟨[m], Members.last hm, rfl⟩
  | cons ht hrest ih =>
    obtain ⟨m, hm, rfl⟩ := ht.comap hPQ
    obtain ⟨ms, hms, rfl⟩ := ih
    exact ⟨m :: ms, Members.cons hm hms, rfl⟩

lemma Scalar.comap {t : Bytes} {w : Value D' S'} (h : Scalar (f ∘ num) (g ∘ str) t w) :
    ∃ v, Scalar num str t v ∧ v.map f g = w := by
  cases h with
  | null => exact ⟨_, Scalar.null, by rw [Value.map]⟩
  | true_ => exact ⟨_, Scalar.true_, by rw [Value.map]⟩
  | false_ => exact ⟨_, Scalar.false_, by rw [Value.map]⟩
  | number ht => exact ⟨_, Scalar.number ht, by rw [Value.map]; rfl⟩
  | string ht => exact ⟨_, Scalar.string ht, by rw [Value.map]; rfl⟩

lemma Container.comap (hPQ : ∀ t w, Q t w → ∃ v, P t v ∧ v.map f g = w) {t : Bytes} {w : Value D' S'}
    (h : Container (g ∘ str) Q t w) : ∃ v, Container str P t v ∧ v.map f g = w := by
  cases h with
  | emptyArray hws => exact ⟨_, Container.emptyArray hws, by simp [Value.map]⟩
  | array ht =>
    obtain ⟨vs, hvs, rfl⟩ := ht.comap hPQ
    exact ⟨_, Container.array hvs, by rw [Value.map]⟩
  | emptyObject hws => exact ⟨_, Container.emptyObject hws, by simp [Value.map]⟩
  | object ht =>
    obtain ⟨ms, hms, rfl⟩ := ht.comap hPQ
    exact ⟨_, Container.object hms, by rw [Value.map]⟩

/-- What a text stands for with such parameters comes from what it stands for with finer ones. -/
theorem Text.comap {n : ℕ} {t : Bytes} {w : Value D' S'} (h : Text (f ∘ num) (g ∘ str) n t w) :
    ∃ v, Text num str n t v ∧ v.map f g = w := by
  have hden {n : ℕ} {t : Bytes} {w : Value D' S'} (h : Denotes (f ∘ num) (g ∘ str) n t w) :
      ∃ v, Denotes num str n t v ∧ v.map f g = w := by
    induction n generalizing t w with
    | zero => exact Scalar.comap h
    | succ n ih =>
      rcases h with h | h
      · obtain ⟨v, hv, hmap⟩ := h.comap
        exact ⟨v, Or.inl hv, hmap⟩
      · obtain ⟨v, hv, hmap⟩ := Container.comap (fun _ _ ht => ih ht) h
        exact ⟨v, Or.inr hv, hmap⟩
  cases h with
  | mk hpre ht hpost =>
    obtain ⟨v, hv, hmap⟩ := hden ht
    exact ⟨v, Text.mk hpre hv hpost, hmap⟩

end Map

/-! ### No text contains a zero -/

lemma Ws.ne_zero {t : Bytes} (h : Ws t) : 0 ∉ t := fun h0 => absurd (h 0 h0) (by decide)

lemma Digits.ne_zero {t : Bytes} (h : Digits t) : 0 ∉ t := fun h0 => absurd (h.2 0 h0) (by decide)

lemma IsNumber.ne_zero {t : Bytes} (h : IsNumber t) : 0 ∉ t := by
  cases h with
  | @mk minus int frac exp hminus hint hzero hfrac hexp =>
    have hm : 0 ∉ minus := by rcases hminus with rfl | rfl <;> decide
    have hf : 0 ∉ frac := by
      rcases hfrac with rfl | ⟨ds, hds, rfl⟩
      · decide
      · simpa using hds.ne_zero
    have he : 0 ∉ exp := by
      rcases hexp with rfl | ⟨e, sign, ds, he, hsign, hds, rfl⟩
      · decide
      · have hs : 0 ∉ sign := by rcases hsign with rfl | rfl | rfl <;> decide
        have hne : ¬(0 : UInt8) = e := by rcases he with rfl | rfl <;> decide
        simp [hs, hne, hds.ne_zero]
    simp [hm, hint.ne_zero, hf, he]

lemma Hex4.ne_zero {t : Bytes} {u : ℕ} (h : Hex4 t u) : 0 ∉ t := by
  cases h with
  | @mk a b c d w x y z ha hb hc hd =>
    have hne {c : UInt8} {d : ℕ} (h : hexDigit c = some d) : ¬(0 : UInt8) = c := by
      rintro rfl
      simp [hexDigit] at h
    simp [hne ha, hne hb, hne hc, hne hd]

lemma Chars.ne_zero {t s : Bytes} (h : Chars t s) : 0 ∉ t := by
  induction h with
  | nil => simp
  | plain hctl hquote hslash rest ih =>
    simp only [List.mem_cons, not_or]
    refine ⟨?_, ih⟩
    rintro rfl
    exact absurd hctl (by decide)
  | @short c b t s hc rest ih =>
    have hne : ¬(0 : UInt8) = c := by
      rintro rfl
      simp [shortEscape] at hc
    simp [hne, ih]
  | unicode hh hu rest ih => simp [hh.ne_zero, ih]
  | surrogates hh hu hh' hu' rest ih => simp [hh.ne_zero, hh'.ne_zero, ih]

section NoZero

variable {D S : Type} {num : Bytes → D} {str : Bytes → S} {P : Bytes → Value D S → Prop}

lemma Scalar.ne_zero {t : Bytes} {v : Value D S} (h : Scalar num str t v) : 0 ∉ t := by
  cases h with
  | null => decide
  | true_ => decide
  | false_ => decide
  | number ht => exact ht.ne_zero
  | string ht => simp [ht.ne_zero]

lemma Elements.ne_zero (hP : ∀ t v, P t v → 0 ∉ t) {t : Bytes} {vs : List (Value D S)}
    (h : Elements P t vs) : 0 ∉ t := by
  induction h with
  | last hpre ht hpost => simp [hpre.ne_zero, hP _ _ ht, hpost.ne_zero]
  | cons hpre ht hpost hrest ih => simp [hpre.ne_zero, hP _ _ ht, hpost.ne_zero, ih]

lemma Member.ne_zero (hP : ∀ t v, P t v → 0 ∉ t) {t : Bytes} {m : S × Value D S}
    (h : Member str P t m) : 0 ∉ t := by
  cases h with
  | mk hpre hk hmid hmid' ht hpost =>
    simp [hpre.ne_zero, hk.ne_zero, hmid.ne_zero, hmid'.ne_zero, hP _ _ ht, hpost.ne_zero]

lemma Members.ne_zero (hP : ∀ t v, P t v → 0 ∉ t) {t : Bytes} {ms : List (S × Value D S)}
    (h : Members str P t ms) : 0 ∉ t := by
  induction h with
  | last ht => exact ht.ne_zero hP
  | cons ht hrest ih => simp [ht.ne_zero hP, ih]

lemma Container.ne_zero (hP : ∀ t v, P t v → 0 ∉ t) {t : Bytes} {v : Value D S}
    (h : Container str P t v) : 0 ∉ t := by
  cases h with
  | emptyArray hws => simp [hws.ne_zero]
  | array ht => simp [ht.ne_zero hP]
  | emptyObject hws => simp [hws.ne_zero]
  | object ht => simp [ht.ne_zero hP]

lemma Denotes.ne_zero {n : ℕ} {t : Bytes} {v : Value D S} (h : Denotes num str n t v) : 0 ∉ t := by
  induction n generalizing t v with
  | zero => exact Scalar.ne_zero h
  | succ n ih =>
    rcases h with h | h
    · exact h.ne_zero
    · exact h.ne_zero fun _ _ => ih

lemma Text.ne_zero {n : ℕ} {t : Bytes} {v : Value D S} (h : Text num str n t v) : 0 ∉ t := by
  cases h with
  | mk hpre ht hpost => simp [hpre.ne_zero, ht.ne_zero, hpost.ne_zero]

end NoZero

end SyncClipboard.Json
