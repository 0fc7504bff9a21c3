import Mathlib.Tactic.IntervalCases
import SyncClipboard.CJsonPrint
import SyncClipboard.CJsonRead

/-!
What the clients print is JSON, and they read it back.

A value can be recovered from its text if its strings contain no zero and `strtod` takes each of its
numbers back from the text of the number (`Faithful`). Such a value is rendered to a JSON text that
denotes it, so that the parser returns it (`print_parse`).
-/

namespace SyncClipboard.CJson

open FtAuth (Bytes)
open Crypto (cString cString_eq)
open Json (Value hexDigit)

/-! ### Strings -/

lemma hexDigit_hexChar {d : ℕ} (h : d < 16) : hexDigit (hexChar d) = some d := by
  interval_cases d <;> rfl

lemma utf8_byte {c : UInt8} (h : c < 32) : Json.utf8 c.toNat = [c] := by
  have hlt : c.toNat < 32 := UInt8.lt_iff_toNat_lt.mp h
  have hvalid : c.toNat.isValidChar := Or.inl (by omega)
  have hval : (Char.ofNat c.toNat).val.toNat = c.toNat := by
    rw [Char.ofNat, dif_pos hvalid]
    rfl
  simp only [Json.utf8, String.utf8EncodeChar, hval]
  rw [if_pos (by omega), UInt8.ofNat_toNat]

/-- An escaped character in front of escaped characters. -/
lemma chars_escape {c : UInt8} {t s : Bytes} (h : Json.Chars t s) :
    Json.Chars (escape c ++ t) (c :: s) := by
  unfold escape
  split_ifs with hplain hslash hquote hb hf hn hr ht
  · refine Json.Chars.plain ?_ hplain.2.1 hplain.2.2 h
    have := UInt8.lt_iff_toNat_lt.mp hplain.1
    rw [UInt8.le_iff_toNat_le]
    exact this
  · subst hslash
    exact Json.Chars.short rfl h
  · subst hquote
    exact Json.Chars.short rfl h
  · subst hb
    exact Json.Chars.short rfl h
  · subst hf
    exact Json.Chars.short rfl h
  · subst hn
    exact Json.Chars.short rfl h
  · subst hr
    exact Json.Chars.short rfl h
  · subst ht
    exact Json.Chars.short rfl h
  · have hctl : c < 32 := by
      have hle : c ≤ 31 := UInt8.not_lt.mp fun h => hplain ⟨h, hquote, hslash⟩
      exact UInt8.lt_of_le_of_lt hle (by decide)
    have hlt : c.toNat < 32 := UInt8.lt_iff_toNat_lt.mp hctl
    have hhex : Json.Hex4 [0x30, 0x30, hexChar (c.toNat / 16), hexChar (c.toNat % 16)]
        (((0 * 16 + 0) * 16 + c.toNat / 16) * 16 + c.toNat % 16) :=
      Json.Hex4.mk rfl rfl (hexDigit_hexChar (by omega)) (hexDigit_hexChar (by omega))
    have hsum : ((0 * 16 + 0) * 16 + c.toNat / 16) * 16 + c.toNat % 16 = c.toNat := by omega
    rw [hsum] at hhex
    have hchars := Json.Chars.unicode hhex (Or.inl (by omega)) h
    rw [utf8_byte hctl] at hchars
    exact hchars

lemma chars_escapes (s : Bytes) : Json.Chars (s.flatMap escape) s := by
  induction s with
  | nil => exact Json.Chars.nil
  | cons c s ih => exact chars_escape ih

/-! ### Values -/

section Values

variable {D : Type} (dbl : Doubles D)

/-- A value, nested at most so deep, that can be recovered from its text. -/
inductive Faithful : ℕ → Item D → Prop
  | null {n : ℕ} : Faithful n .null
  | bool {n : ℕ} (b : Bool) : Faithful n (.bool b)
  | number {n : ℕ} {d : D} {t : Bytes} (htext : numberText dbl d = some t) (ht : Json.IsNumber t)
    (hvalue : dbl.value t = d) : Faithful n (.number d)
  | string {n : ℕ} {s : Bytes} (hs : 0 ∉ s) : Faithful n (.string s)
  | array {n : ℕ} {items : List (Item D)} (h : ∀ v ∈ items, Faithful n v) : Faithful (n + 1) (.array items)
  | object {n : ℕ} {members : List (Bytes × Item D)} (hname : ∀ m ∈ members, 0 ∉ m.1)
    (h : ∀ m ∈ members, Faithful n m.2) : Faithful (n + 1) (.object members)

variable {dbl} {str : Bytes → Bytes} (hstr : ∀ s, 0 ∉ s → str s = s)
include hstr

lemma scalar_string {s : Bytes} (h : 0 ∉ s) :
    Json.Scalar dbl.value str (renderString s) (.string s : Item D) := by
  have hs := @Json.Scalar.string _ _ dbl.value str _ _ (chars_escapes s)
  rwa [hstr s h] at hs

omit hstr

/-- What is to be shown of a value, for the elements and members of a container. -/
def Rendered (dbl : Doubles D) (str : Bytes → Bytes) (n m : ℕ) (v : Item D) : Prop :=
  ∃ t, render dbl m v = some t ∧ Json.Denotes dbl.value str n t v

lemma elements_render {n m : ℕ} {v : Item D} {vs : List (Item D)} (h : ∀ w ∈ v :: vs, Rendered dbl str n m w) :
    ∃ t, renderElements (render dbl m) (v :: vs) = some t ∧
      Json.Elements (Json.Denotes dbl.value str n) t (v :: vs) := by
  induction vs generalizing v with
  | nil =>
    obtain ⟨t, hrender, ht⟩ := h v (by simp)
    exact ⟨t, by simp [renderElements, hrender, append], Json.Elements.single ht⟩
  | cons w vs ih =>
    obtain ⟨t, hrender, ht⟩ := h v (by simp)
    obtain ⟨rest, hrest, helem⟩ := ih fun x hx => h x (List.mem_cons_of_mem v hx)
    refine ⟨t ++ 0x2C :: rest, ?_, Json.Elements.comma ht helem⟩
    rw [renderElements, hrender, hrest]
    simp [append]

include hstr

lemma member_render {n : ℕ} {name t : Bytes} {v : Item D} (hname : 0 ∉ name)
    (ht : Json.Denotes dbl.value str n t v) :
    Json.Member str (Json.Denotes dbl.value str n) (renderString name ++ 0x3A :: t) (name, v) := by
  have h := @Json.Member.compact _ _ str _ _ _ _ _ (chars_escapes name) ht
  rw [hstr name hname] at h
  simpa [renderString] using h

lemma members_render {n m : ℕ} {a : Bytes × Item D} {ms : List (Bytes × Item D)}
    (hname : ∀ b ∈ a :: ms, 0 ∉ b.1) (h : ∀ b ∈ a :: ms, Rendered dbl str n m b.2) :
    ∃ t, renderMembers (render dbl m) (a :: ms) = some t ∧
      Json.Members str (Json.Denotes dbl.value str n) t (a :: ms) := by
  induction ms generalizing a with
  | nil =>
    obtain ⟨name, v⟩ := a
    obtain ⟨t, hrender, ht⟩ := h (name, v) (by simp)
    have hname := hname (name, v) (by simp)
    refine ⟨renderString name ++ 0x3A :: t, ?_, Json.Members.last (member_render hstr hname ht)⟩
    simp only [renderMembers, cString_eq hname, hrender]
    simp [append]
  | cons b ms ih =>
    obtain ⟨name, v⟩ := a
    obtain ⟨t, hrender, ht⟩ := h (name, v) (by simp)
    have hname' := hname (name, v) (by simp)
    obtain ⟨rest, hrest, hmem⟩ := @ih b (fun x hx => hname x (List.mem_cons_of_mem _ hx))
      fun x hx => h x (List.mem_cons_of_mem _ hx)
    refine ⟨renderString name ++ 0x3A :: t ++ 0x2C :: rest, ?_,
      Json.Members.cons (member_render hstr hname' ht) hmem⟩
    rw [renderMembers, hrest]
    simp only [cString_eq hname', hrender]
    simp [append]

lemma render_denotes {n m : ℕ} (hle : n ≤ m) {v : Item D} (h : Faithful dbl n v) : Rendered dbl str n m v := by
  have hscalar {n m : ℕ} {t : Bytes} {v : Item D} (hr : render dbl m v = some t)
      (hs : Json.Scalar dbl.value str t v) : Rendered dbl str n m v := by
    refine ⟨t, hr, ?_⟩
    cases n with
    | zero => exact hs
    | succ n => exact Or.inl hs
  induction h generalizing m with
  | null => exact hscalar (by cases m <;> rfl) Json.Scalar.null
  | bool b =>
    cases b with
    | false => exact hscalar (by cases m <;> rfl) Json.Scalar.false_
    | true => exact hscalar (by cases m <;> rfl) Json.Scalar.true_
  | @number n d t htext ht hvalue =>
    have hnum := @Json.Scalar.number _ _ dbl.value str _ ht
    rw [hvalue] at hnum
    exact hscalar (by cases m <;> exact htext) hnum
  | @string n s hs =>
    have hrender : render dbl m (.string s : Item D) = some (renderString s) := by
      cases m <;> rw [render, cString_eq hs]
    exact hscalar hrender (scalar_string hstr hs)
  | @array n items hitems ih =>
    obtain ⟨m, rfl⟩ : ∃ m', m = m' + 1 := ⟨m - 1, by omega⟩
    cases items with
    | nil =>
      exact ⟨[0x5B, 0x5D], rfl, Or.inr (by simpa using Json.Container.emptyArray Json.ws_nil)⟩
    | cons v vs =>
      obtain ⟨t, hrender, ht⟩ := elements_render fun w hw => @ih w hw m (by omega)
      refine ⟨0x5B :: (t ++ [0x5D]), ?_, Or.inr (Json.Container.array ht)⟩
      rw [render, hrender]
      simp [append]
  | @object n members hname hmembers ih =>
    obtain ⟨m, rfl⟩ : ∃ m', m = m' + 1 := ⟨m - 1, by omega⟩
    cases members with
    | nil =>
      exact ⟨[0x7B, 0x7D], rfl, Or.inr (by simpa using Json.Container.emptyObject Json.ws_nil)⟩
    | cons a ms =>
      obtain ⟨t, hrender, ht⟩ := members_render hstr hname fun b hb => @ih b hb m (by omega)
      refine ⟨0x7B :: (t ++ [0x7D]), ?_, Or.inr (Json.Container.object ht)⟩
      rw [render, hrender]
      simp [append]

omit hstr

/-- **What is printed is JSON for the value, and is read back**, if it is not too long and there is
memory. -/
theorem print_parse {realloc : ℕ → Bool} (hmem : Enough realloc) {n : ℕ} (hn : n ≤ nestingLimit)
    {v : Item D} (h : Faithful dbl n v) : ∃ t, render dbl nestingLimit v = some t ∧
      Json.Text dbl.value cString n t v ∧
      (t.length + 2 ≤ intMax → print dbl realloc v = some t ∧ parse dbl.value t = some v) := by
  obtain ⟨t, hrender, ht⟩ := render_denotes (fun _ => cString_eq) hn h
  have htext : Json.Text dbl.value cString n t v := by
    simpa using Json.Text.mk Json.ws_nil ht Json.ws_nil
  have hparse : parse dbl.value t = some v := by
    obtain ⟨w, hw, rfl⟩ := @Json.Text.comap _ _ _ _ dbl.value id id cString n t v htext
    exact parse_denotes hn hw
  exact ⟨t, hrender, htext, fun hlen => ⟨print_render hmem hrender hlen, hparse⟩⟩

end Values

/-! ### Integers -/

def digitsValue (ds : Bytes) : ℕ := ds.foldl (fun n d => n * 10 + (d.toNat - 0x30)) 0

def integerValue : Bytes → ℤ
  | 0x2D :: ds => -digitsValue ds
  | ds => digitsValue ds

/-- Doubles that are integers, and are printed in their digits. -/
def integers : Doubles ℤ where
  value := integerValue
  isFinite _ := true
  eq i j := decide (i = j)
  le i j := decide (i ≤ j)
  ofInt := id
  toInt := id
  g _ := Json.decimal
  compareDouble i j := decide (i = j)

lemma digitsValue_toDigits (n : ℕ) : digitsValue ((Nat.toDigits 10 n).map Char.toUInt8) = n := by
  have hfold : ∀ (cs : List Char) (m : ℕ), (∀ c ∈ cs, c.isDigit = true) →
      (cs.map Char.toUInt8).foldl (fun n d => n * 10 + (d.toNat - 0x30)) m = Nat.ofDigitChars 10 cs m := by
    intro cs
    induction cs with
    | nil => simp
    | cons c cs ih =>
      intro m hcs
      have hc := (Json.toNat_toUInt8 (hcs c (by simp))).1
      rw [List.map_cons, List.foldl_cons, ih _ fun d hd => hcs d (by simp [hd]), Nat.ofDigitChars_cons, hc,
        Nat.mul_comm]
      rfl
  rw [digitsValue, hfold _ 0 fun c hc => Nat.isDigit_of_mem_toDigits (by decide) (by decide) hc,
    Nat.ofDigitChars_ten_toDigits]

lemma integerValue_digits {ds : Bytes} (h : 0x2D ∉ ds) : integerValue ds = digitsValue ds := by
  unfold integerValue
  split
  · simp at h
  · rfl

lemma integerValue_decimal (i : ℤ) : integerValue (Json.decimal i) = i := by
  have hdigits := digitsValue_toDigits i.natAbs
  by_cases hneg : i < 0
  · have hminus : Json.decimal i = 0x2D :: (Nat.toDigits 10 i.natAbs).map Char.toUInt8 := by
      simp [Json.decimal, hneg]
    rw [hminus, integerValue, hdigits]
    omega
  · have hplain : Json.decimal i = (Nat.toDigits 10 i.natAbs).map Char.toUInt8 := by
      simp [Json.decimal, hneg]
    have hsign : (0x2D : UInt8) ∉ (Nat.toDigits 10 i.natAbs).map Char.toUInt8 := by
      intro hmem
      obtain ⟨c, hc, hbyte⟩ := List.mem_map.mp hmem
      have hdigit := Json.toNat_toUInt8 (Nat.isDigit_of_mem_toDigits (by decide) (by decide) hc)
      rw [hbyte] at hdigit
      exact absurd hdigit.2.1 (by rw [← hdigit.1]; decide)
    rw [hplain, integerValue_digits hsign, hdigits]
    omega

/-- An object is printed and read back. -/
theorem print_parse_object :
    ∃ t, render integers nestingLimit (.object [([0x6E], .number (-12)), ([0x73], .string [0x78])]) = some t ∧
      Json.Text integers.value cString 1 t (.object [([0x6E], .number (-12)), ([0x73], .string [0x78])]) ∧
      (t.length + 2 ≤ intMax →
        print integers (fun _ => true) (.object [([0x6E], .number (-12)), ([0x73], .string [0x78])]) = some t ∧
        parse integers.value t = some (.object [([0x6E], .number (-12)), ([0x73], .string [0x78])])) := by
  refine print_parse (fun _ _ => rfl) (by decide) (Faithful.object (by decide) fun m hm => ?_)
  have hm : m = ([0x6E], .number (-12)) ∨ m = ([0x73], .string [0x78]) := by simpa using hm
  rcases hm with rfl | rfl
  · exact Faithful.number (t := Json.decimal (-12)) (by decide) (Json.isNumber_decimal _)
      (integerValue_decimal _)
  · exact Faithful.string (by decide)

end SyncClipboard.CJson
