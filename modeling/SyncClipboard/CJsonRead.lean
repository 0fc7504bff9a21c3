import SyncClipboard.CJson

/-!
The parser reads every JSON text.

A text that is nested at most a thousand deep is parsed to its value, with each string cut at its
first zero (`parse_text`). The tokens come first, then the values by how deep they are nested.
-/

namespace SyncClipboard.CJson

open FtAuth (Bytes)
open Crypto (cString cString_eq)
open Json (Value isDigit hexDigit shortEscape)

/-! ### White space -/

lemma takeWhile_stop {α : Type*} {p : α → Bool} {l m : List α} (hl : ∀ a ∈ l, p a = true)
    (hm : ∀ a ∈ m.head?, p a = false) : (l ++ m).takeWhile p = l := by
  rw [List.takeWhile_append_of_pos hl]
  cases m with
  | nil => simp
  | cons a m => rw [List.takeWhile_cons_of_neg (by simp [hm a (by simp)]), List.append_nil]

/-- A text begins with a byte that is no white space. -/
def Starts (t : Bytes) : Prop := ∃ c ∈ t.head?, 32 < c

lemma Starts.append {t : Bytes} (h : Starts t) (rest : Bytes) : Starts (t ++ rest) := by
  obtain ⟨c, hc, hlt⟩ := h
  cases t with
  | nil => simp at hc
  | cons b t => exact ⟨c, hc, hlt⟩

lemma starts_cons {c : UInt8} (t : Bytes) (h : 32 < c) : Starts (c :: t) := ⟨c, rfl, h⟩

lemma ws_le {ws : Bytes} (h : Json.Ws ws) : ∀ b ∈ ws, decide (b ≤ 32) = true := by
  intro b hb
  have hws := h b hb
  simp only [Json.isWs, Bool.or_eq_true, beq_iff_eq] at hws
  rcases hws with ((rfl | rfl) | rfl) | rfl <;> decide

lemma skipWhitespace_ws {ws rest : Bytes} (hws : Json.Ws ws) (h : Starts rest) :
    skipWhitespace (ws ++ rest) = rest := by
  obtain ⟨c, hc, hlt⟩ := h
  cases rest with
  | nil => simp at hc
  | cons b rest =>
    obtain rfl : b = c := by simpa using hc
    have hdrop : (ws ++ b :: rest).dropWhile (· ≤ 32) = b :: rest := by
      rw [List.dropWhile_append_of_pos (ws_le hws), List.dropWhile_cons_of_neg (by simpa using hlt)]
    rw [skipWhitespace, hdrop]

lemma skipWhitespace_self {rest : Bytes} (h : Starts rest) : skipWhitespace rest = rest :=
  @skipWhitespace_ws [] rest Json.ws_nil h

/-! ### Number tokens -/

lemma sign_append {sgn t : Bytes} (hs : sgn = [] ∨ sgn = [0x2B] ∨ sgn = [0x2D])
    (ht : Json.Digits t) (rest : Bytes) : sign (sgn ++ t ++ rest) = sgn := by
  obtain ⟨hne, hdig⟩ := ht
  rcases hs with rfl | rfl | rfl
  · cases t with
    | nil => exact absurd rfl hne
    | cons d t =>
      have hd := hdig d (by simp)
      have hno : ¬(d = 0x2B ∨ d = 0x2D) := by
        rintro (rfl | rfl) <;> exact absurd hd (by decide)
      simp [sign, hno]
  · simp [sign]
  · simp [sign]

lemma digits_takeWhile {ds rest : Bytes} (hds : Json.Digits ds)
    (hrest : ∀ c ∈ rest.head?, isDigit c = false) : (ds ++ rest).takeWhile isDigit = ds :=
  takeWhile_stop hds.2 hrest

lemma exponent_token {exp : Bytes}
    (h : exp = [] ∨ ∃ e sgn ds, (e = 0x65 ∨ e = 0x45) ∧ (sgn = [] ∨ sgn = [0x2B] ∨ sgn = [0x2D]) ∧
      Json.Digits ds ∧ exp = e :: (sgn ++ ds)) : exponent exp = exp := by
  rcases h with rfl | ⟨e, sgn, ds, he, hsgn, hds, rfl⟩
  · rfl
  · have hsign := sign_append hsgn hds []
    rw [List.append_nil] at hsign
    have hdig : ds.takeWhile isDigit = ds := List.takeWhile_eq_self_iff.mpr hds.2
    simp [exponent, hsign, hdig, he, hds.1]

lemma exp_head {exp : Bytes}
    (h : exp = [] ∨ ∃ e sgn ds, (e = 0x65 ∨ e = 0x45) ∧ (sgn = [] ∨ sgn = [0x2B] ∨ sgn = [0x2D]) ∧
      Json.Digits ds ∧ exp = e :: (sgn ++ ds)) :
    ∀ c ∈ exp.head?, isDigit c = false ∧ c ≠ 0x2E := by
  rcases h with rfl | ⟨e, sgn, ds, rfl | rfl, -, -, rfl⟩
  · simp
  · simp [isDigit]
  · simp [isDigit]

lemma fraction_token {frac exp : Bytes} (h : frac = [] ∨ ∃ ds, Json.Digits ds ∧ frac = 0x2E :: ds)
    (hexp : ∀ c ∈ exp.head?, isDigit c = false ∧ c ≠ 0x2E) : fraction (frac ++ exp) = frac := by
  rcases h with rfl | ⟨ds, hds, rfl⟩
  · cases exp with
    | nil => rfl
    | cons c exp => simp [fraction, (hexp c (by simp)).2]
  · simp [fraction, digits_takeWhile hds fun c hc => (hexp c hc).1]

lemma subject_number {t : Bytes} (h : Json.IsNumber t) : subject t = t := by
  cases h with
  | @mk minus int frac exp hminus hint hzero hfrac hexp =>
    have hexp' := exp_head hexp
    have hmid : ∀ c ∈ (frac ++ exp).head?, isDigit c = false := by
      rcases hfrac with rfl | ⟨ds, -, rfl⟩
      · exact fun c hc => (hexp' c hc).1
      · simp [isDigit]
    have hsign : sign (minus ++ int ++ frac ++ exp) = minus := by
      rw [List.append_assoc (minus ++ int)]
      exact sign_append (by tauto) hint _
    have hint' : (int ++ (frac ++ exp)).takeWhile isDigit = int := digits_takeWhile hint hmid
    have hs₁ : (minus ++ int ++ frac ++ exp).drop minus.length = int ++ (frac ++ exp) := by simp
    have hs₂ : (int ++ (frac ++ exp)).drop int.length = frac ++ exp := by simp
    have hs₃ : (frac ++ exp).drop frac.length = exp := by simp
    simp only [subject, hsign, hs₁, hint', hs₂, fraction_token hfrac hexp', hs₃, exponent_token hexp,
      hint.1, false_and, if_false]

lemma isNumberChar_of_digit {c : UInt8} (h : isDigit c = true) : isNumberChar c = true := by
  simp [isNumberChar, h]

lemma number_chars {t : Bytes} (h : Json.IsNumber t) : ∀ c ∈ t, isNumberChar c = true := by
  cases h with
  | @mk minus int frac exp hminus hint hzero hfrac hexp =>
    intro c hc
    simp only [List.mem_append] at hc
    rcases hc with ((hc | hc) | hc) | hc
    · rcases hminus with rfl | rfl
      · simp at hc
      · obtain rfl : c = 0x2D := by simpa using hc
        decide
    · exact isNumberChar_of_digit (hint.2 c hc)
    · rcases hfrac with rfl | ⟨ds, hds, rfl⟩
      · simp at hc
      · rcases List.mem_cons.mp hc with rfl | hc
        · decide
        · exact isNumberChar_of_digit (hds.2 c hc)
    · rcases hexp with rfl | ⟨e, sgn, ds, he, hsgn, hds, rfl⟩
      · simp at hc
      · simp only [List.mem_cons, List.mem_append] at hc
        rcases hc with rfl | hc | hc
        · rcases he with rfl | rfl <;> decide
        · rcases hsgn with rfl | rfl | rfl
          · simp at hc
          · obtain rfl : c = 0x2B := by simpa using hc
            decide
          · obtain rfl : c = 0x2D := by simpa using hc
            decide
        · exact isNumberChar_of_digit (hds.2 c hc)

/-- The first byte of a number sends `parse_value` to `parse_number`. -/
lemma number_head {t : Bytes} (h : Json.IsNumber t) :
    ∃ c t', t = c :: t' ∧ (c = 0x2D ∨ isDigit c = true) := by
  cases h with
  | @mk minus int frac exp hminus hint hzero hfrac hexp =>
    obtain ⟨hne, hdig⟩ := hint
    rcases hminus with rfl | rfl
    · cases int with
      | nil => exact absurd rfl hne
      | cons d int => exact ⟨d, int ++ frac ++ exp, by simp, Or.inr (hdig d (by simp))⟩
    · exact ⟨0x2D, int ++ frac ++ exp, by simp, Or.inl rfl⟩

/-- What follows a value does not go on with a number. -/
def Ends (rest : Bytes) : Prop := ∀ c ∈ rest.head?, isNumberChar c = false

lemma parseNumber_token {D : Type} (value : Bytes → D) {t rest : Bytes} (h : Json.IsNumber t)
    (hrest : Ends rest) : parseNumber value (t ++ rest) = some (.number (value t), rest) := by
  have hne : t ≠ [] := by
    obtain ⟨c, t', rfl, -⟩ := number_head h
    simp
  simp [parseNumber, takeWhile_stop (number_chars h) hrest, subject_number h, hne]

/-! ### Strings -/

lemma continuation_byte (v : ℕ) : (v ||| 0x80) &&& 0xBF = v % 0x40 + 0x80 := by
  have habsorb : v &&& 0x80 ||| 0x80 = 0x80 := by
    apply Nat.eq_of_testBit_eq
    intro i
    cases v.testBit i <;> simp [Nat.testBit_or, Nat.testBit_and, *]
  have hlow : v % 0x40 + 0x80 = v % 0x40 ||| 0x80 := by
    rw [Nat.add_comm, Nat.or_comm]
    exact Nat.two_pow_add_eq_or_of_lt (i := 6) (by omega) 2
  calc (v ||| 0x80) &&& 0xBF
    _ = v &&& (0x3F ||| 0x80) ||| 0x80 := Nat.and_or_distrib_right v 0x80 0xBF
    _ = v &&& 0x3F ||| (v &&& 0x80 ||| 0x80) := by rw [Nat.and_or_distrib_left, Nat.or_assoc]
    _ = v % 0x40 + 0x80 := by rw [habsorb, hlow, Nat.and_two_pow_sub_one_eq_mod v 6]

lemma first_byte {w : ℕ} (m k a : ℕ) (hm : m = 2 ^ k * a) (hw : w < 2 ^ k) (h : m + w < 256) :
    (w ||| m) &&& 0xFF = w + m := by
  rw [Nat.or_comm, hm, ← Nat.two_pow_add_eq_or_of_lt hw, Nat.and_two_pow_sub_one_eq_mod _ 8,
    Nat.mod_eq_of_lt (by omega), Nat.add_comm]

lemma toUtf8_eq {v : ℕ} (h : v.isValidChar) : toUtf8 v = some (Json.utf8 v) := by
  have hval : (Char.ofNat v).val.toNat = v := by
    rw [Char.ofNat, dif_pos h]
    rfl
  have hle : v ≤ 0x10FFFF := by
    rcases h with h | h <;> omega
  have hbyte₆ : UInt8.ofNat ((v >>> 6 ||| 0x80) &&& 0xBF) = UInt8.ofNat (v / 64 % 0x40 + 0x80) := by
    rw [continuation_byte, Nat.shiftRight_eq_div_pow]
  have hbyte₁₂ : UInt8.ofNat ((v >>> 12 ||| 0x80) &&& 0xBF) = UInt8.ofNat (v / 4096 % 0x40 + 0x80) := by
    rw [continuation_byte, Nat.shiftRight_eq_div_pow]
  have hlast : UInt8.ofNat ((v ||| 0x80) &&& 0xBF) = UInt8.ofNat (v % 0x40 + 0x80) := by
    rw [continuation_byte]
  simp only [toUtf8, Json.utf8, String.utf8EncodeChar, hval]
  rcases Nat.lt_or_ge v 0x80 with h₁ | h₁
  · rw [if_pos h₁, if_pos (by omega)]
    have hnone : continuation (1 - 1) v [] = (v, []) := rfl
    simp only [encode, hnone]
    rw [if_neg (by omega), Nat.and_two_pow_sub_one_eq_mod v 7, Nat.mod_eq_of_lt (by omega)]
  rw [if_neg (by omega), if_neg (by omega : ¬v ≤ 0x7f)]
  rcases Nat.lt_or_ge v 0x800 with h₂ | h₂
  · rw [if_pos h₂, if_pos (by omega)]
    have hfirst : (v >>> 6 ||| 0xC0) &&& 0xFF = v / 64 % 0x20 + 0xC0 := by
      rw [Nat.shiftRight_eq_div_pow, first_byte 0xC0 6 3 rfl (by omega) (by omega)]
      omega
    simp only [encode, continuation, hlast]
    rw [if_pos (by omega), hfirst]
  rw [if_neg (by omega), if_neg (by omega : ¬v ≤ 0x7ff)]
  rcases Nat.lt_or_ge v 0x10000 with h₃ | h₃
  · rw [if_pos h₃, if_pos (by omega)]
    have hfirst : (v >>> 12 ||| 0xE0) &&& 0xFF = v / 4096 % 0x10 + 0xE0 := by
      rw [Nat.shiftRight_eq_div_pow, first_byte 0xE0 5 7 rfl (by omega) (by omega)]
      omega
    simp only [encode, continuation, hlast, hbyte₆, ← Nat.shiftRight_add]
    rw [if_pos (by omega), hfirst]
  · rw [if_neg (by omega), if_neg (by omega : ¬v ≤ 0xffff), if_pos hle]
    have hfirst : (v >>> 18 ||| 0xF0) &&& 0xFF = v / 262144 % 0x08 + 0xF0 := by
      rw [Nat.shiftRight_eq_div_pow, first_byte 0xF0 4 15 rfl (by omega) (by omega)]
      omega
    simp only [encode, continuation, hlast, hbyte₆, hbyte₁₂, ← Nat.shiftRight_add]
    rw [if_pos (by omega), hfirst]

lemma hex4_length {h : Bytes} {u : ℕ} (hh : Json.Hex4 h u) : h.length = 4 := by
  cases hh
  rfl

lemma hex4_lt {h : Bytes} {u : ℕ} (hh : Json.Hex4 h u) : u < 0x10000 := by
  cases hh with
  | mk ha hb hc hd =>
    have := hexDigit_lt ha
    have := hexDigit_lt hb
    have := hexDigit_lt hc
    have := hexDigit_lt hd
    omega

lemma parseHex4_hex {h : Bytes} {u : ℕ} (hh : Json.Hex4 h u) (t : Bytes) : parseHex4 (h ++ t) = u := by
  cases hh with
  | mk ha hb hc hd => simp [parseHex4, hexLoop, ha, hb, hc, hd, Nat.shiftLeft_eq]

lemma utf16_unit {h : Bytes} {u : ℕ} (hh : Json.Hex4 h u) (hu : u < 0xD800 ∨ 0xDFFF < u) (t : Bytes) :
    utf16LiteralToUtf8 (0x5C :: 0x75 :: (h ++ t)) = some (Json.utf8 u, 6) := by
  have hlen := hex4_length hh
  have hlt := hex4_lt hh
  have hvalid : u.isValidChar := by
    rcases hu with hu | hu
    · exact Or.inl hu
    · exact Or.inr ⟨hu, by omega⟩
  have hdrop : List.drop 2 (0x5C :: 0x75 :: (h ++ t)) = h ++ t := rfl
  unfold utf16LiteralToUtf8
  rw [if_neg (by simp [hlen]), hdrop, parseHex4_hex hh]
  rw [if_neg (by omega), if_neg (by omega), toUtf8_eq hvalid]
  rfl

lemma utf16_pair {h h' : Bytes} {u u' : ℕ} (hh : Json.Hex4 h u) (hu : 0xD800 ≤ u ∧ u ≤ 0xDBFF)
    (hh' : Json.Hex4 h' u') (hu' : 0xDC00 ≤ u' ∧ u' ≤ 0xDFFF) (t : Bytes) :
    utf16LiteralToUtf8 (0x5C :: 0x75 :: (h ++ 0x5C :: 0x75 :: (h' ++ t))) =
      some (Json.utf8 (0x10000 + (u - 0xD800) * 0x400 + (u' - 0xDC00)), 12) := by
  have hlen := hex4_length hh
  have hlen' := hex4_length hh'
  have hpoint : 0x10000 + (((u &&& 0x3FF) <<< 10) ||| (u' &&& 0x3FF)) =
      0x10000 + (u - 0xD800) * 0x400 + (u' - 0xDC00) := by
    rw [Nat.and_two_pow_sub_one_eq_mod u 10, Nat.and_two_pow_sub_one_eq_mod u' 10,
      Nat.shiftLeft_eq, Nat.mul_comm, ← Nat.two_pow_add_eq_or_of_lt (Nat.mod_lt _ (by decide))]
    omega
  have hvalid : (0x10000 + (u - 0xD800) * 0x400 + (u' - 0xDC00)).isValidChar := Or.inr (by omega)
  have hdrop : List.drop 2 (0x5C :: 0x75 :: (h ++ 0x5C :: 0x75 :: (h' ++ t))) =
      h ++ 0x5C :: 0x75 :: (h' ++ t) := rfl
  have hdrop' : List.drop 6 (0x5C :: 0x75 :: (h ++ 0x5C :: 0x75 :: (h' ++ t))) =
      0x5C :: 0x75 :: (h' ++ t) := by
    simp [hlen]
  have hdrop'' : List.drop 2 (0x5C :: 0x75 :: (h' ++ t)) = h' ++ t := rfl
  unfold utf16LiteralToUtf8
  rw [if_neg (by simp [hlen]), hdrop, parseHex4_hex hh, if_neg (by omega), if_pos hu, hdrop']
  simp only []
  rw [if_neg (by simp [hlen']), if_neg (by simp), hdrop'', parseHex4_hex hh',
    if_neg (by omega), hpoint, toUtf8_eq hvalid]
  rfl

lemma shortEscape_ne {c b : UInt8} (h : shortEscape c = some b) : c ≠ 0x75 := by
  rintro rfl
  simp [shortEscape] at h

lemma closing_plain {c : UInt8} (hquote : c ≠ 0x22) (hslash : c ≠ 0x5C) (rest : Bytes) :
    closing (c :: rest) = (closing rest).map fun (body, after) => (c :: body, after) := by
  rw [closing.eq_def]
  simp only [if_neg hquote, if_neg hslash]

lemma closing_quote (rest : Bytes) : closing (0x22 :: rest) = some ([], rest) := by
  rw [closing.eq_def]
  rfl

lemma closing_escape (c : UInt8) (rest : Bytes) :
    closing (0x5C :: c :: rest) = (closing rest).map fun (body, after) => (0x5C :: c :: body, after) := by
  rw [closing, if_neg (by decide), if_pos rfl]

lemma closing_hex {h : Bytes} {u : ℕ} (hh : Json.Hex4 h u) {t body after : Bytes}
    (ht : closing t = some (body, after)) : closing (h ++ t) = some (h ++ body, after) := by
  cases hh with
  | mk ha hb hc hd =>
    obtain ⟨ha₁, ha₂⟩ := hexDigit_plain ha
    obtain ⟨hb₁, hb₂⟩ := hexDigit_plain hb
    obtain ⟨hc₁, hc₂⟩ := hexDigit_plain hc
    obtain ⟨hd₁, hd₂⟩ := hexDigit_plain hd
    simp [closing_plain, *]

/-- The quote that closes a string is the first one outside an escape. -/
lemma closing_chars {t s : Bytes} (h : Json.Chars t s) (after : Bytes) :
    closing (t ++ 0x22 :: after) = some (t, after) := by
  induction h with
  | nil => exact closing_quote after
  | plain hctl hquote hslash rest ih => rw [List.cons_append, closing_plain hquote hslash, ih]; rfl
  | short hc rest ih => rw [List.cons_append, List.cons_append, closing_escape, ih]; rfl
  | unicode hh hu rest ih =>
    simp only [List.cons_append, List.append_assoc, closing_escape, closing_hex hh ih]
    rfl
  | surrogates hh hu hh' hu' rest ih =>
    have htail := closing_escape 0x75 _ ▸ congrArg (Option.map fun r : Bytes × Bytes =>
      (0x5C :: 0x75 :: r.1, r.2)) (closing_hex hh' ih)
    simp only [List.cons_append, List.append_assoc, closing_escape, closing_hex hh htail]
    rfl

lemma unescape_chars {t s : Bytes} (h : Json.Chars t s) {n : ℕ} (hn : t.length ≤ n) :
    unescape n t = (s, true) := by
  induction h generalizing n with
  | nil => cases n <;> rfl
  | @plain b t s hctl hquote hslash rest ih =>
    obtain ⟨n, rfl⟩ := Nat.exists_eq_add_of_le' (Nat.lt_of_lt_of_le (by simp) hn : 0 < n)
    rw [unescape, if_pos hslash, ih (by simpa using hn)]
    rfl
  | @short c b t s hc rest ih =>
    obtain ⟨n, rfl⟩ := Nat.exists_eq_add_of_le' (Nat.lt_of_lt_of_le (by simp) hn : 0 < n)
    have hlen : t.length ≤ n := by
      simp only [List.length_cons] at hn
      omega
    rw [unescape, if_neg (by simp)]
    simp only [List.headD_cons, if_neg (shortEscape_ne hc), hc, List.tail_cons, ih hlen]
    rfl
  | @unicode h t s u hh hu rest ih =>
    have hlen := hex4_length hh
    obtain ⟨n, rfl⟩ := Nat.exists_eq_add_of_le' (Nat.lt_of_lt_of_le (by simp) hn : 0 < n)
    have htlen : t.length ≤ n := by
      simp only [List.length_cons, List.length_append] at hn
      omega
    have hdrop : List.drop 6 (0x5C :: 0x75 :: (h ++ t)) = t := by simp [hlen]
    rw [unescape, if_neg (by simp)]
    simp only [List.headD_cons, if_true, utf16_unit hh hu t, hdrop, ih htlen]
    rfl
  | @surrogates h h' t s u u' hh hu hh' hu' rest ih =>
    have hlen := hex4_length hh
    have hlen' := hex4_length hh'
    obtain ⟨n, rfl⟩ := Nat.exists_eq_add_of_le' (Nat.lt_of_lt_of_le (by simp) hn : 0 < n)
    have htlen : t.length ≤ n := by
      simp only [List.length_cons, List.length_append] at hn
      omega
    have hdrop : List.drop 12 (0x5C :: 0x75 :: (h ++ 0x5C :: 0x75 :: (h' ++ t))) = t := by
      simp [List.drop_append, hlen, hlen']
    rw [unescape, if_neg (by simp)]
    simp only [List.headD_cons, if_true, utf16_pair hh hu hh' hu' t, hdrop, ih htlen]
    rfl

lemma parseString_chars {t s : Bytes} (h : Json.Chars t s) (after : Bytes) :
    parseString (0x22 :: (t ++ 0x22 :: after)) = some (s, after) := by
  simp [parseString, closing_chars h, unescape_chars h]

/-! ### Values -/

section Complete

variable {D : Type} {value : Bytes → D} {P : Bytes → Item D → Prop}
  {p : Bytes → Option (Item D × Bytes)}

lemma starts_scalar {t : Bytes} {v : Item D} (h : Json.Scalar value id t v) : Starts t := by
  cases h with
  | null => exact starts_cons _ (by decide)
  | true_ => exact starts_cons _ (by decide)
  | false_ => exact starts_cons _ (by decide)
  | string _ => exact starts_cons _ (by decide)
  | number ht =>
    obtain ⟨c, t', rfl, rfl | hc⟩ := number_head ht
    · exact starts_cons _ (by decide)
    · refine starts_cons _ ?_
      simp only [isDigit, Bool.and_eq_true, decide_eq_true_eq, UInt8.le_iff_toNat_le] at hc
      have hlow : (48 : UInt8).toNat ≤ c.toNat := hc.1
      rw [UInt8.lt_iff_toNat_lt]
      have h48 : (48 : UInt8).toNat = 48 := rfl
      have h32 : (32 : UInt8).toNat = 32 := rfl
      omega

lemma starts_container {t : Bytes} {v : Item D} (h : Json.Container id P t v) : Starts t := by
  cases h <;> exact starts_cons _ (by decide)

lemma starts_denotes {n : ℕ} {t : Bytes} {v : Item D} (h : Json.Denotes value id n t v) : Starts t := by
  cases n with
  | zero => exact starts_scalar h
  | succ n =>
    rcases h with h | h
    · exact starts_scalar h
    · exact starts_container h

lemma isNumberChar_ws {b : UInt8} (h : Json.isWs b = true) : isNumberChar b = false := by
  simp only [Json.isWs, Bool.or_eq_true, beq_iff_eq] at h
  rcases h with ((rfl | rfl) | rfl) | rfl <;> decide

lemma ends_ws {ws : Bytes} (hws : Json.Ws ws) {c : UInt8} (hc : isNumberChar c = false) (rest : Bytes) :
    Ends (ws ++ c :: rest) := by
  cases ws with
  | nil => simpa [Ends] using hc
  | cons b ws => simpa [Ends] using isNumberChar_ws (hws b (by simp))

/-- A parser reads the texts of a relation up to where they end. -/
def Reads (p : Bytes → Option (Item D × Bytes)) (P : Bytes → Item D → Prop) : Prop :=
  ∀ t v rest, P t v → Ends rest → p (t ++ rest) = some (v, rest)

lemma parseElements_reads (hp : Reads p P) (hstart : ∀ t v, P t v → Starts t) {t : Bytes}
    {vs : List (Item D)} (h : Json.Elements P t vs) (after : Bytes) {n : ℕ} (hn : vs.length ≤ n) :
    parseElements p n (t ++ 0x5D :: after) = some (vs, after) := by
  induction h generalizing n with
  | @last pre t post v hpre ht hpost =>
    obtain ⟨n, rfl⟩ := Nat.exists_eq_add_of_le' (Nat.lt_of_lt_of_le (by simp) hn : 0 < n)
    have hskip := skipWhitespace_ws hpre ((hstart t v ht).append (post ++ 0x5D :: after))
    have hread := hp t v (post ++ 0x5D :: after) ht (ends_ws hpost (by decide) after)
    have hclose := skipWhitespace_ws hpost (starts_cons (c := 0x5D) after (by decide))
    simp [parseElements, hskip, hread, hclose]
  | @cons pre t post rest v vs hpre ht hpost hrest ih =>
    obtain ⟨n, rfl⟩ := Nat.exists_eq_add_of_le' (Nat.lt_of_lt_of_le (by simp) hn : 0 < n)
    have hskip := skipWhitespace_ws hpre
      ((hstart t v ht).append (post ++ 0x2C :: (rest ++ 0x5D :: after)))
    have hread := hp t v (post ++ 0x2C :: (rest ++ 0x5D :: after)) ht (ends_ws hpost (by decide) _)
    have hcomma := skipWhitespace_ws hpost
      (starts_cons (c := 0x2C) (rest ++ 0x5D :: after) (by decide))
    simp [parseElements, hskip, hread, hcomma, ih (by simpa using hn)]

lemma parseMember_reads (hp : Reads p P) (hstart : ∀ t v, P t v → Starts t) {t : Bytes}
    {m : Bytes × Item D} (h : Json.Member id P t m) {c : UInt8} (hc : isNumberChar c = false)
    (hgt : 32 < c) (after : Bytes) :
    ∃ rest, parseMember p (t ++ c :: after) = some (m, rest) ∧ skipWhitespace rest = c :: after := by
  cases h with
  | @mk k s pre mid mid' t post v hpre hk hmid hmid' ht hpost =>
    refine ⟨post ++ c :: after, ?_, skipWhitespace_ws hpost (starts_cons after hgt)⟩
    have hname := skipWhitespace_ws hpre (starts_cons (c := 0x22)
      (k ++ 0x22 :: (mid ++ 0x3A :: (mid' ++ t ++ post ++ c :: after))) (by decide))
    have hstr := parseString_chars hk (mid ++ 0x3A :: (mid' ++ t ++ post ++ c :: after))
    have hcolon := skipWhitespace_ws hmid
      (starts_cons (c := 0x3A) (mid' ++ t ++ post ++ c :: after) (by decide))
    have hskip := skipWhitespace_ws hmid' ((hstart t v ht).append (post ++ c :: after))
    have hread := hp t v (post ++ c :: after) ht (ends_ws hpost hc after)
    simp only [List.append_assoc] at hname hstr hcolon hskip
    simp [parseMember, hname, hstr, hcolon, hskip, hread]

lemma parseMembers_reads (hp : Reads p P) (hstart : ∀ t v, P t v → Starts t) {t : Bytes}
    {ms : List (Bytes × Item D)} (h : Json.Members id P t ms) (after : Bytes) {n : ℕ}
    (hn : ms.length ≤ n) : parseMembers p n (t ++ 0x7D :: after) = some (ms, after) := by
  induction h generalizing n with
  | @last t m ht =>
    obtain ⟨n, rfl⟩ := Nat.exists_eq_add_of_le' (Nat.lt_of_lt_of_le (by simp) hn : 0 < n)
    obtain ⟨rest, hmember, hclose⟩ := parseMember_reads hp hstart ht
      (by decide : isNumberChar 0x7D = false) (by decide) after
    simp [parseMembers, hmember, hclose]
  | @cons t rest m ms ht hrest ih =>
    obtain ⟨n, rfl⟩ := Nat.exists_eq_add_of_le' (Nat.lt_of_lt_of_le (by simp) hn : 0 < n)
    obtain ⟨rest', hmember, hcomma⟩ := parseMember_reads hp hstart ht
      (by decide : isNumberChar 0x2C = false) (by decide) (rest ++ 0x7D :: after)
    simp [parseMembers, hmember, hcomma, ih (by simpa using hn)]

lemma elements_length (hstart : ∀ t v, P t v → Starts t) {t : Bytes} {vs : List (Item D)}
    (h : Json.Elements P t vs) : vs.length ≤ t.length := by
  have hpos {t : Bytes} {v : Item D} (ht : P t v) : 0 < t.length := by
    obtain ⟨c, hc, -⟩ := hstart t v ht
    cases t with
    | nil => simp at hc
    | cons c t => simp
  induction h with
  | last hpre ht hpost =>
    have := hpos ht
    simp only [List.length_append, List.length_singleton]
    omega
  | cons hpre ht hpost hrest ih =>
    simp only [List.length_append, List.length_cons]
    omega

lemma members_length {t : Bytes} {ms : List (Bytes × Item D)} (h : Json.Members id P t ms) :
    ms.length ≤ t.length := by
  induction h with
  | last ht =>
    cases ht
    simp only [List.length_append, List.length_cons, List.length_nil]
    omega
  | cons ht hrest ih =>
    simp only [List.length_append, List.length_cons]
    omega

lemma skipWhitespace_idem (rest : Bytes) : skipWhitespace (skipWhitespace rest) = skipWhitespace rest := by
  cases hdrop : rest.dropWhile (· ≤ 32) with
  | nil =>
    have hall : ∀ b ∈ rest, decide (b ≤ 32) = true := List.dropWhile_eq_nil_iff.mp hdrop
    have hskip : skipWhitespace rest = rest.getLast?.toList := by rw [skipWhitespace, hdrop]
    rw [hskip]
    cases hlast : rest.getLast? with
    | none => rfl
    | some b =>
      have hb := hall b (List.mem_of_getLast? hlast)
      simp [skipWhitespace, of_decide_eq_true hb]
  | cons c r =>
    have hc : ¬c ≤ 32 := by
      have := List.head?_dropWhile_not (fun b : UInt8 => decide (b ≤ 32)) rest
      rw [hdrop] at this
      simpa using this
    have hskip : skipWhitespace rest = c :: r := by rw [skipWhitespace, hdrop]
    rw [hskip, skipWhitespace_self (starts_cons r (UInt8.not_le.mp hc))]

lemma parseElements_skip (n : ℕ) (rest : Bytes) :
    parseElements p n (skipWhitespace rest) = parseElements p n rest := by
  cases n with
  | zero => rfl
  | succ n => rw [parseElements, parseElements, skipWhitespace_idem]

lemma parseMembers_skip (n : ℕ) {rest : Bytes} (h : skipWhitespace rest ≠ []) :
    parseMembers p n (skipWhitespace rest) = parseMembers p n rest := by
  have hne : rest ≠ [] := by
    rintro rfl
    exact h rfl
  cases n with
  | zero => rfl
  | succ n => simp only [parseMembers, parseMember, if_neg h, if_neg hne, skipWhitespace_idem]

/-- Where a container goes on with a value or a name. -/
lemma parseArray_cons {rest : Bytes} {c : UInt8} {tail : Bytes} (h : skipWhitespace rest = c :: tail)
    (hc : c ≠ 0x5D) : parseArray p rest =
      (parseElements p rest.length rest).map fun (vs, rest) => (.array vs, rest) := by
  rw [← parseElements_skip, h, parseArray, h]
  simp only [if_neg hc]

lemma parseObject_cons {rest : Bytes} {c : UInt8} {tail : Bytes} (h : skipWhitespace rest = c :: tail)
    (hc : c ≠ 0x7D) : parseObject p rest =
      (parseMembers p rest.length rest).map fun (ms, rest) => (.object ms, rest) := by
  rw [← parseMembers_skip rest.length (by simp [h]), h, parseObject, h]
  simp only [if_neg hc]

lemma elements_head {t : Bytes} {vs : List (Item D)} (h : Json.Elements P t vs)
    (hstart : ∀ t v, P t v → Starts t) (after : Bytes) :
    ∃ t' v rest, P t' v ∧ skipWhitespace (t ++ after) = t' ++ rest := by
  cases h with
  | @last pre t post v hpre ht hpost =>
    refine ⟨t, v, post ++ after, ht, ?_⟩
    simpa using skipWhitespace_ws hpre ((hstart t v ht).append (post ++ after))
  | @cons pre t post rest v vs hpre ht hpost hrest =>
    refine ⟨t, v, post ++ 0x2C :: (rest ++ after), ht, ?_⟩
    simpa using skipWhitespace_ws hpre ((hstart t v ht).append (post ++ 0x2C :: (rest ++ after)))

lemma members_head {t : Bytes} {ms : List (Bytes × Item D)} (h : Json.Members id P t ms)
    (after : Bytes) : ∃ rest, skipWhitespace (t ++ after) = 0x22 :: rest := by
  have hmember {t : Bytes} {m : Bytes × Item D} (ht : Json.Member id P t m) (after : Bytes) :
      ∃ rest, skipWhitespace (t ++ after) = 0x22 :: rest := by
    cases ht with
    | @mk k s pre mid mid' t post v hpre hk hmid hmid' ht hpost =>
      refine ⟨k ++ 0x22 :: (mid ++ 0x3A :: (mid' ++ t ++ post)) ++ after, ?_⟩
      rw [List.append_assoc]
      exact skipWhitespace_ws hpre (starts_cons _ (by decide))
  cases h with
  | last ht => exact hmember ht after
  | @cons t rest m ms ht hrest =>
    rw [List.append_assoc]
    exact hmember ht _

lemma parseValue_cons {c : UInt8} (hn : c ≠ 0x6E) (hf : c ≠ 0x66) (ht : c ≠ 0x74) (levels : ℕ)
    (tail : Bytes) :
    parseValue value levels (c :: tail) =
      if c = 0x22 then (parseString (c :: tail)).map fun (s, rest) => (.string s, rest)
      else if c = 0x2D ∨ isDigit c then parseNumber value (c :: tail)
      else if c = 0x5B then
        match levels with
        | 0 => none
        | n + 1 => parseArray (parseValue value n) tail
      else if c = 0x7B then
        match levels with
        | 0 => none
        | n + 1 => parseObject (parseValue value n) tail
      else none := by
  have h₁ : ¬Json.null <+: c :: tail := by
    rintro ⟨t, h⟩
    injection h with h
    exact hn h.symm
  have h₂ : ¬Json.false_ <+: c :: tail := by
    rintro ⟨t, h⟩
    injection h with h
    exact hf h.symm
  have h₃ : ¬Json.true_ <+: c :: tail := by
    rintro ⟨t, h⟩
    injection h with h
    exact ht h.symm
  cases levels <;> simp only [parseValue, if_neg h₁, if_neg h₂, if_neg h₃]

lemma parseValue_scalar (levels : ℕ) {t rest : Bytes} {v : Item D} (h : Json.Scalar value id t v)
    (hrest : Ends rest) : parseValue value levels (t ++ rest) = some (v, rest) := by
  cases h with
  | null =>
    have hpre : Json.null <+: Json.null ++ rest := List.prefix_append _ _
    rw [parseValue.eq_def, if_pos hpre]
    rfl
  | false_ =>
    have hn : ¬Json.null <+: Json.false_ ++ rest := by
      rintro ⟨t, h⟩
      injection h with h
      exact absurd h (by decide)
    have hpre : Json.false_ <+: Json.false_ ++ rest := List.prefix_append _ _
    rw [parseValue.eq_def, if_neg hn, if_pos hpre]
    rfl
  | true_ =>
    have hn : ¬Json.null <+: Json.true_ ++ rest := by
      rintro ⟨t, h⟩
      injection h with h
      exact absurd h (by decide)
    have hf : ¬Json.false_ <+: Json.true_ ++ rest := by
      rintro ⟨t, h⟩
      injection h with h
      exact absurd h (by decide)
    have hpre : Json.true_ <+: Json.true_ ++ rest := List.prefix_append _ _
    rw [parseValue.eq_def, if_neg hn, if_neg hf, if_pos hpre]
    rfl
  | @string t s ht =>
    have hstr : parseString (0x22 :: (t ++ [0x22] ++ rest)) = some (s, rest) := by
      simpa using parseString_chars ht rest
    rw [List.cons_append, parseValue_cons (by decide) (by decide) (by decide), if_pos rfl, hstr]
    rfl
  | number ht =>
    have hread := parseNumber_token value ht hrest
    obtain ⟨c, t', rfl, hc⟩ := number_head ht
    have hne : c ≠ 0x6E ∧ c ≠ 0x66 ∧ c ≠ 0x74 ∧ c ≠ 0x22 := by
      rcases hc with rfl | hc
      · decide
      · refine ⟨?_, ?_, ?_, ?_⟩ <;> rintro rfl <;> exact absurd hc (by decide)
    rw [List.cons_append, parseValue_cons hne.1 hne.2.1 hne.2.2.1, if_neg hne.2.2.2, if_pos hc]
    exact hread

lemma parseValue_container {n : ℕ} (hp : Reads (parseValue value n) P) (hstart : ∀ t v, P t v → Starts t)
    (hno : ∀ t v, P t v → t.head? ≠ some 0x5D) {t rest : Bytes} {v : Item D}
    (h : Json.Container id P t v) : parseValue value (n + 1) (t ++ rest) = some (v, rest) := by
  cases h with
  | @emptyArray ws hws =>
    have hskip := skipWhitespace_ws hws (starts_cons (c := 0x5D) rest (by decide))
    rw [List.cons_append, parseValue_cons (by decide) (by decide) (by decide), if_neg (by decide),
      if_neg (by decide), if_pos rfl]
    simp [parseArray, hskip]
  | @array t vs ht =>
    obtain ⟨t', v', tail, ht', hskip⟩ := elements_head ht hstart (0x5D :: rest)
    obtain ⟨c, hc, -⟩ := hstart t' v' ht'
    obtain ⟨t'', rfl⟩ : ∃ t'', t' = c :: t'' := by
      cases t' with
      | nil => simp at hc
      | cons b t'' => exact ⟨t'', by simpa using hc⟩
    have hne : c ≠ 0x5D := fun hc => hno _ _ ht' (by simp [hc])
    have hread := parseElements_reads hp hstart ht rest
      (n := (t ++ 0x5D :: rest).length) (by
        have := elements_length hstart ht
        simp only [List.length_append]
        omega)
    rw [List.cons_append, parseValue_cons (by decide) (by decide) (by decide), if_neg (by decide),
      if_neg (by decide), if_pos rfl]
    simp only [List.append_assoc, List.singleton_append]
    rw [parseArray_cons (by rw [hskip, List.cons_append]) hne, hread]
    rfl
  | @emptyObject ws hws =>
    have hskip := skipWhitespace_ws hws (starts_cons (c := 0x7D) rest (by decide))
    rw [List.cons_append, parseValue_cons (by decide) (by decide) (by decide), if_neg (by decide),
      if_neg (by decide), if_neg (by decide), if_pos rfl]
    simp [parseObject, hskip]
  | @object t ms ht =>
    obtain ⟨tail, hskip⟩ := members_head ht (0x7D :: rest)
    have hread := parseMembers_reads hp hstart ht rest
      (n := (t ++ 0x7D :: rest).length) (by
        have := members_length ht
        simp only [List.length_append]
        omega)
    rw [List.cons_append, parseValue_cons (by decide) (by decide) (by decide), if_neg (by decide),
      if_neg (by decide), if_neg (by decide), if_pos rfl]
    simp only [List.append_assoc, List.singleton_append]
    rw [parseObject_cons hskip (by decide), hread]
    rfl

/-- A value begins neither with a bracket that closes nor with a byte order mark. -/
lemma denotes_head {n : ℕ} {t : Bytes} {v : Item D} (h : Json.Denotes value id n t v) :
    t.head? ≠ some 0x5D ∧ t.head? ≠ some 0xEF := by
  have hscalar {t : Bytes} {v : Item D} (h : Json.Scalar value id t v) :
      t.head? ≠ some 0x5D ∧ t.head? ≠ some 0xEF := by
    cases h with
    | null => decide
    | true_ => decide
    | false_ => decide
    | string _ => simp
    | number ht =>
      obtain ⟨c, t', rfl, rfl | hc⟩ := number_head ht
      · simp
      · constructor <;> intro heq <;> obtain rfl := Option.some.inj heq <;> exact absurd hc (by decide)
  cases n with
  | zero => exact hscalar h
  | succ n =>
    rcases h with h | h
    · exact hscalar h
    · cases h <;> simp

/-- Where a value stands that is nested no deeper than is allowed, it is read. -/
lemma parseValue_reads {n levels : ℕ} (hle : n ≤ levels) :
    Reads (parseValue value levels) (Json.Denotes value id n) := by
  induction n generalizing levels with
  | zero => exact fun t v rest h hrest => parseValue_scalar levels h hrest
  | succ n ih =>
    obtain ⟨levels, rfl⟩ := Nat.exists_eq_add_of_le' (Nat.lt_of_lt_of_le (by simp) hle : 0 < levels)
    intro t v rest h hrest
    rcases h with h | h
    · exact parseValue_scalar (levels + 1) h hrest
    · exact parseValue_container (ih (by omega)) (fun _ _ => starts_denotes)
        (fun _ _ h => (denotes_head h).1) h

lemma skipUtf8Bom_text {n : ℕ} {t : Bytes} {v : Item D} (h : Json.Text value id n t v) (rest : Bytes) :
    skipUtf8Bom (t ++ rest) = t ++ rest := by
  cases h with
  | @mk pre t post v hpre ht hpost =>
    rw [skipUtf8Bom, if_neg]
    rintro ⟨-, tail, hbom⟩
    cases pre with
    | nil =>
      obtain ⟨c, hc, -⟩ := starts_denotes ht
      cases t with
      | nil => simp at hc
      | cons b t =>
        injection hbom with hb
        exact (denotes_head ht).2 (by rw [← hb]; rfl)
    | cons b pre =>
      injection hbom with hb
      exact absurd (hpre b (by simp)) (by rw [← hb]; decide)

/-- The buffers hold the strings that the text stands for. -/
theorem parseBuffers_text {n : ℕ} (hn : n ≤ nestingLimit) {t : Bytes} {v : Item D}
    (h : Json.Text value id n t v) : parseBuffers value t = some v := by
  have hbuf : skipUtf8Bom (cString t ++ [0]) = t ++ [0] := by
    rw [cString_eq h.ne_zero, skipUtf8Bom_text h]
  rw [parseBuffers, hbuf]
  cases h with
  | @mk pre t post v hpre ht hpost =>
    have hskip := skipWhitespace_ws hpre ((starts_denotes ht).append (post ++ [0]))
    have hread := parseValue_reads hn t v (post ++ [0]) ht (ends_ws hpost (by decide) [])
    simp only [List.append_assoc, hskip, hread]
    rfl

/-- A text stands for one value. -/
theorem text_unique {n n' : ℕ} (hn : n ≤ nestingLimit) (hn' : n' ≤ nestingLimit) {t : Bytes} {v v' : Item D}
    (h : Json.Text value id n t v) (h' : Json.Text value id n' t v') : v = v' :=
  Option.some.inj ((parseBuffers_text hn h).symm.trans (parseBuffers_text hn' h'))

/-- The strings are cut at their first zero afterwards. -/
lemma parse_denotes {n : ℕ} (hn : n ≤ nestingLimit) {t : Bytes} {v : Item D}
    (h : Json.Text value id n t v) : parse value t = some (v.map id cString) := by
  rw [parse, parseBuffers_text hn h, Option.map_some]

/-- **Every JSON text is parsed, and to its value**; a string is what stands before its first zero. -/
theorem parse_text {n : ℕ} (hn : n ≤ nestingLimit) {t : Bytes} {v : Item D}
    (h : Json.Text value cString n t v) : parse value t = some v := by
  obtain ⟨w, hw, rfl⟩ := @Json.Text.comap _ _ _ _ value id id cString n t v h
  exact parse_denotes hn hw

end Complete

/-- An array with white space, an escape and a number. -/
theorem parse_text_array :
    parse id [0x20, 0x5B, 0x22, 0x5C, 0x75, 0x30, 0x30, 0x34, 0x31, 0x22, 0x2C, 0x20, 0x37, 0x5D] =
      some (.array [.string [0x41], .number [0x37]]) := by
  have hspace : Json.Ws [0x20] := by simp [Json.Ws, Json.isWs]
  have hhex : Json.Hex4 [0x30, 0x30, 0x34, 0x31] 0x41 :=
    @Json.Hex4.mk 0x30 0x30 0x34 0x31 0 0 4 1 (by decide) (by decide) (by decide) (by decide)
  have hchars : Json.Chars [0x5C, 0x75, 0x30, 0x30, 0x34, 0x31] [0x41] :=
    Json.Chars.unicode hhex (by decide) Json.Chars.nil
  have hstring : Json.Denotes id cString 0 [0x22, 0x5C, 0x75, 0x30, 0x30, 0x34, 0x31, 0x22] (.string [0x41]) :=
    Json.Scalar.string hchars
  have hnumber : Json.Denotes id cString 0 [0x37] (.number [0x37]) :=
    Json.Scalar.number (Json.isNumber_decimal 7)
  have helements := Json.Elements.comma hstring (Json.Elements.last hspace hnumber Json.ws_nil)
  have harray : Json.Denotes id cString 1
      [0x5B, 0x22, 0x5C, 0x75, 0x30, 0x30, 0x34, 0x31, 0x22, 0x2C, 0x20, 0x37, 0x5D]
      (.array [.string [0x41], .number [0x37]]) := Or.inr (Json.Container.array helements)
  exact parse_text (by decide) (Json.Text.mk hspace harray Json.ws_nil)

end SyncClipboard.CJson
