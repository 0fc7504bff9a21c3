import Mathlib.Data.List.GetD
import SyncClipboard.CString
import SyncClipboard.Crypto

/-!
Percent decoding in place.

The loop has a place to read and a place to write in one buffer, and leaves the two characters behind a
`%` to `sscanf`. It writes behind what it reads, and decodes as it should unless `sscanf` finds a number
where there are no two digits (`decodes_iff`).
-/

namespace SyncClipboard.UrlDecode

open FtAuth CString
open Crypto (cString cString_eq cString_append_zero)

/-! ### The loop -/

/-- The string from a place on. -/
def stringAt (buf : Bytes) (i : ℕ) : Bytes := cString (buf.drop i)

/-- The byte for the three characters from a place on. -/
def escape (buf : Bytes) (src : ℕ) : Option UInt8 :=
  if buf.getD src 0 = 37 ∧ buf.getD (src + 1) 0 ≠ 0 ∧ buf.getD (src + 2) 0 ≠ 0 then
    sscanf02x (stringAt buf (src + 1))
  else none

/-- The loop of `url_decode_inplace`: the buffer, and where the decoded string ends; `none` is a write that
passes the place that is read. -/
def decodeLoop (buf : Bytes) (src dst : ℕ) : Option (Bytes × ℕ) :=
  if src < dst then none
  else if buf.getD src 0 = 0 then some (buf.set dst 0, dst)
  else match escape buf src with
    | some byte => decodeLoop (buf.set dst byte) (src + 3) (dst + 1)
    | none => decodeLoop (buf.set dst (buf.getD src 0)) (src + 1) (dst + 1)
termination_by buf.length - src
decreasing_by
  all_goals
    have hlt : src < buf.length := by
      by_contra hle
      exact absurd (List.getD_eq_default _ _ (by omega)) ‹¬ buf.getD src 0 = 0›
    rw [List.length_set]
    omega

def urlDecodeInplace (buf : Bytes) : Option (Bytes × ℕ) := decodeLoop buf 0 0

/-! ### The decoding -/

/-- What the loop makes of a string. -/
def urlDecode : Bytes → Bytes
  | 37 :: a :: b :: s =>
    match sscanf02x (a :: b :: s) with
    | some byte => byte :: urlDecode s
    | none => 37 :: urlDecode (a :: b :: s)
  | c :: s => c :: urlDecode s
  | [] => []

/-- The reference: a `%` with two hexadecimal digits is a byte, everything else is kept. -/
def percentDecode : Bytes → Bytes
  | 37 :: a :: b :: s =>
    match hexDigit a, hexDigit b with
    | some x, some y => UInt8.ofNat (16 * x + y) :: percentDecode s
    | _, _ => 37 :: percentDecode (a :: b :: s)
  | c :: s => c :: percentDecode s
  | [] => []

/-- Behind every `%` and two characters there is no number but one of two digits. -/
def Clean (s : Bytes) : Prop :=
  ∀ a b r, 37 :: a :: b :: r <:+ s → Number (a :: b :: r) → IsHex a ∧ IsHex b

/-- The reference is left in the buffer, and nothing behind it is touched. -/
def Decodes (s : Bytes) : Prop :=
  ∀ rest, urlDecodeInplace (s ++ 0 :: rest) =
    some (percentDecode s ++ 0 :: (s ++ 0 :: rest).drop ((percentDecode s).length + 1),
      (percentDecode s).length)

/-! ### One character or three -/

/-- The byte for the first three characters of a string. -/
def first : Bytes → Option UInt8
  | 37 :: a :: b :: s => sscanf02x (a :: b :: s)
  | _ => none

def firstDigits : Bytes → Option UInt8
  | 37 :: a :: b :: _ => (hexDigit a).bind fun x => (hexDigit b).map fun y => UInt8.ofNat (16 * x + y)
  | _ => none

lemma first_eq_some {c byte : UInt8} {s : Bytes} (h : first (c :: s) = some byte) :
    ∃ a b r, s = a :: b :: r ∧ c = 37 ∧ sscanf02x (a :: b :: r) = some byte := by
  unfold first at h
  split at h
  · rename_i a b r heq
    obtain ⟨rfl, rfl⟩ := List.cons.inj heq
    exact ⟨a, b, r, rfl, rfl, h⟩
  · cases h

lemma urlDecode_cons (c : UInt8) (s : Bytes) :
    urlDecode (c :: s) =
      match first (c :: s) with
      | some byte => byte :: urlDecode (s.drop 2)
      | none => c :: urlDecode s := by
  by_cases hc : c = 37
  · subst hc
    match s with
    | [] => rfl
    | [a] => rfl
    | a :: b :: s => rw [urlDecode]; rfl
  · rw [urlDecode, first]
    · intro a b s' h
      exact hc (List.cons.inj h).1
    · intro a b s' h _
      exact hc h

lemma percentDecode_cons (c : UInt8) (s : Bytes) :
    percentDecode (c :: s) =
      match firstDigits (c :: s) with
      | some byte => byte :: percentDecode (s.drop 2)
      | none => c :: percentDecode s := by
  by_cases hc : c = 37
  · subst hc
    match s with
    | [] => rfl
    | [a] => rfl
    | a :: b :: s =>
      rw [percentDecode, firstDigits]
      cases hexDigit a <;> cases hexDigit b <;> rfl
  · rw [percentDecode, firstDigits]
    · intro a b s' h
      exact hc (List.cons.inj h).1
    · intro a b s' h _
      exact hc h

lemma escape_eq {pre s : Bytes} (hs : 0 ∉ s) (rest : Bytes) :
    escape (pre ++ (s ++ 0 :: rest)) pre.length = first s := by
  have hget : ∀ i, (pre ++ (s ++ 0 :: rest)).getD (pre.length + i) 0 = (s ++ 0 :: rest).getD i 0 := by
    intro i
    rw [List.getD_append_right _ _ _ _ (by omega), Nat.add_sub_cancel_left]
  have hzero := hget 0
  rw [Nat.add_zero] at hzero
  have hdrop : (pre ++ (s ++ 0 :: rest)).drop (pre.length + 1) = (s ++ 0 :: rest).drop 1 := by
    rw [← List.drop_drop, List.drop_left]
  unfold escape stringAt
  rw [hzero, hget 1, hget 2, hdrop]
  match s, hs with
  | [], _ => rfl
  | [c], _ => simp [first]
  | [c, a], _ => simp [first]
  | c :: a :: b :: s, hs =>
    simp only [List.mem_cons, not_or] at hs
    have hstring : cString ((a :: b :: s) ++ 0 :: rest) = a :: b :: s := by
      rw [cString_append_zero, cString_eq]
      simp only [List.mem_cons, not_or]
      exact hs.2
    by_cases hc : c = 37
    · subst hc
      simp only [List.cons_append, List.getD_cons_zero, List.getD_cons_succ, List.drop_succ_cons, List.drop_zero]
      rw [if_pos ⟨trivial, Ne.symm hs.2.1, Ne.symm hs.2.2.1⟩]
      exact congrArg sscanf02x hstring
    · rw [if_neg fun h => hc h.1, first]
      intro a' b' s' h
      exact hc (List.cons.inj h).1

/-! ### The run -/

lemma set_append {y : Bytes} (hy : y ≠ []) (out : Bytes) (b : UInt8) :
    (out ++ y).set out.length b = out ++ b :: y.tail := by
  obtain ⟨c, y, rfl⟩ := List.exists_cons_of_ne_nil hy
  rw [List.set_append_right _ _ (Nat.le_refl _), Nat.sub_self]
  rfl

/-- **What the loop leaves**, from any place on: `out` has been written, `gap` is what has been read and not
been overwritten. -/
lemma decodeLoop_eq {s : Bytes} (hs : 0 ∉ s) (out gap rest : Bytes) :
    decodeLoop (out ++ (gap ++ (s ++ 0 :: rest))) (out ++ gap).length out.length =
      some (out ++ urlDecode s ++ 0 :: (gap ++ (s ++ 0 :: rest)).drop ((urlDecode s).length + 1),
        out.length + (urlDecode s).length) := by
  induction hn : s.length using Nat.strong_induction_on generalizing s out gap with
  | _ n ih =>
    have hle : ¬ (out ++ gap).length < out.length := by
      rw [List.length_append]
      omega
    have hbuf : out ++ (gap ++ (s ++ 0 :: rest)) = (out ++ gap) ++ (s ++ 0 :: rest) := by
      rw [List.append_assoc]
    have hhead : (out ++ (gap ++ (s ++ 0 :: rest))).getD (out ++ gap).length 0 = s.headD 0 := by
      rw [hbuf, List.getD_append_right _ _ _ _ (Nat.le_refl _), Nat.sub_self]
      cases s <;> rfl
    have hesc : escape (out ++ (gap ++ (s ++ 0 :: rest))) (out ++ gap).length = first s := by
      rw [hbuf]
      exact escape_eq hs rest
    -- a byte is written for the characters that are taken
    have hstep : ∀ taken s' b, taken ≠ [] → s = taken ++ s' →
        decodeLoop ((out ++ (gap ++ (s ++ 0 :: rest))).set out.length b) ((out ++ gap).length + taken.length)
          (out.length + 1) =
        some (out ++ b :: urlDecode s' ++ 0 :: (gap ++ (s ++ 0 :: rest)).drop ((urlDecode s').length + 2),
          out.length + ((urlDecode s').length + 1)) := by
      rintro taken s' b htaken rfl
      obtain ⟨g, gap', hgap⟩ := List.exists_cons_of_ne_nil (show gap ++ taken ≠ [] by simp [htaken])
      have hrest : gap ++ ((taken ++ s') ++ 0 :: rest) = g :: (gap' ++ (s' ++ 0 :: rest)) := by
        rw [List.append_assoc, ← List.append_assoc, hgap, List.cons_append]
      have hlen := congrArg List.length hgap
      have htaken' := List.length_pos_iff.mpr htaken
      rw [List.length_append, List.length_cons] at hlen
      have hrun := ih s'.length (by rw [← hn, List.length_append]; omega)
        (fun h0 => hs (List.mem_append_right _ h0)) (out ++ [b]) gap' rfl
      have hsrc : (out ++ gap).length + taken.length = (out ++ [b] ++ gap').length := by
        simp only [List.length_append, List.length_singleton]
        omega
      have hdst : out.length + 1 = (out ++ [b]).length := by simp
      rw [hrest, set_append (by simp), List.tail_cons, hsrc, hdst, ← List.singleton_append, ← List.append_assoc,
        hrun, List.drop_succ_cons]
      simp only [List.append_assoc, List.singleton_append, List.length_append, List.length_singleton]
      rw [Nat.add_right_comm, Nat.add_assoc]
    rw [decodeLoop, if_neg hle, hhead, hesc]
    cases s with
    | nil =>
      rw [List.headD_nil, if_pos rfl, set_append (by simp)]
      simp [urlDecode]
    | cons c s =>
      have hc : c ≠ 0 := fun h0 => hs (by simp [h0])
      rw [List.headD_cons, if_neg hc, urlDecode_cons]
      cases hfirst : first (c :: s) with
      | some byte =>
        obtain ⟨a, b, r, rfl, -⟩ := first_eq_some hfirst
        exact hstep [c, a, b] r byte (by simp) rfl
      | none => exact hstep [c] s c (by simp) rfl

/-- The write never passes the read, and the loop ends. -/
theorem urlDecodeInplace_eq {s : Bytes} (hs : 0 ∉ s) (rest : Bytes) :
    urlDecodeInplace (s ++ 0 :: rest) =
      some (urlDecode s ++ 0 :: (s ++ 0 :: rest).drop ((urlDecode s).length + 1), (urlDecode s).length) := by
  have hrun := decodeLoop_eq hs [] [] rest
  simpa [urlDecodeInplace] using hrun

/-! ### The reference -/

lemma firstDigits_le {s : Bytes} {byte : UInt8} (h : firstDigits s = some byte) : first s = some byte := by
  unfold firstDigits at h
  split at h
  · rename_i a b r
    obtain ⟨x, hx, hmap⟩ := Option.bind_eq_some_iff.mp h
    obtain ⟨y, hy, rfl⟩ := Option.map_eq_some_iff.mp hmap
    exact sscanf02x_digits hx hy r
  · cases h

lemma firstDigits_eq_none {a b : UInt8} {r : Bytes} :
    firstDigits (37 :: a :: b :: r) = none ↔ ¬ (IsHex a ∧ IsHex b) := by
  unfold IsHex
  rw [firstDigits]
  cases hexDigit a <;> cases hexDigit b <;> simp

/-- How many blanks a string begins with. -/
def blanks (s : Bytes) : ℕ := (s.takeWhile isSpace).length

/-- A number that is not two digits is the one of `%` only behind blanks. -/
lemma blanks_of_percent {a b : UInt8} {r : Bytes} (h : sscanf02x (a :: b :: r) = some 37)
    (hhex : ¬ (IsHex a ∧ IsHex b)) :
    ∃ w t, w ≠ [] ∧ (∀ u ∈ w, isSpace u = true) ∧ a :: b :: r = w ++ 50 :: 53 :: t := by
  have hsplit := List.takeWhile_append_dropWhile (p := isSpace) (l := a :: b :: r)
  have hspace : ∀ u ∈ (a :: b :: r).takeWhile isSpace, isSpace u = true := fun u hu =>
    List.mem_takeWhile_imp hu
  have hvalue : ∀ n, n % 256 ≠ 37 → UInt8.ofNat n ≠ 37 := by
    intro n hn heq
    have htoNat := congrArg UInt8.toNat heq
    rw [UInt8.toNat_ofNat'] at htoNat
    exact hn htoNat
  unfold sscanf02x at h
  split at h
  · cases h
  · rename_i x hd
    obtain ⟨d, hd, hbyte⟩ := Option.map_eq_some_iff.mp h
    exact absurd hbyte (hvalue d (by have := hexDigit_lt hd; omega))
  · rename_i x y t hd
    split_ifs at h with hplus hminus
    · obtain ⟨d, hd, hbyte⟩ := Option.map_eq_some_iff.mp h
      exact absurd hbyte (hvalue d (by have := hexDigit_lt hd; omega))
    · obtain ⟨d, hd, hbyte⟩ := Option.map_eq_some_iff.mp h
      exact absurd hbyte (hvalue _ (by have := hexDigit_lt hd; omega))
    · split at h
      · cases h
      · rename_i d hx
        have hdlt := hexDigit_lt hx
        split at h
        · rename_i e hy
          have helt := hexDigit_lt hy
          have hde : d = 2 ∧ e = 5 := by
            by_contra hne
            exact hvalue (16 * d + e) (by omega) (Option.some.inj h)
          obtain ⟨rfl, rfl⟩ := hde
          -- the two digits of `%`
          have hx50 : x = 50 := (hexDigit_eq_some_iff (by decide)).mp hx
          have hy53 : y = 53 := (hexDigit_eq_some_iff (by decide)).mp hy
          subst hx50 hy53
          refine ⟨(a :: b :: r).takeWhile isSpace, t, ?_, hspace, ?_⟩
          · intro hnil
            rw [hnil, List.nil_append, hd] at hsplit
            obtain ⟨rfl, hrest⟩ := List.cons.inj hsplit
            obtain ⟨rfl, -⟩ := List.cons.inj hrest
            exact hhex ⟨rfl, rfl⟩
          · rw [← hd, hsplit]
        · exact absurd (Option.some.inj h) (hvalue d (by omega))

lemma decode_append {w : Bytes} (hw : 37 ∉ w) (s : Bytes) :
    urlDecode (w ++ s) = w ++ urlDecode s ∧ percentDecode (w ++ s) = w ++ percentDecode s := by
  induction w with
  | nil => exact ⟨rfl, rfl⟩
  | cons c w ih =>
    have hc : c ≠ 37 := fun h => hw (by simp [h])
    obtain ⟨hurl, hpercent⟩ := ih fun h => hw (by simp [h])
    have hnone : first (c :: (w ++ s)) = none := by
      rw [first]
      intro a b r heq
      exact hc (List.cons.inj heq).1
    have hnone' : firstDigits (c :: (w ++ s)) = none := by
      rw [firstDigits]
      intro a b r heq
      exact hc (List.cons.inj heq).1
    rw [List.cons_append, urlDecode_cons, percentDecode_cons, hnone, hnone', hurl, hpercent]
    exact ⟨rfl, rfl⟩

lemma blanks_decode {w : Bytes} (hw : ∀ u ∈ w, isSpace u = true) {d : UInt8} (hd : IsHex d) (t : Bytes) :
    blanks (urlDecode (w ++ d :: t)) = w.length ∧ blanks (percentDecode (w ++ d :: t)) = w.length := by
  have hcount : ∀ s, blanks (w ++ d :: s) = w.length := by
    intro s
    unfold blanks
    rw [List.takeWhile_append_of_pos hw, List.takeWhile_cons_of_neg (by simp [hd.not_sign.1]), List.append_nil]
  have hplain : 37 ∉ w ++ [d] := by
    intro h37
    rcases List.mem_append.mp h37 with h37 | h37
    · exact absurd (hw 37 h37) (by decide)
    · rw [List.mem_singleton] at h37
      exact absurd (h37 ▸ hd) (by decide)
  obtain ⟨hurl, hpercent⟩ := decode_append hplain t
  rw [List.append_assoc, List.singleton_append, List.append_assoc, List.singleton_append] at hurl hpercent
  rw [hurl, hpercent]
  exact ⟨hcount _, hcount _⟩

/-- Where a number of another form is taken, the reference is missed, whatever follows. -/
lemma ne_of_number {a b byte : UInt8} {r : Bytes} (h : sscanf02x (a :: b :: r) = some byte)
    (hhex : ¬ (IsHex a ∧ IsHex b)) : byte :: urlDecode r ≠ 37 :: percentDecode (a :: b :: r) := by
  intro heq
  obtain ⟨rfl, htail⟩ := List.cons.inj heq
  obtain ⟨w, t, hne, hw, hsplit⟩ := blanks_of_percent h hhex
  -- the reference begins with all the blanks, the loop has lost one or two of them
  have hreference : blanks (percentDecode (a :: b :: r)) = w.length := by
    rw [hsplit]
    exact (blanks_decode hw (d := 50) rfl _).2
  have hloop : blanks (urlDecode r) < w.length := by
    obtain ⟨u, w, rfl⟩ := List.exists_cons_of_ne_nil hne
    cases w with
    | nil =>
      obtain rfl : r = 53 :: t := (List.cons.inj (List.cons.inj hsplit).2).2
      have hnone := (blanks_decode (w := []) (by simp) (d := 53) rfl t).1
      rw [List.nil_append] at hnone
      simp [hnone]
    | cons v w =>
      obtain rfl : r = w ++ 50 :: 53 :: t := (List.cons.inj (List.cons.inj hsplit).2).2
      have hfew := (blanks_decode (w := w) (fun u hu => hw u (by simp [hu])) (d := 50) rfl (53 :: t)).1
      rw [hfew, List.length_cons, List.length_cons]
      omega
  rw [htail, hreference] at hloop
  exact Nat.lt_irrefl _ hloop

lemma clean_cons_iff {c : UInt8} {s : Bytes} :
    Clean (c :: s) ↔
      (∀ a b r, c :: s = 37 :: a :: b :: r → Number (a :: b :: r) → IsHex a ∧ IsHex b) ∧ Clean s := by
  constructor
  · intro h
    exact ⟨fun a b r heq => h a b r (heq ▸ List.suffix_rfl),
      fun a b r hsuffix => h a b r (hsuffix.trans (List.suffix_cons c s))⟩
  · rintro ⟨hhead, htail⟩ a b r hsuffix
    rcases List.suffix_cons_iff.mp hsuffix with heq | hsuffix
    · exact hhead a b r heq.symm
    · exact htail a b r hsuffix

/-- **Where the loop meets the reference.** -/
theorem urlDecode_eq_iff (s : Bytes) : urlDecode s = percentDecode s ↔ Clean s := by
  induction hn : s.length using Nat.strong_induction_on generalizing s with
  | _ n ih =>
    cases s with
    | nil => exact iff_of_true rfl fun a b r h => absurd (List.suffix_nil.mp h) (by simp)
    | cons c s =>
      rw [urlDecode_cons, percentDecode_cons, clean_cons_iff]
      cases hdigits : firstDigits (c :: s) with
      | some byte =>
        have hfirst := firstDigits_le hdigits
        obtain ⟨a, b, r, rfl, rfl, -⟩ := first_eq_some hfirst
        have hhex : IsHex a ∧ IsHex b := by
          by_contra hno
          rw [firstDigits_eq_none.mpr hno] at hdigits
          cases hdigits
        -- digits are no `%`
        have hskip : Clean (a :: b :: r) ↔ Clean r := by
          have hne : ∀ d : UInt8, IsHex d → d ≠ 37 := by
            rintro d hd rfl
            exact absurd hd (by decide)
          rw [clean_cons_iff, clean_cons_iff, ← and_assoc]
          refine and_iff_right ⟨?_, ?_⟩
          · intro a' b' r' heq
            exact absurd (List.cons.inj heq).1 (hne a hhex.1)
          · intro a' b' r' heq
            exact absurd (List.cons.inj heq).1 (hne b hhex.2)
        have hhead : ∀ a' b' r', 37 :: a :: b :: r = 37 :: a' :: b' :: r' → Number (a' :: b' :: r') →
            IsHex a' ∧ IsHex b' := by
          rintro a' b' r' heq -
          obtain ⟨-, rfl, rfl, -⟩ : True ∧ a = a' ∧ b = b' ∧ r = r' := by simpa using heq
          exact hhex
        simp only [hfirst]
        rw [List.cons_inj_right, and_iff_right hhead, hskip]
        exact ih r.length (by simp at hn; omega) r rfl
      | none =>
        have hrest := ih s.length (by simp at hn; omega) s rfl
        cases hfirst : first (c :: s) with
        | some byte =>
          obtain ⟨a, b, r, rfl, rfl, hbyte⟩ := first_eq_some hfirst
          have hno := firstDigits_eq_none.mp hdigits
          have hnumber : Number (a :: b :: r) := (sscanf02x_isSome_iff _).mp (by rw [hbyte]; rfl)
          refine iff_of_false (ne_of_number hbyte hno) ?_
          rintro ⟨hhead, -⟩
          exact hno (hhead a b r rfl hnumber)
        | none =>
          rw [List.cons_inj_right, hrest, and_iff_right]
          intro a b r heq hnumber
          obtain ⟨rfl, rfl⟩ := List.cons.inj heq
          have hsome := (sscanf02x_isSome_iff _).mpr hnumber
          rw [show sscanf02x (a :: b :: r) = none from hfirst] at hsome
          cases hsome

/-- **Percent decoding.** The loop leaves the reference in the buffer exactly if `sscanf` finds no number behind
a `%` but one of two digits. -/
theorem decodes_iff (s : Bytes) (hs : 0 ∉ s) : Decodes s ↔ Clean s := by
  rw [← urlDecode_eq_iff]
  unfold Decodes
  constructor
  · intro h
    have hbuf := h []
    rw [urlDecodeInplace_eq hs] at hbuf
    obtain ⟨hbytes, hlen⟩ := Prod.mk.inj (Option.some.inj hbuf)
    exact (List.append_inj hbytes hlen).1
  · intro h rest
    rw [urlDecodeInplace_eq hs, h]

theorem decodes_blank : Decodes (ascii "a%20b") := (decodes_iff _ (by decide)).mpr (by
  rw [← urlDecode_eq_iff]
  decide)

/-- `%+f` is decoded to a byte. -/
theorem decodes_sign : ¬ Decodes (ascii "%+f") := by
  intro h
  have hbuf := h []
  rw [urlDecodeInplace_eq (by decide)] at hbuf
  exact absurd hbuf (by decide)

end SyncClipboard.UrlDecode
