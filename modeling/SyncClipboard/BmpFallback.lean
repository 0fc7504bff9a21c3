import SyncClipboard.DibLayout

/-!
What `decodeBmpFallback` accepts.

The reader checks that the pixels fit into the file before it makes an array for them, but it has
computed the length of a row and the place of the first one in 32 bits. A file that passes the checks has
all its pixels and is read as it should be, unless one of the two has overflowed (`sound_iff`).
-/

namespace SyncClipboard.DibLayout.Fields

variable (f : Fields)

/-- The length of a row in the file, in whole words of four bytes. -/
def stride : ℤ := 4 * ((f.width * f.bitsPerPixel + 31) / 32)

def srcRow (y : ℕ) : ℤ := if f.topDown then y else f.absHeight - 1 - y

/-- The place of a pixel in the file. -/
def place (x y : ℕ) : ℤ := f.actualOffset + f.srcRow y * f.stride + x * f.bytesPerPixel

/-- The place the loops look at for it. -/
def off (x y : ℕ) : ℤ :=
  int32 (int32 (f.actualOffset + int32 (f.srcRow y * rowStride f.width f.bitsPerPixel)) +
    int32 (x * f.bytesPerPixel))

end SyncClipboard.DibLayout.Fields

namespace SyncClipboard.BmpFallback

open FtAuth (Bytes)
open DibLayout

/-! ### The checks -/

/-- The pixel as it stands in the file. -/
def stored (data : Bytes) (f : Fields) (x y : ℕ) : Color :=
  let i := (f.place x y).toNat
  ⟨if f.bitsPerPixel = 32 then data.getD (i + 3) 0 else 255, data.getD (i + 2) 0, data.getD (i + 1) 0,
    data.getD i 0⟩

/-- The pixel that is meant: an alpha that is zero everywhere is none. -/
def bmpPixel (data : Bytes) (f : Fields) (x y : ℕ) : Color :=
  if ∀ i < f.width, ∀ j < f.absHeight, (stored data f i j).a = 0 then { stored data f x y with a := 255 }
  else stored data f x y

/-- The image is in the file, and the result is this image. -/
structure Exact (data : Bytes) (f : Fields) : Prop where
  nonneg : 0 ≤ f.actualOffset
  fits : f.actualOffset + f.stride * f.absHeight ≤ data.length
  area : f.width * f.absHeight < 2 ^ 31
  /-- No pixel is looked for elsewhere, and the `break` is never taken. -/
  reads : ∀ x < f.width, ∀ y < f.absHeight,
    f.off x y = f.place x y ∧ ¬ (data.length : ℤ) < int32 (f.off x y + f.bytesPerPixel)
  shows : ∃ b, decodeBmpFallback data = some b ∧ b.width = f.width ∧ b.height = f.absHeight ∧
    ∀ x < f.width, ∀ y < f.absHeight, b.getPixel x y = bmpPixel data f x y

/-- A file that passes the checks is what it says. -/
def Sound (data : Bytes) : Prop := ∀ f, checks data = some f → Exact data f

/-- The offset in the header is not negative, or the one that follows from the size of the header is not. -/
def Ahead (data : Bytes) : Prop :=
  0 ≤ readLE32 data 10 ∨ (readLE32 data 30 = 3 ∧ readLE32 data 14 = 40) ∨
    (-14 ≤ readLE32 data 14 ∧ readLE32 data 14 < 2 ^ 31 - 14)

lemma offset_spec (compression headerSize pixelDataOffset : ℤ) (hlt : pixelDataOffset < 2 ^ 31) {off : ℤ}
    (hlo : -2 ^ 31 ≤ headerSize) (hhi : headerSize < 2 ^ 31)
    (hoff : off = if (if compression = 3 ∧ headerSize = 40 then 14 + 40 + 12 else int32 (14 + headerSize)) ≤
      pixelDataOffset then pixelDataOffset
      else if compression = 3 ∧ headerSize = 40 then 14 + 40 + 12 else int32 (14 + headerSize)) :
    off < 2 ^ 31 ∧ (0 ≤ off ↔ 0 ≤ pixelDataOffset ∨ (compression = 3 ∧ headerSize = 40) ∨
      (-14 ≤ headerSize ∧ headerSize < 2 ^ 31 - 14)) := by
  subst hoff
  by_cases h40 : compression = 3 ∧ headerSize = 40
  · simp only [if_pos h40]
    split_ifs <;> omega
  · have hcalc := int32_lt (14 + headerSize)
    have hsign : 0 ≤ int32 (14 + headerSize) ↔ -14 ≤ headerSize ∧ headerSize < 2 ^ 31 - 14 := by
      rw [int32, Int.bmod_def]
      split_ifs <;> omega
    simp only [if_neg h40, or_iff_right h40, ← hsign]
    split_ifs <;> omega

/-- What the checks let through. -/
structure Checked (data : Bytes) (f : Fields) : Prop where
  length_lt : data.length < 2 ^ 31
  width_pos : 1 ≤ f.width
  height_pos : 1 ≤ f.absHeight
  bits : f.bitsPerPixel = 24 ∨ f.bitsPerPixel = 32
  fits : f.actualOffset + rowStride f.width f.bitsPerPixel * f.absHeight ≤ data.length
  offset_lt : f.actualOffset < 2 ^ 31
  offset_nonneg_iff : 0 ≤ f.actualOffset ↔ Ahead data

lemma checks_spec {data : Bytes} {f : Fields} (h : checks data = some f) : Checked data f := by
  unfold checks at h
  dsimp only at h
  have hoffset := offset_spec (readLE32 data 30) (readLE32 data 14) (readLE32 data 10) (int32_lt _) (le_int32 _)
    (int32_lt _) rfl
  rw [← Ahead] at hoffset
  generalize (if (if readLE32 data 30 = 3 ∧ readLE32 data 14 = 40 then 14 + 40 + 12
    else int32 (14 + readLE32 data 14)) ≤ readLE32 data 10 then readLE32 data 10
    else if readLE32 data 30 = 3 ∧ readLE32 data 14 = 40 then 14 + 40 + 12
    else int32 (14 + readLE32 data 14)) = off at h hoffset
  generalize readLE32 data 18 = width at h
  generalize int32 |readLE32 data 22| = absHeight at h
  generalize readLE16 data 28 = bitsPerPixel at h
  split_ifs at h with hlong hshort hmagic hsize hbits hfits
  obtain rfl := Option.some.inj h
  have hw : (width.toNat : ℤ) = width := Int.toNat_of_nonneg (by omega)
  have hh : (absHeight.toNat : ℤ) = absHeight := Int.toNat_of_nonneg (by omega)
  have hpos : 1 ≤ width.toNat ∧ 1 ≤ absHeight.toNat := by omega
  have hbits' : bitsPerPixel = 24 ∨ bitsPerPixel = 32 := by omega
  refine ⟨Nat.lt_of_not_le hlong, hpos.1, hpos.2, hbits', ?_, hoffset.1, hoffset.2⟩
  rw [hw, hh]
  exact Int.not_lt.mp hfits

lemma decode_of_checks {data : Bytes} {f : Fields} (h : checks data = some f) :
    decodeBmpFallback data = readPixels data f.width f.absHeight f.bytesPerPixel
      (rowStride f.width f.bitsPerPixel) f.actualOffset f.topDown := by
  rw [decodeBmpFallback, h, Option.bind_some]

/-! ### The places -/

section Places

variable {data : Bytes} {f : Fields}

lemma Checked.bytes (hc : Checked data f) : f.bytesPerPixel = 3 ∨ f.bytesPerPixel = 4 := by
  unfold Fields.bytesPerPixel
  rcases hc.bits with h | h <;> rw [h] <;> decide

lemma Checked.row_le (hc : Checked data f) : f.width * f.bytesPerPixel ≤ f.stride := by
  unfold Fields.bytesPerPixel Fields.stride
  rcases hc.bits with h | h <;> rw [h] <;> omega

lemma Checked.width_le (hc : Checked data f) : (f.width : ℤ) ≤ f.stride := by
  have hrow := hc.row_le
  rcases hc.bytes with hb | hb <;> rw [hb] at hrow <;> omega

/-- The rows are counted as they are, or there is only one. -/
def Counted (data : Bytes) (f : Fields) : Prop :=
  0 ≤ f.actualOffset ∧ f.actualOffset + f.stride * f.absHeight ≤ data.length ∧
    (rowStride f.width f.bitsPerPixel = f.stride ∨ f.absHeight = 1)

lemma srcRow_bounds {y : ℕ} (hy : y < f.absHeight) : 0 ≤ f.srcRow y ∧ f.srcRow y + 1 ≤ f.absHeight := by
  unfold Fields.srcRow
  split_ifs <;> omega

/-- **A row** begins where it should, and ends in the file. -/
lemma rowStart_exact (hc : Checked data f) (h : Counted data f) {y : ℕ} (hy : y < f.absHeight) :
    int32 (f.actualOffset + int32 (f.srcRow y * rowStride f.width f.bitsPerPixel)) =
      f.actualOffset + f.srcRow y * f.stride ∧
      0 ≤ f.srcRow y * f.stride ∧ f.actualOffset + f.srcRow y * f.stride + f.stride ≤ data.length := by
  obtain ⟨hoff, hfits, hrows⟩ := h
  have hlen := hc.length_lt
  obtain ⟨hsrc, hsrc'⟩ := srcRow_bounds hy
  have hstride : 0 ≤ f.stride := by
    have hw := hc.width_le
    omega
  have hpos : 0 ≤ f.srcRow y * f.stride := Int.mul_nonneg hsrc hstride
  have hend : f.srcRow y * f.stride + f.stride ≤ f.stride * f.absHeight := by
    have hle := Int.mul_le_mul_of_nonneg_right hsrc' hstride
    rw [Int.add_mul, Int.one_mul, Int.mul_comm f.absHeight] at hle
    exact hle
  have hcount : f.srcRow y * rowStride f.width f.bitsPerPixel = f.srcRow y * f.stride := by
    rcases hrows with heq | hone
    · rw [heq]
    · obtain hzero : f.srcRow y = 0 := by omega
      rw [hzero, Int.zero_mul, Int.zero_mul]
  rw [hcount, int32_eq (n := f.srcRow y * f.stride) (by omega) (by omega), int32_eq (by omega) (by omega)]
  exact ⟨rfl, hpos, by omega⟩

/-- **A pixel** is looked for where it is, and the `break` is not taken. -/
lemma off_exact (hc : Checked data f) (h : Counted data f) {x y : ℕ} (hx : x < f.width) (hy : y < f.absHeight) :
    f.off x y = f.place x y ∧ 0 ≤ f.place x y ∧ f.place x y + f.bytesPerPixel ≤ data.length := by
  obtain ⟨hstart, hpos, hend⟩ := rowStart_exact hc h hy
  have hlen := hc.length_lt
  have hoff := h.1
  have hrow := hc.row_le
  unfold Fields.off Fields.place
  rw [hstart]
  rcases hc.bytes with hb | hb <;> rw [hb] at hrow ⊢
  all_goals
    rw [int32_eq (n := (x : ℤ) * _) (by omega) (by omega), int32_eq (by omega) (by omega)]
    omega

lemma Counted.area (hc : Checked data f) (h : Counted data f) : f.width * f.absHeight < 2 ^ 31 := by
  obtain ⟨hoff, hfits, -⟩ := h
  have hlen := hc.length_lt
  have hle : (f.width : ℤ) * f.absHeight ≤ f.stride * f.absHeight :=
    Int.mul_le_mul_of_nonneg_right hc.width_le (by omega)
  rw [← Nat.cast_mul] at hle
  omega

end Places

/-! ### The pixels -/

section Pixels

variable {data : Bytes} {f : Fields}

lemma get_eq {i : ℤ} (h₀ : 0 ≤ i) (h : i < data.length) (k : ℕ) (hk : i.toNat = k) :
    get data i = some (data.getD k 0) := by
  have hlt : k < data.length := by omega
  rw [DibLayout.get, if_pos h₀, hk, List.getElem?_eq_getElem hlt, List.getD_eq_getElem _ _ hlt]

lemma readColor_stored (hc : Checked data f) (h : Counted data f) {x y : ℕ} (hx : x < f.width)
    (hy : y < f.absHeight) : readColor data f.bytesPerPixel (f.place x y) = some (stored data f x y) := by
  obtain ⟨-, hpos, hend⟩ := off_exact hc h hx hy
  unfold readColor stored
  have hbpp : f.bytesPerPixel = 4 ↔ f.bitsPerPixel = 32 := by
    unfold Fields.bytesPerPixel
    rcases hc.bits with hb | hb <;> rw [hb] <;> decide
  dsimp only
  generalize f.place x y = i at *
  have hlt : i + 2 < data.length := by
    rcases hc.bytes with hb | hb <;> omega
  rw [get_eq hpos (by omega) i.toNat rfl, get_eq (by omega) (by omega) (i.toNat + 1) (by omega),
    get_eq (by omega) hlt (i.toNat + 2) (by omega)]
  by_cases hb : f.bytesPerPixel = 4
  · rw [if_pos hb, if_pos (hbpp.mp hb), get_eq (by omega) (by omega) (i.toNat + 3) (by omega)]
    rfl
  · rw [if_neg hb, if_neg fun h32 => hb (hbpp.mpr h32)]
    rfl

/-- The pixels of the file, row by row from the top. -/
def colors (data : Bytes) (f : Fields) : List Color :=
  (List.range f.absHeight).flatMap fun y => (List.range f.width).map fun x => stored data f x y

lemma getElem?_colors {x y : ℕ} (hx : x < f.width) (hy : y < f.absHeight) :
    (colors data f)[y * f.width + x]? = some (stored data f x y) := by
  rw [colors, getElem?_flatMap_range (k := f.width) (by intro; simp) hy hx]
  simp [hx]

lemma any_colors_eq_false_iff :
    ((colors data f).any fun c => decide (c.a ≠ 0)) = false ↔
      ∀ x < f.width, ∀ y < f.absHeight, (stored data f x y).a = 0 := by
  rw [List.any_eq_false]
  constructor
  · intro h x hx y hy
    have hmem := List.mem_of_getElem? (@getElem?_colors data f x y hx hy)
    simpa using h _ hmem
  · intro h c hmem
    obtain ⟨y, hy, hmem⟩ := List.mem_flatMap.mp hmem
    obtain ⟨x, hx, rfl⟩ := List.mem_map.mp hmem
    simpa using h x (List.mem_range.mp hx) y (List.mem_range.mp hy)

lemma readPixels_colors (hc : Checked data f) (h : Counted data f) :
    readPixels data f.width f.absHeight f.bytesPerPixel (rowStride f.width f.bitsPerPixel) f.actualOffset
      f.topDown =
      some ⟨f.width, f.absHeight,
        if f.bytesPerPixel = 4 ∧ ((colors data f).any fun c => decide (c.a ≠ 0)) = false then
          (colors data f).map fun c => { c with a := c.a ||| 0xFF }
        else colors data f⟩ := by
  have harea : int32 ((f.width : ℤ) * f.absHeight) = (f.width : ℤ) * f.absHeight := by
    have hlt := h.area hc
    rw [← Nat.cast_mul]
    exact int32_eq (by omega) (by omega)
  have hrow : ∀ y ∈ List.range f.absHeight,
      readRow data f.bytesPerPixel
        (int32 (f.actualOffset + int32 ((if f.topDown then (y : ℤ) else f.absHeight - 1 - y) *
          rowStride f.width f.bitsPerPixel))) 0 f.width =
        some ((List.range f.width).map fun x => stored data f x y) := by
    intro y hy
    have hy := List.mem_range.mp hy
    obtain ⟨hstart, hpos, hend⟩ := rowStart_exact hc h hy
    have hrowLe := hc.row_le
    have hoff := h.1
    rw [show (if f.topDown then (y : ℤ) else f.absHeight - 1 - y) = f.srcRow y from rfl, hstart,
      List.range_eq_range']
    refine readRow_eq hc.bytes (by omega) hc.length_lt ?_ ?_
    · rw [Nat.zero_add, Int.mul_comm f.bytesPerPixel]
      omega
    · intro i hi
      rw [Int.mul_comm f.bytesPerPixel]
      exact readColor_stored hc h (by omega) hy
  rw [readPixels, if_neg (not_not.mpr harea)]
  simp only [Int.toNat_natCast]
  rw [mapM_some hrow, Option.map_some, ← List.flatMap_def]
  rfl

/-- **What is read is the image of the file.** -/
lemma Counted.exact (hf : checks data = some f) (h : Counted data f) : Exact data f := by
  have hc := checks_spec hf
  refine ⟨h.1, h.2.1, h.area hc, fun x hx y hy => ?_, _, (decode_of_checks hf).trans (readPixels_colors hc h),
    rfl, rfl, fun x hx y hy => ?_⟩
  · obtain ⟨heq, hpos, hend⟩ := off_exact hc h hx hy
    have hlen := hc.length_lt
    have hbytes := hc.bytes
    rw [heq, int32_eq (by omega) (by omega)]
    exact ⟨rfl, by omega⟩
  · have hbpp : f.bytesPerPixel = 4 ∨ f.bytesPerPixel ≠ 4 ∧ ∀ i j, (stored data f i j).a = 255 := by
      unfold Fields.bytesPerPixel stored
      rcases hc.bits with hb | hb <;> simp [hb]
    rw [Bitmap.getPixel, bmpPixel, List.getD_eq_getElem?_getD]
    dsimp only
    rcases hbpp with hbpp | ⟨hbpp, halpha⟩
    · simp only [hbpp, true_and, any_colors_eq_false_iff]
      split_ifs with hall
      · rw [List.getElem?_map, getElem?_colors hx hy]
        simp only [Option.map_some, Option.getD_some, hall x hx y hy]
        rfl
      · rw [getElem?_colors hx hy]
        rfl
    · have hnot : ¬ ∀ i < f.width, ∀ j < f.absHeight, (stored data f i j).a = 0 := fun hall => by
        have hzero := hall x hx y hy
        rw [halpha] at hzero
        exact absurd hzero (by decide)
      rw [if_neg fun hb => hbpp hb.1, if_neg hnot, getElem?_colors hx hy]
      rfl

end Pixels

/-- **What the checks are worth.** A file that passes them is read as it is exactly if its pixels do not begin
before the file, and the bits of a row can be counted or there is only one row, which is there. -/
theorem sound_iff (data : Bytes) :
    Sound data ↔ ∀ f, checks data = some f →
      Ahead data ∧ (f.width * f.bitsPerPixel + 31 < 2 ^ 31 ∨
        f.absHeight = 1 ∧ f.actualOffset + 4 * ((f.width * f.bitsPerPixel + 31) / 32) ≤ data.length) := by
  refine forall_congr' fun f => imp_congr_right fun hf => ?_
  have hc := checks_spec hf
  have hlen := hc.length_lt
  have hh := hc.height_pos
  have hcount : 0 ≤ (f.width : ℤ) * f.bitsPerPixel := by
    rcases hc.bits with hb | hb <;> rw [hb] <;> omega
  rw [← hc.offset_nonneg_iff]
  constructor
  · intro h
    refine ⟨h.nonneg, or_iff_not_imp_left.mpr fun hlong => ?_⟩
    have hstride : f.stride = 4 * ((f.width * f.bitsPerPixel + 31) / 32) := rfl
    by_cases hone : f.absHeight = 1
    · have hfits := h.fits
      rw [hone, Nat.cast_one, Int.mul_one] at hfits
      exact ⟨hone, hfits⟩
    · -- the second row of the file is looked for elsewhere
      obtain ⟨y, hy, hsrc⟩ : ∃ y < f.absHeight, f.srcRow y = 1 := by
        unfold Fields.srcRow
        cases f.topDown
        · exact ⟨f.absHeight - 2, by omega, by simp; omega⟩
        · exact ⟨1, by omega, by simp⟩
      obtain ⟨q, hq, -, hlo, hhi⟩ := rowStride_words hcount
      have hoff := (h.reads 0 (by have := hc.width_pos; omega) y hy).1
      have hnonneg := h.nonneg
      have hlt := hc.offset_lt
      have hfits := h.fits
      have hle : f.stride * 2 ≤ f.stride * f.absHeight := Int.mul_le_mul_of_nonneg_left (by omega) (by omega)
      unfold Fields.off Fields.place at hoff
      rw [hsrc, Int.one_mul, Int.one_mul, Nat.cast_zero, Int.zero_mul, Int.add_zero,
        int32_eq (n := rowStride f.width f.bitsPerPixel) (by omega) (by omega),
        int32_eq (n := f.actualOffset + rowStride f.width f.bitsPerPixel) (by omega) (by omega),
        show int32 0 = 0 from rfl, Int.add_zero, int32_eq (by omega) (by omega)] at hoff
      omega
  · rintro ⟨hnonneg, hrows⟩
    refine Counted.exact hf ⟨hnonneg, ?_⟩
    rcases hrows with hshort | ⟨hone, hfits⟩
    · have heq : rowStride f.width f.bitsPerPixel = f.stride := rowStride_exact hcount hshort
      exact ⟨heq ▸ hc.fits, Or.inl heq⟩
    · refine ⟨?_, Or.inr hone⟩
      rw [hone, Nat.cast_one, Int.mul_one]
      exact hfits

/-- A file without any pixels, whose header tells of one row of 2 ^ 27 pixels. -/
def emptyFile : Bytes := fileHeader 54 ++ bitmapInfoHeader (2 ^ 27) 1

theorem accepts_empty : ¬ Sound emptyFile := by
  intro h
  have hchecks : checks emptyFile = some ⟨2 ^ 27, 1, 32, 54, false⟩ := by decide +kernel
  have hfits := (h _ hchecks).fits
  exact absurd hfits (by decide +kernel)

end SyncClipboard.BmpFallback
