import Mathlib.Data.Int.Basic
import Mathlib.Data.List.GetD
import Mathlib.Tactic.Ring
import SyncClipboard.FtAuth

/-!
An image on its way from the Windows clipboard to an Android bitmap.

Windows puts the pixels of a PNG on the clipboard as a device-independent bitmap, with the rows from
the bottom up and the channels in reverse order, and later makes a BMP file of what it finds there.
Android reads such a file by hand when its own decoder gives up. The two agree on every file that fits
into an array (`bitmap_of_dib`). By itself the reader would lose its way in rows of 2 ^ 26 pixels or
more, whose length in bits overflows (`reads_iff`), but the decoder of PNG files takes no such image.
-/

namespace SyncClipboard.DibLayout

open FtAuth (Bytes)

/-! ### Blocks of one length -/

section Blocks

variable {α : Type*} {f : ℕ → List α} {k : ℕ}

lemma length_flatMap_range (hf : ∀ i, (f i).length = k) (n : ℕ) :
    ((List.range n).flatMap f).length = n * k := by
  induction n with
  | zero => simp
  | succ n ih =>
    rw [List.range_succ, List.flatMap_append, List.length_append, ih, List.flatMap_singleton, hf,
      Nat.succ_mul]

lemma getElem?_flatMap_range (hf : ∀ i, (f i).length = k) {n i j : ℕ} (hi : i < n) (hj : j < k) :
    ((List.range n).flatMap f)[i * k + j]? = (f i)[j]? := by
  induction n with
  | zero => omega
  | succ n ih =>
    rw [List.range_succ, List.flatMap_append, List.flatMap_singleton]
    have hlen := length_flatMap_range hf n
    rcases Nat.lt_or_ge i n with hin | hin
    · have hle : (i + 1) * k ≤ n * k := Nat.mul_le_mul_right k hin
      rw [Nat.succ_mul] at hle
      rw [List.getElem?_append_left (by omega), ih hin]
    · obtain rfl : i = n := by omega
      rw [List.getElem?_append_right (by omega), hlen, Nat.add_sub_cancel_left]

lemma mapM_some {β : Type*} {f : α → Option β} {g : α → β} {l : List α}
    (h : ∀ a ∈ l, f a = some (g a)) : l.mapM f = some (l.map g) := by
  induction l with
  | nil => rfl
  | cons a l ih =>
    rw [List.mapM_cons, h a (by simp), ih fun b hb => h b (by simp [hb])]
    rfl

end Blocks

/-! ### Windows -/

/-- A `DWORD` or `LONG`, and a `WORD`. -/
def le32 (n : ℕ) : Bytes :=
  [UInt8.ofNat n, UInt8.ofNat (n / 2 ^ 8), UInt8.ofNat (n / 2 ^ 16), UInt8.ofNat (n / 2 ^ 24)]

def le16 (n : ℕ) : Bytes := [UInt8.ofNat n, UInt8.ofNat (n / 2 ^ 8)]

/-- Bytes from an offset on, as a number. -/
def field (len : ℕ) (data : Bytes) (off : ℕ) : ℕ :=
  ((List.range len).map fun i => 2 ^ (8 * i) * (data.getD (off + i) 0).toNat).sum

structure Color where
  a : UInt8
  r : UInt8
  g : UInt8
  b : UInt8
  deriving DecidableEq

/-- The result of `stbi_load_from_memory` with four channels. -/
structure Image where
  width : ℕ
  height : ℕ
  pixels : Bytes
  length_pixels : pixels.length = 4 * width * height

def Image.byte (img : Image) (i : ℕ) : UInt8 := img.pixels.getD i 0

def Image.pixel (img : Image) (x y : ℕ) : Color :=
  let i := (y * img.width + x) * 4
  ⟨img.byte (i + 3), img.byte i, img.byte (i + 1), img.byte (i + 2)⟩

/-- A `BITMAPINFOHEADER` for four bytes a pixel, without compression. -/
def bitmapInfoHeader (w h : ℕ) : Bytes :=
  le32 40 ++ le32 w ++ le32 h ++ le16 1 ++ le16 32 ++ le32 0 ++ le32 (4 * w * h) ++ le32 0 ++ le32 0 ++
    le32 0 ++ le32 0

/-- A row of the bitmap, taken from the row of the image that starts at `srcRow`. -/
def dibRow (img : Image) (srcRow : ℕ) : Bytes :=
  (List.range img.width).flatMap fun x =>
    [img.byte (srcRow + (x * 4 + 2)), img.byte (srcRow + (x * 4 + 1)), img.byte (srcRow + x * 4),
      img.byte (srcRow + (x * 4 + 3))]

def dibPixels (img : Image) : Bytes :=
  (List.range img.height).flatMap fun y => dibRow img ((img.height - 1 - y) * (4 * img.width))

/-- `png_to_dib`, with the decoder of PNG files. -/
def pngToDib (stbi : Bytes → Option Image) (png : Bytes) : Option Bytes :=
  (stbi png).map fun img => bitmapInfoHeader img.width img.height ++ dibPixels img

/-- `clipboard_get_image`, for the bytes on the clipboard. -/
def clipboardGetImage (dib : Bytes) : Bytes :=
  let dibSize := dib.length % 2 ^ 32
  let biSize := field 4 dib 0
  let biBitCount := field 2 dib 14
  let biCompression := field 4 dib 16
  let offBits := 14 + biSize +
    if biBitCount ≤ 8 then 2 ^ biBitCount * 4
    else if biCompression = 3 ∧ biSize = 40 then 12
    else 0
  [0x42, 0x4D] ++ le32 (14 + dibSize) ++ le16 0 ++ le16 0 ++ le32 offBits ++ dib.take dibSize

/-! ### Android -/

/-- An `Int`. -/
def int32 (n : ℤ) : ℤ := n.bmod (2 ^ 32)

def readLE16 (data : Bytes) (off : ℕ) : ℤ := field 2 data off

def readLE32 (data : Bytes) (off : ℕ) : ℤ := int32 (field 4 data off)

/-- An access that may throw. -/
def get (data : Bytes) (i : ℤ) : Option UInt8 := if 0 ≤ i then data[i.toNat]? else none

def readColor (data : Bytes) (bytesPerPixel off : ℤ) : Option Color :=
  (get data off).bind fun b =>
  (get data (off + 1)).bind fun g =>
  (get data (off + 2)).bind fun r =>
  (if bytesPerPixel = 4 then get data (off + 3) else some 255).map fun a => ⟨a, r, g, b⟩

/-- `n` pixels of a row from `x` on. The array keeps its zeros after a `break`. -/
def readRow (data : Bytes) (bytesPerPixel rowStart : ℤ) (x : ℕ) : ℕ → Option (List Color)
  | 0 => some []
  | n + 1 =>
    let off := int32 (rowStart + int32 (x * bytesPerPixel))
    if data.length < int32 (off + bytesPerPixel) then some (List.replicate (n + 1) ⟨0, 0, 0, 0⟩)
    else (readColor data bytesPerPixel off).bind fun c =>
      (readRow data bytesPerPixel rowStart (x + 1) n).map fun cs => c :: cs

/-- What is given to `setPixels`. -/
structure Bitmap where
  width : ℕ
  height : ℕ
  pixels : List Color

def Bitmap.getPixel (b : Bitmap) (x y : ℕ) : Color := b.pixels.getD (y * b.width + x) ⟨0, 0, 0, 0⟩

def rowStride (width bitsPerPixel : ℤ) : ℤ :=
  int32 ((int32 (int32 (width * bitsPerPixel) + 31)).tdiv 32 * 4)

/-- The loops over the rows and pixels, and the look for an alpha. -/
def readPixels (data : Bytes) (width absHeight bytesPerPixel rowStride actualOffset : ℤ)
    (topDown : Bool) : Option Bitmap :=
  -- the array would be of another size, and a write or `setPixels` would throw
  if int32 (width * absHeight) ≠ width * absHeight then none
  else ((List.range absHeight.toNat).mapM fun (y : ℕ) =>
      let srcRow : ℤ := if topDown then y else absHeight - 1 - y
      readRow data bytesPerPixel (int32 (actualOffset + int32 (srcRow * rowStride))) 0
        width.toNat).map fun rows =>
    let pixels := rows.flatten
    let hasNonZeroAlpha := pixels.any fun c => decide (c.a ≠ 0)
    ⟨width.toNat, absHeight.toNat,
      if bytesPerPixel = 4 ∧ hasNonZeroAlpha = false then pixels.map fun c => { c with a := c.a ||| 0xFF }
      else pixels⟩

/-- What is known of a file after the checks. -/
structure Fields where
  width : ℕ
  absHeight : ℕ
  bitsPerPixel : ℤ
  actualOffset : ℤ
  topDown : Bool
  deriving DecidableEq

def Fields.bytesPerPixel (f : Fields) : ℤ := f.bitsPerPixel / 8

/-- `decodeBmpFallback` up to the loops. -/
def checks (data : Bytes) : Option Fields :=
  -- `readBytes` has no array for such a file
  if 2 ^ 31 ≤ data.length then none
  else if data.length < 54 then none
  else if data.getD 0 0 ≠ 0x42 ∨ data.getD 1 0 ≠ 0x4D then none
  else
    let pixelDataOffset := readLE32 data 10
    let headerSize := readLE32 data 14
    let width := readLE32 data 18
    let rawHeight := readLE32 data 22
    let bitsPerPixel := readLE16 data 28
    let compression := readLE32 data 30
    let absHeight := int32 |rawHeight|
    if width ≤ 0 ∨ absHeight ≤ 0 then none
    else if bitsPerPixel ≠ 24 ∧ bitsPerPixel ≠ 32 then none
    else
      let calcOffset := if compression = 3 ∧ headerSize = 40 then 14 + 40 + 12 else int32 (14 + headerSize)
      let actualOffset := if calcOffset ≤ pixelDataOffset then pixelDataOffset else calcOffset
      if data.length < actualOffset + rowStride width bitsPerPixel * absHeight then none
      else some ⟨width.toNat, absHeight.toNat, bitsPerPixel, actualOffset, decide (rawHeight < 0)⟩

/-- `null` is returned for a file that is not understood, and after an exception. -/
def decodeBmpFallback (data : Bytes) : Option Bitmap :=
  (checks data).bind fun f =>
    readPixels data f.width f.absHeight f.bytesPerPixel (rowStride f.width f.bitsPerPixel) f.actualOffset f.topDown

/-! ### Numbers -/

lemma int32_eq {n : ℤ} (h₁ : -2 ^ 31 ≤ n) (h₂ : n < 2 ^ 31) : int32 n = n :=
  Int.bmod_eq_of_le (by omega) (by omega)

lemma int32_lt (n : ℤ) : int32 n < 2 ^ 31 := by
  have h := @Int.bmod_lt n (2 ^ 32) (by decide)
  unfold int32
  omega

lemma le_int32 (n : ℤ) : -2 ^ 31 ≤ int32 n := @Int.le_bmod n (2 ^ 32) (by decide)

lemma field_append (len : ℕ) (pre data : Bytes) :
    field len (pre ++ data) pre.length = field len data 0 := by
  simp [field, List.getElem?_append_right]

/-- A field of the headers, with what stands before and after it. -/
lemma field_at {len off : ℕ} {data pre post : Bytes} (hoff : pre.length = off)
    (hdata : data = pre ++ post) : field len data off = field len post 0 := by
  rw [hdata, ← hoff]
  exact field_append len pre post

lemma field_le32 {n : ℕ} (h : n < 2 ^ 32) (post : Bytes) : field 4 (le32 n ++ post) 0 = n := by
  simp only [field, le32, List.range_succ, List.range_zero]
  simp
  omega

lemma field_le16 {n : ℕ} (h : n < 2 ^ 16) (post : Bytes) : field 2 (le16 n ++ post) 0 = n := by
  simp only [field, le16, List.range_succ, List.range_zero]
  simp
  omega

lemma int32_le {n : ℤ} (h : 0 ≤ n) : int32 n ≤ n := by
  rw [int32, Int.bmod_def]
  split_ifs <;> omega

section Rows

variable {w p : ℤ}

lemma rowStride_words (h : 0 ≤ w * p) :
    ∃ q, rowStride w p = 4 * q ∧ 32 * q ≤ w * p + 31 ∧ -2 ^ 26 ≤ q ∧ q < 2 ^ 26 := by
  have hadd : int32 (int32 (w * p) + 31) = int32 (w * p + 31) := Int.bmod_add_bmod
  have hlo := le_int32 (w * p + 31)
  have hhi := int32_lt (w * p + 31)
  have hle := @int32_le (w * p + 31) (by omega)
  rw [rowStride, hadd]
  generalize int32 (w * p + 31) = v at hlo hhi hle ⊢
  have hdiv : v / 32 ≤ v.tdiv 32 ∧ v.tdiv 32 ≤ v / 32 + 1 ∧ (0 ≤ v → v.tdiv 32 = v / 32) := by
    rw [Int.tdiv_eq_ediv, show Int.sign 32 = 1 from rfl]
    split_ifs <;> omega
  have hneg : v < 0 → v.tdiv 32 ≤ 0 := fun hv => by omega
  refine ⟨v.tdiv 32, ?_, by omega, by omega, by omega⟩
  rw [int32_eq (by omega) (by omega), Int.mul_comm]

/-- The words of a row, as long as its bits can be counted. -/
lemma rowStride_exact (h₀ : 0 ≤ w * p) (h : w * p + 31 < 2 ^ 31) : rowStride w p = 4 * ((w * p + 31) / 32) := by
  have hdiv : (w * p + 31).tdiv 32 = (w * p + 31) / 32 := Int.tdiv_eq_ediv_of_nonneg (by omega)
  rw [rowStride, int32_eq (n := w * p) (by omega) (by omega), int32_eq (n := w * p + 31) (by omega) (by omega),
    hdiv, int32_eq (by omega) (by omega), Int.mul_comm]

lemma rowStride_eq (h₁ : 0 ≤ w) (h₂ : w < 2 ^ 26) : rowStride w 32 = 4 * w := by
  rw [rowStride_exact (by omega) (by omega)]
  omega

/-- Of 32 bits a pixel, where the bits of the row may be too many to count. -/
lemma rowStride_count (h : 0 ≤ w) : ∃ q, rowStride w 32 = 4 * q ∧ q ≤ w ∧ -2 ^ 26 ≤ q ∧ q < 2 ^ 26 := by
  obtain ⟨q, hq, hle, hlo, hhi⟩ := @rowStride_words w 32 (by omega)
  exact ⟨q, hq, by omega, hlo, hhi⟩

end Rows

/-! ### The file -/

def fileHeader (total : ℕ) : Bytes := [0x42, 0x4D] ++ le32 total ++ le16 0 ++ le16 0 ++ le32 54

section File

variable {w h : ℕ} {rest : Bytes}

/-- The pixels of a bitmap begin after the two headers. -/
lemma clipboardGetImage_eq (hsize : 40 + rest.length < 2 ^ 32) :
    clipboardGetImage (bitmapInfoHeader w h ++ rest) =
      fileHeader (54 + rest.length) ++ bitmapInfoHeader w h ++ rest := by
  have hlen : (bitmapInfoHeader w h ++ rest).length = 40 + rest.length := by
    rw [List.length_append]
    rfl
  have hdib : bitmapInfoHeader w h ++ rest = bitmapInfoHeader w h ++ rest := rfl
  nth_rewrite 2 [bitmapInfoHeader] at hdib
  simp only [List.append_assoc] at hdib
  have hbiSize : field 4 (bitmapInfoHeader w h ++ rest) 0 = 40 := by
    rw [hdib]
    exact field_le32 (by decide) _
  have hbits : field 2 (bitmapInfoHeader w h ++ rest) 14 = 32 :=
    (@field_at _ _ _ (le32 40 ++ le32 w ++ le32 h ++ le16 1) _ rfl
      (by simpa only [List.append_assoc] using hdib)).trans (field_le16 (by decide) _)
  have hcompression : field 4 (bitmapInfoHeader w h ++ rest) 16 = 0 :=
    (@field_at _ _ _ (le32 40 ++ le32 w ++ le32 h ++ le16 1 ++ le16 32) _ rfl
      (by simpa only [List.append_assoc] using hdib)).trans (field_le32 (by decide) _)
  have htake : (bitmapInfoHeader w h ++ rest).take (40 + rest.length) =
      bitmapInfoHeader w h ++ rest := by
    rw [← hlen, List.take_length]
  simp only [clipboardGetImage, hlen, Nat.mod_eq_of_lt hsize, hbiSize, hbits, hcompression, htake]
  rw [fileHeader, ← Nat.add_assoc]
  simp

lemma readLE32_at {n off : ℕ} {data pre post : Bytes} (hn : n < 2 ^ 31) (hoff : pre.length = off)
    (hdata : data = pre ++ (le32 n ++ post)) : readLE32 data off = n := by
  rw [readLE32, field_at hoff hdata, field_le32 (by omega)]
  exact int32_eq (by omega) (by omega)

lemma headers_eq (total : ℕ) (hw : w < 2 ^ 31) (hh : h < 2 ^ 31) {data : Bytes}
    (hdata : data = fileHeader total ++ bitmapInfoHeader w h ++ rest) :
    readLE32 data 10 = 54 ∧ readLE32 data 14 = 40 ∧ readLE32 data 18 = w ∧ readLE32 data 22 = h ∧
      readLE16 data 28 = 32 ∧ readLE32 data 30 = 0 := by
  simp only [fileHeader, bitmapInfoHeader, List.append_assoc] at hdata
  refine ⟨?_, ?_, ?_, ?_, ?_, ?_⟩
  · exact @readLE32_at 54 _ _ ([0x42, 0x4D] ++ le32 total ++ le16 0 ++ le16 0) _ (by decide) rfl
      (by simpa only [List.append_assoc] using hdata)
  · exact @readLE32_at 40 _ _ (fileHeader total) _ (by decide) rfl
      (by simpa only [fileHeader, List.append_assoc] using hdata)
  · exact @readLE32_at w _ _ (fileHeader total ++ le32 40) _ hw rfl
      (by simpa only [fileHeader, List.append_assoc] using hdata)
  · exact @readLE32_at h _ _ (fileHeader total ++ le32 40 ++ le32 w) _ hh rfl
      (by simpa only [fileHeader, List.append_assoc] using hdata)
  · have hfield := @field_at 2 28 data (fileHeader total ++ le32 40 ++ le32 w ++ le32 h ++ le16 1) _ rfl
      (by simpa only [fileHeader, List.append_assoc] using hdata)
    rw [readLE16, hfield, field_le16 (by decide)]
    rfl
  · exact @readLE32_at 0 _ _
      (fileHeader total ++ le32 40 ++ le32 w ++ le32 h ++ le16 1 ++ le16 32) _ (by decide) rfl
      (by simpa only [fileHeader, List.append_assoc] using hdata)

lemma checks_eq (total : ℕ) (hw : 1 ≤ w) (hh : 1 ≤ h) (hwb : w < 2 ^ 31) (hhb : h < 2 ^ 31)
    (hsize : 54 + rest.length < 2 ^ 31) {data : Bytes}
    (hdata : data = fileHeader total ++ bitmapInfoHeader w h ++ rest) :
    checks data =
      if (54 + rest.length : ℤ) < 54 + rowStride w 32 * h then none else some ⟨w, h, 32, 54, false⟩ := by
  obtain ⟨hoffset, hheader, hwidth, hheight, hbits, hcompression⟩ := headers_eq total hwb hhb hdata
  have hlen : data.length = 54 + rest.length := by
    rw [hdata, List.length_append]
    rfl
  have hmagic : data.getD 0 0 = 0x42 ∧ data.getD 1 0 = 0x4D := by
    rw [hdata]
    exact ⟨rfl, rfl⟩
  have habs : int32 |(h : ℤ)| = h := by
    rw [abs_of_nonneg (by omega)]
    exact int32_eq (by omega) (by omega)
  rw [checks, if_neg (by omega), if_neg (by omega),
    if_neg (not_or.mpr ⟨not_not.mpr hmagic.1, not_not.mpr hmagic.2⟩)]
  simp only [hoffset, hheader, hwidth, hheight, hbits, hcompression, habs, hlen]
  rw [if_neg (by omega), if_neg (by omega)]
  have hcompressed : ¬ ((0 : ℤ) = 3 ∧ True) := by decide
  have hcalc : int32 (14 + 40) = 54 := rfl
  have hsign : decide ((h : ℤ) < 0) = false := by simp
  simp only [if_neg hcompressed, hcalc, le_refl, if_true, hsign, Nat.cast_add, Nat.cast_ofNat, Int.toNat_natCast]

end File

/-! ### The pixels -/

section Pixels

variable {data : Bytes} {hdr body pad : Bytes} {img : Image}

lemma get_append (hhdr : hdr.length = 54) (i : ℕ) : get (hdr ++ body) (54 + i) = body[i]? := by
  rw [get, if_pos (by omega), show ((54 : ℤ) + i).toNat = 54 + i by omega,
    List.getElem?_append_right (by omega), hhdr, Nat.add_sub_cancel_left]

lemma length_dibRow (srcRow : ℕ) : (dibRow img srcRow).length = 4 * img.width := by
  rw [dibRow, length_flatMap_range (k := 4) (by intro; rfl), Nat.mul_comm]

lemma length_dibPixels : (dibPixels img).length = 4 * img.width * img.height := by
  rw [dibPixels, length_flatMap_range fun _ => length_dibRow _, Nat.mul_comm]

/-- A byte of a pixel in a row of the bitmap, counted from below. -/
lemma getElem?_dibPixels {s x c : ℕ} (hs : s < img.height) (hx : x < img.width) (hc : c < 4) :
    (dibPixels img ++ pad)[s * (4 * img.width) + (x * 4 + c)]? =
      ([(img.pixel x (img.height - 1 - s)).b, (img.pixel x (img.height - 1 - s)).g,
        (img.pixel x (img.height - 1 - s)).r, (img.pixel x (img.height - 1 - s)).a] : Bytes)[c]? := by
  have hj : x * 4 + c < 4 * img.width := by omega
  have hlt : s * (4 * img.width) + (x * 4 + c) < (dibPixels img).length := by
    have hle : (s + 1) * (4 * img.width) ≤ img.height * (4 * img.width) :=
      Nat.mul_le_mul_right _ hs
    rw [Nat.succ_mul] at hle
    rw [length_dibPixels, Nat.mul_comm (4 * img.width)]
    omega
  rw [List.getElem?_append_left hlt, dibPixels,
    getElem?_flatMap_range (fun _ => length_dibRow _) hs hj, dibRow,
    getElem?_flatMap_range (k := 4) (by intro; rfl) hx hc]
  have hindex : (img.height - 1 - s) * (4 * img.width) + x * 4 =
      ((img.height - 1 - s) * img.width + x) * 4 := by ring
  simp only [Image.pixel, ← Nat.add_assoc, hindex]

lemma readColor_eq (hhdr : hdr.length = 54) {s x : ℕ} (hs : s < img.height) (hx : x < img.width) :
    readColor (hdr ++ (dibPixels img ++ pad)) 4 (54 + (s * (4 * img.width) + x * 4 : ℕ)) =
      some (img.pixel x (img.height - 1 - s)) := by
  have hget : ∀ c < 4, get (hdr ++ (dibPixels img ++ pad))
      (54 + (s * (4 * img.width) + x * 4 : ℕ) + (c : ℕ)) =
        ([(img.pixel x (img.height - 1 - s)).b, (img.pixel x (img.height - 1 - s)).g,
          (img.pixel x (img.height - 1 - s)).r, (img.pixel x (img.height - 1 - s)).a] : Bytes)[c]? := by
    intro c hc
    rw [Int.add_assoc, ← Nat.cast_add, get_append hhdr, Nat.add_assoc, getElem?_dibPixels hs hx hc]
  have h0 := hget 0 (by decide)
  have h1 := hget 1 (by decide)
  have h2 := hget 2 (by decide)
  have h3 := hget 3 (by decide)
  simp only [Nat.cast_zero, Int.add_zero, Nat.cast_one, Nat.cast_ofNat] at h0 h1 h2 h3
  rw [readColor, h0, h1, h2, h3]
  rfl

lemma readRow_eq {k rowStart : ℤ} {c : ℕ → Color} (hk : k = 3 ∨ k = 4) (h0 : 0 ≤ rowStart)
    (hsize : data.length < 2 ^ 31) {n x : ℕ} (hend : rowStart + k * (x + n : ℕ) ≤ data.length)
    (hcolor : ∀ i, i < x + n → readColor data k (rowStart + k * (i : ℤ)) = some (c i)) :
    readRow data k rowStart x n = some ((List.range' x n).map c) := by
  induction n generalizing x with
  | zero => rfl
  | succ n ih =>
    have hplace : rowStart + k * x + k ≤ data.length ∧ 0 ≤ k * (x : ℤ) ∧ 0 ≤ k := by
      rcases hk with rfl | rfl <;> omega
    have hoff : int32 (rowStart + int32 ((x : ℤ) * k)) = rowStart + k * (x : ℤ) := by
      rw [Int.mul_comm, int32_eq (n := k * (x : ℤ)) (by omega) (by omega), int32_eq (by omega) (by omega)]
    have hnext : int32 (rowStart + k * (x : ℤ) + k) = rowStart + k * (x : ℤ) + k :=
      int32_eq (by omega) (by omega)
    have hbreak : ¬ (data.length : ℤ) < rowStart + k * (x : ℤ) + k := by omega
    rw [readRow]
    simp only [hoff, hnext]
    rw [if_neg hbreak, hcolor x (by omega),
      ih (by rw [show x + 1 + n = x + (n + 1) by omega]; exact hend) fun i hi => hcolor i (by omega)]
    rfl

/-- The pixels of an image, row by row from the top. -/
def Image.colors (img : Image) : List Color :=
  (List.range img.height).flatMap fun y => (List.range img.width).map fun x => img.pixel x y

lemma getD_colors {x y : ℕ} (hx : x < img.width) (hy : y < img.height) (d : Color) :
    img.colors.getD (y * img.width + x) d = img.pixel x y := by
  rw [List.getD_eq_getElem?_getD, Image.colors,
    getElem?_flatMap_range (k := img.width) (by intro; simp) hy hx]
  simp [hx]

lemma rowStart_eq {w h y : ℕ} (hsize : 54 + 4 * w * h < 2 ^ 31) (hy : y < h)
    {stride : ℤ} (hstride : stride = 4 * w ∨ h = 1) :
    int32 (54 + int32 (((h : ℤ) - 1 - y) * stride)) = 54 + ((h - 1 - y) * (4 * w) : ℕ) := by
  have hrow : ((h : ℤ) - 1 - y) * stride = ((h - 1 - y) * (4 * w) : ℕ) := by
    rcases hstride with rfl | rfl
    · rw [Nat.cast_mul, Nat.cast_mul, Nat.cast_sub (by omega), Nat.cast_sub (by omega)]
      rfl
    · obtain rfl : y = 0 := by omega
      simp
  have hle : (h - 1 - y) * (4 * w) ≤ h * (4 * w) := Nat.mul_le_mul_right _ (by omega)
  rw [Nat.mul_comm h] at hle
  have hinner : int32 (((h - 1 - y) * (4 * w) : ℕ) : ℤ) = ((h - 1 - y) * (4 * w) : ℕ) :=
    int32_eq (by omega) (by omega)
  rw [hrow, hinner]
  exact int32_eq (by omega) (by omega)

lemma readPixels_eq (hhdr : hdr.length = 54)
    (hsize : 54 + (4 * img.width * img.height + pad.length) < 2 ^ 31) {stride : ℤ}
    (hstride : stride = 4 * img.width ∨ img.height = 1) :
    readPixels (hdr ++ (dibPixels img ++ pad)) img.width img.height 4 stride 54 false =
      some ⟨img.width, img.height, if img.colors.any fun c => decide (c.a ≠ 0) then img.colors
        else img.colors.map fun c => { c with a := c.a ||| 0xFF }⟩ := by
  have hlen : (hdr ++ (dibPixels img ++ pad)).length =
      54 + (4 * img.width * img.height + pad.length) := by
    rw [List.length_append, List.length_append, hhdr, length_dibPixels]
  have harea : int32 ((img.width : ℤ) * img.height) = (img.width : ℤ) * img.height := by
    rw [← Nat.cast_mul]
    rw [Nat.mul_assoc] at hsize
    exact int32_eq (by omega) (by omega)
  have hrow : ∀ y ∈ List.range img.height, readRow (hdr ++ (dibPixels img ++ pad)) 4
      (int32 (54 + int32 (((img.height : ℤ) - 1 - y) * stride))) 0 img.width =
        some ((List.range img.width).map fun x => img.pixel x y) := by
    intro y hy
    have hy := List.mem_range.mp hy
    rw [rowStart_eq (by omega) hy hstride, List.range_eq_range']
    refine readRow_eq (Or.inr rfl) (by omega) (by omega) ?_ ?_
    · have hle : (img.height - 1 - y + 1) * (4 * img.width) ≤ img.height * (4 * img.width) :=
        Nat.mul_le_mul_right _ (by omega)
      rw [Nat.succ_mul, Nat.mul_comm img.height] at hle
      rw [hlen]
      omega
    · intro i hi
      have hcolor := @readColor_eq hdr pad img hhdr (img.height - 1 - y) i (by omega) (by omega)
      rw [show img.height - 1 - (img.height - 1 - y) = y by omega] at hcolor
      rw [← hcolor]
      push_cast
      ring_nf
  rw [readPixels, if_neg (not_not.mpr harea)]
  simp only [Int.toNat_natCast, Bool.false_eq_true, if_false]
  rw [mapM_some hrow, Option.map_some, ← List.flatMap_def]
  have hcolors : ((List.range img.height).flatMap fun y =>
      (List.range img.width).map fun x => img.pixel x y) = img.colors := rfl
  simp only [hcolors, true_and]
  cases img.colors.any fun c => decide (c.a ≠ 0) <;> rfl

end Pixels

/-! ### The way of an image -/

/-- The bitmap has the size and the colours of the image. -/
structure Shows (b : Bitmap) (img : Image) : Prop where
  width : b.width = img.width
  height : b.height = img.height
  pixel : ∀ x < img.width, ∀ y < img.height, b.getPixel x y = img.pixel x y

/-- Some pixel is not transparent. -/
def Visible (img : Image) : Prop := ∃ x < img.width, ∃ y < img.height, (img.pixel x y).a ≠ 0

/-- The bytes that `png_to_dib` makes of an image, with what follows them on the clipboard. -/
def onClipboard (img : Image) (pad : Bytes) : Bytes :=
  bitmapInfoHeader img.width img.height ++ (dibPixels img ++ pad)

section Way

variable {img : Image} {pad : Bytes}

lemma length_rest : (dibPixels img ++ pad).length = 4 * img.width * img.height + pad.length := by
  rw [List.length_append, length_dibPixels]

lemma any_colors (h : Visible img) : (img.colors.any fun c => decide (c.a ≠ 0)) = true := by
  obtain ⟨x, hx, y, hy, ha⟩ := h
  rw [List.any_eq_true]
  refine ⟨img.pixel x y, ?_, by simpa using ha⟩
  rw [Image.colors, List.mem_flatMap]
  exact ⟨y, List.mem_range.mpr hy, List.mem_map.mpr ⟨x, List.mem_range.mpr hx, rfl⟩⟩

def headers (img : Image) (pad : Bytes) : Bytes :=
  fileHeader (54 + (4 * img.width * img.height + pad.length)) ++ bitmapInfoHeader img.width img.height

lemma length_file : (headers img pad ++ (dibPixels img ++ pad)).length =
    54 + (4 * img.width * img.height + pad.length) := by
  rw [List.length_append, length_rest]
  rfl

lemma clipboardGetImage_onClipboard
    (hsize : 40 + (4 * img.width * img.height + pad.length) < 2 ^ 32) :
    clipboardGetImage (onClipboard img pad) = headers img pad ++ (dibPixels img ++ pad) := by
  rw [onClipboard, clipboardGetImage_eq (by rw [length_rest]; exact hsize), length_rest]
  rfl

lemma decode_long (h : 2 ^ 31 ≤ 54 + (4 * img.width * img.height + pad.length))
    (hsize : 40 + (4 * img.width * img.height + pad.length) < 2 ^ 32) :
    decodeBmpFallback (clipboardGetImage (onClipboard img pad)) = none := by
  rw [clipboardGetImage_onClipboard hsize, decodeBmpFallback, checks, if_pos (by rw [length_file]; exact h),
    Option.bind_none]

lemma decode_eq (hw : 1 ≤ img.width) (hh : 1 ≤ img.height)
    (hsize : 54 + (4 * img.width * img.height + pad.length) < 2 ^ 31) :
    decodeBmpFallback (clipboardGetImage (onClipboard img pad)) =
      readPixels (headers img pad ++ (dibPixels img ++ pad)) img.width img.height 4
        (rowStride img.width 32) 54 false := by
  have hwb : img.width ≤ 4 * img.width * img.height := by
    rw [Nat.mul_assoc]
    exact (Nat.le_mul_of_pos_right _ hh).trans (Nat.le_mul_of_pos_left _ (by decide))
  have hhb : img.height ≤ 4 * img.width * img.height :=
    Nat.le_mul_of_pos_left _ (by omega)
  have hfits : ¬ (54 + (dibPixels img ++ pad).length : ℤ) <
      54 + rowStride img.width 32 * img.height := by
    obtain ⟨q, hq, hqw, -⟩ := @rowStride_count img.width (by omega)
    have hle : rowStride img.width 32 * img.height ≤ 4 * img.width * img.height :=
      Int.mul_le_mul_of_nonneg_right (by omega) (by omega)
    rw [length_rest]
    push_cast
    omega
  have hchecks : checks (headers img pad ++ (dibPixels img ++ pad)) = some ⟨img.width, img.height, 32, 54, false⟩ :=
    (checks_eq _ hw hh (by omega) (by omega) (by rw [length_rest]; exact hsize) rfl).trans (if_neg hfits)
  have hbytes : Fields.bytesPerPixel ⟨img.width, img.height, 32, 54, false⟩ = 4 := rfl
  rw [clipboardGetImage_onClipboard (by omega), decodeBmpFallback, hchecks, Option.bind_some, hbytes]

/-- A file that is read shows the image, as long as the rows are not too long. -/
lemma decode_shows (hw : 1 ≤ img.width) (hh : 1 ≤ img.height) (hv : Visible img)
    (hsize : 54 + (4 * img.width * img.height + pad.length) < 2 ^ 31)
    (hrows : img.width < 2 ^ 26 ∨ img.height = 1) :
    ∃ b, decodeBmpFallback (clipboardGetImage (onClipboard img pad)) = some b ∧ Shows b img := by
  have hstride : rowStride img.width 32 = 4 * img.width ∨ img.height = 1 :=
    hrows.imp_left fun hlt => rowStride_eq (by omega) (by omega)
  rw [decode_eq hw hh hsize]
  refine ⟨_, readPixels_eq rfl hsize hstride, rfl, rfl, fun x hx y hy => ?_⟩
  rw [if_pos (any_colors hv), Bitmap.getPixel]
  exact getD_colors hx hy _

end Way

/-! ### Longer rows -/

section Long

variable {data : Bytes}

lemma length_readRow {bytesPerPixel rowStart : ℤ} {x n : ℕ} {cs : List Color}
    (h : readRow data bytesPerPixel rowStart x n = some cs) : cs.length = n := by
  induction n generalizing x cs with
  | zero =>
    cases h
    rfl
  | succ n ih =>
    rw [readRow] at h
    split_ifs at h
    · cases h
      exact List.length_replicate
    · obtain ⟨c, -, h⟩ := Option.bind_eq_some_iff.mp h
      obtain ⟨cs', hcs', rfl⟩ := Option.map_eq_some_iff.mp h
      rw [List.length_cons, ih hcs']

lemma readRow_head {rowStart : ℤ} {n : ℕ} {cs : List Color} (hstart : int32 rowStart = rowStart)
    (hnext : int32 (rowStart + 4) ≤ data.length)
    (h : readRow data 4 rowStart 0 (n + 1) = some cs) :
    ∃ c, readColor data 4 rowStart = some c ∧ cs[0]? = some c := by
  have hoff : int32 (rowStart + int32 (((0 : ℕ) : ℤ) * 4)) = rowStart := by
    rw [Nat.cast_zero, Int.zero_mul, show int32 0 = 0 from rfl, Int.add_zero, hstart]
  rw [readRow] at h
  simp only [hoff] at h
  rw [if_neg (by omega)] at h
  obtain ⟨c, hc, h⟩ := Option.bind_eq_some_iff.mp h
  obtain ⟨cs', -, rfl⟩ := Option.map_eq_some_iff.mp h
  exact ⟨c, hc, rfl⟩

lemma getElem?_flatten {α : Type*} {rows : List (List α)} {k i j : ℕ} {row : List α}
    (hlen : ∀ r ∈ rows, r.length = k) (hi : rows[i]? = some row) (hj : j < k) :
    rows.flatten[i * k + j]? = row[j]? := by
  induction rows generalizing i with
  | nil => simp at hi
  | cons r rows ih =>
    have hr := hlen r (by simp)
    rw [List.flatten_cons]
    cases i with
    | zero =>
      obtain rfl : r = row := by simpa using hi
      rw [Nat.zero_mul, Nat.zero_add, List.getElem?_append_left (by omega)]
    | succ i =>
      rw [List.getElem?_append_right (by rw [Nat.succ_mul]; omega),
        show (i + 1) * k + j - r.length = i * k + j by rw [Nat.succ_mul]; omega]
      exact ih (fun r' hr' => hlen r' (by simp [hr'])) (by simpa using hi)

lemma mapM_get {α β : Type*} {f : α → Option β} {l : List α} {bs : List β} (h : l.mapM f = some bs) :
    (∀ b ∈ bs, ∃ a, f a = some b) ∧
      ∀ (i : ℕ) (a : α), l[i]? = some a → ∃ b, f a = some b ∧ bs[i]? = some b := by
  induction l generalizing bs with
  | nil =>
    cases h
    exact ⟨by simp, by simp⟩
  | cons a l ih =>
    rw [List.mapM_cons] at h
    obtain ⟨b, hb, h⟩ := Option.bind_eq_some_iff.mp h
    obtain ⟨bs', hbs', h⟩ := Option.bind_eq_some_iff.mp h
    cases h
    obtain ⟨hmem, hget⟩ := ih hbs'
    refine ⟨fun b' hb' => ?_, fun i a' ha' => ?_⟩
    · rcases List.mem_cons.mp hb' with rfl | hb'
      · exact ⟨a, hb⟩
      · exact hmem b' hb'
    · cases i with
      | zero =>
        obtain rfl : a = a' := by simpa using ha'
        exact ⟨b, hb, rfl⟩
      | succ i => exact hget i a' (by simpa using ha')

lemma readPixels_head {w h y : ℕ} {stride : ℤ} {b : Bitmap} (hw : 1 ≤ w) (hy : y < h)
    (hread : readPixels data w h 4 stride 54 false = some b) {off : ℤ}
    (hoff : int32 (54 + int32 (((h : ℤ) - 1 - y) * stride)) = off) (hstart : int32 off = off)
    (hnext : int32 (off + 4) ≤ data.length) :
    ∃ c, readColor data 4 off = some c ∧ ((b.getPixel 0 y).a = c.a ∨ (b.getPixel 0 y).a = 255) := by
  obtain ⟨n, rfl⟩ := Nat.exists_eq_add_of_le' hw
  rw [readPixels] at hread
  by_cases harea : int32 (((n + 1 : ℕ) : ℤ) * h) ≠ ((n + 1 : ℕ) : ℤ) * h
  · rw [if_pos harea] at hread
    cases hread
  · rw [if_neg harea] at hread
    obtain ⟨rows, hrows, rfl⟩ := Option.map_eq_some_iff.mp hread
    simp only [Int.toNat_natCast, Bool.false_eq_true, if_false] at hrows
    obtain ⟨hmem, hget⟩ := mapM_get hrows
    have hlen : ∀ r ∈ rows, r.length = n + 1 := by
      intro r hr
      obtain ⟨y', hy'⟩ := hmem r hr
      exact length_readRow hy'
    obtain ⟨row, hrow, hi⟩ := hget y y (by simp [hy])
    rw [hoff] at hrow
    obtain ⟨c, hc, hhead⟩ := readRow_head hstart hnext hrow
    have hpixel : rows.flatten[y * (n + 1) + 0]? = some c := by
      rw [getElem?_flatten hlen hi (Nat.succ_pos n), hhead]
    refine ⟨c, hc, ?_⟩
    simp only [Bitmap.getPixel, Int.toNat_natCast, List.getD_eq_getElem?_getD]
    split_ifs
    · right
      rw [List.getElem?_map, hpixel]
      exact UInt8.or_neg_one
    · left
      rw [hpixel]
      rfl

lemma readColor_alpha {off : ℤ} {c : Color} (h : readColor data 4 off = some c) :
    get data (off + 3) = some c.a := by
  unfold readColor at h
  obtain ⟨b, -, h⟩ := Option.bind_eq_some_iff.mp h
  obtain ⟨g, -, h⟩ := Option.bind_eq_some_iff.mp h
  obtain ⟨r, -, h⟩ := Option.bind_eq_some_iff.mp h
  rw [if_pos rfl] at h
  obtain ⟨a, ha, rfl⟩ := Option.map_eq_some_iff.mp h
  exact ha

variable {w h : ℕ} {pad : Bytes}

/-- One pixel, at the left of the second row from below, on black. -/
def dotted (w h : ℕ) (a : UInt8) : Image :=
  ⟨w, h, (List.replicate (4 * w * h) 0).set ((h - 2) * w * 4 + 3) a, by simp⟩

lemma dotted_pixel (hw : 1 ≤ w) (hh : 2 ≤ h) (a : UInt8) : ((dotted w h a).pixel 0 (h - 2)).a = a := by
  have hlt : (h - 2) * w * 4 + 3 < 4 * w * h := by
    have hle : (h - 2 + 1) * (w * 4) ≤ h * (w * 4) := Nat.mul_le_mul_right _ (by omega)
    rw [Nat.succ_mul, ← Nat.mul_assoc, ← Nat.mul_assoc, Nat.mul_assoc h, Nat.mul_comm h,
      Nat.mul_comm w 4] at hle
    omega
  simp only [Image.pixel, Image.byte, dotted, List.getD_eq_getElem?_getD, Nat.add_zero]
  rw [List.getElem?_set_self (by simpa using hlt)]
  rfl

lemma dotted_black (hh : 2 ≤ h) (a : UInt8) {x : ℕ} (hx : x < w) :
    ((dotted w h a).pixel x (h - 1)).a = 0 := by
  have hne : (h - 2) * w * 4 + 3 ≠ ((h - 1) * w + x) * 4 + 3 := by
    rw [show h - 1 = h - 2 + 1 by omega, Nat.succ_mul]
    omega
  simp only [Image.pixel, Image.byte, dotted, List.getD_eq_getElem?_getD]
  rw [List.getElem?_set_ne hne, List.getElem?_replicate]
  split_ifs <;> rfl

/-- The reader that loses its way finds the same alpha for every dot. -/
lemma get_dotted (hh : 2 ≤ h) {hdr : Bytes} (hhdr : hdr.length = 54) {q : ℤ}
    (hq : q < w) (a a' : UInt8) :
    get (hdr ++ (dibPixels (dotted w h a) ++ pad)) (54 + 4 * q + 3) =
      get (hdr ++ (dibPixels (dotted w h a') ++ pad)) (54 + 4 * q + 3) := by
  rcases lt_or_ge q 0 with hneg | hpos
  · unfold get
    split_ifs
    · rw [List.getElem?_append_left (by omega), List.getElem?_append_left (by omega)]
    · rfl
  · obtain ⟨x, rfl⟩ := Int.eq_ofNat_of_zero_le hpos
    have hindex : (54 + 4 * (x : ℤ) + 3) = 54 + (0 * (4 * w) + (x * 4 + 3) : ℕ) := by
      push_cast
      ring
    have halpha : ∀ a, (dibPixels (dotted w h a) ++ pad)[0 * (4 * w) + (x * 4 + 3)]? = some 0 := by
      intro a
      have hget := @getElem?_dibPixels pad (dotted w h a) 0 x 3 (by show 0 < h; omega)
        (by show x < w; omega) (by decide)
      refine hget.trans ?_
      show some ((dotted w h a).pixel x (h - 1)).a = some 0
      rw [dotted_black hh a (by omega)]
    rw [hindex, get_append hhdr, get_append hhdr, halpha, halpha]

/-- **What the reader can read.** It shows every image of a size, if and only if the bits of a row can be
counted or there is only one row. -/
theorem reads_iff (hw : 1 ≤ w) (hh : 1 ≤ h) (hsize : 54 + (4 * w * h + pad.length) < 2 ^ 31) :
    (∀ img : Image, img.width = w → img.height = h → Visible img →
      ∃ b, decodeBmpFallback (clipboardGetImage (onClipboard img pad)) = some b ∧ Shows b img) ↔
      w < 2 ^ 26 ∨ h = 1 := by
  constructor
  · intro hall
    by_contra hlong
    push Not at hlong
    obtain ⟨hlong, hrows⟩ := hlong
    have hh2 : 2 ≤ h := by omega
    obtain ⟨q, hq, -, hqlo, hqhi⟩ := @rowStride_count w (by omega)
    have hfound : ∀ a : UInt8, a ≠ 0 → a ≠ 255 →
        get (headers (dotted w h a) pad ++ (dibPixels (dotted w h a) ++ pad)) (54 + 4 * q + 3) =
          some a := by
      intro a ha ha'
      have hpixel := dotted_pixel hw hh2 a
      obtain ⟨b, hdec, hshows⟩ := hall (dotted w h a) rfl rfl
        ⟨0, hw, h - 2, by show h - 2 < h; omega, hpixel.symm ▸ ha⟩
      rw [@decode_eq (dotted w h a) pad hw hh hsize] at hdec
      have hrow : ((h : ℤ) - 1 - (h - 2 : ℕ)) * rowStride w 32 = 4 * q := by
        rw [hq, Nat.cast_sub hh2]
        push_cast
        ring
      have hoff : int32 (54 + int32 (((h : ℤ) - 1 - (h - 2 : ℕ)) * rowStride w 32)) = 54 + 4 * q := by
        rw [hrow, int32_eq (n := 4 * q) (by omega) (by omega), int32_eq (by omega) (by omega)]
      have hnext : int32 (54 + 4 * q + 4) ≤
          (headers (dotted w h a) pad ++ (dibPixels (dotted w h a) ++ pad)).length := by
        have hle : w ≤ w * h := Nat.le_mul_of_pos_right _ hh
        have hlen := @length_file (dotted w h a) pad
        rw [show (dotted w h a).width = w from rfl, show (dotted w h a).height = h from rfl,
          Nat.mul_assoc] at hlen
        rw [int32_eq (by omega) (by omega), hlen]
        omega
      obtain ⟨c, hc, halpha⟩ := readPixels_head hw (show h - 2 < h by omega) hdec hoff
        (int32_eq (by omega) (by omega)) hnext
      rw [hshows.pixel 0 hw (h - 2) (show h - 2 < h by omega), hpixel] at halpha
      rw [readColor_alpha hc, halpha.resolve_right ha']
    have h1 := hfound 1 (by decide) (by decide)
    have h2 := hfound 2 (by decide) (by decide)
    rw [get_dotted hh2 rfl (by omega) 1 2] at h1
    cases h2.symm.trans h1
  · intro hrows img hwidth hheight hv
    subst hwidth hheight
    exact decode_shows hw hh hv hsize hrows

end Long

/-! ### From Windows to Android -/

def stbiMaxDimensions : ℕ := 2 ^ 24

/-- The decoder refuses larger images. -/
def Limited (stbi : Bytes → Option Image) : Prop :=
  ∀ png img, stbi png = some img → img.width ≤ stbiMaxDimensions ∧ img.height ≤ stbiMaxDimensions

lemma pngToDib_append {stbi : Bytes → Option Image} {png dib : Bytes} {img : Image}
    (hload : stbi png = some img) (hdib : pngToDib stbi png = some dib) (pad : Bytes) :
    dib ++ pad = onClipboard img pad := by
  rw [pngToDib, hload, Option.map_some, Option.some.injEq] at hdib
  rw [← hdib, onClipboard, List.append_assoc]

/-- **The layout of Windows and the reader of Android agree.** The bitmap that `png_to_dib` makes of an
image, with or without padding on the clipboard, comes out with the colours of the image, if the file
that is made of it has less than 2 GiB and some pixel is not transparent. -/
theorem bitmap_of_dib (stbi : Bytes → Option Image) (hstbi : Limited stbi) (png : Bytes) (img : Image)
    (hload : stbi png = some img) (hw : 1 ≤ img.width) (hh : 1 ≤ img.height) (hv : Visible img)
    (pad : Bytes) (hsize : 54 + (4 * img.width * img.height + pad.length) < 2 ^ 31) :
    ∃ dib b, pngToDib stbi png = some dib ∧
      decodeBmpFallback (clipboardGetImage (dib ++ pad)) = some b ∧ Shows b img := by
  have hdib : pngToDib stbi png = some (bitmapInfoHeader img.width img.height ++ dibPixels img) := by
    rw [pngToDib, hload, Option.map_some]
  have hlimit : img.width ≤ 2 ^ 24 := (hstbi png img hload).1
  obtain ⟨b, hb, hshows⟩ := decode_shows hw hh hv hsize (.inl (by omega))
  refine ⟨_, b, hdib, ?_, hshows⟩
  rw [pngToDib_append hload hdib pad]
  exact hb

section Sample

/-- A PNG file of one pixel. -/
def samplePng : Bytes :=
  [0x89, 0x50, 0x4E, 0x47, 0x0D, 0x0A, 0x1A, 0x0A, 0x00, 0x00, 0x00, 0x0D, 0x49, 0x48, 0x44, 0x52, 0x00,
    0x00, 0x00, 0x01, 0x00, 0x00, 0x00, 0x01, 0x08, 0x06, 0x00, 0x00, 0x00, 0x1F, 0x15, 0xC4, 0x89, 0x00,
    0x00, 0x00, 0x0D, 0x49, 0x44, 0x41, 0x54, 0x78, 0x9C, 0x63, 0xE0, 0x12, 0x91, 0xFB, 0x0F, 0x00, 0x01,
    0xA4, 0x01, 0x3C, 0x93, 0x8B, 0x0E, 0xB7, 0x00, 0x00, 0x00, 0x00, 0x49, 0x45, 0x4E, 0x44, 0xAE, 0x42,
    0x60, 0x82]

def sampleImage : Image := ⟨1, 1, [10, 20, 30, 255], rfl⟩

/-- The decoder at the file that is used. -/
def sampleStbi (png : Bytes) : Option Image := if png = samplePng then some sampleImage else none

lemma sampleStbi_samplePng : sampleStbi samplePng = some sampleImage := if_pos rfl

lemma sampleStbi_limited : Limited sampleStbi := by
  intro png img h
  unfold sampleStbi at h
  split_ifs at h
  cases h
  decide

lemma sampleImage_visible : Visible sampleImage := ⟨0, by decide, 0, by decide, by decide⟩

/-- One pixel, and four bytes after it. -/
theorem bitmap_of_pixel : ∃ dib b, pngToDib sampleStbi samplePng = some dib ∧
    decodeBmpFallback (clipboardGetImage (dib ++ [0, 0, 0, 0])) = some b ∧ Shows b sampleImage :=
  bitmap_of_dib sampleStbi sampleStbi_limited samplePng sampleImage sampleStbi_samplePng (by decide)
    (by decide) sampleImage_visible [0, 0, 0, 0] (by decide)

/-- One pixel, and 2 GiB after it. -/
theorem bitmap_too_long : 4 * sampleImage.width * sampleImage.height + 54 < 2 ^ 31 ∧
    Visible sampleImage ∧ sampleStbi samplePng = some sampleImage ∧
    ¬ ∃ dib b, pngToDib sampleStbi samplePng = some dib ∧
      decodeBmpFallback (clipboardGetImage (dib ++ List.replicate (2 ^ 31) 0)) = some b ∧
        Shows b sampleImage := by
  refine ⟨by decide, sampleImage_visible, sampleStbi_samplePng, ?_⟩
  rintro ⟨dib, b, hdib, hb, -⟩
  have hnone : decodeBmpFallback (clipboardGetImage
      (onClipboard sampleImage (List.replicate (2 ^ 31) 0))) = none :=
    decode_long (by rw [List.length_replicate]; decide) (by rw [List.length_replicate]; decide)
  rw [pngToDib_append sampleStbi_samplePng hdib, hnone] at hb
  cases hb

end Sample

end SyncClipboard.DibLayout
