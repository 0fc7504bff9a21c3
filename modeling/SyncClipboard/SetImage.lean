import SyncClipboard.DibLayout

/-!
An image on its way to the Windows clipboard.

`clipboard_set_image` tells a PNG and a BMP file by their first bytes, and puts everything else on the
clipboard as it is. So it stores a bitmap of every PNG file, of a BMP file if the part behind the file
header is the same picture by itself, and of no other format that the decoder knows (`stores_iff`).
-/

namespace SyncClipboard.SetImage

open FtAuth (Bytes ascii)
open DibLayout

/-! ### clipboard_set_image -/

/-- What can fail on Windows: memory for so many bytes, and the clipboard. -/
structure Windows where
  malloc : ℕ → Bool
  globalAlloc : ℕ → Bool
  openClipboard : Bool

/-- A copy of the block is given to `SetClipboardData`. -/
def setClipboardData (win : Windows) (block : Bytes) : Option Bytes :=
  if win.globalAlloc block.length = false then none
  else if win.openClipboard then some block
  else none

def isPng (data : Bytes) : Bool := decide (4 < data.length) && data.take 4 == [0x89, 0x50, 0x4E, 0x47]

def isBmp (data : Bytes) : Bool := decide (14 < data.length) && data.take 2 == [0x42, 0x4D]

/-- `clipboard_set_image`: the block that is stored as `CF_DIB`, with the decoder of images. -/
def clipboardSetImage (win : Windows) (stbi : Bytes → Option Image) (data : Bytes) : Option Bytes :=
  if isPng data then
    (pngToDib stbi data).bind fun dib =>
      if win.malloc dib.length then setClipboardData win dib else none
  else if isBmp data then setClipboardData win (data.drop 14)
  else setClipboardData win data

/-! ### The bitmap on the clipboard -/

/-- A pixel, in the order of the decoder. -/
def dibColor (block : Bytes) (bits off : ℕ) : Bytes :=
  [block.getD (off + 2) 0, block.getD (off + 1) 0, block.getD off 0,
    if bits = 32 then block.getD (off + 3) 0 else 255]

/-- The picture of a block whose pixels begin at `start`. -/
def dibImage (block : Bytes) (w h bits start : ℕ) (topDown : Bool) : Image where
  width := w
  height := h
  pixels := (List.range h).flatMap fun y => (List.range w).flatMap fun x =>
    dibColor block bits
      (start + (if topDown then y else h - 1 - y) * (4 * ((w * bits + 31) / 32)) + x * (bits / 8))
  length_pixels := by
    rw [length_flatMap_range (k := w * 4) fun y => length_flatMap_range (k := 4) (by intro; rfl) w]
    ring

/-- How Windows reads a block: 24 or 32 bits a pixel without compression, or in another way. The fourth byte of
32 bits is the alpha, also where all of them are zero, which `stb_image` takes for an opaque picture. -/
def readDib (other : Bytes → Option Image) (block : Bytes) : Option Image :=
  let width := readLE32 block 4
  let height := readLE32 block 8
  let bits := field 2 block 14
  -- behind the header and the colour table
  let start := 40 + 4 * field 4 block 32
  if (bits = 24 ∨ bits = 32) ∧ field 4 block 16 = 0 then
    if 0 ≤ width ∧ start + 4 * ((width.toNat * bits + 31) / 32) * height.natAbs ≤ block.length then
      some (dibImage block width.toNat height.natAbs bits start (decide (height < 0)))
    else none
  else other block

/-- The block starts with a `BITMAPINFOHEADER` for the size of the picture, and its pixels are the picture. -/
structure Shown (other : Bytes → Option Image) (block : Bytes) (img : Image) : Prop where
  length : 40 ≤ block.length
  size : field 4 block 0 = 40
  width : readLE32 block 4 = img.width
  height : |readLE32 block 8| = img.height
  picture : readDib other block = some img

/-- The picture that the decoder finds in the data is on the clipboard. -/
def Stores (win : Windows) (stbi other : Bytes → Option Image) (data : Bytes) : Prop :=
  ∀ img, stbi data = some img → ∃ block, clipboardSetImage win stbi data = some block ∧ Shown other block img

/-- What is known of the decoder: no format begins like a bare bitmap, and it has a `STBI_MAX_DIMENSIONS`. -/
structure StbImage (stbi : Bytes → Option Image) : Prop where
  begins : ∀ data img, stbi data = some img → ¬ [0x28, 0, 0, 0] <+: data
  width_le : ∀ data img, stbi data = some img → img.width ≤ 2 ^ 24
  height_le : ∀ data img, stbi data = some img → img.height ≤ 2 ^ 24

/-! ### The bitmap of a PNG file -/

section Png

variable {img : Image}

lemma flatMap_pixel (img : Image) :
    ((List.range img.height).flatMap fun y => (List.range img.width).flatMap fun x =>
      [(img.pixel x y).r, (img.pixel x y).g, (img.pixel x y).b, (img.pixel x y).a]) = img.pixels := by
  have hrow : ∀ y, ((List.range img.width).flatMap fun x =>
      [(img.pixel x y).r, (img.pixel x y).g, (img.pixel x y).b, (img.pixel x y).a]).length = img.width * 4 :=
    fun y => length_flatMap_range (k := 4) (by intro; rfl) _
  have hlen := length_flatMap_range hrow img.height
  have hpixels := img.length_pixels
  have hsame : img.height * (img.width * 4) = 4 * img.width * img.height := by ring
  refine List.ext_getElem? fun n => ?_
  by_cases hn : n < 4 * img.width * img.height
  · -- the row, the pixel and the channel
    have hw : 0 < img.width * 4 := by
      rcases Nat.eq_zero_or_pos img.width with h0 | h0
      · rw [h0] at hn
        omega
      · omega
    have hy : n / (img.width * 4) < img.height := by
      rw [Nat.div_lt_iff_lt_mul hw]
      omega
    have hj : n % (img.width * 4) < img.width * 4 := Nat.mod_lt _ hw
    have hx : n % (img.width * 4) / 4 < img.width := by omega
    have hc : n % (img.width * 4) % 4 < 4 := Nat.mod_lt _ (by decide)
    have hindex : n = n / (img.width * 4) * (img.width * 4) + n % (img.width * 4) := by
      rw [Nat.mul_comm]
      exact (Nat.div_add_mod _ _).symm
    have hchannel : n % (img.width * 4) = n % (img.width * 4) / 4 * 4 + n % (img.width * 4) % 4 := by omega
    generalize n / (img.width * 4) = y at *
    generalize n % (img.width * 4) = j at *
    generalize j / 4 = x at *
    generalize j % 4 = c at *
    subst hchannel
    rw [hindex, getElem?_flatMap_range hrow hy hj, getElem?_flatMap_range (k := 4) (by intro; rfl) hx hc]
    have hplace : y * (img.width * 4) + (x * 4 + c) = (y * img.width + x) * 4 + c := by ring
    have hlt : (y * img.width + x) * 4 + c < img.pixels.length := by omega
    have hbyte : img.pixels[(y * img.width + x) * 4 + c]? = some (img.byte ((y * img.width + x) * 4 + c)) := by
      rw [List.getElem?_eq_getElem hlt, Image.byte, List.getD_eq_getElem _ _ hlt]
    rw [hplace, hbyte]
    obtain rfl | rfl | rfl | rfl : c = 0 ∨ c = 1 ∨ c = 2 ∨ c = 3 := by omega
    all_goals rfl
  · rw [List.getElem?_eq_none (by omega), List.getElem?_eq_none (by omega)]

lemma length_dib (img : Image) :
    (bitmapInfoHeader img.width img.height ++ dibPixels img).length = 40 + 4 * img.width * img.height := by
  rw [List.length_append, length_dibPixels]
  rfl

lemma dibColor_eq {w h x y : ℕ} (hx : x < img.width) (hy : y < img.height) :
    dibColor (bitmapInfoHeader w h ++ dibPixels img) 32
      (40 + (img.height - 1 - y) * (4 * img.width) + x * 4) =
      [(img.pixel x y).r, (img.pixel x y).g, (img.pixel x y).b, (img.pixel x y).a] := by
  have hget : ∀ c < 4, (bitmapInfoHeader w h ++ dibPixels img).getD
      (40 + (img.height - 1 - y) * (4 * img.width) + x * 4 + c) 0 =
        ([(img.pixel x y).b, (img.pixel x y).g, (img.pixel x y).r, (img.pixel x y).a] : Bytes).getD c 0 := by
    intro c hc
    have hpixel := @getElem?_dibPixels [] img (img.height - 1 - y) x c (by omega) hx hc
    rw [List.append_nil, show img.height - 1 - (img.height - 1 - y) = y by omega] at hpixel
    rw [List.getD_append_right _ _ _ _ (by show 40 ≤ _; omega), List.getD_eq_getElem?_getD,
      show 40 + (img.height - 1 - y) * (4 * img.width) + x * 4 + c - (bitmapInfoHeader w h).length =
        (img.height - 1 - y) * (4 * img.width) + (x * 4 + c) by show _ - 40 = _; omega,
      hpixel, List.getD_eq_getElem?_getD]
  have h0 := hget 0 (by decide)
  have h1 := hget 1 (by decide)
  have h2 := hget 2 (by decide)
  have h3 := hget 3 (by decide)
  rw [Nat.add_zero] at h0
  rw [dibColor, h0, h1, h2, if_pos rfl, h3]
  rfl

lemma header_fields (hw : img.width ≤ 2 ^ 24) (hh : img.height ≤ 2 ^ 24) {block : Bytes}
    (hblock : block = bitmapInfoHeader img.width img.height ++ dibPixels img) :
    field 4 block 0 = 40 ∧ readLE32 block 4 = img.width ∧ readLE32 block 8 = img.height ∧ field 2 block 14 = 32 ∧
      field 4 block 16 = 0 ∧ field 4 block 32 = 0 := by
  generalize img.width = w at *
  generalize img.height = h at *
  simp only [bitmapInfoHeader, List.append_assoc] at hblock
  refine ⟨?_, ?_, ?_, ?_, ?_, ?_⟩
  · rw [hblock]
    exact field_le32 (by decide) _
  · exact @readLE32_at w _ _ (le32 40) _ (by omega) rfl hblock
  · exact @readLE32_at h _ _ (le32 40 ++ le32 w) _ (by omega) rfl
      (by simpa only [List.append_assoc] using hblock)
  · exact (@field_at 2 14 block (le32 40 ++ le32 w ++ le32 h ++ le16 1) _ rfl
      (by simpa only [List.append_assoc] using hblock)).trans (field_le16 (by decide) _)
  · exact (@field_at 4 16 block (le32 40 ++ le32 w ++ le32 h ++ le16 1 ++ le16 32) _ rfl
      (by simpa only [List.append_assoc] using hblock)).trans (field_le32 (by decide) _)
  · exact (@field_at 4 32 block (le32 40 ++ le32 w ++ le32 h ++ le16 1 ++ le16 32 ++ le32 0 ++
      le32 (4 * w * h) ++ le32 0 ++ le32 0) _ rfl
      (by simpa only [List.append_assoc] using hblock)).trans (field_le32 (by decide) _)

/-- **The bitmap of a picture** is read as this picture. -/
lemma shown_dib (hw : img.width ≤ 2 ^ 24) (hh : img.height ≤ 2 ^ 24) (other : Bytes → Option Image) :
    Shown other (bitmapInfoHeader img.width img.height ++ dibPixels img) img := by
  obtain ⟨hsize, hwidth, hheight, hbits, hcompression, hused⟩ := header_fields hw hh rfl
  have hstride : 4 * ((img.width * 32 + 31) / 32) = 4 * img.width := by omega
  have hlen := length_dib img
  refine ⟨by omega, hsize, hwidth, by rw [hheight]; exact abs_of_nonneg (by omega), ?_⟩
  have himage : dibImage (bitmapInfoHeader img.width img.height ++ dibPixels img) img.width img.height 32 40
      false = img := by
    have hpixels : (dibImage (bitmapInfoHeader img.width img.height ++ dibPixels img) img.width img.height 32 40
        false).pixels = img.pixels := by
      rw [← flatMap_pixel img]
      show List.flatMap _ _ = _
      refine List.flatMap_congr fun y hy => List.flatMap_congr fun x hx => ?_
      rw [hstride]
      exact dibColor_eq (List.mem_range.mp hx) (List.mem_range.mp hy)
    cases img
    simp only [dibImage] at hpixels ⊢
    simp only [Image.mk.injEq, true_and]
    exact hpixels
  unfold readDib
  simp only [hwidth, hheight, hbits, hcompression, hused, Int.toNat_natCast, Int.natAbs_natCast]
  rw [if_pos ⟨Or.inr trivial, trivial⟩, if_pos ⟨by omega, by rw [hstride, hlen]⟩,
    show decide ((img.height : ℤ) < 0) = false by simp, himage]

end Png

/-! ### Every format -/

section Formats

variable {win : Windows} {stbi other : Bytes → Option Image} {data : Bytes} {img : Image}

lemma setClipboardData_eq_some {block block' : Bytes} :
    setClipboardData win block = some block' ↔
      win.globalAlloc block.length = true ∧ win.openClipboard = true ∧ block = block' := by
  unfold setClipboardData
  cases win.globalAlloc block.length <;> cases win.openClipboard <;> simp

lemma Shown.begins (h : Shown other data img) : [0x28, 0, 0, 0] <+: data := by
  have hlen := h.length
  have hsize := h.size
  obtain ⟨a, b, c, d, rest, rfl⟩ : ∃ a b c d rest, data = a :: b :: c :: d :: rest := by
    rcases data with _ | ⟨a, _ | ⟨b, _ | ⟨c, _ | ⟨d, rest⟩⟩⟩⟩
    all_goals simp at hlen ⊢
  have hsum : a.toNat + 2 ^ 8 * b.toNat + 2 ^ 16 * c.toNat + 2 ^ 24 * d.toNat = 40 := by
    simp only [field, List.range_succ, List.range_zero] at hsize
    simp at hsize
    omega
  have hbytes : a.toNat = 40 ∧ b.toNat = 0 ∧ c.toNat = 0 ∧ d.toNat = 0 := by omega
  obtain rfl : a = 0x28 := UInt8.toNat.inj hbytes.1
  obtain rfl : b = 0 := UInt8.toNat.inj hbytes.2.1
  obtain rfl : c = 0 := UInt8.toNat.inj hbytes.2.2.1
  obtain rfl : d = 0 := UInt8.toNat.inj hbytes.2.2.2
  exact ⟨rest, rfl⟩

lemma isBmp_of_isPng (h : isPng data = true) : isBmp data = false := by
  unfold isPng at h
  unfold isBmp
  simp only [Bool.and_eq_true, beq_iff_eq] at h
  have htake : data.take 2 = [0x89, 0x50] := by
    rw [show data.take 2 = (data.take 4).take 2 by simp [List.take_take], h.2]
    rfl
  rw [htake]
  simp

/-- **Which images are stored.** Where there is memory and the clipboard can be opened, a PNG file is, a BMP file is
if what stands behind its file header shows the picture, and nothing else that can be decoded. -/
theorem stores_iff (win : Windows) {stbi : Bytes → Option Image} (hstb : StbImage stbi)
    (other : Bytes → Option Image) (data : Bytes) :
    Stores win stbi other data ↔ ∀ img, stbi data = some img →
      win.openClipboard = true ∧
        (isPng data = true ∧ win.malloc (40 + 4 * img.width * img.height) = true ∧
            win.globalAlloc (40 + 4 * img.width * img.height) = true ∨
          isBmp data = true ∧ win.globalAlloc (data.length - 14) = true ∧ Shown other (data.drop 14) img) := by
  refine forall_congr' fun img => imp_congr_right fun himg => ?_
  unfold clipboardSetImage
  by_cases hpng : isPng data = true
  · have hlen := length_dib img
    have hshown := shown_dib (hstb.width_le _ _ himg) (hstb.height_le _ _ himg) other
    rw [if_pos hpng, pngToDib, himg, Option.map_some, Option.bind_some, hlen, isBmp_of_isPng hpng]
    constructor
    · rintro ⟨block, hstored, -⟩
      split_ifs at hstored with hmalloc
      obtain ⟨halloc, hopen, -⟩ := setClipboardData_eq_some.mp hstored
      exact ⟨hopen, Or.inl ⟨hpng, hmalloc, hlen ▸ halloc⟩⟩
    · rintro ⟨hopen, ⟨-, hmalloc, halloc⟩ | ⟨hbmp, -⟩⟩
      · refine ⟨_, ?_, hshown⟩
        rw [if_pos hmalloc]
        exact setClipboardData_eq_some.mpr ⟨hlen.symm ▸ halloc, hopen, rfl⟩
      · cases hbmp
  · rw [if_neg hpng]
    by_cases hbmp : isBmp data = true
    · rw [if_pos hbmp]
      constructor
      · rintro ⟨block, hstored, hshown⟩
        obtain ⟨halloc, hopen, rfl⟩ := setClipboardData_eq_some.mp hstored
        exact ⟨hopen, Or.inr ⟨hbmp, List.length_drop ▸ halloc, hshown⟩⟩
      · rintro ⟨hopen, ⟨hpng', -⟩ | ⟨-, halloc, hshown⟩⟩
        · exact absurd hpng' hpng
        · exact ⟨_, setClipboardData_eq_some.mpr ⟨List.length_drop.symm ▸ halloc, hopen, rfl⟩, hshown⟩
    · -- the data is taken for a bare bitmap
      rw [if_neg hbmp]
      constructor
      · rintro ⟨block, hstored, hshown⟩
        obtain ⟨-, -, rfl⟩ := setClipboardData_eq_some.mp hstored
        exact absurd hshown.begins (hstb.begins _ _ himg)
      · rintro ⟨-, ⟨hpng', -⟩ | ⟨hbmp', -⟩⟩
        · exact absurd hpng' hpng
        · exact absurd hbmp' hbmp

/-- A PNG file of one pixel. -/
def dotPng : Bytes :=
  [0x89, 0x50, 0x4E, 0x47, 0x0D, 0x0A, 0x1A, 0x0A, 0x00, 0x00, 0x00, 0x0D, 0x49, 0x48, 0x44, 0x52,
    0x00, 0x00, 0x00, 0x01, 0x00, 0x00, 0x00, 0x01, 0x08, 0x06, 0x00, 0x00, 0x00, 0x1F, 0x15, 0xC4,
    0x89, 0x00, 0x00, 0x00, 0x10, 0x49, 0x44, 0x41, 0x54, 0x78, 0x01, 0x01, 0x05, 0x00, 0xFA, 0xFF,
    0x00, 0x0A, 0x14, 0x1E, 0xFF, 0x01, 0xA4, 0x01, 0x3C, 0xB4, 0xE4, 0xB8, 0x28, 0x00, 0x00, 0x00,
    0x00, 0x49, 0x45, 0x4E, 0x44, 0xAE, 0x42, 0x60, 0x82]

def dot (r g b : UInt8) : Image := ⟨1, 1, [r, g, b, 255], rfl⟩

/-- The decoder, on one file. -/
def decodes (file : Bytes) (img : Image) (data : Bytes) : Option Image := if data = file then some img else none

/-- Nothing fails. -/
def ready : Windows := ⟨fun _ => true, fun _ => true, true⟩

theorem stores_dot : Stores ready (decodes dotPng (dot 10 20 30)) (fun _ => none) dotPng := by
  have hdecoded : ∀ {data img}, decodes dotPng (dot 10 20 30) data = some img →
      data = dotPng ∧ img = dot 10 20 30 := by
    intro data img h
    unfold decodes at h
    split_ifs at h with hdata
    exact ⟨hdata, (Option.some.inj h).symm⟩
  have hstb : StbImage (decodes dotPng (dot 10 20 30)) := by
    refine ⟨fun data img h => ?_, fun data img h => ?_, fun data img h => ?_⟩
    · rw [(hdecoded h).1]
      decide
    · rw [(hdecoded h).2]
      decide
    · rw [(hdecoded h).2]
      decide
  exact (stores_iff _ hstb _ dotPng).mpr fun img _ => ⟨rfl, Or.inl ⟨by decide, rfl, rfl⟩⟩

/-- A portable graymap of one pixel. -/
def graymap : Bytes := ascii "P5 1 1 255\n" ++ [0x80]

/-- It is put on the clipboard as it is. -/
theorem graymap_lost : ¬ Stores ready (decodes graymap (dot 0x80 0x80 0x80)) (fun _ => none) graymap := by
  intro h
  obtain ⟨block, hstored, hshown⟩ := h (dot 0x80 0x80 0x80) (if_pos rfl)
  have hblock : clipboardSetImage ready (decodes graymap (dot 0x80 0x80 0x80)) graymap = some graymap := by
    decide
  obtain rfl := Option.some.inj (hstored.symm.trans hblock)
  exact absurd hshown.length (by decide)

end Formats

end SyncClipboard.SetImage
