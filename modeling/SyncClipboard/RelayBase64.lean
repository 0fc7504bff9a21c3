import Mathlib.Data.List.GetD
import SyncClipboard.Crypto

/-!
The data of a relayed file, as base64.

`EVP_DecodeBlock` makes three bytes of every four characters, the padding too. How many of them are data
is read off the end of the text. Whatever was encoded on either side is found again, with its length.
-/

namespace SyncClipboard.RelayBase64

open FtAuth
open Crypto (cString cString_append_zero cString_encode toInt toInt_of_lt)

structure Evp where
  /-- `EVP_EncodeBlock`: the text it writes, before the zero that it puts behind it -/
  encodeBlock : Bytes → ℤ → Bytes
  /-- `EVP_DecodeBlock`: the bytes it writes; `none` is a negative result -/
  decodeBlock : Bytes → ℤ → Option Bytes
  /-- `android.util.Base64.encodeToString` with `NO_WRAP` -/
  encodeToString : Bytes → Bytes

/-- Documented behaviour: both encoders write standard padded base64, and the decoder makes three bytes of
four characters. -/
structure Evp.Documented (evp : Evp) : Prop where
  encode : ∀ (data : Bytes) (len : ℕ), len ≤ data.length →
    evp.encodeBlock data len = Base64.encode (data.take len)
  decode : ∀ d rest, ∃ fill, fill.length = (3 - d.length % 3) % 3 ∧
    evp.decodeBlock (Base64.encode d ++ rest) (Base64.encode d).length = some (d ++ fill)
  android : ∀ data, evp.encodeToString data = Base64.encode data

variable (evp : Evp)

/-- What is returned: nothing, or the content of a block and the length that is reported for it. -/
inductive Block
  | null
  | block (content : Bytes) (outLen : ℕ)
  /-- something was written outside the block -/
  | outside
  deriving DecidableEq

/-! ### ft_b64_sha.c -/

def ftBase64Encode (data : Bytes) : Block :=
  let b64Len := (4 * ((data.length + 2) % 2 ^ 64 / 3) + 1) % 2 ^ 64
  let text := evp.encodeBlock data (toInt data.length)
  if text.length + 1 ≤ b64Len then .block (text ++ [0]) text.length else .outside

def ftBase64Decode (b64 : Bytes) (b64Len : ℕ) : Block :=
  let maxLen := 3 * b64Len % 2 ^ 64 / 4 + 1
  match evp.decodeBlock b64 (toInt b64Len) with
  | none => .null
  | some data =>
    if maxLen < data.length then .outside
    else
      let n : ℤ := data.length
      let n := if 1 < b64Len ∧ b64.getD (b64Len - 1) 0 = 61 then n - 1 else n
      let n := if 2 < b64Len ∧ b64.getD (b64Len - 2) 0 = 61 then n - 1 else n
      .block data (n % 2 ^ 64).toNat

/-- The handler of `file_relay_data` decodes the string it finds in the message. -/
def relayData (b64 : Bytes) : Block := ftBase64Decode evp b64 (cString b64).length

/-! ### FileTransferManager.kt -/

def base64Encode (data : Bytes) : Bytes := evp.encodeToString data

/-! ### The end of the text -/

lemma getD_encode (d rest : Bytes) {k : ℕ} (hk : 0 < k) (hlen : k ≤ (Base64.encode d).length) :
    (Base64.encode d ++ rest).getD ((Base64.encode d).length - k) 0 = 61 ↔
      k ≤ (3 - d.length % 3) % 3 := by
  have hlt : (Base64.encode d).length - k < (Base64.encode d).length := by omega
  rw [List.getD_append _ _ _ _ hlt]
  have heq := Base64.encode_eq d
  generalize (3 - d.length % 3) % 3 = p at heq ⊢
  rw [heq] at hlt hlen ⊢
  rw [List.length_append, List.length_map, List.length_replicate] at hlt hlen ⊢
  by_cases hp : k ≤ p
  · -- among the padding
    rw [List.getD_append_right _ _ _ _ (by rw [List.length_map]; omega), List.length_map]
    refine iff_of_true ?_ hp
    rw [List.getD_replicate _ (by omega)]
    rfl
  · -- among the symbols
    refine iff_of_false ?_ hp
    have hin : (Base64.sextets d).length + p - k < ((Base64.sextets d).map Base64.symbol).length := by
      rw [List.length_map]
      omega
    rw [List.getD_append _ _ _ _ hin, List.getD_eq_getElem _ _ hin, List.getElem_map]
    exact (Base64.symbol_ne (Base64.sextets_lt (List.getElem_mem _))).1

/-! ### Round trip -/

section RoundTrip

variable {evp} (hevp : evp.Documented) {d : Bytes} (hd : 4 * ((d.length + 2) / 3) < 2 ^ 31)

include hevp hd

lemma ftBase64Encode_eq :
    ftBase64Encode evp d = .block (Base64.encode d ++ [0]) (Base64.encode d).length := by
  have hlen := Base64.length_encode d
  have hint : toInt d.length = d.length := toInt_of_lt (by omega)
  have hroom : (4 * ((d.length + 2) % 2 ^ 64 / 3) + 1) % 2 ^ 64 = 4 * ((d.length + 2) / 3) + 1 := by
    rw [Nat.mod_eq_of_lt (show d.length + 2 < 2 ^ 64 by omega), Nat.mod_eq_of_lt (by omega)]
  unfold ftBase64Encode
  dsimp only
  rw [hint, hevp.encode d d.length (Nat.le_refl _), List.take_length, hroom, if_pos (by omega)]

/-- **The data is found again**, and its length. -/
lemma relayData_eq : ∃ fill, relayData evp (Base64.encode d ++ [0]) = .block (d ++ fill) d.length := by
  have hlen := Base64.length_encode d
  have hstrlen : cString (Base64.encode d ++ [0]) = Base64.encode d :=
    (cString_append_zero _ []).trans (cString_encode d)
  obtain ⟨fill, hfill, hdecode⟩ := hevp.decode d [0]
  have hint : toInt (Base64.encode d).length = (Base64.encode d).length := toInt_of_lt (by omega)
  have hsum : (d ++ fill).length = d.length + fill.length := List.length_append
  have hroom : 3 * (Base64.encode d).length % 2 ^ 64 = 3 * (Base64.encode d).length :=
    Nat.mod_eq_of_lt (by omega)
  refine ⟨fill, ?_⟩
  unfold relayData ftBase64Decode
  rw [hstrlen, hint, hdecode]
  dsimp only
  rw [hroom, if_neg (by omega), hsum]
  -- how many characters of padding there are
  have hlast : 1 < (Base64.encode d).length ∧
      (Base64.encode d ++ [0]).getD ((Base64.encode d).length - 1) 0 = 61 ↔ 1 ≤ fill.length := by
    constructor
    · rintro ⟨hlong, hpad⟩
      rwa [getD_encode d [0] (by omega) (by omega), ← hfill] at hpad
    · intro hpad
      exact ⟨by omega, (getD_encode d [0] (by omega) (by omega)).mpr (by omega)⟩
  have hsecond : 2 < (Base64.encode d).length ∧
      (Base64.encode d ++ [0]).getD ((Base64.encode d).length - 2) 0 = 61 ↔ 2 ≤ fill.length := by
    constructor
    · rintro ⟨hlong, hpad⟩
      rwa [getD_encode d [0] (by omega) (by omega), ← hfill] at hpad
    · intro hpad
      exact ⟨by omega, (getD_encode d [0] (by omega) (by omega)).mpr (by omega)⟩
  refine congrArg (Block.block (d ++ fill)) ?_
  simp only [hlast, hsecond]
  split_ifs <;> omega

end RoundTrip

/-- **Round trip of a relayed file.** What the C clients or Android encode is decoded to the same bytes, with
their length, inside the blocks. -/
theorem relay_round_trip {evp : Evp} (hevp : evp.Documented) (d : Bytes)
    (hd : 4 * ((d.length + 2) / 3) < 2 ^ 31) :
    (∃ b64 len fill, ftBase64Encode evp d = .block b64 len ∧ len = (cString b64).length ∧
      ftBase64Decode evp b64 len = .block (d ++ fill) d.length) ∧
    ∃ fill, relayData evp (base64Encode evp d ++ [0]) = .block (d ++ fill) d.length := by
  obtain ⟨fill, hdecode⟩ := relayData_eq hevp hd
  have hstrlen : cString (Base64.encode d ++ [0]) = Base64.encode d :=
    (cString_append_zero _ []).trans (cString_encode d)
  refine ⟨⟨Base64.encode d ++ [0], (Base64.encode d).length, fill, ftBase64Encode_eq hevp hd, ?_, ?_⟩,
    fill, ?_⟩
  · rw [hstrlen]
  · rwa [relayData, hstrlen] at hdecode
  · rwa [base64Encode, hevp.android]

/-- OpenSSL and Android on standard padded base64. -/
def sampleEvp : Evp where
  encodeBlock data len := Base64.encode (data.take len.toNat)
  decodeBlock text len :=
    (Base64.decode (text.take len.toNat)).map fun d => d ++ List.replicate ((3 - d.length % 3) % 3) 0
  encodeToString := Base64.encode

lemma sampleEvp_documented : sampleEvp.Documented where
  encode data len _ := by simp [sampleEvp]
  decode d rest := by
    refine ⟨List.replicate ((3 - d.length % 3) % 3) 0, List.length_replicate, ?_⟩
    simp [sampleEvp, Base64.decode_encode]
  android data := rfl

theorem relay_round_trip_four :
    (∃ b64 len fill, ftBase64Encode sampleEvp [77, 97, 110, 255] = .block b64 len ∧
      len = (cString b64).length ∧
      ftBase64Decode sampleEvp b64 len = .block ([77, 97, 110, 255] ++ fill) 4) ∧
    ∃ fill, relayData sampleEvp (base64Encode sampleEvp [77, 97, 110, 255] ++ [0]) =
      .block ([77, 97, 110, 255] ++ fill) 4 :=
  relay_round_trip sampleEvp_documented [77, 97, 110, 255] (by decide)

end SyncClipboard.RelayBase64
