import SyncClipboard.AuthRequired
import SyncClipboard.ConfigLines
import SyncClipboard.Received

/-!
The configured size of a file.

`max_transfer_size` is a signed number of megabytes to a sender, and goes to the receivers as an unsigned
number of bytes. Both mean the same as long as it is not negative, and nothing keeps it from being negative.
Nothing keeps it from being so large either that `ft_recv_all` cannot count the bytes of a file in its
`int` (`cap_iff`).
-/

namespace SyncClipboard.SizeCap

open FtAuth CString Pieces FtProto FileWire Client Config ConfigLines
open AuthRequired (options)
open Received (maxFileSize)

/-- The check of `process_clipboard_change` and `on_clipboard_changed`. -/
def Admits (opt : Options) (fsize : ℤ) : Prop := ¬ (fsize ≤ 0 ∨ 1024 * 1024 * opt.maxTransferSize ≤ fsize)

/-- **The receive cap is the configured one.** -/
structure CapHolds (opt : Options) : Prop where
  ftRecvFile : ∀ s info s', ftRecvFile opt.platform (maxFileSize opt) s = some (info, s') →
    1 ≤ info.fileSize.toNat ∧ (info.fileSize.toNat : ℤ) ≤ opt.maxTransferSize * 2 ^ 20
  ftRecvFileToPath : ∀ disk before s info s' file,
    ftRecvFileToPath disk (maxFileSize opt) before s = (some (info, s'), file) →
      1 ≤ info.fileSize.toNat ∧ (info.fileSize.toNat : ℤ) ≤ opt.maxTransferSize * 2 ^ 20
  /-- What a sender admits is received, by `ft_recv_file` and where there is room by `ft_recv_file_to_path`. -/
  admitted : ∀ (fileId : FileId) (data more : Bytes) (s : List Bytes), Admits opt data.length →
    available s = frame fileId data ++ more →
      (∃ s', FtProto.ftRecvFile opt.platform (maxFileSize opt) s =
        some (⟨fileId.bytes, UInt64.ofNat data.length, data⟩, s')) ∧
      ∀ disk before, disk.opens = true → data.length ≤ disk.room →
        ∃ s', FtProto.ftRecvFileToPath disk (maxFileSize opt) before s =
          (some (⟨fileId.bytes, UInt64.ofNat data.length, []⟩, s'), some data)

/-- The largest size, in megabytes, with which every admitted file can be received. -/
def largest : Platform → ℤ
  | .linux => 4096
  | .windows => 2048

/-! ### The number -/

lemma toNat_maxFileSize (opt : Options) (hlo : -2 ^ 31 ≤ opt.maxTransferSize) (hhi : opt.maxTransferSize < 2 ^ 31) :
    ((maxFileSize opt).toNat : ℤ) =
      if 0 ≤ opt.maxTransferSize then opt.maxTransferSize * 2 ^ 20 else 2 ^ 64 + opt.maxTransferSize * 2 ^ 20 := by
  unfold maxFileSize
  generalize opt.maxTransferSize = m at *
  have hofInt : ((UInt64.ofInt m).toNat : ℤ) = m % 2 ^ 64 := by
    rw [UInt64.ofInt, UInt64.toNat_ofNat']
    omega
  rw [UInt64.toNat_mul, UInt64.toNat_mul]
  change (((UInt64.ofInt m).toNat * 1024 % 2 ^ 64 * 1024 % 2 ^ 64 : ℕ) : ℤ) = _
  split_ifs <;> omega

lemma maxTransferSize_range (platform : Platform) (file : Option Bytes) :
    -2 ^ 31 ≤ (configLoad platform file).1.maxTransferSize ∧
      (configLoad platform file).1.maxTransferSize < 2 ^ 31 := by
  have hdefault : (-2 ^ 31 : ℤ) ≤ 500 ∧ (500 : ℤ) < 2 ^ 31 := by decide
  cases file with
  | none => exact hdefault
  | some content =>
    have hfield := (number_belongs platform).2.2.1.assignAll
      ((fgetsLines 1023 [] (readText platform content)).filterMap setting) configSetDefaults
    rw [← after_eq] at hfield
    change (configLoad platform (some content)).1.maxTransferSize = _ at hfield
    rw [hfield]
    cases lastOf (ascii "max_transfer_size")
        ((fgetsLines 1023 [] (readText platform content)).filterMap setting) with
    | none => exact hdefault
    | some val =>
      have hlo := @Int.le_bmod (strtol (longBits platform) val) (2 ^ 32) (by decide)
      have hhi := @Int.bmod_lt (strtol (longBits platform) val) (2 ^ 32) (by decide)
      simp only [Option.map_some, Option.getD_some, atoi]
      omega

/-! ### The receivers -/

section Receivers

variable {platform : Platform} {maxSize : UInt64} {s s' : List Bytes} {info : FtFileInfo}

lemma ftRecvFile_size (h : ftRecvFile platform maxSize s = some (info, s')) :
    0 < info.fileSize.toNat ∧ info.fileSize.toNat ≤ maxSize.toNat := by
  obtain ⟨s₁, hheader, -, -⟩ := ftRecvFile_eq_some h
  obtain ⟨-, -, -, -, -, -, hpos, hle⟩ := recvHeader_eq_some hheader
  exact ⟨hpos, hle⟩

lemma ftRecvFileToPath_size {disk : Disk} {before file : Option Bytes}
    (h : ftRecvFileToPath disk maxSize before s = (some (info, s'), file)) :
    0 < info.fileSize.toNat ∧ info.fileSize.toNat ≤ maxSize.toNat := by
  obtain ⟨s₁, data, hheader, -⟩ := ftRecvFileToPath_eq_some h
  obtain ⟨-, -, -, -, -, -, hpos, hle⟩ := recvHeader_eq_some hheader
  exact ⟨hpos, hle⟩

/-- A frame of one byte. -/
def oneByte : Bytes := frame sampleId [0]

lemma ftRecvFile_oneByte (h : 1 ≤ maxSize.toNat) :
    ∃ info s', FtProto.ftRecvFile platform maxSize [oneByte] = some (info, s') := by
  have havailable : available [oneByte] = oneByte ++ [] := rfl
  obtain ⟨s', hrecv, -⟩ := @ftRecvFile_takes sampleId [0] [] [oneByte] platform maxSize (by decide)
    (by exact_mod_cast h) (lt_tooLong (by decide) platform) havailable
  exact ⟨_, s', hrecv⟩

end Receivers

lemma tooLong_eq (platform : Platform) : (tooLong platform : ℤ) = largest platform * 2 ^ 20 := by
  cases platform <;> rfl

/-- With a larger size there is a file that is admitted and not received. -/
lemma CapHolds.le_largest {opt : Options} (h : CapHolds opt) : opt.maxTransferSize ≤ largest opt.platform := by
  by_contra hlarge
  have hlong := tooLong_eq opt.platform
  have hpos : (0 : ℤ) ≤ largest opt.platform := by cases opt.platform <;> decide
  set data : Bytes := List.replicate (tooLong opt.platform) 0 with hdata
  have hlen : data.length = tooLong opt.platform := List.length_replicate
  have hadmits : Admits opt data.length := by
    rw [Admits, hlen, hlong]
    have hone : 0 < largest opt.platform := by cases opt.platform <;> decide
    omega
  have hne : frame sampleId data ≠ [] := by
    intro hnil
    have hcount := frame_length sampleId data
    rw [hnil, List.length_nil] at hcount
    omega
  have havailable : available [frame sampleId data] = frame sampleId data ++ [] := available_cons hne []
  obtain ⟨s', hrecv⟩ := (h.admitted sampleId data [] _ hadmits havailable).1
  obtain ⟨-, -, hshort, -⟩ := ftRecvFile_eq_some hrecv
  have h64 : data.length < 2 ^ 64 := by
    rw [hlen]
    cases opt.platform <;> decide
  rw [toNat_size h64, hlen] at hshort
  exact Nat.lt_irrefl _ hshort

/-- **The cap holds** exactly if the configured size is not negative, and not too large for `ft_recv_all`. -/
theorem cap_iff (platform : Platform) (file : Option Bytes) :
    CapHolds (options platform (configLoad platform file).1) ↔
      0 ≤ (configLoad platform file).1.maxTransferSize ∧
        (configLoad platform file).1.maxTransferSize ≤ largest platform := by
  obtain ⟨hlo, hhi⟩ := maxTransferSize_range platform file
  have hcap := toNat_maxFileSize (options platform (configLoad platform file).1) hlo hhi
  have hsize : (options platform (configLoad platform file).1).maxTransferSize =
      (configLoad platform file).1.maxTransferSize := rfl
  have hplatform : (options platform (configLoad platform file).1).platform = platform := rfl
  generalize options platform (configLoad platform file).1 = opt at *
  rw [← hsize] at hlo hhi ⊢
  constructor
  · intro h
    have hlarge := h.le_largest
    rw [hplatform] at hlarge
    refine ⟨?_, hlarge⟩
    by_contra hneg
    rw [if_neg hneg] at hcap
    -- almost everything is received, and one byte is too much
    obtain ⟨info, s', hrecv⟩ := @ftRecvFile_oneByte opt.platform (maxFileSize opt) (by omega)
    have hle := (h.ftRecvFile _ _ _ hrecv).2
    omega
  · rintro ⟨hpos, hlarge⟩
    rw [if_pos hpos] at hcap
    refine ⟨fun s info s' hrecv => ?_, fun disk before s info s' file hrecv => ?_, ?_⟩
    · obtain ⟨hone, hle⟩ := ftRecvFile_size hrecv
      exact ⟨hone, by omega⟩
    · obtain ⟨hone, hle⟩ := ftRecvFileToPath_size hrecv
      exact ⟨hone, by omega⟩
    · intro fileId data more s hadmits havailable
      unfold Admits at hadmits
      rw [frame, List.append_assoc] at havailable
      have hlong : data.length < tooLong opt.platform := by
        have heq := tooLong_eq opt.platform
        rw [hplatform] at heq ⊢
        omega
      refine ⟨?_, fun disk before hopens hroom => ?_⟩
      · obtain ⟨s', hrecv, -⟩ := @ftRecvFile_takes fileId data more s opt.platform (maxFileSize opt) (by omega)
          (by omega) hlong havailable
        exact ⟨s', hrecv⟩
      · obtain ⟨s', hrecv, -⟩ := @ftRecvFileToPath_takes fileId data more s (maxFileSize opt) disk (by omega) (by omega)
          (by omega) hopens hroom before havailable
        exact ⟨s', hrecv⟩

/-- A configuration with all that is required, and a negative size. -/
def negative : Bytes :=
  ascii "server_host=h\nserver_key=k\nusername=u\npassword=p\ndevice_id=d\nmax_transfer_size=-1\naes_key=" ++
    List.replicate 64 48

/-- It is accepted, and a file of any size up to 2 ^ 64 - 2 ^ 20 with it. -/
theorem negative_accepted : (configLoad .linux (some negative)).2 = 0 ∧
    ¬ CapHolds (options .linux (configLoad .linux (some negative)).1) := by
  have hload : (configLoad .linux (some negative)).2 = 0 ∧
      (configLoad .linux (some negative)).1.maxTransferSize = -1 := by decide +kernel
  refine ⟨hload.1, fun h => ?_⟩
  have hcap : 1 ≤ (maxFileSize (options .linux (configLoad .linux (some negative)).1)).toNat := by
    unfold maxFileSize options
    rw [hload.2]
    decide
  obtain ⟨info, s', hrecv⟩ := @ftRecvFile_oneByte .linux _ hcap
  have hle := (h.ftRecvFile _ _ _ hrecv).2
  have hsize : (options .linux (configLoad .linux (some negative)).1).maxTransferSize = -1 := hload.2
  rw [hsize] at hle
  omega

end SyncClipboard.SizeCap
