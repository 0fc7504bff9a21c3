import SyncClipboard.FtProto

/-!
Every sender of a file is understood by every receiver, however the network cuts the stream.

There are three senders and three receivers: the two C functions for memory and for files, and
those of the Android client. All senders put the same bytes on the wire (`send_puts`), and each
receiver has the file of them (`receive_frame`). The C receivers take these bytes and no more. The
Android one drops its buffer at the end, with what it has read ahead.
-/

namespace SyncClipboard.FileWire

open Pieces FtAuth FtProto
open Client (Platform)

/-- A file id: 36 ASCII characters, none of which ends a C string. -/
structure FileId where
  bytes : Bytes
  length_eq : bytes.length = ftUuidLen
  chars : ∀ b ∈ bytes, b ≠ 0 ∧ b < 128

inductive Sender
  | ftSendFile
  /-- With what the file holds after the bytes to be sent. -/
  | ftSendFileFromPath (beyond : Bytes)
  | sendFile

/-- Whether the sender succeeds, and the socket afterwards. -/
def Sender.send (w : Wire) (fileId : FileId) (data : Bytes) : Sender → Bool × Wire
  | .ftSendFile =>
    let r := FtProto.ftSendFile w ⟨fileId.bytes, UInt64.ofNat data.length, data⟩
    (decide (r.1 = 0), r.2)
  | .ftSendFileFromPath beyond =>
    let r := FtProto.ftSendFileFromPath w fileId.bytes (UInt64.ofNat data.length)
      (some (data ++ beyond))
    (decide (r.1 = 0), r.2)
  | .sendFile => FtProto.sendFile w fileId.bytes data

inductive Receiver
  | ftRecvFile (platform : Platform) (maxSize : UInt64)
  | ftRecvFileToPath (maxSize : UInt64) (disk : Disk) (before : Option Bytes)
  | recvFileToPath (maxTransferBytes : ℤ) (disk : Disk) (before : Option Bytes)

def Receiver.limit : Receiver → ℤ
  | .ftRecvFile _ maxSize => maxSize.toNat
  | .ftRecvFileToPath maxSize _ _ => maxSize.toNat
  | .recvFileToPath maxTransferBytes _ _ => maxTransferBytes

/-- The file can be opened, and there is room for it. -/
def Receiver.Ready (n : ℕ) : Receiver → Prop
  | .ftRecvFile _ _ => True
  | .ftRecvFileToPath _ disk _ => disk.opens = true ∧ n ≤ disk.room
  | .recvFileToPath _ disk _ => disk.opens = true ∧ n ≤ disk.room

/-- What a successful receiver has: the bytes, for the C functions the id and the size, and what it
leaves on the socket. -/
structure Receipt where
  data : Bytes
  info : Option (Bytes × UInt64)
  left : Bytes

def Receiver.receive (pieces : List Bytes) : Receiver → Option Receipt
  | .ftRecvFile platform maxSize =>
    (FtProto.ftRecvFile platform maxSize pieces).map fun r =>
      ⟨r.1.data, some (r.1.fileId, r.1.fileSize), available r.2⟩
  | .ftRecvFileToPath maxSize disk before =>
    match FtProto.ftRecvFileToPath disk maxSize before pieces with
    | (some (info, rest), some file) =>
      some ⟨file, some (info.fileId, info.fileSize), available rest⟩
    | _ => none
  | .recvFileToPath maxTransferBytes disk before =>
    match FtProto.recvFileToPath disk maxTransferBytes before ⟨[], pieces⟩ with
    | (some (size, rest), some file) =>
      -- the buffer goes out of scope
      if 0 ≤ size then some ⟨file, none, available rest.pieces⟩ else none
    | _ => none

/-- What a receiver learns about the file besides its bytes. -/
def Receiver.info (fileId : Bytes) (size : UInt64) : Receiver → Option (Bytes × UInt64)
  | .recvFileToPath _ _ _ => none
  | _ => some (fileId, size)

/-- Of what follows the frame, a C receiver leaves all, and the Android one what it has not read ahead. -/
def Receiver.Leaves (more left : Bytes) : Receiver → Prop
  | .recvFileToPath _ _ _ => ∃ ahead, more = ahead ++ left ∧ ahead.length < tcpBufSize
  | _ => left = more

/-- The receiver has the file. -/
structure Receiver.Has (r : Receiver) (fileId : FileId) (data more : Bytes) (receipt : Receipt) : Prop where
  bytes : receipt.data = data
  described : receipt.info = r.info fileId.bytes (UInt64.ofNat data.length)
  leaves : r.Leaves more receipt.left

def frame (fileId : FileId) (data : Bytes) : Bytes :=
  header fileId.bytes (UInt64.ofNat data.length) ++ data

lemma frame_length (fileId : FileId) (data : Bytes) :
    (frame fileId data).length = 48 + data.length := by
  rw [frame, List.length_append, header_length fileId.length_eq]

lemma toNat_size {n : ℕ} (h : n < 2 ^ 64) : (UInt64.ofNat n).toNat = n := by
  rw [UInt64.toNat_ofNat']
  exact Nat.mod_eq_of_lt (by omega)

/-! ### The senders -/

lemma code_puts {w : Wire} {buf : Bytes} {more : ℕ} {r : Bool × Wire} (h : Puts w buf more r) :
    Puts w buf more (decide ((code r).1 = 0), (code r).2) := by
  obtain ⟨hok, hrest⟩ := h
  exact ⟨by simp [code, hok], hrest⟩

/-- **All senders put the same frame on the wire.** -/
theorem send_puts (s : Sender) (fileId : FileId) {data : Bytes} (h31 : data.length < 2 ^ 31)
    {w : Wire} (hw : Flows w.takes (48 + data.length)) :
    Puts w (frame fileId data) 0 (s.send w fileId data) := by
  have hheader : Puts w (header fileId.bytes (UInt64.ofNat data.length)) data.length
      (sendHeader w fileId.bytes (UInt64.ofNat data.length)) :=
    sendHeader_puts fileId.length_eq hw
  cases s with
  | ftSendFile =>
    refine code_puts (hheader.andThen fun w' hw' => ?_)
    exact sendAll_puts hw'
  | ftSendFileFromPath beyond =>
    have hchunks : ∀ w' : Wire, Flows w'.takes data.length →
        Puts w' data 0 (sendChunks (UInt64.ofNat data.length).toNat (data ++ beyond) w') := by
      intro w' hw'
      have hall : data.length ≤ (data ++ beyond).length := by simp
      have hflow : Flows w'.takes (data.length + 0) := hw'
      have h := sendChunks_puts hall hflow
      rwa [List.take_left, ← @toNat_size data.length (by omega)] at h
    exact code_puts (hheader.andThen hchunks)
  | sendFile =>
    have hpad : (fileId.bytes ++ List.replicate (ftUuidLen - fileId.bytes.length) 32).take ftUuidLen =
        fileId.bytes := by
      rw [← fileId.length_eq, List.take_left]
    show Puts w _ 0 (FtProto.sendFile w fileId.bytes data)
    rw [FtProto.sendFile, hpad]
    have hlen := frame_length fileId data
    refine sendAll_puts ?_
    rw [← hlen] at hw
    exact hw

/-! ### The receivers -/

lemma size_ne_zero {n : ℕ} (hpos : 1 ≤ n) (h64 : n < 2 ^ 64) : UInt64.ofNat n ≠ 0 := by
  intro h0
  have hn := toNat_size h64
  rw [h0] at hn
  simp at hn
  omega

lemma size_le {n : ℕ} {maxSize : UInt64} (h64 : n < 2 ^ 64) (h : (n : ℤ) ≤ maxSize.toNat) :
    UInt64.ofNat n ≤ maxSize := by
  rw [UInt64.le_iff_toNat_le, toNat_size h64]
  exact_mod_cast h

lemma toLong_size {n : ℕ} (h31 : n < 2 ^ 31) : toLong (UInt64.ofNat n) = n := by
  have hn := @toNat_size n (by omega)
  rw [toLong, BitVec.toInt_eq_toNat_of_lt]
  · exact congrArg Int.ofNat hn
  · show 2 * (UInt64.ofNat n).toNat < 2 ^ 64
    omega

section Takes

variable {fileId : FileId} {data more : Bytes} {pieces : List Bytes} {platform : Platform} {maxSize : UInt64}
  {disk : Disk}

lemma ftRecvFile_takes (hpos : 1 ≤ data.length) (hlimit : (data.length : ℤ) ≤ maxSize.toNat)
    (hlong : data.length < tooLong platform)
    (h : available pieces = header fileId.bytes (UInt64.ofNat data.length) ++ (data ++ more)) :
    ∃ s', FtProto.ftRecvFile platform maxSize pieces =
      some (⟨fileId.bytes, UInt64.ofNat data.length, data⟩, s') ∧ available s' = more := by
  have hchars : ∀ b ∈ fileId.bytes, b ≠ 0 := fun b hb => (fileId.chars b hb).1
  have h64 : data.length < 2 ^ 64 := by
    cases platform <;> simp only [tooLong] at hlong <;> omega
  obtain ⟨s, hhead, hs⟩ := recvHeader_of_stream fileId.length_eq hchars (size_ne_zero hpos h64)
    (size_le h64 hlimit) h
  obtain ⟨s', hread, hs'⟩ := direct.read_append hs
  simp only [direct] at hread
  rw [← ftRecvAll_eq_readAll hlong, ← toNat_size h64] at hread
  refine ⟨s', ?_, hs'⟩
  simp only [FtProto.ftRecvFile, hhead, hread, bind, Option.bind]

lemma ftRecvFileToPath_takes (hpos : 1 ≤ data.length) (hlimit : (data.length : ℤ) ≤ maxSize.toNat)
    (h64 : data.length < 2 ^ 64) (hopens : disk.opens = true) (hroom : data.length ≤ disk.room)
    (before : Option Bytes)
    (h : available pieces = header fileId.bytes (UInt64.ofNat data.length) ++ (data ++ more)) :
    ∃ s', FtProto.ftRecvFileToPath disk maxSize before pieces =
      (some (⟨fileId.bytes, UInt64.ofNat data.length, []⟩, s'), some data) ∧
        available s' = more := by
  have hchars : ∀ b ∈ fileId.bytes, b ≠ 0 := fun b hb => (fileId.chars b hb).1
  obtain ⟨s, hhead, hs⟩ := recvHeader_of_stream fileId.length_eq hchars (size_ne_zero hpos h64)
    (size_le h64 hlimit) h
  have hroom' : ([] : Bytes).length + data.length ≤ disk.room := by simpa using hroom
  obtain ⟨s', hrecv, hs'⟩ := recvChunks_of_stream direct hroom' hs
  rw [← toNat_size h64] at hrecv
  refine ⟨s', ?_, hs'⟩
  simp only [FtProto.ftRecvFileToPath, hhead, hopens, Bool.true_eq_false, if_false, hrecv,
    List.nil_append]

lemma recvFileToPath_takes {maxTransferBytes : ℤ} (hpos : 1 ≤ data.length)
    (hlimit : (data.length : ℤ) ≤ maxTransferBytes) (h31 : data.length < 2 ^ 31)
    (hopens : disk.opens = true) (hroom : data.length ≤ disk.room) (before : Option Bytes)
    (h : available pieces = header fileId.bytes (UInt64.ofNat data.length) ++ (data ++ more)) :
    ∃ s', FtProto.recvFileToPath disk maxTransferBytes before ⟨[], pieces⟩ =
      (some ((data.length : ℤ), s'), some data) ∧ s'.stream = more := by
  have hstream : inputStream.stream ⟨[], pieces⟩ =
      header fileId.bytes (UInt64.ofNat data.length) ++ (data ++ more) := h
  obtain ⟨s₁, s₂, s₃, hread₁, hread₂, hread₃, h₃⟩ :=
    read_header inputStream fileId.length_eq hstream
  have hroom' : ([] : Bytes).length + data.length ≤ disk.room := by simpa using hroom
  obtain ⟨s', hrecv, hs'⟩ := recvChunks_of_stream inputStream hroom' h₃
  have hlong := toLong_size h31
  have hok : ¬ (maxTransferBytes < (data.length : ℤ) ∨ (data.length : ℤ) ≤ 0) := by omega
  have hmagic : ftMagic = ascii "SYNC" := rfl
  refine ⟨s', ?_, hs'⟩
  simp only [FtProto.recvFileToPath, hread₁, hread₂, hread₃, hmagic, sizeValue_sizeBytes, hlong,
    if_neg hok, hopens, ne_eq, not_true_eq_false, if_false, Bool.true_eq_false,
    Int.toNat_natCast, hrecv, List.nil_append]

/-- The buffer of the Android receiver is never full. -/
lemma recvFileToPath_ahead {maxTransferBytes size : ℤ} {before file : Option Bytes} {s' : Buffered UInt8}
    (h : FtProto.recvFileToPath disk maxTransferBytes before ⟨[], pieces⟩ = (some (size, s'), file)) :
    s'.buf.length < tcpBufSize := by
  refine @recvFileToPath_keeps (fun s => s.buf.length < tcpBufSize) ?_ _ _ _ _ _ _ _ h (by decide : 0 < 512 * 1024)
  intro len s data s' hread hs
  exact @Buffered.readFully_keeps _ _ _ (fun s => s.buf.length < tcpBufSize)
    (fun _ _ _ _ hlen hread => Buffered.read1_buf_lt hlen hread) _ _ _ _ hread hs

/-- What arrives in one piece with the frame is read ahead, if the buffer has room for all of it. -/
lemma recvFileToPath_one_piece {p : Bytes} (hp : p.length ≤ tcpBufSize) {maxTransferBytes size : ℤ}
    {before file : Option Bytes} {s' : Buffered UInt8}
    (h : FtProto.recvFileToPath disk maxTransferBytes before ⟨[], [p]⟩ = (some (size, s'), file)) :
    s'.pieces = [] ∨ s' = ⟨[], [p]⟩ := by
  refine @recvFileToPath_keeps (fun s => s.pieces = [] ∨ s = ⟨[], [p]⟩) ?_ _ _ _ _ _ _ _ h (.inr rfl)
  intro len s data s' hread hs
  exact @Buffered.readFully_keeps _ _ _ (fun s => s.pieces = [] ∨ s = ⟨[], [p]⟩)
    (fun _ _ _ _ _ hread hs => .inl (Buffered.read1_single hp hread hs)) _ _ _ _ hread hs

end Takes

/-- **Every receiver has the file of a frame.** -/
theorem receive_frame (r : Receiver) (fileId : FileId) {data : Bytes} (hpos : 1 ≤ data.length)
    (hlimit : (data.length : ℤ) ≤ r.limit) (h31 : data.length < 2 ^ 31)
    (hready : r.Ready data.length) {pieces : List Bytes} {more : Bytes}
    (h : available pieces = frame fileId data ++ more) :
    ∃ receipt, r.receive pieces = some receipt ∧ r.Has fileId data more receipt := by
  rw [frame, List.append_assoc] at h
  cases r with
  | ftRecvFile platform maxSize =>
    obtain ⟨s', hrecv, rfl⟩ := ftRecvFile_takes hpos hlimit (lt_tooLong h31 platform) h
    refine ⟨⟨data, _, available s'⟩, ?_, rfl, rfl, rfl⟩
    show Option.map _ (FtProto.ftRecvFile platform maxSize pieces) = _
    rw [hrecv]
    rfl
  | ftRecvFileToPath maxSize disk before =>
    obtain ⟨s', hrecv, rfl⟩ := ftRecvFileToPath_takes hpos hlimit (by omega) hready.1 hready.2 before h
    refine ⟨⟨data, _, available s'⟩, ?_, rfl, rfl, rfl⟩
    simp only [Receiver.receive, hrecv]
  | recvFileToPath maxTransferBytes disk before =>
    have hle : (data.length : ℤ) ≤ maxTransferBytes := hlimit
    obtain ⟨s', hrecv, rfl⟩ := recvFileToPath_takes hpos hle h31 hready.1 hready.2 before h
    refine ⟨⟨data, none, available s'.pieces⟩, ?_, rfl, rfl, s'.buf, rfl, recvFileToPath_ahead hrecv⟩
    simp only [Receiver.receive, hrecv, Int.natCast_nonneg, if_true]

/-- **A receiver that succeeds has the payload of a frame**, whoever sent it. -/
theorem receive_eq_some (r : Receiver) {pieces : List Bytes} {receipt : Receipt}
    (h : r.receive pieces = some receipt) :
    Frame r.limit.toNat (available pieces) receipt.data := by
  cases r with
  | ftRecvFile platform maxSize =>
    obtain ⟨⟨info, rest⟩, hrecv, rfl⟩ := Option.map_eq_some_iff.mp h
    exact ftRecvFile_frame hrecv
  | ftRecvFileToPath maxSize disk before =>
    simp only [Receiver.receive] at h
    split at h
    · next info rest file hrecv =>
      cases h
      obtain ⟨payload, hfile, hframe⟩ := ftRecvFileToPath_frame hrecv
      cases hfile
      exact hframe
    · cases h
  | recvFileToPath maxTransferBytes disk before =>
    simp only [Receiver.receive] at h
    split at h
    · next size rest file hrecv =>
      split_ifs at h with hsize
      cases h
      obtain ⟨payload, hfile, hframe⟩ := recvFileToPath_frame hrecv hsize
      cases hfile
      exact hframe
    · cases h

/-- **Any sender with any receiver**: the sender succeeds, and of whatever stream begins with what
it sent, in whatever pieces, the receiver has the file. -/
theorem transfer_interop (s : Sender) (r : Receiver) (fileId : FileId) (data : Bytes)
    (hpos : 1 ≤ data.length) (hlimit : (data.length : ℤ) ≤ r.limit) (h31 : data.length < 2 ^ 31)
    (hready : r.Ready data.length) (w : Wire) (hw : Flows w.takes (48 + data.length)) :
    ∃ sent : Bytes, (s.send w fileId data).1 = true ∧
      (s.send w fileId data).2.sent = w.sent ++ sent ∧ sent.length = 48 + data.length ∧
      ∀ pieces more, available pieces = sent ++ more →
        ∃ receipt, r.receive pieces = some receipt ∧ r.Has fileId data more receipt := by
  obtain ⟨hok, hsent, -⟩ := send_puts s fileId h31 hw
  exact ⟨frame fileId data, hok, hsent, frame_length fileId data,
    fun pieces more h => receive_frame r fileId hpos hlimit h31 hready h⟩

def sampleId : FileId := ⟨sampleFileId, by decide +kernel, by decide +kernel⟩

/-- Three bytes from a longer file on Linux to Android, sent one by one. -/
theorem transfer_interop_three :
    ∃ sent : Bytes,
      ((Sender.ftSendFileFromPath [4]).send ⟨List.replicate 51 1, []⟩ sampleId [1, 2, 3]).1 = true ∧
      ((Sender.ftSendFileFromPath [4]).send ⟨List.replicate 51 1, []⟩ sampleId [1, 2, 3]).2.sent =
        [] ++ sent ∧ sent.length = 51 ∧
      ∀ pieces more, available pieces = sent ++ more →
        ∃ receipt, (Receiver.recvFileToPath 1000 ⟨true, 1000⟩ none).receive pieces = some receipt ∧
          (Receiver.recvFileToPath 1000 ⟨true, 1000⟩ none).Has sampleId [1, 2, 3] more receipt :=
  transfer_interop (.ftSendFileFromPath [4]) (.recvFileToPath 1000 ⟨true, 1000⟩ none) sampleId
    [1, 2, 3] (by decide) (by decide) (by decide) ⟨rfl, by decide⟩ ⟨List.replicate 51 1, []⟩
    ⟨by simp, by simp⟩

/-- **The Android receiver reads ahead**: a byte that arrives with the frame is gone. -/
theorem android_reads_ahead :
    (Receiver.recvFileToPath 1000 ⟨true, 1000⟩ none).receive [frame sampleId [1, 2, 3] ++ [4]] =
      some ⟨[1, 2, 3], none, []⟩ := by
  have hlen : (frame sampleId [1, 2, 3] ++ [4]).length = 52 := by
    rw [List.length_append, frame_length]
    rfl
  have hne : frame sampleId [1, 2, 3] ++ [4] ≠ [] := by
    intro hnil
    rw [hnil] at hlen
    cases hlen
  have hstream : available [frame sampleId [1, 2, 3] ++ [4]] =
      header sampleId.bytes (UInt64.ofNat 3) ++ ([1, 2, 3] ++ [4]) := by
    rw [available_cons hne, frame, List.append_assoc, List.append_assoc]
    rfl
  obtain ⟨s', hrecv, hleft⟩ := @recvFileToPath_takes sampleId [1, 2, 3] [4] _ ⟨true, 1000⟩ 1000 (by decide)
    (by decide) (by decide) rfl (by decide) none hstream
  have hnothing : s'.pieces = [] := by
    rcases recvFileToPath_one_piece (by rw [hlen]; decide) hrecv with hnil | rfl
    · exact hnil
    · have hcount := congrArg List.length hleft
      rw [Buffered.stream, available_cons hne, List.nil_append, List.length_append, hlen,
        List.length_singleton] at hcount
      omega
  simp only [Receiver.receive, hrecv, hnothing]
  rfl

end SyncClipboard.FileWire
