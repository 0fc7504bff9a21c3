import SyncClipboard.PartialIo
import Mathlib.Data.List.TakeWhile

/-!
A file on the wire: `SYNC`, the 36 bytes of the file id, the size in eight bytes, then the data.

The C functions read and write the socket directly, the Android ones through a buffer of Java. What
a socket is given and gives is cut into pieces by the network. A file on disk is the list of its
bytes; it cannot be opened, or has room for so many bytes. Allocations succeed.
-/

namespace SyncClipboard.FtProto

open Pieces FtAuth
open Client (Platform)
open PartialIo (request request_of_lt bmod_int)

def ftMagic : Bytes := ascii "SYNC"

def ftUuidLen : ℕ := 36

def ftChunkSize : ℕ := 256 * 1024

/-- `FtFileInfo`, as far as it is sent; `data` is empty where the code has `NULL`. -/
structure FtFileInfo where
  fileId : Bytes
  fileSize : UInt64
  data : Bytes
  deriving DecidableEq

/-! ### The size -/

/-- The loop that fills `sb` from its end. -/
def sizeLoop : ℕ → UInt64 → Bytes → Bytes
  | 0, _, sb => sb
  | i + 1, fs, sb => sizeLoop i (fs >>> 8) ((fs &&& 0xFF).toUInt8 :: sb)

def sizeBytes (fs : UInt64) : Bytes := sizeLoop 8 fs []

/-- One turn of the loop that reads `sb`. -/
def shiftIn (fs : UInt64) (b : UInt8) : UInt64 := (fs <<< 8) ||| b.toUInt64

def sizeValue (sb : Bytes) : UInt64 := sb.foldl shiftIn 0

/-! ### Sending -/

/-- A socket that is written to: how much each call takes, and what has been sent. -/
structure Wire where
  takes : List ℕ
  sent : Bytes

/-- `ft_send_all`, of less than 2 ^ 31 bytes (`PartialIo.ftSendAll_eq_writeAll`). -/
def Wire.sendAll (w : Wire) (buf : Bytes) : Bool × Wire :=
  ((writeAll w.takes buf).1, ⟨callsLeft w.takes buf, w.sent ++ (writeAll w.takes buf).2⟩)

/-- Go on with `k` unless the call before failed. -/
def andThen (r : Bool × Wire) (k : Wire → Bool × Wire) : Bool × Wire :=
  match r with
  | (false, w) => (false, w)
  | (true, w) => k w

def code (r : Bool × Wire) : ℤ × Wire := (if r.1 then 0 else -1, r.2)

/-- Magic, id and size; the id is read from a buffer that is filled up with zeros. -/
def sendHeader (w : Wire) (fileId : Bytes) (fileSize : UInt64) : Bool × Wire :=
  andThen (andThen (w.sendAll ftMagic) fun w =>
    w.sendAll ((fileId ++ List.replicate ftUuidLen 0).take ftUuidLen)) fun w =>
      w.sendAll (sizeBytes fileSize)

def ftSendFile (w : Wire) (info : FtFileInfo) : ℤ × Wire :=
  code (andThen (sendHeader w info.fileId info.fileSize) fun w => w.sendAll info.data)

/-- The loop over the chunks of the file; a short `fread` ends it. -/
def sendChunks (remaining : ℕ) (file : Bytes) (w : Wire) : Bool × Wire :=
  if remaining = 0 then (true, w)
  else
    let toRead := min remaining ftChunkSize
    if (file.take toRead).length ≠ toRead then (false, w)
    else andThen (w.sendAll (file.take toRead)) fun w =>
      sendChunks (remaining - toRead) (file.drop toRead) w
termination_by remaining
decreasing_by simp [ftChunkSize]; omega

/-- `file` is what can be opened under the path. -/
def ftSendFileFromPath (w : Wire) (fileId : Bytes) (fileSize : UInt64) (file : Option Bytes) :
    ℤ × Wire :=
  match file with
  | none => (-1, w)
  | some file =>
    code (andThen (sendHeader w fileId fileSize) fun w => sendChunks fileSize.toNat file w)

/-! ### Receiving -/

/-- What one `recv` moves at most while so much is missing: Linux moves no more than `MAX_RW_COUNT` in
one call, and Windows refuses a number below zero. -/
def atMost (platform : Platform) (missing : ℕ) : ℕ :=
  match platform with
  | .linux => min (request .linux missing).toNat 0x7FFFF000
  | .windows => (request .windows missing).toNat

/-- `ft_recv_all`, with the `int` in which every round asks for what is missing. -/
def ftRecvAll (platform : Platform) (missing : ℕ) (s : List Bytes) : Option (Bytes × List Bytes) :=
  if missing = 0 then some ([], s)
  else match readSome (atMost platform missing) s with
    | none => none
    | some (chunk, s) =>
      if chunk = [] then none
      else (ftRecvAll platform (missing - chunk.length) s).map fun r => (chunk ++ r.1, r.2)
termination_by missing
decreasing_by
  have := List.length_pos_iff.mpr ‹¬ chunk = []›
  omega

/-- What a file can be written to. -/
structure Disk where
  opens : Bool
  room : ℕ

/-- The loop over the chunks of the data: what is left to read, or `none` when reading or writing
failed, and what has been written. -/
def recvChunks {σ : Type*} (R : Reader σ UInt8) (room : ℕ) (remaining : ℕ) (s : σ) (file : Bytes) :
    Option σ × Bytes :=
  if remaining = 0 then (some s, file)
  else match R.read (min remaining ftChunkSize) s with
    | none => (none, file)
    | some (chunk, s) =>
      if room < file.length + chunk.length then (none, file)
      else recvChunks R room (remaining - min remaining ftChunkSize) s (file ++ chunk)
termination_by remaining
decreasing_by simp [ftChunkSize]; omega

/-- Magic, id and size, and the check of the size; `strncpy` stops at a zero in the id. -/
def recvHeader (maxSize : UInt64) (s : List Bytes) : Option (Bytes × UInt64 × List Bytes) := do
  let (magic, s) ← readAll 4 s
  if magic ≠ ftMagic then none
  else
    let (fid, s) ← readAll ftUuidLen s
    let (sb, s) ← readAll 8 s
    let fs := sizeValue sb
    if fs = 0 ∨ maxSize < fs then none else some (fid.takeWhile (· ≠ 0), fs, s)

def ftRecvFile (platform : Platform) (maxSize : UInt64) (s : List Bytes) :
    Option (FtFileInfo × List Bytes) := do
  let (fileId, fs, s) ← recvHeader maxSize s
  let (data, s) ← ftRecvAll platform fs.toNat s
  some (⟨fileId, fs, data⟩, s)

/-- Also the file under the path afterwards, which was `before`; a file that is not complete is
removed. -/
def ftRecvFileToPath (disk : Disk) (maxSize : UInt64) (before : Option Bytes) (s : List Bytes) :
    Option (FtFileInfo × List Bytes) × Option Bytes :=
  match recvHeader maxSize s with
  | none => (none, before)
  | some (fileId, fs, s) =>
    if disk.opens = false then (none, before)
    else match recvChunks direct disk.room fs.toNat s [] with
      | (none, _) => (none, none)
      | (some s, file) => (some (⟨fileId, fs, []⟩, s), some file)

/-! ### Android -/

def tcpBufSize : ℕ := 512 * 1024

/-- The input stream of a socket, behind its buffer. -/
def inputStream : Reader (Buffered UInt8) UInt8 := buffered tcpBufSize (by decide)

/-- A `Long`, of which the eight bytes are written as they are. -/
def toLong (u : UInt64) : ℤ := u.toBitVec.toInt

/-- The output stream writes everything in order; an exception is `false`. -/
def sendFile (w : Wire) (fileId data : Bytes) : Bool × Wire :=
  w.sendAll (ascii "SYNC" ++ (fileId ++ List.replicate (ftUuidLen - fileId.length) 32).take ftUuidLen ++
    sizeBytes (UInt64.ofNat data.length) ++ data)

/-- The returned size, -1 when the frame is refused, and `none` for an exception; also the file
afterwards. -/
def recvFileToPath (disk : Disk) (maxTransferBytes : ℤ) (before : Option Bytes)
    (s : Buffered UInt8) : Option (ℤ × Buffered UInt8) × Option Bytes :=
  match inputStream.read 4 s with
  | none => (none, before)
  | some (magic, s) =>
    if magic ≠ ascii "SYNC" then (some (-1, s), before)
    else match inputStream.read ftUuidLen s with
      | none => (none, before)
      | some (_, s) =>
        match inputStream.read 8 s with
        | none => (none, before)
        | some (sb, s) =>
          let fileSize := toLong (sizeValue sb)
          if maxTransferBytes < fileSize ∨ fileSize ≤ 0 then (some (-1, s), before)
          else if disk.opens = false then (none, before)
          else match recvChunks inputStream disk.room fileSize.toNat s [] with
            | (none, _) => (none, none)
            | (some s, file) => (some (fileSize, s), some file)

/-! ### Long reads -/

/-- From this length on, `ft_recv_all` fails. -/
def tooLong : Platform → ℕ
  | .linux => 2 ^ 32
  | .windows => 2 ^ 31

lemma lt_tooLong {n : ℕ} (h : n < 2 ^ 31) (platform : Platform) : n < tooLong platform := by
  cases platform <;> simp only [tooLong] <;> omega

lemma atMost_le (platform : Platform) (missing : ℕ) : atMost platform missing ≤ missing % 2 ^ 32 := by
  have hbmod := bmod_int missing
  unfold atMost request
  cases platform with
  | linux =>
    dsimp only
    rw [hbmod]
    split_ifs <;> omega
  | windows =>
    dsimp only
    rw [hbmod]
    split_ifs <;> omega

lemma atMost_pos {platform : Platform} {missing : ℕ} (hpos : 0 < missing) (h : missing < tooLong platform) :
    0 < atMost platform missing := by
  have hbmod := bmod_int missing
  unfold atMost request
  cases platform with
  | linux =>
    have h32 : missing < 2 ^ 32 := h
    dsimp only
    rw [hbmod]
    split_ifs <;> omega
  | windows =>
    have h31 : missing < 2 ^ 31 := h
    dsimp only
    rw [hbmod]
    split_ifs <;> omega

/-- Rounds that ask for something read what is missing. -/
lemma ftRecvAll_eq_readAll {platform : Platform} {missing : ℕ} (h : missing < tooLong platform)
    (s : List Bytes) : ftRecvAll platform missing s = readAll missing s := by
  induction missing using Nat.strongRecOn generalizing s with
  | ind missing ih =>
    rw [ftRecvAll]
    by_cases h0 : missing = 0
    · rw [if_pos h0, h0, readAll]
    · rw [if_neg h0]
      obtain ⟨k, rfl⟩ : ∃ k, missing = k + 1 := ⟨missing - 1, by omega⟩
      have hpos : 0 < atMost platform (k + 1) := atMost_pos (by omega) h
      have hle : atMost platform (k + 1) ≤ k + 1 := (atMost_le _ _).trans (Nat.mod_le _ _)
      cases s with
      | nil => rfl
      | cons p s =>
        by_cases hp : p = []
        · simp [readSome, readAll, hp]
        · have hlen := List.length_pos_iff.mpr hp
          by_cases hfit : p.length ≤ atMost platform (k + 1)
          · -- the round takes the whole piece
            simp only [readSome, readAll, List.isEmpty_iff, hp, hfit, hfit.trans hle, if_true, if_false]
            rw [ih _ (by omega) (by omega)]
          · have htake : p.take (atMost platform (k + 1)) ≠ [] := take_ne_nil hpos hp
            have hcut : (p.take (atMost platform (k + 1))).length = atMost platform (k + 1) :=
              List.length_take_of_le (by omega)
            simp only [readSome, List.isEmpty_iff, hp, hfit, htake, if_false]
            rw [ih _ (by omega) (by omega), hcut, ← readAll_cut hle (by omega)]

lemma atMost_windows {missing : ℕ} (h : 2 ^ 31 ≤ missing % 2 ^ 32) : atMost .windows missing = 0 := by
  have hbmod := bmod_int missing
  unfold atMost request
  dsimp only
  rw [hbmod]
  split_ifs <;> omega

/-- A round for a longer one leaves too much. -/
lemma tooLong_le_sub {platform : Platform} {missing n : ℕ} (h : tooLong platform ≤ missing)
    (hpos : 0 < n) (hle : n ≤ atMost platform missing) : tooLong platform ≤ missing - n := by
  have hmod := atMost_le platform missing
  cases platform with
  | linux =>
    have h32 : 2 ^ 32 ≤ missing := h
    show 2 ^ 32 ≤ missing - n
    omega
  | windows =>
    have h31 : 2 ^ 31 ≤ missing := h
    show 2 ^ 31 ≤ missing - n
    by_cases hupper : 2 ^ 31 ≤ missing % 2 ^ 32
    · rw [atMost_windows hupper] at hle
      omega
    · omega

/-- The rounds come to a multiple of 2 ^ 32, or to a number that is refused. -/
lemma ftRecvAll_eq_none {platform : Platform} {missing : ℕ} (h : tooLong platform ≤ missing)
    (s : List Bytes) : ftRecvAll platform missing s = none := by
  induction missing using Nat.strongRecOn generalizing s with
  | ind missing ih =>
    have hpos : 0 < tooLong platform := by cases platform <;> decide
    rw [ftRecvAll, if_neg (by omega)]
    cases hread : readSome (atMost platform missing) s with
    | none => rfl
    | some r =>
      obtain ⟨chunk, s'⟩ := r
      dsimp only
      by_cases hchunk : chunk = []
      · rw [if_pos hchunk]
      · have hlen := List.length_pos_iff.mpr hchunk
        have hrest := tooLong_le_sub h hlen (readSome_length_le hread)
        rw [if_neg hchunk, ih _ (by omega) hrest s', Option.map_none]

lemma ftRecvAll_eq_some {platform : Platform} {len : ℕ} {s : List Bytes} {r : Bytes × List Bytes}
    (h : ftRecvAll platform len s = some r) : len < tooLong platform ∧ readAll len s = some r := by
  by_cases hlong : len < tooLong platform
  · rw [ftRecvAll_eq_readAll hlong] at h
    exact ⟨hlong, h⟩
  · rw [ftRecvAll_eq_none (Nat.not_lt.mp hlong)] at h
    cases h

/-! ### The size is read back -/

lemma shiftIn_shiftRight (fs : UInt64) : shiftIn (fs >>> 8) (fs &&& 0xFF).toUInt8 = fs := by
  apply UInt64.toNat_inj.mp
  have hlow : ((fs &&& 0xFF).toUInt8.toUInt64).toNat = fs.toNat % 2 ^ 8 := by
    simp only [UInt8.toNat_toUInt64, UInt64.toNat_toUInt8, UInt64.toNat_and]
    show (fs.toNat &&& (2 ^ 8 - 1)) % 2 ^ 8 = _
    rw [Nat.and_two_pow_sub_one_eq_mod, Nat.mod_mod]
  have hhigh : ((fs >>> 8) <<< 8).toNat = (fs.toNat >>> 8) <<< 8 := by
    have hlt := fs.toNat_lt
    simp [UInt64.toNat_shiftLeft, UInt64.toNat_shiftRight, Nat.shiftLeft_eq, Nat.shiftRight_eq_div_pow]
    omega
  rw [shiftIn, UInt64.toNat_or, hhigh, hlow,
    ← Nat.shiftLeft_add_eq_or_of_lt (Nat.mod_lt _ (by decide)), Nat.shiftLeft_eq,
    Nat.shiftRight_eq_div_pow]
  omega

lemma foldl_sizeLoop {i : ℕ} {fs a : UInt64} (sb : Bytes) (h : a.toNat = fs.toNat / 256 ^ i) :
    (sizeLoop i fs sb).foldl shiftIn a = sb.foldl shiftIn fs := by
  induction i generalizing fs sb with
  | zero =>
    have ha : a = fs := UInt64.toNat_inj.mp (by simpa using h)
    rw [ha, sizeLoop]
  | succ i ih =>
    have hnext : a.toNat = (fs >>> 8).toNat / 256 ^ i := by
      rw [h, UInt64.toNat_shiftRight]
      simp only [Nat.shiftRight_eq_div_pow, Nat.div_div_eq_div_mul, Nat.pow_succ]
      congr 1
      exact Nat.mul_comm _ _
    rw [sizeLoop, ih _ hnext, List.foldl_cons, shiftIn_shiftRight]

/-- **The size loops** of sender and receiver are inverse. -/
theorem sizeValue_sizeBytes (fs : UInt64) : sizeValue (sizeBytes fs) = fs := by
  have h : (0 : UInt64).toNat = fs.toNat / 256 ^ 8 := by
    have hlt := fs.toNat_lt
    rw [Nat.div_eq_of_lt (by omega)]
    rfl
  exact foldl_sizeLoop [] h

lemma sizeLoop_length (i : ℕ) (fs : UInt64) (sb : Bytes) :
    (sizeLoop i fs sb).length = i + sb.length := by
  induction i generalizing fs sb with
  | zero => simp [sizeLoop]
  | succ i ih =>
    rw [sizeLoop, ih, List.length_cons]
    omega

lemma sizeBytes_length (fs : UInt64) : (sizeBytes fs).length = 8 := sizeLoop_length 8 fs []

/-! ### What the senders send -/

def header (fileId : Bytes) (fileSize : UInt64) : Bytes := ftMagic ++ fileId ++ sizeBytes fileSize

lemma header_length {fileId : Bytes} (hid : fileId.length = ftUuidLen) (fileSize : UInt64) :
    (header fileId fileSize).length = 48 := by
  simp [header, hid, sizeBytes_length, ftUuidLen, ftMagic, ascii]

/-- A call on the socket put `buf` on it, and the socket takes `more` bytes after it. -/
def Puts (w : Wire) (buf : Bytes) (more : ℕ) (r : Bool × Wire) : Prop :=
  r.1 = true ∧ r.2.sent = w.sent ++ buf ∧ Flows r.2.takes more

lemma sendAll_puts {w : Wire} {buf : Bytes} {more : ℕ} (h : Flows w.takes (buf.length + more)) :
    Puts w buf more (w.sendAll buf) := by
  obtain ⟨hwrite, hleft⟩ := writeAll_of_flows h
  exact ⟨by rw [Wire.sendAll, hwrite], by rw [Wire.sendAll, hwrite], hleft⟩

lemma Puts.andThen {w : Wire} {buf buf' : Bytes} {more more' : ℕ} {r : Bool × Wire}
    {k : Wire → Bool × Wire} (h : Puts w buf more r)
    (hk : ∀ w', Flows w'.takes more → Puts w' buf' more' (k w')) :
    Puts w (buf ++ buf') more' (andThen r k) := by
  obtain ⟨ok, w'⟩ := r
  obtain ⟨rfl, hsent, hflows⟩ := h
  obtain ⟨hok, hsent', hflows'⟩ := hk w' hflows
  refine ⟨hok, ?_, hflows'⟩
  rw [FtProto.andThen, hsent', hsent, List.append_assoc]

lemma sendHeader_puts {w : Wire} {fileId : Bytes} {fileSize : UInt64} {more : ℕ}
    (hid : fileId.length = ftUuidLen) (h : Flows w.takes (48 + more)) :
    Puts w (header fileId fileSize) more (sendHeader w fileId fileSize) := by
  have hbuf : (fileId ++ List.replicate ftUuidLen 0).take ftUuidLen = fileId := by
    rw [← hid, List.take_left]
  have hmagic : Puts w ftMagic (44 + more) (w.sendAll ftMagic) := by
    refine sendAll_puts ?_
    have hlen : ftMagic.length + (44 + more) = 48 + more := by
      simp [ftMagic, ascii]
      omega
    rwa [hlen]
  have hboth : Puts w (ftMagic ++ fileId) (8 + more)
      (andThen (w.sendAll ftMagic) fun w => w.sendAll fileId) := by
    refine hmagic.andThen fun w' hw' => sendAll_puts ?_
    have hlen : fileId.length + (8 + more) = 44 + more := by
      rw [hid, ftUuidLen]
      omega
    rwa [hlen]
  rw [sendHeader, hbuf, header]
  refine hboth.andThen fun w' hw' => sendAll_puts ?_
  rwa [sizeBytes_length]

lemma sendChunks_puts {remaining : ℕ} {file : Bytes} {w : Wire} {more : ℕ}
    (hfile : remaining ≤ file.length) (h : Flows w.takes (remaining + more)) :
    Puts w (file.take remaining) more (sendChunks remaining file w) := by
  induction remaining using Nat.strongRecOn generalizing file w with
  | ind remaining ih =>
    rw [sendChunks]
    by_cases h0 : remaining = 0
    · subst h0
      simpa [Puts] using h
    · set toRead := min remaining ftChunkSize with htoRead
      have hpos : 0 < toRead := by
        have : 0 < ftChunkSize := by decide
        omega
      have hlen : (file.take toRead).length = toRead := by
        rw [List.length_take]
        omega
      rw [if_neg h0, if_neg (by simpa using hlen)]
      have hsplit : file.take remaining =
          file.take toRead ++ (file.drop toRead).take (remaining - toRead) := by
        rw [← List.take_add]
        congr 1
        omega
      have hchunk : Puts w (file.take toRead) (remaining - toRead + more)
          (w.sendAll (file.take toRead)) := by
        refine sendAll_puts ?_
        have hsum : (file.take toRead).length + (remaining - toRead + more) = remaining + more := by
          omega
        rwa [hsum]
      rw [hsplit]
      refine hchunk.andThen fun w' hw' => ?_
      exact ih (remaining - toRead) (by omega) (by rw [List.length_drop]; omega) hw'

/-! ### What the receivers make of it -/

lemma recvChunks_of_stream {σ : Type*} (R : Reader σ UInt8) {room : ℕ} {s : σ}
    {data more file : Bytes} (hroom : file.length + data.length ≤ room)
    (h : R.stream s = data ++ more) :
    ∃ s', recvChunks R room data.length s file = (some s', file ++ data) ∧ R.stream s' = more := by
  generalize hn : data.length = n
  induction n using Nat.strongRecOn generalizing data file s with
  | ind n ih =>
    rw [recvChunks]
    by_cases h0 : n = 0
    · have hdata : data = [] := List.length_eq_zero_iff.mp (hn.trans h0)
      subst hdata
      rw [if_pos h0]
      exact ⟨s, by simp, by simpa using h⟩
    · set toRead := min n ftChunkSize with htoRead
      have hpos : 0 < toRead := by
        have : 0 < ftChunkSize := by decide
        omega
      have hlen : (data.take toRead).length = toRead := by
        rw [List.length_take]
        omega
      have hsplit : R.stream s = data.take toRead ++ (data.drop toRead ++ more) := by
        rw [h, ← List.append_assoc, List.take_append_drop]
      obtain ⟨s', hread, hstream⟩ := R.read_append hsplit
      rw [hlen] at hread
      rw [if_neg h0, hread]
      dsimp only
      rw [if_neg (by rw [hlen]; omega)]
      have hrest : (data.drop toRead).length = n - toRead := by rw [List.length_drop, hn]
      have hroom' : (file ++ data.take toRead).length + (data.drop toRead).length ≤ room := by
        rw [List.length_append, hlen, hrest]
        omega
      obtain ⟨s'', hrecv, hleft⟩ := ih (n - toRead) (by omega) hroom' hstream hrest
      refine ⟨s'', ?_, hleft⟩
      rw [hrecv, List.append_assoc, List.take_append_drop]

lemma recvChunks_keeps {σ : Type*} (R : Reader σ UInt8) {P : σ → Prop}
    (hP : ∀ len s data s', R.read len s = some (data, s') → P s → P s') {room n : ℕ} {s s' : σ}
    {file file' : Bytes} (h : recvChunks R room n s file = (some s', file')) (hs : P s) : P s' := by
  induction n using Nat.strongRecOn generalizing file s with
  | ind n ih =>
    rw [recvChunks] at h
    by_cases h0 : n = 0
    · rw [if_pos h0] at h
      cases h
      exact hs
    · rw [if_neg h0] at h
      cases hread : R.read (min n ftChunkSize) s with
      | none => simp [hread] at h
      | some r =>
        obtain ⟨chunk, s₁⟩ := r
        have hpos : 0 < ftChunkSize := by decide
        simp only [hread] at h
        split_ifs at h with hroom
        · cases h
        · exact ih (n - min n ftChunkSize) (by omega) h (hP _ _ _ _ hread hs)

lemma recvFileToPath_keeps {P : Buffered UInt8 → Prop}
    (hP : ∀ len s data s', inputStream.read len s = some (data, s') → P s → P s') {disk : Disk}
    {maxTransferBytes size : ℤ} {before file : Option Bytes} {s s' : Buffered UInt8}
    (h : recvFileToPath disk maxTransferBytes before s = (some (size, s'), file)) (hs : P s) : P s' := by
  unfold recvFileToPath at h
  cases hmagic : inputStream.read 4 s with
  | none => simp [hmagic] at h
  | some r₁ =>
    have h₁ := hP _ _ _ _ hmagic hs
    simp only [hmagic] at h
    by_cases hm : r₁.1 ≠ ascii "SYNC"
    · rw [if_pos hm] at h
      cases h
      exact h₁
    · rw [if_neg hm] at h
      cases hfid : inputStream.read ftUuidLen r₁.2 with
      | none => simp [hfid] at h
      | some r₂ =>
        have h₂ := hP _ _ _ _ hfid h₁
        simp only [hfid] at h
        cases hsb : inputStream.read 8 r₂.2 with
        | none => simp [hsb] at h
        | some r₃ =>
          have h₃ := hP _ _ _ _ hsb h₂
          simp only [hsb] at h
          split_ifs at h with hbound hopens
          · cases h
            exact h₃
          · cases h
          · rcases hchunks : recvChunks inputStream disk.room (toLong (sizeValue r₃.1)).toNat r₃.2 []
              with ⟨_ | s₄, data⟩
            · simp [hchunks] at h
            · simp only [hchunks] at h
              cases h
              exact recvChunks_keeps inputStream hP hchunks h₃

lemma read_header {σ : Type*} (R : Reader σ UInt8) {s : σ} {fileId more : Bytes} {fs : UInt64}
    (hid : fileId.length = ftUuidLen) (h : R.stream s = header fileId fs ++ more) :
    ∃ s₁ s₂ s₃, R.read 4 s = some (ftMagic, s₁) ∧ R.read ftUuidLen s₁ = some (fileId, s₂) ∧
      R.read 8 s₂ = some (sizeBytes fs, s₃) ∧ R.stream s₃ = more := by
  have h₀ : R.stream s = ftMagic ++ (fileId ++ (sizeBytes fs ++ more)) := by
    rw [h, header, List.append_assoc, List.append_assoc]
  obtain ⟨s₁, hread₁, h₁⟩ := R.read_append h₀
  obtain ⟨s₂, hread₂, h₂⟩ := R.read_append h₁
  obtain ⟨s₃, hread₃, h₃⟩ := R.read_append h₂
  rw [hid] at hread₂
  rw [sizeBytes_length] at hread₃
  exact ⟨s₁, s₂, s₃, hread₁, hread₂, hread₃, h₃⟩

lemma recvHeader_of_stream {maxSize fs : UInt64} {s : List Bytes} {fileId more : Bytes}
    (hid : fileId.length = ftUuidLen) (hchars : ∀ b ∈ fileId, b ≠ 0) (h0 : fs ≠ 0)
    (hmax : fs ≤ maxSize) (h : available s = header fileId fs ++ more) :
    ∃ s', recvHeader maxSize s = some (fileId, fs, s') ∧ available s' = more := by
  obtain ⟨s₁, s₂, s₃, hread₁, hread₂, hread₃, h₃⟩ := read_header direct hid h
  have hname : fileId.takeWhile (· ≠ 0) = fileId :=
    List.takeWhile_eq_self_iff.mpr (by simpa using hchars)
  refine ⟨s₃, ?_, h₃⟩
  simp only [direct] at hread₁ hread₂ hread₃
  simp only [recvHeader, hread₁, hread₂, hread₃, sizeValue_sizeBytes, hname, bind, Option.bind,
    ne_eq, not_true_eq_false, if_false]
  rw [if_neg]
  rintro (hz | hz)
  · exact h0 hz
  · exact absurd hmax (UInt64.not_le.mpr hz)

/-! ### What an accepted frame was -/

/-- The stream starts with a frame of the payload, which is neither empty nor too long. -/
def Frame (maxSize : ℕ) (stream payload : Bytes) : Prop :=
  ∃ fileId sb rest, fileId.length = ftUuidLen ∧ sb.length = 8 ∧
    stream = ftMagic ++ fileId ++ sb ++ payload ++ rest ∧ (sizeValue sb).toNat = payload.length ∧
    0 < payload.length ∧ payload.length ≤ maxSize

lemma recvChunks_eq_some {σ : Type*} (R : Reader σ UInt8) {room n : ℕ} {s s' : σ}
    {file file' : Bytes} (h : recvChunks R room n s file = (some s', file')) :
    ∃ data, file' = file ++ data ∧ data.length = n ∧ R.stream s = data ++ R.stream s' := by
  induction n using Nat.strongRecOn generalizing file s with
  | ind n ih =>
    rw [recvChunks] at h
    by_cases h0 : n = 0
    · rw [if_pos h0] at h
      cases h
      exact ⟨[], by simp, h0.symm, rfl⟩
    · rw [if_neg h0] at h
      cases hread : R.read (min n ftChunkSize) s with
      | none => simp [hread] at h
      | some r =>
        obtain ⟨chunk, s₁⟩ := r
        obtain ⟨hlen, hstream⟩ := R.read_eq_some hread
        have hpos : 0 < ftChunkSize := by decide
        simp only [hread] at h
        split_ifs at h with hroom
        · cases h
        · obtain ⟨data, rfl, hdata, hrest⟩ := ih (n - min n ftChunkSize) (by omega) h
          refine ⟨chunk ++ data, by rw [List.append_assoc], ?_, ?_⟩
          · rw [List.length_append]
            omega
          · rw [hstream, hrest, List.append_assoc]

lemma recvHeader_eq_some {maxSize fs : UInt64} {s s' : List Bytes} {fileId : Bytes}
    (h : recvHeader maxSize s = some (fileId, fs, s')) :
    ∃ fid sb, fid.length = ftUuidLen ∧ sb.length = 8 ∧ sizeValue sb = fs ∧
      available s = ftMagic ++ fid ++ sb ++ available s' ∧ 0 < fs.toNat ∧
      fs.toNat ≤ maxSize.toNat := by
  unfold recvHeader at h
  simp only [bind, Option.bind_eq_some_iff] at h
  obtain ⟨⟨magic, s₁⟩, hmagic, h⟩ := h
  dsimp only at h
  split_ifs at h with hm
  rw [Option.bind_eq_some_iff] at h
  obtain ⟨⟨fid, s₂⟩, hfid, h⟩ := h
  dsimp only at h
  rw [Option.bind_eq_some_iff] at h
  obtain ⟨⟨sb, s₃⟩, hsb, h⟩ := h
  dsimp only at h
  split_ifs at h with hsize
  cases h
  obtain ⟨-, hs⟩ := direct.read_eq_some hmagic
  obtain ⟨hlen₂, hs₁⟩ := direct.read_eq_some hfid
  obtain ⟨hlen₃, hs₂⟩ := direct.read_eq_some hsb
  rw [not_or] at hsize
  obtain rfl : magic = ftMagic := by simpa using hm
  refine ⟨fid, sb, hlen₂, hlen₃, rfl, ?_, ?_, ?_⟩
  · have hstream : available s = ftMagic ++ (fid ++ (sb ++ available s')) :=
      hs.trans (by rw [hs₁, hs₂]; rfl)
    rw [hstream, List.append_assoc, List.append_assoc]
  · have hne : (sizeValue sb).toNat ≠ 0 := fun h0 => hsize.1 (UInt64.toNat_inj.mp h0)
    omega
  · exact UInt64.le_iff_toNat_le.mp (UInt64.not_lt.mp hsize.2)

lemma frame_of_header {maxSize fs : UInt64} {s s' s'' : List Bytes} {fileId payload : Bytes}
    (h : recvHeader maxSize s = some (fileId, fs, s')) (hlen : payload.length = fs.toNat)
    (hpayload : available s' = payload ++ available s'') :
    Frame maxSize.toNat (available s) payload := by
  obtain ⟨fid, sb, hfid, hsb, hfs, hstream, hpos, hmax⟩ := recvHeader_eq_some h
  refine ⟨fid, sb, available s'', hfid, hsb, ?_, by rw [hfs, hlen], by omega, by omega⟩
  rw [hstream, hpayload, List.append_assoc _ payload]

/-- What a call of `ft_recv_file` that succeeds has read. -/
lemma ftRecvFile_eq_some {platform : Platform} {maxSize : UInt64} {s s' : List Bytes} {info : FtFileInfo}
    (h : ftRecvFile platform maxSize s = some (info, s')) :
    ∃ s₁, recvHeader maxSize s = some (info.fileId, info.fileSize, s₁) ∧
      info.fileSize.toNat < tooLong platform ∧ readAll info.fileSize.toNat s₁ = some (info.data, s') := by
  unfold ftRecvFile at h
  simp only [bind, Option.bind_eq_some_iff] at h
  obtain ⟨⟨fileId, fs, s₁⟩, hheader, ⟨data, s₂⟩, hdata, h⟩ := h
  cases h
  exact ⟨s₁, hheader, ftRecvAll_eq_some hdata⟩

lemma ftRecvFileToPath_eq_some {disk : Disk} {maxSize : UInt64} {before file : Option Bytes}
    {s s' : List Bytes} {info : FtFileInfo}
    (h : ftRecvFileToPath disk maxSize before s = (some (info, s'), file)) :
    ∃ s₁ data, recvHeader maxSize s = some (info.fileId, info.fileSize, s₁) ∧
      recvChunks direct disk.room info.fileSize.toNat s₁ [] = (some s', data) ∧ file = some data := by
  unfold ftRecvFileToPath at h
  cases hheader : recvHeader maxSize s with
  | none => simp [hheader] at h
  | some r =>
    obtain ⟨fileId, fs, s₁⟩ := r
    simp only [hheader] at h
    split_ifs at h with hopens
    · simp at h
    · rcases hchunks : recvChunks direct disk.room fs.toNat s₁ [] with ⟨_ | s₂, data⟩
      · simp [hchunks] at h
      · simp only [hchunks] at h
        cases h
        exact ⟨s₁, data, rfl, hchunks, rfl⟩

/-- **What `ft_recv_file` returns** is the payload of a frame. -/
theorem ftRecvFile_frame {platform : Platform} {maxSize : UInt64} {s s' : List Bytes} {info : FtFileInfo}
    (h : ftRecvFile platform maxSize s = some (info, s')) :
    Frame maxSize.toNat (available s) info.data := by
  obtain ⟨s₁, hheader, -, hdata⟩ := ftRecvFile_eq_some h
  obtain ⟨hlen, hstream⟩ := direct.read_eq_some hdata
  exact frame_of_header hheader hlen hstream

/-- **What `ft_recv_file_to_path` saves** is the payload of a frame. -/
theorem ftRecvFileToPath_frame {disk : Disk} {maxSize : UInt64} {before file : Option Bytes}
    {s s' : List Bytes} {info : FtFileInfo}
    (h : ftRecvFileToPath disk maxSize before s = (some (info, s'), file)) :
    ∃ payload, file = some payload ∧ Frame maxSize.toNat (available s) payload := by
  obtain ⟨s₁, data, hheader, hchunks, rfl⟩ := ftRecvFileToPath_eq_some h
  obtain ⟨payload, hfile, hlen, hstream⟩ := recvChunks_eq_some direct hchunks
  rw [List.nil_append] at hfile
  subst hfile
  exact ⟨data, rfl, frame_of_header hheader hlen hstream⟩

lemma toNat_toLong {u : UInt64} (h : 0 < toLong u) : (toLong u).toNat = u.toNat := by
  have hlt := u.toNat_lt
  unfold toLong at h ⊢
  rw [BitVec.toInt_eq_toNat_cond] at h ⊢
  have heq : u.toBitVec.toNat = u.toNat := rfl
  split_ifs at h ⊢ <;> omega

/-- **What `recvFileToPath` saves** is the payload of a frame. -/
theorem recvFileToPath_frame {disk : Disk} {maxTransferBytes size : ℤ} {before file : Option Bytes}
    {s s' : Buffered UInt8}
    (h : recvFileToPath disk maxTransferBytes before s = (some (size, s'), file))
    (hsize : 0 ≤ size) :
    ∃ payload, file = some payload ∧ Frame maxTransferBytes.toNat s.stream payload := by
  unfold recvFileToPath at h
  cases hmagic : inputStream.read 4 s with
  | none => simp [hmagic] at h
  | some r₁ =>
    obtain ⟨magic, s₁⟩ := r₁
    simp only [hmagic] at h
    by_cases hm : magic ≠ ascii "SYNC"
    · rw [if_pos hm] at h
      cases h
      omega
    · rw [if_neg hm] at h
      cases hfid : inputStream.read ftUuidLen s₁ with
      | none => simp [hfid] at h
      | some r₂ =>
        obtain ⟨fid, s₂⟩ := r₂
        simp only [hfid] at h
        cases hsb : inputStream.read 8 s₂ with
        | none => simp [hsb] at h
        | some r₃ =>
          obtain ⟨sb, s₃⟩ := r₃
          simp only [hsb] at h
          split_ifs at h with hbound hopens
          · cases h
            omega
          · cases h
          · rcases hchunks : recvChunks inputStream disk.room (toLong (sizeValue sb)).toNat s₃ []
              with ⟨_ | s₄, data⟩
            · simp [hchunks] at h
            · simp only [hchunks] at h
              cases h
              obtain ⟨payload, hfile, hlen, hrest⟩ := recvChunks_eq_some inputStream hchunks
              obtain ⟨-, hs⟩ := inputStream.read_eq_some hmagic
              obtain ⟨hlen₂, hs₁⟩ := inputStream.read_eq_some hfid
              obtain ⟨hlen₃, hs₂⟩ := inputStream.read_eq_some hsb
              rw [List.nil_append] at hfile
              subst hfile
              obtain rfl : magic = ftMagic := by simpa [ftMagic] using hm
              have hpos : 0 < toLong (sizeValue sb) := by omega
              have hvalue := toNat_toLong hpos
              refine ⟨data, rfl, fid, sb, inputStream.stream s', hlen₂, hlen₃, ?_, by omega,
                by omega, by omega⟩
              have hstream : inputStream.stream s = ftMagic ++ (fid ++ (sb ++ (data ++
                  inputStream.stream s'))) := by
                rw [hs, hs₁, hs₂, hrest]
              rw [List.append_assoc, List.append_assoc, List.append_assoc]
              exact hstream

end SyncClipboard.FtProto
