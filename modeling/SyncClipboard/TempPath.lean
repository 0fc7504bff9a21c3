import SyncClipboard.CString
import SyncClipboard.Crypto
import SyncClipboard.Lexical

/-!
Where a received file is written.

The name of the file comes from the other device and is put behind the temporary directory and a prefix.
Nobody looks for separators in it. So the file is a child of the directory if the name has none, and
otherwise if what follows the first one leads back (`stays_iff`).

A path is given by its code units, behind the root of the file system.
-/

namespace SyncClipboard.TempPath

open FtAuth CString Lexical
open Crypto (cString)

/-! ### Paths -/

inductive Style
  | posix
  | windows
  deriving DecidableEq

def Style.isSep : Style → ℕ → Bool
  | .posix, u => u == 47
  | .windows, u => u == 47 || u == 92

/-- Without the blanks and periods at its end. -/
def trimmed (c : List ℕ) : List ℕ := (c.reverse.dropWhile fun u => u == 32 || u == 46).reverse

/-- What a component means. On Windows a name loses a single period at its end, and the last name of a path
loses all blanks and periods there. -/
def Style.move (style : Style) (last : Bool) (c : List ℕ) : Move (List ℕ) :=
  if c = [] ∨ c = [46] then .stay
  else if c = [46, 46] then .up
  else match style, last with
    | .posix, _ => .down c
    | .windows, true => if trimmed c = [] then .stay else .down (trimmed c)
    | .windows, false =>
      .down (if c.getLast? = some 46 ∧ c.dropLast.getLast? ≠ some 46 then c.dropLast else c)

def Style.moves (style : Style) : List (List ℕ) → List (Move (List ℕ))
  | [] => []
  | [c] => [style.move true c]
  | c :: cs => style.move false c :: style.moves cs

def Style.components (style : Style) (path : List ℕ) : List (List ℕ) := path.splitOnP style.isSep

/-- The directory or file that a path leads to. -/
def Style.resolve (style : Style) (path : List ℕ) : List (List ℕ) :=
  go [] (style.moves (style.components path))

def units (s : Bytes) : List ℕ := s.map UInt8.toNat

def syncclip : List ℕ := units (ascii "syncclip_")

/-- A temporary directory, and the file that is opened for writing. -/
structure Target where
  style : Style
  dir : List ℕ
  path : List ℕ

/-- The file is a child of the directory, with the prefix. -/
def Target.Stays (t : Target) : Prop :=
  ∃ child, syncclip <+: child ∧ t.style.resolve t.path = child :: t.style.resolve t.dir

/-! ### The four places -/

/-- The machines of the devices. -/
structure Machine where
  /-- how Windows reads a string in its code page -/
  acp : Bytes → List ℕ
  /-- `GetTempPathA` -/
  tempPath : Bytes
  /-- the temporary directory of Windows, as a root and what stands behind it -/
  root : List ℕ
  tempDir : List ℕ
  /-- the cache directory on Android -/
  cacheDir : String

/-- Documented behaviour: a code page extends ASCII, and `GetTempPathA` gives a path that ends with a
backslash and fits into the buffer. -/
structure Machine.Documented (m : Machine) : Prop where
  ansi : ∀ a s, (∀ b ∈ a, b < 128) → m.acp (a ++ s) = units a ++ m.acp s
  empty : m.acp [] = []
  temp : ∀ s, m.acp (m.tempPath ++ s) = m.root ++ m.tempDir ++ m.acp s
  ends : m.tempDir = [] ∨ ∃ dir, m.tempDir = dir ++ [92]
  fits : m.tempPath.length < 260

inductive Writer
  | receiverThread
  | fileRelayData
  | windowsThread
  | windowsRelayData
  | handleRelayData
  deriving DecidableEq

/-- `cJSON_GetStringValue`. -/
def stringValue (s : String) : Bytes := cString (utf8 s)

/-- The field of `g_xfer`. -/
def notified (fileName : Option String) : Bytes := strncpy 255 ((fileName.map stringValue).getD [])

def relayed (fileName : Option String) : Bytes := (fileName.map stringValue).getD (ascii "file")

/-- `snprintf` with `/tmp/syncclip_%s`. -/
def linuxPath (name : Bytes) : Bytes := (ascii "/tmp/syncclip_" ++ name).take 511

variable (m : Machine)

/-- The path in `clipboard_set_file`. -/
def clipboardSetFile (filename : Bytes) : Target :=
  let tmpPath := (m.tempPath ++ (ascii "syncclip_" ++ filename)).take 259
  ⟨.windows, m.tempDir, (m.acp tmpPath).drop m.root.length⟩

/-- `none` is an exception: there is no file with such a name. -/
def handleRelayData (fileName : String) : Option Target :=
  if 0 ∈ utf8 fileName then none
  else some ⟨.posix, units (utf8 m.cacheDir),
    units (utf8 m.cacheDir ++ 47 :: (ascii "syncclip_relay_" ++ utf8 fileName))⟩

/-- Where a place writes the file of a message. -/
def written : Writer → Option String → Option Target
  | .receiverThread, fileName => some ⟨.posix, units (ascii "/tmp"), units (linuxPath (notified fileName))⟩
  | .fileRelayData, fileName => some ⟨.posix, units (ascii "/tmp"), units (linuxPath (relayed fileName))⟩
  | .windowsThread, fileName => some (clipboardSetFile m (notified fileName))
  | .windowsRelayData, fileName => some (clipboardSetFile m (relayed fileName))
  | .handleRelayData, fileName => handleRelayData m (fileName.getD "file")

/-! ### Names that lead back -/

/-- What follows the first separator of the name leads nowhere, or up through the directory and back to a
name with the prefix. -/
def Back (style : Style) (dir name : List ℕ) : Prop :=
  let way := relative (style.moves (style.components name).tail)
  way = (0, []) ∨
    0 < way.1 ∧ ∃ child, syncclip <+: child ∧ way.2 = child :: (style.resolve dir).take (way.1 - 1)

/-- The name as it is in the path. -/
def Safe : Writer → Option String → Prop
  | .receiverThread, fileName => Back .posix (units (ascii "/tmp")) (units (notified fileName))
  | .fileRelayData, fileName => Back .posix (units (ascii "/tmp")) (units ((relayed fileName).take 497))
  | .windowsThread, fileName => m.tempPath.length ≤ 250 ∧
      Back .windows m.tempDir (m.acp ((notified fileName).take (250 - m.tempPath.length)))
  | .windowsRelayData, fileName => m.tempPath.length ≤ 250 ∧
      Back .windows m.tempDir (m.acp ((relayed fileName).take (250 - m.tempPath.length)))
  | .handleRelayData, fileName => 0 ∈ utf8 (fileName.getD "file") ∨
      Back .posix (units (utf8 m.cacheDir)) (units (utf8 (fileName.getD "file")))

/-! ### Below a directory -/

variable {style : Style}

lemma moves_cons (c : List ℕ) (cs : List (List ℕ)) :
    ∃ last, style.moves (c :: cs) = style.move last c :: style.moves cs := by
  cases cs with
  | nil => exact ⟨true, rfl⟩
  | cons d cs => exact ⟨false, rfl⟩

lemma moves_append (cs : List (List ℕ)) {ds : List (List ℕ)} (h : ds ≠ []) :
    style.moves (cs ++ ds) = cs.map (style.move false) ++ style.moves ds := by
  induction cs with
  | nil => rfl
  | cons c cs ih =>
    rw [List.map_cons, List.cons_append, List.cons_append, ← ih]
    cases hcs : cs ++ ds with
    | nil => exact absurd (List.append_eq_nil_iff.mp hcs).2 h
    | cons d rest => rfl

lemma resolve_append (dir path : List ℕ) {sep : ℕ} (hsep : style.isSep sep = true) :
    style.resolve (dir ++ sep :: path) =
      go (go [] ((style.components dir).map (style.move false))) (style.moves (style.components path)) := by
  unfold Style.resolve Style.components
  rw [List.splitOnP_append_cons _ _ hsep, moves_append _ (List.splitOnP_ne_nil _ _), go_append]

lemma resolve_posix (dir path : List ℕ) :
    Style.posix.resolve (dir ++ 47 :: path) =
      go (Style.posix.resolve dir) (Style.posix.moves (Style.posix.components path)) := by
  have hmoves : ∀ cs, Style.posix.moves cs = cs.map (Style.posix.move false) := by
    intro cs
    induction cs with
    | nil => rfl
    | cons c cs ih =>
      obtain ⟨last, hlast⟩ := @moves_cons .posix c cs
      rw [hlast, ih]
      rfl
  rw [resolve_append dir path rfl, Style.resolve, hmoves (Style.posix.components dir)]

lemma resolve_windows {dir : List ℕ} (hdir : dir = [] ∨ ∃ d, dir = d ++ [92]) (path : List ℕ) :
    Style.windows.resolve (dir ++ path) =
      go (Style.windows.resolve dir) (Style.windows.moves (Style.windows.components path)) := by
  obtain rfl | ⟨d, rfl⟩ := hdir
  · rfl
  · rw [List.append_assoc, List.singleton_append, resolve_append d path rfl, resolve_append d [] rfl]
    rfl

/-! ### The prefix -/

lemma trimmed_prefix (y : List ℕ) : syncclip <+: trimmed (syncclip ++ y) := by
  have hkeep : syncclip.reverse.dropWhile (fun u => u == 32 || u == 46) = syncclip.reverse := by decide
  unfold trimmed
  rw [List.reverse_append, List.dropWhile_append]
  split_ifs
  · rw [hkeep]
    exact (List.reverse_reverse syncclip).symm ▸ List.prefix_rfl
  · rw [List.reverse_append, List.reverse_reverse]
    exact List.prefix_append _ _

lemma dropLast_prefix {y : List ℕ} (h : (syncclip ++ y).getLast? = some 46) :
    syncclip <+: (syncclip ++ y).dropLast := by
  cases y with
  | nil => exact absurd h (by decide)
  | cons u y =>
    rw [List.dropLast_append_of_ne_nil (by simp)]
    exact List.prefix_append _ _

/-- The first component of the file is a name with the prefix. -/
lemma move_begins {c : List ℕ} (h : syncclip <+: c) (last : Bool) :
    ∃ name, syncclip <+: name ∧ style.move last c = .down name := by
  obtain ⟨y, rfl⟩ := h
  have hstay : ¬ (syncclip ++ y = [] ∨ syncclip ++ y = [46]) := by simp [syncclip, units, ascii]
  have hup : syncclip ++ y ≠ [46, 46] := by simp [syncclip, units, ascii]
  unfold Style.move
  rw [if_neg hstay, if_neg hup]
  cases style with
  | posix => exact ⟨_, List.prefix_append _ _, rfl⟩
  | windows =>
    cases last with
    | true =>
      have hpre := trimmed_prefix y
      have hne : trimmed (syncclip ++ y) ≠ [] := by
        intro hnil
        rw [hnil] at hpre
        exact absurd (List.prefix_nil.mp hpre) (by decide)
      exact ⟨_, hpre, if_neg hne⟩
    | false =>
      refine ⟨_, ?_, rfl⟩
      split_ifs with hlast
      · exact dropLast_prefix hlast.1
      · exact List.prefix_append _ _

/-- **The file and its name.** -/
lemma child_iff {dir pre : List ℕ} (hpre : syncclip <+: pre) (hsep : ∀ u ∈ pre, style.isSep u = false)
    (name : List ℕ) :
    (∃ child, syncclip <+: child ∧
      go (style.resolve dir) (style.moves (style.components (pre ++ name))) = child :: style.resolve dir) ↔
      Back style dir name := by
  obtain ⟨c, rest, hname⟩ := List.exists_cons_of_ne_nil (List.splitOnP_ne_nil style.isSep name)
  have hcomponents : style.components (pre ++ name) = (pre ++ c) :: rest := by
    rw [Style.components, splitOnP_append hsep, hname]
    rfl
  obtain ⟨last, hlast⟩ := @moves_cons style (pre ++ c) rest
  obtain ⟨first, hfirst, hmove⟩ := @move_begins style _ (hpre.trans (List.prefix_append pre c)) last
  have hgo : ∀ d, go d (style.moves (style.components (pre ++ name))) = go (first :: d) (style.moves rest) := by
    intro d
    rw [hcomponents, hlast, hmove]
    rfl
  unfold Back
  rw [hgo, Style.components, hname, List.tail_cons]
  simp only [go_child_iff]
  constructor
  · rintro ⟨child, hchild, ⟨hway, -⟩ | ⟨hup, hway⟩⟩
    · exact Or.inl hway
    · exact Or.inr ⟨hup, child, hchild, hway⟩
  · rintro (hway | ⟨hup, child, hchild, hway⟩)
    · exact ⟨first, hfirst, Or.inl ⟨hway, rfl⟩⟩
    · exact ⟨child, hchild, Or.inr ⟨hup, hway⟩⟩

lemma back_of_forall {name : List ℕ} (h : ∀ u ∈ name, style.isSep u = false) (dir : List ℕ) :
    Back style dir name := by
  left
  rw [Style.components, List.splitOnP_eq_singleton h]
  rfl

/-! ### The writers -/

lemma units_append (a b : Bytes) : units (a ++ b) = units a ++ units b := List.map_append

lemma linux_stays_iff (name : Bytes) :
    (⟨.posix, units (ascii "/tmp"), units (linuxPath name)⟩ : Target).Stays ↔
      Back .posix (units (ascii "/tmp")) (units (name.take 497)) := by
  have hpath : units (linuxPath name) =
      units (ascii "/tmp") ++ 47 :: (syncclip ++ units (name.take 497)) := by
    have hlen : (ascii "/tmp/syncclip_").length = 14 := rfl
    rw [linuxPath, List.take_append, hlen, units_append, List.take_of_length_le (by rw [hlen]; omega)]
    rfl
  unfold Target.Stays
  rw [hpath, resolve_posix]
  exact child_iff List.prefix_rfl (by decide) _

section Windows

variable {m} (hm : m.Documented)

include hm

lemma not_child_of_cut {r : ℕ} (hr : r < 9) {dir : List (List ℕ)} :
    ¬ ∃ child, syncclip <+: child ∧
      go dir (Style.windows.moves (Style.windows.components (m.acp ((ascii "syncclip_").take r)))) =
        child :: dir := by
  have hmoves : ∀ r < 9, Style.windows.moves (Style.windows.components (syncclip.take r)) =
      [if r = 0 then .stay else .down (syncclip.take r)] := by decide
  have hacp : m.acp ((ascii "syncclip_").take r) = syncclip.take r := by
    have hascii : ∀ b ∈ (ascii "syncclip_").take r, b < 128 := by
      have hall : ∀ b ∈ ascii "syncclip_", b < 128 := by decide +kernel
      exact fun b hb => hall b (List.mem_of_mem_take hb)
    have hansi := hm.ansi _ [] hascii
    rwa [List.append_nil, hm.empty, List.append_nil, units, List.map_take] at hansi
  rintro ⟨child, hchild, hgo⟩
  rw [hacp, hmoves r hr] at hgo
  split_ifs at hgo with hzero
  · have hlen := congrArg List.length hgo
    change dir.length = dir.length + 1 at hlen
    omega
  · obtain rfl : syncclip.take r = child := (List.cons.inj hgo).1
    have hle := hchild.length_le
    rw [List.length_take] at hle
    have hnine : syncclip.length = 9 := rfl
    omega

lemma windows_stays_iff (name : Bytes) :
    (clipboardSetFile m name).Stays ↔ m.tempPath.length ≤ 250 ∧
      Back .windows m.tempDir (m.acp (name.take (250 - m.tempPath.length))) := by
  have hfits := hm.fits
  have hpre : (ascii "syncclip_").length = 9 := rfl
  -- what is left of the prefix and the name behind the directory
  have hpath : (m.acp ((m.tempPath ++ (ascii "syncclip_" ++ name)).take 259)).drop m.root.length =
      m.tempDir ++ m.acp ((ascii "syncclip_" ++ name).take (259 - m.tempPath.length)) := by
    rw [List.take_append, List.take_of_length_le (by omega), hm.temp, List.append_assoc, List.drop_left]
  unfold Target.Stays clipboardSetFile
  dsimp only
  rw [hpath, resolve_windows hm.ends]
  by_cases hlen : m.tempPath.length ≤ 250
  · have hsplit : (ascii "syncclip_" ++ name).take (259 - m.tempPath.length) =
        ascii "syncclip_" ++ name.take (250 - m.tempPath.length) := by
      rw [List.take_append, List.take_of_length_le (by omega), hpre]
      congr 2
      omega
    rw [hsplit, hm.ansi _ _ (by decide +kernel), and_iff_right hlen]
    exact child_iff List.prefix_rfl (by decide) _
  · -- the prefix is cut
    refine iff_of_false ?_ fun h => hlen h.1
    have hcut : (ascii "syncclip_" ++ name).take (259 - m.tempPath.length) =
        (ascii "syncclip_").take (259 - m.tempPath.length) := List.take_append_of_le_length (by omega)
    rw [hcut]
    exact not_child_of_cut hm (by omega)

end Windows

/-- **Where a received file is written.** It is a child of the temporary directory with the prefix exactly if
its name leads back there, for each of the five writers; on Windows the directory must leave room for the
prefix. -/
theorem stays_iff {m : Machine} (hm : m.Documented) (w : Writer) (fileName : Option String) :
    (∀ t, written m w fileName = some t → t.Stays) ↔ Safe m w fileName := by
  have hsome : ∀ t' : Target, (∀ t, some t' = some t → t.Stays) ↔ t'.Stays := by simp
  have hshort : (notified fileName).take 497 = notified fileName :=
    List.take_of_length_le ((List.length_take_le _ _).trans (by omega))
  cases w with
  | receiverThread =>
    rw [written, hsome, linux_stays_iff, hshort, Safe]
  | fileRelayData => rw [written, hsome, linux_stays_iff, Safe]
  | windowsThread => rw [written, hsome, windows_stays_iff hm, Safe]
  | windowsRelayData => rw [written, hsome, windows_stays_iff hm, Safe]
  | handleRelayData =>
    rw [written, handleRelayData, Safe]
    split_ifs with hzero
    · simp [hzero]
    · rw [hsome, or_iff_right hzero, Target.Stays]
      dsimp only
      have hpath : units (utf8 m.cacheDir ++ 47 :: (ascii "syncclip_relay_" ++ utf8 (fileName.getD "file"))) =
          units (utf8 m.cacheDir) ++
            47 :: (units (ascii "syncclip_relay_") ++ units (utf8 (fileName.getD "file"))) := by
        simp [units]
      rw [hpath, resolve_posix]
      exact child_iff (by decide) (by decide) _

/-- A machine with an ASCII code page. -/
def sampleMachine : Machine where
  acp := units
  tempPath := ascii "C:\\Temp\\"
  root := units (ascii "C:\\")
  tempDir := units (ascii "Temp\\")
  cacheDir := "/data/user/0/com.syncclipboard.android/cache"

lemma sampleMachine_documented : sampleMachine.Documented where
  ansi a s _ := units_append a s
  empty := rfl
  temp s := by
    rw [show sampleMachine.acp = units from rfl, units_append]
    rfl
  ends := Or.inr ⟨units (ascii "Temp"), by decide⟩
  fits := by decide

theorem stays_iff_plain : sampleMachine.Documented ∧
    ∀ t, written sampleMachine .windowsThread (some "a.txt") = some t → t.Stays := by
  have hm := sampleMachine_documented
  refine ⟨hm, (stays_iff hm .windowsThread (some "a.txt")).mpr ⟨by decide, back_of_forall ?_ _⟩⟩
  decide +kernel

/-- A name with `..` in it leads out of `/tmp`. -/
theorem written_outside :
    ¬ ∀ t, written sampleMachine .receiverThread (some "x/../../home/u/.bashrc") = some t → t.Stays := by
  intro h
  obtain ⟨child, -, hpath⟩ := h _ rfl
  have htail := congrArg List.tail hpath
  rw [List.tail_cons] at htail
  exact absurd htail (by decide +kernel)

end SyncClipboard.TempPath
