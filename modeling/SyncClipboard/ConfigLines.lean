import Mathlib.Data.List.DropRight
import SyncClipboard.Config
import SyncClipboard.Lexical

/-!
The configuration file, line by line.

A field should have the value of the last line with its key. `config_load` reads pieces of 1023 bytes
at most, and takes every piece for a line. This makes no difference as long as no line has more than
1023 characters, and it does for longer lines (`line_based_iff`).
-/

namespace SyncClipboard.ConfigLines

open FtAuth CString Client Config

/-! ### The meaning of a text -/

def lines (text : Bytes) : List Bytes := text.splitOnP (· == 10)

/-- The key and the value of a line. A line that begins with `#` has none; a zero ends a line. -/
def setting (line : Bytes) : Option (Bytes × Bytes) :=
  if (cStr line).head? = some 35 then none
  else (strchr 61 (cStr line)).map fun (key, val) => (trim key, trim val)

/-- The value of the last of the settings with a key. -/
def lastOf (key : Bytes) (settings : List (Bytes × Bytes)) : Option Bytes :=
  (settings.filter fun s => s.1 == key).getLast?.map Prod.snd

section Meaning

variable (settings : List (Bytes × Bytes))

def text (key : String) (size : ℕ) (default : Bytes) : Bytes :=
  ((lastOf (ascii key) settings).map fun val => val.take (size - 1)).getD default

def number (platform : Platform) (key : String) (default : ℤ) : ℤ :=
  ((lastOf (ascii key) settings).map (atoi (longBits platform))).getD default

/-- The record of a text: the last value of each key, or the default. -/
def lineConfig (platform : Platform) : ClientConfig where
  serverHost := text settings "server_host" maxUrlLen configSetDefaults.serverHost
  serverPort := number settings platform "server_port" configSetDefaults.serverPort
  serverPath := text settings "server_path" maxUrlLen configSetDefaults.serverPath
  serverKey := text settings "server_key" maxKeyLen configSetDefaults.serverKey
  username := text settings "username" maxUserLen configSetDefaults.username
  password := text settings "password" maxPassLen configSetDefaults.password
  aesKey := text settings "aes_key" maxKeyLen configSetDefaults.aesKey
  deviceId := text settings "device_id" maxUserLen configSetDefaults.deviceId
  fileTransferLevel := number settings platform "file_transfer_level" configSetDefaults.fileTransferLevel
  maxTransferSize := number settings platform "max_transfer_size" configSetDefaults.maxTransferSize
  useTls := number settings platform "use_tls" configSetDefaults.useTls
  caCertPath := text settings "ca_cert_path" maxPathLen configSetDefaults.caCertPath
  skipTlsVerify := number settings platform "skip_tls_verify" configSetDefaults.skipTlsVerify
  logLevel := number settings platform "log_level" configSetDefaults.logLevel
  maxLogSizeMb := number settings platform "max_log_size_mb" configSetDefaults.maxLogSizeMb

end Meaning

/-- What a record must have to be accepted. -/
structure Accepted (cfg : ClientConfig) : Prop where
  serverHost : cfg.serverHost ≠ []
  serverPort : 1 ≤ cfg.serverPort ∧ cfg.serverPort ≤ 65535
  serverKey : cfg.serverKey ≠ []
  username : cfg.username ≠ []
  password : cfg.password ≠ []
  aesKey : ValidKey cfg.aesKey
  deviceId : cfg.deviceId ≠ []

def linesOf (platform : Platform) (content : Bytes) : List Bytes := lines (readText platform content)

def hasKey (key line : Bytes) : Bool := (setting line).any fun s => s.1 == key

/-- **Parsing is line based**, for files whose lines have at most so many characters. -/
structure LineBased (limit : ℕ) : Prop where
  fields : ∀ platform content, (∀ line ∈ linesOf platform content, line.length ≤ limit) →
    (configLoad platform (some content)).1 = lineConfig ((linesOf platform content).filterMap setting) platform
  result : ∀ platform content, (∀ line ∈ linesOf platform content, line.length ≤ limit) →
    ((configLoad platform (some content)).2 = 0 ↔
      Accepted (lineConfig ((linesOf platform content).filterMap setting) platform))
  /-- A comment may be inserted or deleted. -/
  comment : ∀ platform content content' before comment after,
    linesOf platform content = before ++ after → linesOf platform content' = before ++ comment :: after →
    (∀ line ∈ before ++ comment :: after, line.length ≤ limit) → comment.head? = some 35 →
    configLoad platform (some content') = configLoad platform (some content)
  /-- Lines may be put in another order, if those with the same key keep theirs. -/
  order : ∀ platform content content', (linesOf platform content').Perm (linesOf platform content) →
    (∀ line ∈ linesOf platform content, line.length ≤ limit) →
    (∀ key, (linesOf platform content').filter (hasKey key) = (linesOf platform content).filter (hasKey key)) →
    configLoad platform (some content') = configLoad platform (some content)

/-! ### Pieces and lines -/

lemma trim_newline (s : Bytes) : trim (s ++ [10]) = trim s := by
  unfold trim
  rw [List.dropWhile_append]
  split_ifs with hempty
  · rw [List.isEmpty_iff.mp hempty]
    decide
  · rw [List.reverse_append, List.reverse_singleton, List.singleton_append, List.dropWhile_cons_of_pos (by decide)]

lemma strchr_newline (s : Bytes) :
    strchr 61 (s ++ [10]) = (strchr 61 s).map fun (key, val) => (key, val ++ [10]) := by
  induction s with
  | nil => rfl
  | cons b s ih =>
    rw [List.cons_append, strchr, strchr, ih]
    split_ifs
    · rfl
    · cases strchr 61 s <;> rfl

def keys : List Bytes :=
  [ascii "server_host", ascii "server_port", ascii "server_path", ascii "server_key", ascii "username",
    ascii "password", ascii "aes_key", ascii "device_id", ascii "file_transfer_level", ascii "max_transfer_size",
    ascii "use_tls", ascii "ca_cert_path", ascii "skip_tls_verify", ascii "log_level", ascii "max_log_size_mb"]

lemma assign_unknown {key : Bytes} (h : key ∉ keys) (platform : Platform) (val : Bytes) (cfg : ClientConfig) :
    assign platform key val cfg = cfg := by
  simp only [keys, List.mem_cons, List.not_mem_nil, or_false, not_or] at h
  simp only [assign, h, if_false]

lemma trim_unknown {c : UInt8} (hc : c = 10 ∨ c = 13) (s : Bytes) : trim (c :: s) ∉ keys := by
  have hblank : (c :: s).dropWhile isBlank = c :: s := by
    rw [List.dropWhile_cons_of_neg]
    rcases hc with rfl | rfl <;> decide
  have hprefix : trim (c :: s) <+: c :: s := by
    unfold trim
    rw [hblank]
    exact List.rdropWhile_prefix _ _
  have hkeys : ∀ key ∈ keys, ∃ b, key.head? = some b ∧ b ≠ 10 ∧ b ≠ 13 := by decide
  intro hmem
  obtain ⟨b, hb, hb10, hb13⟩ := hkeys _ hmem
  cases htrim : trim (c :: s) with
  | nil =>
    rw [htrim] at hb
    cases hb
  | cons d t =>
    rw [htrim] at hb hprefix
    obtain rfl : d = b := Option.some.inj hb
    obtain rfl : d = c := (List.cons_prefix_cons.mp hprefix).1
    rcases hc with rfl | rfl
    · exact hb10 rfl
    · exact hb13 rfl

lemma readLine_eq (platform : Platform) (cfg : ClientConfig) (line : Bytes) :
    readLine platform cfg line =
      match setting line with
      | none => cfg
      | some (key, val) => assign platform key val cfg := by
  unfold readLine setting
  dsimp only
  by_cases hcomment : (cStr line).head? = some 35
  · rw [if_pos (Or.inl hcomment), if_pos hcomment]
  by_cases hend : (cStr line).head? = some 10 ∨ (cStr line).head? = some 13
  · -- the line is skipped, and would have no known key
    rw [if_pos (Or.inr hend), if_neg hcomment]
    cases hline : cStr line with
    | nil => rfl
    | cons c s =>
      have hc : c = 10 ∨ c = 13 := by simpa [hline] using hend
      have hne : c ≠ 61 := by rcases hc with rfl | rfl <;> decide
      rw [strchr, if_neg hne]
      cases strchr 61 s with
      | none => rfl
      | some p => exact (assign_unknown (trim_unknown hc p.1) platform _ cfg).symm
  · rw [if_neg (not_or.mpr ⟨hcomment, hend⟩), if_neg hcomment]
    cases strchr 61 (cStr line) <;> rfl

lemma setting_newline (line : Bytes) : setting (line ++ [10]) = setting line := by
  have hstr : cStr (line ++ [10]) = cStr line ∨ cStr line = line ∧ cStr (line ++ [10]) = line ++ [10] := by
    unfold cStr
    rw [List.takeWhile_append]
    split_ifs with hlen
    · exact Or.inr ⟨(List.takeWhile_prefix _).eq_of_length hlen, rfl⟩
    · exact Or.inl rfl
  unfold setting
  rcases hstr with hstr | ⟨hline, hstr⟩
  · rw [hstr]
  · have hhead : (line ++ [10]).head? = some 35 ↔ line.head? = some 35 := by
      cases line <;> simp
    simp only [hline, hstr, strchr_newline, hhead, Option.map_map]
    split_ifs
    · rfl
    · cases strchr 61 line with
      | none => rfl
      | some p => exact congrArg (fun val => some (trim p.1, val)) (trim_newline p.2)

def after (platform : Platform) (cfg : ClientConfig) (ls : List Bytes) : ClientConfig :=
  ls.foldl (readLine platform) cfg

lemma readLine_newline (platform : Platform) (cfg : ClientConfig) (line : Bytes) :
    readLine platform cfg (line ++ [10]) = readLine platform cfg line := by
  rw [readLine_eq, readLine_eq, setting_newline]

lemma lines_append {w : Bytes} (h : 10 ∉ w) (t : Bytes) : lines (w ++ t) = (lines t).modifyHead (w ++ ·) := by
  refine Lexical.splitOnP_append (fun b hb => ?_) t
  have hne : b ≠ 10 := fun h10 => h (h10 ▸ hb)
  simpa using hne

lemma lines_newline (t : Bytes) : lines (10 :: t) = [] :: lines t := by
  unfold lines
  rw [List.splitOnP_cons_eq_if_modifyHead]
  rfl

lemma lines_line {line : Bytes} (h : 10 ∉ line) (t : Bytes) : lines (line ++ 10 :: t) = line :: lines t := by
  rw [lines_append h, lines_newline]
  simp

lemma lines_of_not_mem {line : Bytes} (h : 10 ∉ line) : lines line = [line] := by
  have hlines := lines_append h []
  rw [List.append_nil] at hlines
  rw [hlines, show lines [] = [[]] from rfl]
  simp

/-- **Pieces are lines.** `fgets` has `line` in the buffer; a line that fills it leaves its end to a piece of
its own, which is skipped. -/
lemma after_fgetsLines (platform : Platform) (cfg : ClientConfig) (text line : Bytes) (hline : 10 ∉ line)
    (hroom : line.length ≤ 1022) (hfits : ∀ l ∈ lines (line ++ text), l.length ≤ 1023) :
    after platform cfg (fgetsLines (1023 - line.length) line text) =
      after platform cfg (lines (line ++ text)) := by
  induction hn : text.length using Nat.strong_induction_on generalizing cfg text line with
  | _ n ih =>
    subst hn
    cases text with
    | nil =>
      rw [List.append_nil, lines_of_not_mem hline, fgetsLines]
      split_ifs with hnil
      · rw [hnil]
        rfl
      · rfl
    | cons b s =>
      rw [fgetsLines]
      by_cases hb : b = 10
      · subst hb
        rw [lines_line hline] at hfits ⊢
        rw [if_pos (Or.inl rfl)]
        show after platform (readLine platform cfg (line ++ [10])) _ = after platform (readLine platform cfg line) _
        rw [readLine_newline]
        exact ih s.length (by simp) _ s [] (by simp) (by simp) (fun l hl => hfits l (List.mem_cons_of_mem _ hl)) rfl
      have hline' : 10 ∉ line ++ [b] := by
        intro h10
        rcases List.mem_append.mp h10 with h10 | h10
        · exact hline h10
        · exact hb (List.mem_singleton.mp h10).symm
      by_cases hfull : 1023 - line.length ≤ 1
      · rw [if_pos (Or.inr hfull)]
        -- the line ends here
        cases s with
        | nil =>
          rw [lines_of_not_mem hline']
          rfl
        | cons c s =>
          have hc : c = 10 := by
            by_contra hne
            have hlong : 10 ∉ line ++ [b] ++ [c] := by
              intro h10
              rcases List.mem_append.mp h10 with h10 | h10
              · exact hline' h10
              · exact hne (List.mem_singleton.mp h10).symm
            rw [show line ++ b :: c :: s = line ++ [b] ++ [c] ++ s by simp, lines_append hlong] at hfits
            obtain ⟨l, ls, hl⟩ := List.exists_cons_of_ne_nil (List.splitOnP_ne_nil (· == 10) s)
            have hle := hfits (line ++ [b] ++ [c] ++ l) (by rw [lines, hl]; simp)
            simp only [List.length_append, List.length_singleton] at hle
            omega
          subst hc
          rw [show line ++ b :: 10 :: s = line ++ [b] ++ 10 :: s by simp, lines_line hline'] at hfits ⊢
          exact ih s.length (by rw [List.length_cons, List.length_cons]; omega) _ s [] (by simp) (by simp)
            (fun l hl => hfits l (List.mem_cons_of_mem _ hl)) rfl
      · have hmore := ih s.length (by simp) cfg s (line ++ [b]) hline' (by simp; omega)
          (by simpa using hfits) rfl
        rw [if_neg (not_or.mpr ⟨hb, hfull⟩)]
        rw [List.length_append, List.length_singleton, List.append_assoc, List.singleton_append] at hmore
        rw [show 1023 - line.length - 1 = 1023 - (line.length + 1) by omega]
        exact hmore

/-! ### The last line wins -/

def assignAll (platform : Platform) (settings : List (Bytes × Bytes)) (cfg : ClientConfig) : ClientConfig :=
  settings.foldl (fun cfg s => assign platform s.1 s.2 cfg) cfg

lemma after_eq (platform : Platform) (ls : List Bytes) (cfg : ClientConfig) :
    after platform cfg ls = assignAll platform (ls.filterMap setting) cfg := by
  induction ls generalizing cfg with
  | nil => rfl
  | cons line ls ih =>
    show after platform (readLine platform cfg line) ls = _
    rw [ih, readLine_eq]
    cases hsetting : setting line with
    | none => rw [List.filterMap_cons_none hsetting]
    | some s => rw [List.filterMap_cons_some hsetting]; rfl

/-- A field of the record belongs to one key. -/
def Belongs {α : Type} (platform : Platform) (field : ClientConfig → α) (key : Bytes) (value : Bytes → α) : Prop :=
  ∀ k val cfg, field (assign platform k val cfg) = if k = key then value val else field cfg

/-- **Such a field** has the last value that its key is given. -/
lemma Belongs.assignAll {α : Type} {platform : Platform} {field : ClientConfig → α} {key : Bytes}
    {value : Bytes → α} (h : Belongs platform field key value) (settings : List (Bytes × Bytes))
    (cfg : ClientConfig) :
    field (assignAll platform settings cfg) = ((lastOf key settings).map value).getD (field cfg) := by
  induction settings using List.reverseRecOn with
  | nil => rfl
  | append_singleton settings s ih =>
    have hstep : ConfigLines.assignAll platform (settings ++ [s]) cfg =
        assign platform s.1 s.2 (ConfigLines.assignAll platform settings cfg) := by
      simp [ConfigLines.assignAll]
    rw [hstep, h, ih]
    unfold lastOf
    rw [List.filter_append, List.getLast?_append]
    by_cases hkey : s.1 = key
    · simp [hkey]
    · simp [hkey]

attribute [ext] ClientConfig

section Fields

variable (platform : Platform)

/-- A string of the record, and a number. -/
def TextBelongs (field : ClientConfig → Bytes) (key : String) (size : ℕ) : Prop :=
  Belongs platform field (ascii key) fun val => val.take (size - 1)

def NumberBelongs (field : ClientConfig → ℤ) (key : String) : Prop :=
  Belongs platform field (ascii key) (atoi (longBits platform))

lemma text_belongs :
    TextBelongs platform (·.serverHost) "server_host" maxUrlLen ∧
      TextBelongs platform (·.serverPath) "server_path" maxUrlLen ∧
      TextBelongs platform (·.serverKey) "server_key" maxKeyLen ∧
      TextBelongs platform (·.username) "username" maxUserLen ∧
      TextBelongs platform (·.password) "password" maxPassLen ∧
      TextBelongs platform (·.aesKey) "aes_key" maxKeyLen ∧
      TextBelongs platform (·.deviceId) "device_id" maxUserLen ∧
      TextBelongs platform (·.caCertPath) "ca_cert_path" maxPathLen := by
  refine ⟨?_, ?_, ?_, ?_, ?_, ?_, ?_, ?_⟩
  all_goals
    intro k val cfg
    split_ifs with hk
    · subst hk
      rfl
    · simp only [assign, apply_ite ClientConfig.serverHost, apply_ite ClientConfig.serverPath,
        apply_ite ClientConfig.serverKey, apply_ite ClientConfig.username, apply_ite ClientConfig.password,
        apply_ite ClientConfig.aesKey, apply_ite ClientConfig.deviceId, apply_ite ClientConfig.caCertPath,
        if_neg hk, ite_self]

lemma number_belongs :
    NumberBelongs platform (·.serverPort) "server_port" ∧
      NumberBelongs platform (·.fileTransferLevel) "file_transfer_level" ∧
      NumberBelongs platform (·.maxTransferSize) "max_transfer_size" ∧
      NumberBelongs platform (·.useTls) "use_tls" ∧
      NumberBelongs platform (·.skipTlsVerify) "skip_tls_verify" ∧
      NumberBelongs platform (·.logLevel) "log_level" ∧
      NumberBelongs platform (·.maxLogSizeMb) "max_log_size_mb" := by
  refine ⟨?_, ?_, ?_, ?_, ?_, ?_, ?_⟩
  all_goals
    intro k val cfg
    split_ifs with hk
    · subst hk
      rfl
    · simp only [assign, apply_ite ClientConfig.serverPort, apply_ite ClientConfig.fileTransferLevel,
        apply_ite ClientConfig.maxTransferSize, apply_ite ClientConfig.useTls,
        apply_ite ClientConfig.skipTlsVerify, apply_ite ClientConfig.logLevel,
        apply_ite ClientConfig.maxLogSizeMb, if_neg hk, ite_self]

/-- **The record that is left** has the last value of each key. -/
lemma assignAll_eq (settings : List (Bytes × Bytes)) :
    assignAll platform settings configSetDefaults = lineConfig settings platform := by
  obtain ⟨hhost, hpath, hkey, huser, hpass, haes, hdevice, hcert⟩ := text_belongs platform
  obtain ⟨hport, hlevel, hsize, htls, hskip, hlog, hlogSize⟩ := number_belongs platform
  apply ClientConfig.ext
  · exact hhost.assignAll settings configSetDefaults
  · exact hport.assignAll settings configSetDefaults
  · exact hpath.assignAll settings configSetDefaults
  · exact hkey.assignAll settings configSetDefaults
  · exact huser.assignAll settings configSetDefaults
  · exact hpass.assignAll settings configSetDefaults
  · exact haes.assignAll settings configSetDefaults
  · exact hdevice.assignAll settings configSetDefaults
  · exact hlevel.assignAll settings configSetDefaults
  · exact hsize.assignAll settings configSetDefaults
  · exact htls.assignAll settings configSetDefaults
  · exact hcert.assignAll settings configSetDefaults
  · exact hskip.assignAll settings configSetDefaults
  · exact hlog.assignAll settings configSetDefaults
  · exact hlogSize.assignAll settings configSetDefaults

end Fields

/-- Only the order of the settings with the same key matters. -/
lemma lineConfig_congr (platform : Platform) {settings settings' : List (Bytes × Bytes)}
    (h : ∀ key, (settings.filter fun s => s.1 == key) = settings'.filter fun s => s.1 == key) :
    lineConfig settings platform = lineConfig settings' platform := by
  have hlast : ∀ key, lastOf key settings = lastOf key settings' := by
    intro key
    rw [lastOf, lastOf, h]
  simp only [lineConfig, text, number, hlast]

/-! ### Line by line -/

lemma filter_filterMap (key : Bytes) (ls : List Bytes) :
    ((ls.filterMap setting).filter fun s => s.1 == key) = (ls.filter (hasKey key)).filterMap setting := by
  induction ls with
  | nil => rfl
  | cons line ls ih =>
    cases hsetting : setting line with
    | none =>
      have hkey : hasKey key line = false := by simp [hasKey, hsetting]
      rw [List.filterMap_cons_none hsetting, List.filter_cons_of_neg (by simp [hkey]), ih]
    | some s =>
      have hkey : hasKey key line = (s.1 == key) := by simp [hasKey, hsetting]
      rw [List.filterMap_cons_some hsetting, List.filter_cons, List.filter_cons, hkey]
      split_ifs
      · rw [List.filterMap_cons_some hsetting, ih]
      · exact ih

lemma configLoad_lines {platform : Platform} {content : Bytes}
    (h : ∀ line ∈ linesOf platform content, line.length ≤ 1023) :
    (configLoad platform (some content)).1 =
      lineConfig ((linesOf platform content).filterMap setting) platform := by
  have hpieces := after_fgetsLines platform configSetDefaults (readText platform content) [] (by simp) (by simp) h
  rw [after_eq platform (lines _), assignAll_eq] at hpieces
  exact hpieces

lemma result_eq (platform : Platform) (content : Bytes) :
    (configLoad platform (some content)).2 = 0 ↔ Accepted (configLoad platform (some content)).1 := by
  rw [configLoad_accepts_iff, and_iff_right (show (some content).isSome = true from rfl)]
  constructor
  · rintro ⟨hhost, hport, hkey, huser, hpass, haes, hdevice⟩
    exact ⟨hhost, ⟨by omega, hport.2⟩, hkey, huser, hpass, haes, hdevice⟩
  · rintro ⟨hhost, hport, hkey, huser, hpass, haes, hdevice⟩
    exact ⟨hhost, ⟨by omega, hport.2⟩, hkey, huser, hpass, haes, hdevice⟩

lemma configLoad_congr {platform : Platform} {content content' : Bytes}
    (h : (configLoad platform (some content')).1 = (configLoad platform (some content)).1) :
    configLoad platform (some content') = configLoad platform (some content) := by
  refine Prod.ext h ?_
  simp only [configLoad] at h ⊢
  rw [h]

lemma lineBased_of_le {limit : ℕ} (h : limit ≤ 1023) : LineBased limit := by
  have hread : ∀ {platform content}, (∀ line ∈ linesOf platform content, line.length ≤ limit) →
      (configLoad platform (some content)).1 =
        lineConfig ((linesOf platform content).filterMap setting) platform :=
    fun hfits => configLoad_lines fun line hline => (hfits line hline).trans h
  refine ⟨fun platform content hfits => hread hfits, fun platform content hfits => ?_, ?_, ?_⟩
  · rw [result_eq, hread hfits]
  · intro platform content content' before comment after hlines hlines' hfits hcomment
    refine configLoad_congr ?_
    have hnone : setting comment = none := by
      cases comment with
      | nil => cases hcomment
      | cons c s =>
        obtain rfl : c = 35 := Option.some.inj hcomment
        rfl
    have hfits' : ∀ line ∈ linesOf platform content, line.length ≤ limit := by
      intro line hline
      rw [hlines] at hline
      refine hfits line ?_
      rcases List.mem_append.mp hline with hline | hline
      · exact List.mem_append_left _ hline
      · exact List.mem_append_right _ (List.mem_cons_of_mem _ hline)
    rw [hread (hlines' ▸ hfits), hread hfits', hlines, hlines', List.filterMap_append, List.filterMap_append,
      List.filterMap_cons_none hnone]
  · intro platform content content' hperm hfits horder
    refine configLoad_congr ?_
    rw [hread fun line hline => hfits line (hperm.mem_iff.mp hline), hread hfits]
    refine lineConfig_congr platform fun key => ?_
    rw [filter_filterMap, filter_filterMap, horder]

/-! ### Longer lines -/

lemma fgetsLines_full {room : ℕ} {piece : Bytes} (hpiece : 10 ∉ piece) (hlen : piece.length = room) (hroom : 1 ≤ room)
    (line s : Bytes) : fgetsLines room line (piece ++ s) = (line ++ piece) :: fgetsLines 1023 [] s := by
  induction piece generalizing room line with
  | nil =>
    rw [List.length_nil] at hlen
    omega
  | cons b piece ih =>
    have hb : b ≠ 10 := fun h10 => hpiece (by simp [h10])
    rw [List.length_cons] at hlen
    rw [List.cons_append, fgetsLines]
    by_cases hlast : room ≤ 1
    · obtain rfl : piece = [] := List.length_eq_zero_iff.mp (by omega)
      rw [if_pos (Or.inr hlast), List.nil_append]
    · rw [if_neg (not_or.mpr ⟨hb, hlast⟩), ih (fun h10 => hpiece (by simp [h10])) (by omega) (by omega)]
      simp

lemma configLoad_pieces {piece : Bytes} (hpiece : 10 ∉ piece) (hlen : piece.length = 1023) (s : Bytes) :
    (configLoad .linux (some (piece ++ s))).1 =
      after .linux (readLine .linux configSetDefaults piece) (fgetsLines 1023 [] s) := by
  show after .linux configSetDefaults (fgetsLines 1023 [] (piece ++ s)) = _
  rw [fgetsLines_full hpiece hlen (by decide)]
  rfl

lemma not_mem_padded {c : UInt8} (hc : c ≠ 10) {s : Bytes} (hs : 10 ∉ s) (n : ℕ) : 10 ∉ List.replicate n c ++ s := by
  intro h10
  rcases List.mem_append.mp h10 with h10 | h10
  · exact hc (List.eq_of_mem_replicate h10).symm
  · exact hs h10

/-- The value stands behind the buffer. -/
def indented : Bytes := List.replicate 1015 32 ++ ascii "use_tls=1"

lemma not_lineBased {limit : ℕ} (h : 1023 < limit) : ¬ LineBased limit := by
  intro hbased
  have hlines : linesOf .linux indented = [indented] :=
    lines_of_not_mem (not_mem_padded (by decide) (by decide) 1015)
  have hfields := hbased.fields .linux indented (by
    rw [hlines]
    intro line hline
    rw [List.mem_singleton.mp hline, indented, List.length_append, List.length_replicate,
      show (ascii "use_tls=1").length = 9 from rfl]
    omega)
  have hwhole : setting indented = some (ascii "use_tls", ascii "1") := by decide +kernel
  have hpiece : setting (List.replicate 1015 32 ++ ascii "use_tls=") = some (ascii "use_tls", []) := by
    decide +kernel
  have hpieces := @configLoad_pieces (List.replicate 1015 32 ++ ascii "use_tls=")
    (not_mem_padded (by decide) (by decide) 1015) (by decide +kernel) (ascii "1")
  rw [List.append_assoc, show ascii "use_tls=" ++ ascii "1" = ascii "use_tls=1" from rfl, readLine_eq, hpiece]
    at hpieces
  have htls := congrArg ClientConfig.useTls (hpieces.symm.trans hfields)
  rw [hlines, List.filterMap_cons_some hwhole] at htls
  exact absurd htls (by decide)

/-- **Parsing is line based** exactly for the files whose lines have at most 1023 characters. -/
theorem line_based_iff (limit : ℕ) : LineBased limit ↔ limit ≤ 1023 := by
  constructor
  · intro h
    by_contra hlong
    exact not_lineBased (by omega) h
  · exact lineBased_of_le

/-- A comment with a setting behind its first 1023 characters. -/
def hidden : Bytes := List.replicate 1023 35 ++ ascii "server_host=evil"

/-- The setting is taken. -/
theorem comment_sets_host :
    ¬ (configLoad .linux (some hidden)).1 = lineConfig ((linesOf .linux hidden).filterMap setting) .linux := by
  have hlines : linesOf .linux hidden = [hidden] :=
    lines_of_not_mem (not_mem_padded (by decide) (by decide) 1023)
  have hpieces := @configLoad_pieces (List.replicate 1023 35)
    (fun h10 => absurd (List.eq_of_mem_replicate h10) (by decide)) List.length_replicate (ascii "server_host=evil")
  have hcomment : readLine .linux configSetDefaults (List.replicate 1023 35) = configSetDefaults := rfl
  intro hfields
  have hhost := congrArg ClientConfig.serverHost (hpieces.symm.trans hfields)
  rw [hcomment, hlines, List.filterMap_cons_none (show setting hidden = none from rfl)] at hhost
  exact absurd hhost (by decide)

end SyncClipboard.ConfigLines
