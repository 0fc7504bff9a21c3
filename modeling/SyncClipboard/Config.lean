import SyncClipboard.Client
import SyncClipboard.CString

/-!
The configuration file of the Linux and Windows clients.

The lines `key = value` of the file fill in a record of defaults, and the record is then checked.
The caller has the record whatever the check says.
-/

namespace SyncClipboard.Config

open FtAuth CString Client

def maxUrlLen : ℕ := 256
def maxKeyLen : ℕ := 256
def maxUserLen : ℕ := 128
def maxPassLen : ℕ := 128
def maxPathLen : ℕ := 512

/-- Strings are given by their bytes. -/
structure ClientConfig where
  serverHost : Bytes
  serverPort : ℤ
  serverPath : Bytes
  serverKey : Bytes
  username : Bytes
  password : Bytes
  aesKey : Bytes
  deviceId : Bytes
  fileTransferLevel : ℤ
  maxTransferSize : ℤ
  useTls : ℤ
  caCertPath : Bytes
  skipTlsVerify : ℤ
  logLevel : ℤ
  maxLogSizeMb : ℤ
  deriving DecidableEq

/-- The sensitive fields start blank. -/
def configSetDefaults : ClientConfig where
  serverHost := []
  serverPort := 8080
  serverPath := (ascii "/ws/v2/clipboard").take (maxUrlLen - 1)
  serverKey := []
  username := []
  password := []
  aesKey := []
  deviceId := []
  fileTransferLevel := 3
  maxTransferSize := 500
  useTls := 0
  caCertPath := []
  skipTlsVerify := 0
  logLevel := 1
  maxLogSizeMb := 10

/-! ### Lines -/

/-- A line end of two characters becomes one. -/
def crlf : Bytes → Bytes
  | 13 :: 10 :: s => 10 :: crlf s
  | b :: s => b :: crlf s
  | [] => []

/-- What `fopen(path, "r")` reads; on Windows a file in text mode ends at a Ctrl-Z. -/
def readText : Platform → Bytes → Bytes
  | .linux, s => s
  | .windows, s => crlf (s.takeWhile (· ≠ 26))

/-- What `fgets` returns call by call: a line, or as much of it as fits into the buffer, which takes
`room` more bytes after `line`. -/
def fgetsLines (room : ℕ) (line : Bytes) : Bytes → List Bytes
  | [] => if line = [] then [] else [line]
  | b :: s =>
    if b = 10 ∨ room ≤ 1 then (line ++ [b]) :: fgetsLines 1023 [] s
    else fgetsLines (room - 1) (line ++ [b]) s

/-- The string in a buffer, up to its first zero. -/
def cStr (s : Bytes) : Bytes := s.takeWhile (· ≠ 0)

def isBlank (b : UInt8) : Bool := b = 32 || b = 9

def trim (s : Bytes) : Bytes :=
  ((s.dropWhile isBlank).reverse.dropWhile fun b => isBlank b || b = 10 || b = 13).reverse

/-- The bits of a `long`. -/
def longBits : Platform → ℕ
  | .linux => 64
  | .windows => 32

/-- The assignment of a value to the field its key names; other keys are ignored. -/
def assign (platform : Platform) (key val : Bytes) (cfg : ClientConfig) : ClientConfig :=
  let num := atoi (longBits platform) val
  if key = ascii "server_host" then { cfg with serverHost := val.take (maxUrlLen - 1) }
  else if key = ascii "server_port" then { cfg with serverPort := num }
  else if key = ascii "server_path" then { cfg with serverPath := val.take (maxUrlLen - 1) }
  else if key = ascii "server_key" then { cfg with serverKey := val.take (maxKeyLen - 1) }
  else if key = ascii "username" then { cfg with username := val.take (maxUserLen - 1) }
  else if key = ascii "password" then { cfg with password := val.take (maxPassLen - 1) }
  else if key = ascii "aes_key" then { cfg with aesKey := val.take (maxKeyLen - 1) }
  else if key = ascii "device_id" then { cfg with deviceId := val.take (maxUserLen - 1) }
  else if key = ascii "file_transfer_level" then { cfg with fileTransferLevel := num }
  else if key = ascii "max_transfer_size" then { cfg with maxTransferSize := num }
  else if key = ascii "use_tls" then { cfg with useTls := num }
  else if key = ascii "ca_cert_path" then { cfg with caCertPath := val.take (maxPathLen - 1) }
  else if key = ascii "skip_tls_verify" then { cfg with skipTlsVerify := num }
  else if key = ascii "log_level" then { cfg with logLevel := num }
  else if key = ascii "max_log_size_mb" then { cfg with maxLogSizeMb := num }
  else cfg

/-- One turn of the loop over the lines. -/
def readLine (platform : Platform) (cfg : ClientConfig) (line : Bytes) : ClientConfig :=
  let line := cStr line
  if line.head? = some 35 ∨ line.head? = some 10 ∨ line.head? = some 13 then cfg
  else match strchr 61 line with
    | none => cfg
    | some (key, val) => assign platform (trim key) (trim val) cfg

/-! ### The check -/

def isHex (s : Bytes) (expectedLen : ℕ) : Bool :=
  decide (s.length = expectedLen) && s.all fun b => (hexDigit b).isSome

/-- The reason a required field gives. -/
def missing (field : String) (value : Bytes) : List String :=
  if value = [] then ["[FATAL] Required field missing: " ++ field] else []

def portReasons (port : ℤ) : List String :=
  if port ≤ 0 ∨ 65535 < port then ["[FATAL] Invalid server_port: " ++ toString port] else []

def keyReasons (key : Bytes) : List String :=
  if key = [] then missing "aes_key" key
  else if isHex key 64 = false then ["[FATAL] aes_key must be 64 hex characters (AES-256)"]
  else []

/-- The reasons to refuse a configuration, as they are printed. -/
def fatal (cfg : ClientConfig) : List String :=
  missing "server_host" cfg.serverHost ++ portReasons cfg.serverPort ++
    missing "server_key" cfg.serverKey ++ missing "username" cfg.username ++
    missing "password" cfg.password ++ keyReasons cfg.aesKey ++ missing "device_id" cfg.deviceId

/-- The record and the result; there is no file where `file` is `none`. -/
def configLoad (platform : Platform) (file : Option Bytes) : ClientConfig × ℤ :=
  match file with
  | none => (configSetDefaults, -1)
  | some content =>
    let cfg := (fgetsLines 1023 [] (readText platform content)).foldl (readLine platform)
      configSetDefaults
    (cfg, if fatal cfg = [] then 0 else -1)

/-! ### What is accepted -/

lemma isHex_iff {s : Bytes} : isHex s 64 = true ↔ ValidKey s := by
  simp [isHex, ValidKey]

lemma missing_eq_nil {field : String} {value : Bytes} : missing field value = [] ↔ value ≠ [] := by
  simp [missing]

lemma keyReasons_eq_nil {key : Bytes} : keyReasons key = [] ↔ ValidKey key := by
  rw [← isHex_iff]
  unfold keyReasons
  by_cases hkey : key = []
  · subst hkey
    decide
  · rw [if_neg hkey]
    cases isHex key 64 <;> simp

/-- **What is accepted is well formed.** -/
theorem configLoad_accepts_iff (platform : Platform) (file : Option Bytes) :
    (configLoad platform file).2 = 0 ↔ file.isSome = true ∧
      (configLoad platform file).1.serverHost ≠ [] ∧
      (0 < (configLoad platform file).1.serverPort ∧
        (configLoad platform file).1.serverPort ≤ 65535) ∧
      (configLoad platform file).1.serverKey ≠ [] ∧ (configLoad platform file).1.username ≠ [] ∧
      (configLoad platform file).1.password ≠ [] ∧ ValidKey (configLoad platform file).1.aesKey ∧
      (configLoad platform file).1.deviceId ≠ [] := by
  cases file with
  | none => simp [configLoad]
  | some content =>
    simp only [configLoad, Option.isSome_some, true_and]
    generalize (fgetsLines 1023 [] (readText platform content)).foldl (readLine platform)
      configSetDefaults = cfg
    have hport : portReasons cfg.serverPort = [] ↔ 0 < cfg.serverPort ∧ cfg.serverPort ≤ 65535 := by
      unfold portReasons
      split_ifs <;> simp <;> omega
    have hcode : (if fatal cfg = [] then (0 : ℤ) else -1) = 0 ↔ fatal cfg = [] := by
      split_ifs with h <;> simp [h]
    rw [hcode, fatal]
    simp only [List.append_eq_nil_iff, missing_eq_nil, keyReasons_eq_nil, hport, and_assoc]

/-- Every string fits into its field, with the zero at its end. -/
structure Fits (cfg : ClientConfig) : Prop where
  serverHost : cfg.serverHost.length < maxUrlLen
  serverPath : cfg.serverPath.length < maxUrlLen
  serverKey : cfg.serverKey.length < maxKeyLen
  username : cfg.username.length < maxUserLen
  password : cfg.password.length < maxPassLen
  aesKey : cfg.aesKey.length < maxKeyLen
  deviceId : cfg.deviceId.length < maxUserLen
  caCertPath : cfg.caCertPath.length < maxPathLen

lemma length_take_lt {n : ℕ} (hn : 0 < n) (val : Bytes) : (val.take (n - 1)).length < n := by
  rw [List.length_take]
  omega

lemma assign_fits (platform : Platform) (key val : Bytes) {cfg : ClientConfig} (h : Fits cfg) :
    Fits (assign platform key val cfg) := by
  have hurl := length_take_lt (n := maxUrlLen) (by decide) val
  have hkey := length_take_lt (n := maxKeyLen) (by decide) val
  have huser := length_take_lt (n := maxUserLen) (by decide) val
  have hpass := length_take_lt (n := maxPassLen) (by decide) val
  have hpath := length_take_lt (n := maxPathLen) (by decide) val
  have hite : ∀ (p : Prop) [Decidable p] (a b : ClientConfig), Fits a → Fits b →
      Fits (if p then a else b) := fun p _ a b ha hb => by split_ifs <;> assumption
  unfold assign
  -- one goal a field, in the order of the tests; the numbers leave the strings as they are
  refine hite _ _ _ { h with serverHost := hurl } (hite _ _ _ { h with } ?_)
  refine hite _ _ _ { h with serverPath := hurl } (hite _ _ _ { h with serverKey := hkey } ?_)
  refine hite _ _ _ { h with username := huser } (hite _ _ _ { h with password := hpass } ?_)
  refine hite _ _ _ { h with aesKey := hkey } (hite _ _ _ { h with deviceId := huser } ?_)
  refine hite _ _ _ { h with } (hite _ _ _ { h with } (hite _ _ _ { h with } ?_))
  refine hite _ _ _ { h with caCertPath := hpath } (hite _ _ _ { h with } ?_)
  exact hite _ _ _ { h with } (hite _ _ _ { h with } h)

lemma readLine_fits (platform : Platform) {cfg : ClientConfig} (h : Fits cfg) (line : Bytes) :
    Fits (readLine platform cfg line) := by
  unfold readLine
  dsimp only
  split_ifs
  · exact h
  · split
    · exact h
    · exact assign_fits platform _ _ h

lemma foldl_fits (platform : Platform) (lines : List Bytes) {cfg : ClientConfig} (h : Fits cfg) :
    Fits (lines.foldl (readLine platform) cfg) := by
  induction lines generalizing cfg with
  | nil => exact h
  | cons line lines ih => exact ih (readLine_fits platform h line)

/-- **No field overflows**, whatever the file holds. -/
theorem configLoad_fits (platform : Platform) (file : Option Bytes) :
    Fits (configLoad platform file).1 := by
  have hdefaults : Fits configSetDefaults := by constructor <;> decide
  cases file with
  | none => exact hdefaults
  | some content => exact foldl_fits platform _ hdefaults

example : (configLoad .windows (some (ascii "# a\r\naes_key =\t00ff \r\nserver_port=99x\r\n"))).1 =
    { configSetDefaults with aesKey := ascii "00ff", serverPort := 99 } := by
  decide +kernel

end SyncClipboard.Config
