import SyncClipboard.SaveUsers

/-!
The passwords that are still plain text when the server starts.

A stored string is told to be a hash by its first four characters. Where they tell the truth about
every entry of the file, the same passwords are right before and after the migration, and a second
start changes nothing; and only there (`preserved_iff`).
-/

namespace SyncClipboard.PasswordMigration

open UserFile
open UserFile.UserMap (Same)
open Auth (Encoder isBcrypt startsWith)
open KeyHex (units)
open Properties (Text)

/-- What stands in the file for a user. -/
inductive Stored
  | hash
  | plain
  deriving DecidableEq

/-- What is asked of the encoder. -/
structure Lawful (enc : Encoder) : Prop where
  check_encode : ∀ p salt q, enc.check p (enc.encode salt q) = true ↔ p = q
  prefix_encode : ∀ salt q, startsWith "$2a$" (enc.encode salt q) = true

/-- The hash is one of the password, or the plain text is the password. -/
def Opens (enc : Encoder) : Stored → String → String → Prop
  | .hash, stored, password => enc.check password stored = true
  | .plain, stored, password => stored = password

/-- Whom the file lets in. -/
def Admits (enc : Encoder) (kind : String → Stored) (raw : UserMap) (username password : String) : Prop :=
  ∃ stored, raw.get username = some stored ∧ Opens enc (kind username) stored password

/-- The server after its first start. -/
def started (p : Platform) (enc : Encoder) (salts : String → ℕ) (file : Option Text) : Server := init p enc salts none file

/-- If a login is right. -/
def passes (p : Platform) (enc : Encoder) (salt : ℕ) (failure : Option Failure) (username password : String) (s : Server) :
    Bool := (authenticate p enc salt failure (some username) (some password) s).1

/-- **The migration preserves who can log in.** -/
structure Preserved (first second : Platform) (enc : Encoder) (salts salts' : String → ℕ) (kind : String → Stored)
    (raw : UserMap) (file : Option Text) : Prop where
  logins : ∀ salt failure username password,
    passes first enc salt failure username password (started first enc salts file) = true ↔
      Admits enc kind raw username password
  recognised : ∀ username stored,
    (started first enc salts file).users.get username = some stored → isBcrypt stored = true
  saved : Holds (started first enc salts file).file (started first enc salts file).users
  /-- the second start, on the file that the first one has left -/
  again_users : Same (started second enc salts' (started first enc salts file).file).users (started first enc salts file).users
  again_file : Holds (started second enc salts' (started first enc salts file).file).file (started first enc salts file).users
  again_logins : ∀ salt failure username password,
    passes second enc salt failure username password (started second enc salts' (started first enc salts file).file) =
      passes first enc salt failure username password (started first enc salts file)

variable (p : Platform) (salts : String → ℕ) {enc : Encoder} {raw : UserMap} {file : Option Text}

lemma isBcrypt_of_prefix {s : String} (h : startsWith "$2a$" s = true) : isBcrypt s = true := by
  rw [isBcrypt, h]
  rfl

lemma passes_iff (salt : ℕ) (failure : Option Failure) (username password : String) (s : Server) :
    passes p enc salt failure username password s = true ↔
      ∃ stored, s.users.get username = some stored ∧
        if isBcrypt stored = true then enc.check password stored = true else stored = password := by
  unfold passes authenticate
  dsimp only
  cases s.users.get username with
  | none => simp
  | some stored =>
    dsimp only
    split_ifs with hhash heq
    · simp [hhash]
    · subst heq
      simp [hhash]
    · simp [hhash, heq]

/-- After a start the map has the passwords after the migration, and so has the file. -/
lemma started_users (hraw : load file = some raw) : (started p enc salts file).users = (migrate enc salts raw).1 := by
  rw [started, init, hraw]
  dsimp only
  split_ifs <;> rfl

lemma started_holds (hraw : load file = some raw) :
    Holds (started p enc salts file).file (started p enc salts file).users := by
  rw [started_users p salts hraw]
  exact @SaveUsers.run_saves .init raw ⟨.empty, file⟩ p enc salts ⟨⟨raw, hraw, fun _ => rfl⟩, .inl rfl⟩

/-! ### Passwords with the prefix they should have -/

lemma hashed_iff (k : String) (henc : Lawful enc) {kind : Stored} {stored : String} (hkind : kind = .hash ↔ isBcrypt stored = true)
    (password : String) :
    (if isBcrypt (hashed enc salts k stored) = true then enc.check password (hashed enc salts k stored) = true
      else hashed enc salts k stored = password) ↔ Opens enc kind stored password := by
  unfold hashed
  by_cases hhash : isBcrypt stored = true
  · obtain rfl := hkind.mpr hhash
    rw [if_pos hhash, if_pos hhash, Opens]
  · have hplain : kind = .plain := by
      cases kind with
      | hash => exact absurd (hkind.mp rfl) hhash
      | plain => rfl
    subst hplain
    have hnew : isBcrypt (enc.encode (salts k) stored) = true := isBcrypt_of_prefix (henc.prefix_encode _ _)
    rw [if_neg hhash, if_pos hnew, henc.check_encode, Opens, eq_comm]

lemma passes_started (henc : Lawful enc) {kind : String → Stored} (hraw : load file = some raw)
    (hkind : ∀ username stored, raw.get username = some stored → (kind username = .hash ↔ isBcrypt stored = true))
    (salt : ℕ) (failure : Option Failure) (username password : String) :
    passes p enc salt failure username password (started p enc salts file) = true ↔
      Admits enc kind raw username password := by
  rw [passes_iff, started_users p salts hraw, Admits]
  simp only [get_migrate]
  cases hget : raw.get username with
  | none => simp
  | some stored =>
    have h := hashed_iff salts username henc (hkind username stored hget) password
    simpa using h

lemma recognised_started (henc : Lawful enc) (hraw : load file = some raw) (username stored : String)
    (hget : (started p enc salts file).users.get username = some stored) : isBcrypt stored = true := by
  rw [started_users p salts hraw, get_migrate] at hget
  obtain ⟨old, -, rfl⟩ := Option.map_eq_some_iff.mp hget
  unfold hashed
  split_ifs with hhash
  · exact hhash
  · exact isBcrypt_of_prefix (henc.prefix_encode _ _)

/-- A start on a file whose passwords are hashed changes nothing. -/
lemma started_of_hashed (hhash : ∀ username stored, raw.get username = some stored → isBcrypt stored = true)
    (hraw : load file = some raw) :
    Same (started p enc salts file).users raw ∧ (started p enc salts file).file = file := by
  have hflag := (migrate_flag enc salts raw).mpr hhash
  rw [started_users p salts hraw]
  refine ⟨migrate_of_hashed hhash enc salts, ?_⟩
  simp only [started, init, hraw, hflag, Bool.false_eq_true, if_false]

/-- The migration does what it is for, if the prefixes are right. -/
lemma preserved_of_kind (first second : Platform) (henc : Lawful enc) (salts salts' : String → ℕ) {kind : String → Stored}
    (hraw : load file = some raw)
    (hkind : ∀ username stored, raw.get username = some stored → (kind username = .hash ↔ isBcrypt stored = true)) :
    Preserved first second enc salts salts' kind raw file := by
  have hrecognised := recognised_started first salts henc hraw
  obtain ⟨saved, hsaved, hsame⟩ := @started_holds first salts enc raw file hraw
  have hhash : ∀ username stored, saved.get username = some stored → isBcrypt stored = true := by
    intro username stored hget
    rw [hsame username] at hget
    exact hrecognised username stored hget
  obtain ⟨husers, hfile⟩ := @started_of_hashed second salts' enc saved _ hhash hsaved
  have hagain := husers.trans hsame
  refine ⟨passes_started first salts henc hraw hkind, hrecognised, ⟨saved, hsaved, hsame⟩, hagain, ?_, ?_⟩
  · rw [hfile]
    exact ⟨saved, hsaved, hsame⟩
  · intro salt failure username password
    rw [Bool.eq_iff_iff, passes_iff, passes_iff, hagain username]

/-! ### Passwords with another prefix -/

lemma lawful_prefixing : Lawful prefixing where
  check_encode := by
    intro p salt q
    simp [prefixing, eq_comm]
  prefix_encode := by
    intro salt q
    simp [startsWith, prefixing]

/-- A hash that is taken for a password, or a password that is taken for a hash. -/
lemma kind_of_logins {kind : String → Stored} (hraw : load file = some raw)
    (h : ∀ username password, passes p prefixing 0 none username password (started p prefixing salts file) = true ↔
      Admits prefixing kind raw username password)
    (username stored : String) (hget : raw.get username = some stored) :
    kind username = .hash ↔ isBcrypt stored = true := by
  have hlogin := h username stored
  rw [passes_iff, started_users p salts hraw, Admits] at hlogin
  simp only [get_migrate, hget, Option.map_some, Option.some_inj, exists_eq_left', hashed] at hlogin
  -- a string is longer than what stands behind its prefix
  have hlonger : prefixing.check stored stored = false := by
    refine decide_eq_false fun heq => ?_
    have hlen := congrArg String.length heq
    rw [String.length_append] at hlen
    have hfour : "$2a$".length = 4 := rfl
    omega
  cases hkind : kind username with
  | hash =>
    rw [hkind] at hlogin
    refine iff_of_true rfl ?_
    by_contra hhash
    rw [if_neg hhash, if_pos (isBcrypt_prefixing _ _)] at hlogin
    have hright : prefixing.check stored stored = true := hlogin.mp (by simp [prefixing])
    rw [hlonger] at hright
    cases hright
  | plain =>
    rw [hkind] at hlogin
    refine iff_of_false (by simp) fun hhash => ?_
    rw [if_pos hhash, if_pos hhash, hlonger] at hlogin
    exact absurd (hlogin.mpr rfl) (by simp)

/-- **When the migration preserves who can log in.** -/
theorem preserved_iff (first second : Platform) (kind : String → Stored) (file : Option Text) (raw : UserMap)
    (hraw : load file = some raw) :
    (∀ enc, Lawful enc → ∀ salts salts', Preserved first second enc salts salts' kind raw file) ↔
      ∀ username stored, raw.get username = some stored → (kind username = .hash ↔ isBcrypt stored = true) := by
  constructor
  · intro h
    exact kind_of_logins first (fun _ => 0) hraw
      ((h prefixing lawful_prefixing (fun _ => 0) fun _ => 0).logins 0 none)
  · intro hkind enc henc salts salts'
    exact preserved_of_kind first second henc salts salts' hraw hkind

/-! ### Two files -/

def bob : UserMap := UserMap.empty.put "bob" "secret"

def carol : UserMap := UserMap.empty.put "carol" "$2a$secret"

lemma load_line {text : Text} {username password : String}
    (htext : Properties.load text = some [(units username, units password)]) :
    load (some text) = some (UserMap.empty.put username password) := by
  rw [load, htext, Option.map_some, putAll, List.foldl_cons, List.foldl_nil, toString_units, toString_units]

lemma load_bob : load (some (units "bob=secret")) = some bob := load_line (by decide +kernel)

lemma load_carol : load (some (units "carol=$2a$secret")) = some carol := load_line (by decide +kernel)

theorem preserved_iff_bob : Preserved linux linux prefixing (fun _ => 0) (fun _ => 1) (fun _ => .plain) bob
    (some (units "bob=secret")) := by
  refine (preserved_iff linux linux (fun _ => .plain) _ bob load_bob).mpr (fun username stored hget => ?_) prefixing
    lawful_prefixing _ _
  rw [bob, UserMap.get_put] at hget
  split_ifs at hget with hname
  · obtain rfl := Option.some_inj.mp hget
    decide
  · cases hget

/-- A password that looks like a hash is right for the file and wrong after the start. -/
theorem plainPrefix_lockedOut : load (some (units "carol=$2a$secret")) = some carol ∧ Lawful prefixing ∧
    Admits prefixing (fun _ => .plain) carol "carol" "$2a$secret" ∧
    passes linux prefixing 0 none "carol" "$2a$secret"
      (started linux prefixing (fun _ => 0) (some (units "carol=$2a$secret"))) = false := by
  have hget : carol.get "carol" = some "$2a$secret" := by rw [carol, UserMap.get_put, if_pos rfl]
  refine ⟨load_carol, lawful_prefixing, ⟨_, hget, rfl⟩, ?_⟩
  rw [Bool.eq_false_iff, Ne, passes_iff, started_users _ _ load_carol]
  simp only [get_migrate, hget, Option.map_some, Option.some_inj, exists_eq_left']
  decide

end SyncClipboard.PasswordMigration
