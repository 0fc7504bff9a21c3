import SyncClipboard.Auth
import SyncClipboard.Keyed
import SyncClipboard.KeyHex
import SyncClipboard.Properties

/-!
The file with the users and their passwords, as the server and the command line tool change it.

Both write the whole file again: opening it cuts it to nothing, and the text follows. The server has
changed its map by then and only logs an error. So a save that fails may leave neither the old users
nor the new ones, or the old ones in the file and the new ones in the map.
-/

namespace SyncClipboard.UserFile

open Auth (Encoder isBcrypt)
open Properties (Text NewLine OneLine)
open KeyHex (units)

/-! ### Strings -/

/-- A unit that is no half of a pair. -/
def single (u : ℕ) : Char := if 0xD800 ≤ u ∧ u < 0xE000 then Char.ofNat 0xFFFD else Char.ofNat u

/-- The characters of a string of Java. -/
def ofUnits : List ℕ → List Char
  | [] => []
  | [u] => [single u]
  | u :: v :: us =>
    if (0xD800 ≤ u ∧ u < 0xDC00) ∧ 0xDC00 ≤ v ∧ v < 0xE000 then
      Char.ofNat (0x10000 + (u - 0xD800) * 0x400 + (v - 0xDC00)) :: ofUnits us
    else single u :: ofUnits (v :: us)

def toString (us : List ℕ) : String := String.ofList (ofUnits us)

lemma utf16_cases (c : Char) :
    (TextDedup.utf16 c = [c.toNat] ∧ (c.toNat < 0xD800 ∨ 0xE000 ≤ c.toNat) ∧ c.toNat < 0x10000) ∨
      ∃ u v, TextDedup.utf16 c = [u, v] ∧ (0xD800 ≤ u ∧ u < 0xDC00) ∧ (0xDC00 ≤ v ∧ v < 0xE000) ∧
        0x10000 + (u - 0xD800) * 0x400 + (v - 0xDC00) = c.toNat := by
  have hvalid : c.toNat < 0xD800 ∨ 0xDFFF < c.toNat ∧ c.toNat < 0x110000 := c.valid
  unfold TextDedup.utf16
  split_ifs with hlow
  · exact .inl ⟨rfl, by omega, hlow⟩
  · exact .inr ⟨_, _, rfl, by omega, by omega, by omega⟩

lemma ofUnits_single {u : ℕ} (hu : u < 0xD800 ∨ 0xE000 ≤ u) (us : List ℕ) :
    ofUnits (u :: us) = Char.ofNat u :: ofUnits us := by
  have hsingle : single u = Char.ofNat u := by
    unfold single
    rw [if_neg (by omega)]
  cases us with
  | nil => rw [ofUnits, ofUnits, hsingle]
  | cons v us => rw [ofUnits, if_neg (by omega), hsingle]

lemma ofUnits_flatMap (cs : List Char) : ofUnits (cs.flatMap TextDedup.utf16) = cs := by
  induction cs with
  | nil => rfl
  | cons c cs ih =>
    rw [List.flatMap_cons]
    rcases utf16_cases c with ⟨hunit, hrange, -⟩ | ⟨u, v, hpair, hu, hv, hvalue⟩
    · rw [hunit, List.singleton_append, ofUnits_single hrange, ih, Char.ofNat_toNat]
    · rw [hpair, List.cons_append, List.singleton_append, ofUnits, if_pos ⟨hu, hv⟩, ih, hvalue, Char.ofNat_toNat]

lemma toString_units (s : String) : toString (units s) = s := by
  rw [toString, units, ofUnits_flatMap, String.ofList_toList]

lemma units_units (s : String) : Properties.Units (units s) := by
  intro u hu
  obtain ⟨c, -, hc⟩ := List.mem_flatMap.mp hu
  rcases utf16_cases c with ⟨hunit, -, hlt⟩ | ⟨u', v', hpair, hu', hv', -⟩
  · rw [hunit, List.mem_singleton] at hc
    omega
  · rw [hpair, List.mem_pair] at hc
    omega

/-! ### Maps -/

/-- `Properties`, and the map of `UserService`. -/
structure UserMap where
  entries : List (String × String)
  distinct : Keyed.Distinct Prod.fst entries

namespace UserMap

def empty : UserMap := ⟨[], List.nodup_nil⟩

def get (m : UserMap) (k : String) : Option String := (Keyed.get Prod.fst k m.entries).map Prod.snd

def put (m : UserMap) (k v : String) : UserMap :=
  ⟨Keyed.put Prod.fst (k, v) m.entries, Keyed.distinct_put m.distinct (k, v)⟩

def remove (m : UserMap) (k : String) : UserMap :=
  ⟨Keyed.remove Prod.fst k m.entries, Keyed.distinct_remove m.distinct k⟩

/-- The same users with the same passwords. -/
def Same (a b : UserMap) : Prop := ∀ k, a.get k = b.get k

lemma Same.symm {a b : UserMap} (h : Same a b) : Same b a := fun k => (h k).symm

lemma Same.trans {a b c : UserMap} (h : Same a b) (h' : Same b c) : Same a c := fun k => (h k).trans (h' k)

lemma get_eq_some {m : UserMap} {k v : String} : m.get k = some v ↔ (k, v) ∈ m.entries := by
  constructor
  · intro h
    obtain ⟨e, he, rfl⟩ := Option.map_eq_some_iff.mp h
    obtain ⟨hmem, rfl⟩ := Keyed.mem_of_get he
    exact hmem
  · intro h
    unfold get
    cases hget : Keyed.get Prod.fst k m.entries with
    | none =>
      have hnone := List.find?_eq_none.mp hget (k, v) h
      simp at hnone
    | some e =>
      obtain ⟨hmem, hkey⟩ := Keyed.mem_of_get hget
      have heq : e = (k, v) := List.inj_on_of_nodup_map m.distinct hmem h hkey
      rw [heq]
      rfl

lemma same_of_mem {a b : UserMap} (h : ∀ k v, (k, v) ∈ a.entries ↔ (k, v) ∈ b.entries) : Same a b := by
  intro k
  refine Option.ext fun v => ?_
  rw [get_eq_some, get_eq_some, h]

@[simp] lemma get_empty (k : String) : empty.get k = none := rfl

lemma entries_eq_nil {m : UserMap} (h : ∀ k, m.get k = none) : m.entries = [] := by
  refine List.eq_nil_iff_forall_not_mem.mpr fun ⟨k, v⟩ he => ?_
  have hget := get_eq_some.mpr he
  rw [h] at hget
  cases hget

@[simp] lemma get_put (m : UserMap) (k v k' : String) : (m.put k v).get k' = if k' = k then some v else m.get k' := by
  refine Option.ext fun v' => ?_
  rw [get_eq_some, put, Keyed.mem_put, Prod.mk.injEq]
  split_ifs with hk
  · simp [hk, eq_comm]
  · simp [hk, get_eq_some]

@[simp] lemma get_remove (m : UserMap) (k k' : String) : (m.remove k).get k' = if k' = k then none else m.get k' := by
  refine Option.ext fun v' => ?_
  rw [get_eq_some, remove, Keyed.mem_remove]
  split_ifs with hk
  · simp [hk]
  · simp [hk, get_eq_some]

lemma Same.put {a b : UserMap} (h : Same a b) (k v : String) : Same (a.put k v) (b.put k v) := fun k' => by
  rw [UserMap.get_put, UserMap.get_put, h k']

lemma Same.remove {a b : UserMap} (h : Same a b) (k : String) : Same (a.remove k) (b.remove k) := fun k' => by
  rw [UserMap.get_remove, UserMap.get_remove, h k']

lemma remove_of_none {m : UserMap} {k : String} (h : m.get k = none) : Same (m.remove k) m := by
  intro k'
  rw [UserMap.get_remove]
  split_ifs with hk
  · rw [hk, h]
  · rfl

end UserMap

open UserMap (Same)

/-! ### The text of the file -/

/-- What the text of a file depends on besides its entries. -/
structure Platform where
  newLine : Text
  newLine_ok : NewLine newLine
  /-- `new Date().toString()` -/
  date : Text
  date_ok : OneLine date
  /-- the order of the hash table -/
  order : List (String × String) → List (String × String)
  order_perm : ∀ l, (order l).Perm l

/-- `props.store(os, comments)`. -/
def store (p : Platform) (comments : String) (m : UserMap) : Text :=
  Properties.store p.newLine (units comments) p.date ((p.order m.entries).map fun e => (units e.1, units e.2))

def putAll (es : List (List ℕ × List ℕ)) (m : UserMap) : UserMap :=
  es.foldl (fun m e => m.put (toString e.1) (toString e.2)) m

/-- What `load` finds; `none` is an exception. -/
def load (file : Option Text) : Option UserMap :=
  match file with
  | none => some .empty
  | some text => (Properties.load text).map fun es => putAll es .empty

/-- The users that are in the file. -/
def Holds (file : Option Text) (m : UserMap) : Prop := ∃ m', load file = some m' ∧ Same m' m

lemma Holds.same {file : Option Text} {m m' : UserMap} (h : Holds file m) (h' : Holds file m') : Same m m' := by
  obtain ⟨a, ha, hsame⟩ := h
  obtain ⟨b, hb, hsame'⟩ := h'
  obtain rfl := Option.some_inj.mp (ha.symm.trans hb)
  exact hsame.symm.trans hsame'

lemma Holds.congr {file : Option Text} {m m' : UserMap} (h : Holds file m) (hsame : Same m m') : Holds file m' := by
  obtain ⟨a, ha, hsame'⟩ := h
  exact ⟨a, ha, hsame'.trans hsame⟩

/-- Strings with different names are put one beside the other. -/
lemma mem_putAll {l : List (String × String)} (hl : (l.map Prod.fst).Nodup) (m : UserMap) (k v : String) :
    (k, v) ∈ (putAll (l.map fun e => (units e.1, units e.2)) m).entries ↔
      (k, v) ∈ l ∨ (k, v) ∈ m.entries ∧ k ∉ l.map Prod.fst := by
  induction l generalizing m with
  | nil => simp [putAll]
  | cons e l ih =>
    obtain ⟨hnot, hl'⟩ := List.nodup_cons.mp hl
    have hstep := ih hl' (m.put e.1 e.2)
    have hmem : (k, v) ∈ (m.put e.1 e.2).entries ↔ ((k, v) ∈ m.entries ∧ k ≠ e.1) ∨ (k, v) = e := Keyed.mem_put
    have hfst : (k, v) = e → k ∉ l.map Prod.fst := fun he => by
      rw [← he] at hnot
      exact hnot
    rw [List.map_cons, putAll, List.foldl_cons, toString_units, toString_units, ← putAll, hstep, hmem]
    simp only [List.mem_cons, List.map_cons, not_or]
    constructor
    · rintro (hin | ⟨⟨hold, hne⟩ | he, hk⟩)
      · exact .inl (.inr hin)
      · exact .inr ⟨hold, hne, hk⟩
      · exact .inl (.inl he)
    · rintro ((he | hin) | ⟨hold, hne, hk⟩)
      · exact .inr ⟨.inr he, hfst he⟩
      · exact .inl hin
      · exact .inr ⟨.inl ⟨hold, hne⟩, hk⟩

/-- **What is stored is loaded again.** -/
lemma holds_store (p : Platform) {comments : String} (hcomments : OneLine (units comments)) (m : UserMap) :
    Holds (some (store p comments m)) m := by
  have hunits : ∀ e ∈ (p.order m.entries).map fun e => (units e.1, units e.2), Properties.Units e.1 ∧ Properties.Units e.2 := by
    intro e he
    obtain ⟨e', -, rfl⟩ := List.mem_map.mp he
    exact ⟨units_units _, units_units _⟩
  have hdistinct : ((p.order m.entries).map Prod.fst).Nodup :=
    ((p.order_perm m.entries).map Prod.fst).nodup_iff.mpr m.distinct
  refine ⟨_, by rw [load, store, Properties.load_store p.newLine_ok hcomments p.date_ok hunits, Option.map_some], ?_⟩
  refine UserMap.same_of_mem fun k v => ?_
  rw [mem_putAll hdistinct, (p.order_perm m.entries).mem_iff]
  simp [UserMap.empty]

/-! ### A save that fails -/

/-- Where it fails. -/
inductive Failure
  /-- the directory cannot be made or the file cannot be opened -/
  | opening
  /-- so many bytes are written -/
  | writing (written : ℕ)
  deriving DecidableEq

/-- `new FileOutputStream(file)` makes the file empty. -/
def overwrite (failure : Option Failure) (text : Text) (file : Option Text) : Option Text :=
  match failure with
  | none => some text
  | some .opening => file
  | some (.writing written) => some (text.take written)

/-! ### UserService -/

structure Server where
  users : UserMap
  file : Option Text

def saveUsers (p : Platform) (failure : Option Failure) (s : Server) : Server :=
  { s with file := overwrite failure (store p "SyncClipboard Users" s.users) s.file }

/-- One turn of the loop of `init`, with `migrated`. -/
def rehash (enc : Encoder) (salts : String → ℕ) (r : UserMap × Bool) (e : String × String) : UserMap × Bool :=
  if isBcrypt e.2 then r else (r.1.put e.1 (enc.encode (salts e.1) e.2), true)

def migrate (enc : Encoder) (salts : String → ℕ) (m : UserMap) : UserMap × Bool :=
  m.entries.foldl (rehash enc salts) (m, false)

/-- A file that is not there leaves the map empty, and one that cannot be parsed ends the start. -/
def init (p : Platform) (enc : Encoder) (salts : String → ℕ) (failure : Option Failure) (file : Option Text) : Server :=
  match load file with
  | none => ⟨.empty, file⟩
  | some props =>
    let r := migrate enc salts props
    if r.2 then saveUsers p failure ⟨r.1, file⟩ else ⟨r.1, file⟩

def authenticate (p : Platform) (enc : Encoder) (salt : ℕ) (failure : Option Failure) (username password : Option String)
    (s : Server) : Bool × Server :=
  match username, password with
  | some username, some password =>
    match s.users.get username with
    | none => (false, s)
    | some stored =>
      if isBcrypt stored then (enc.check password stored, s)
      else if stored = password then
        (true, saveUsers p failure { s with users := s.users.put username (enc.encode salt password) })
      else (false, s)
  | _, _ => (false, s)

def upsertUser (p : Platform) (enc : Encoder) (salt : ℕ) (failure : Option Failure) (username password : String)
    (s : Server) : Server :=
  saveUsers p failure { s with users := s.users.put username (enc.encode salt password) }

def removeUser (p : Platform) (failure : Option Failure) (username : String) (s : Server) : Bool × Server :=
  let removed := (s.users.get username).isSome
  let s := { s with users := s.users.remove username }
  (removed, if removed then saveUsers p failure s else s)

/-! ### UserAdminCommand -/

def save (p : Platform) (failure : Option Failure) (props : UserMap) (file : Option Text) : Option Text :=
  overwrite failure (store p "SyncClipboard Users (managed by UserAdminCommand)" props) file

/-- `add` and `passwd`. -/
def add (p : Platform) (enc : Encoder) (salt : ℕ) (failure : Option Failure) (username password : String)
    (file : Option Text) : Option Text :=
  match load file with
  | none => file
  | some props => save p failure (props.put username (enc.encode salt password)) file

def remove (p : Platform) (failure : Option Failure) (username : String) (file : Option Text) : Option Text :=
  match load file with
  | none => file
  | some props => if props.get username = none then file else save p failure (props.remove username) file

/-! ### What the operations do -/

/-- `UserService.authenticate` as the login sees it. -/
theorem authenticate_eq (p : Platform) (enc : Encoder) (salt : ℕ) (failure : Option Failure)
    (username password : Option String) (s : Server) :
    ((authenticate p enc salt failure username password s).1,
      (authenticate p enc salt failure username password s).2.users.get) =
      Auth.authenticate enc salt username password s.users.get := by
  unfold authenticate Auth.authenticate
  cases username with
  | none => rfl
  | some username =>
    cases password with
    | none => rfl
    | some password =>
      dsimp only
      cases s.users.get username with
      | none => rfl
      | some stored =>
        dsimp only
        split_ifs with hhash heq
        · rfl
        · refine Prod.ext rfl (funext fun k => ?_)
          dsimp only [saveUsers]
          rw [UserMap.get_put, Function.update_apply]
        · rfl

/-- A password after the migration. -/
def hashed (enc : Encoder) (salts : String → ℕ) (k v : String) : String :=
  if isBcrypt v then v else enc.encode (salts k) v

lemma get_rehash (enc : Encoder) (salts : String → ℕ) {r : UserMap × Bool} {e : String × String}
    (hget : r.1.get e.1 = some e.2) (k : String) :
    (rehash enc salts r e).1.get k = if k = e.1 then some (hashed enc salts k e.2) else r.1.get k := by
  unfold rehash hashed
  by_cases hk : k = e.1
  · rw [if_pos hk]
    split_ifs with hhash
    · rw [hk, hget]
    · rw [UserMap.get_put, if_pos hk, hk]
  · rw [if_neg hk]
    split_ifs with hhash
    · rfl
    · rw [UserMap.get_put, if_neg hk]

lemma foldl_rehash (enc : Encoder) (salts : String → ℕ) {l : List (String × String)} (hl : (l.map Prod.fst).Nodup)
    {r : UserMap × Bool} (hr : ∀ e ∈ l, r.1.get e.1 = some e.2) :
    (∀ k, (l.foldl (rehash enc salts) r).1.get k =
      if k ∈ l.map Prod.fst then (r.1.get k).map (hashed enc salts k) else r.1.get k) ∧
    (l.foldl (rehash enc salts) r).2 = (r.2 || l.any fun e => !isBcrypt e.2) := by
  induction l generalizing r with
  | nil => simp
  | cons e l ih =>
    obtain ⟨hnot, hl'⟩ := List.nodup_cons.mp hl
    have hget : r.1.get e.1 = some e.2 := hr e (by simp)
    have hstep := get_rehash enc salts hget
    have hr' : ∀ e' ∈ l, (rehash enc salts r e).1.get e'.1 = some e'.2 := by
      intro e' he'
      have hne : e'.1 ≠ e.1 := fun heq => hnot (heq ▸ List.mem_map_of_mem he')
      rw [hstep, if_neg hne, hr e' (by simp [he'])]
    obtain ⟨hkeys, hflag⟩ := ih hl' hr'
    rw [List.foldl_cons]
    constructor
    · intro k
      rw [hkeys k, hstep]
      simp only [List.map_cons, List.mem_cons]
      by_cases hk : k = e.1
      · rw [if_neg (hk ▸ hnot), if_pos hk, if_pos (.inl hk), hk, hget, Option.map_some]
      · simp only [hk, if_false, false_or]
    · rw [hflag, List.any_cons]
      unfold rehash
      cases isBcrypt e.2 <;> simp

lemma get_migrate (enc : Encoder) (salts : String → ℕ) (m : UserMap) (k : String) :
    (migrate enc salts m).1.get k = (m.get k).map (hashed enc salts k) := by
  have hr : ∀ e ∈ m.entries, m.get e.1 = some e.2 := fun e he => UserMap.get_eq_some.mpr he
  rw [migrate, (foldl_rehash enc salts m.distinct hr).1 k]
  split_ifs with hk
  · rfl
  · cases hget : m.get k with
    | none => rfl
    | some v => exact absurd (List.mem_map_of_mem (UserMap.get_eq_some.mp hget)) hk

lemma migrate_flag (enc : Encoder) (salts : String → ℕ) (m : UserMap) :
    (migrate enc salts m).2 = false ↔ ∀ k v, m.get k = some v → isBcrypt v = true := by
  have hr : ∀ e ∈ m.entries, m.get e.1 = some e.2 := fun e he => UserMap.get_eq_some.mpr he
  rw [migrate, (foldl_rehash enc salts m.distinct hr).2]
  simp [UserMap.get_eq_some]

lemma UserMap.Same.migrate {a b : UserMap} (h : Same a b) (enc : Encoder) (salts : String → ℕ) :
    Same (migrate enc salts a).1 (migrate enc salts b).1 := fun k => by
  rw [get_migrate, get_migrate, h k]

lemma migrate_of_hashed {m : UserMap} (h : ∀ k v, m.get k = some v → isBcrypt v = true) (enc : Encoder)
    (salts : String → ℕ) : Same (migrate enc salts m).1 m := by
  intro k
  rw [get_migrate]
  cases hget : m.get k with
  | none => rfl
  | some v => rw [Option.map_some, hashed, if_pos (h k v hget)]

/-! ### A platform and an encoder -/

def linux : Platform where
  newLine := [10]
  newLine_ok := .inl rfl
  date := units "Sat Jan 03 09:00:00 UTC 2026"
  date_ok := by
    unfold OneLine
    decide +kernel
  order := id
  order_perm := fun _ => .refl _

/-- An encoder that only puts the prefix before the password. -/
def prefixing : Encoder where
  encode := fun _ password => "$2a$" ++ password
  check := fun password stored => decide (stored = "$2a$" ++ password)

lemma isBcrypt_prefixing (salt : ℕ) (password : String) : isBcrypt (prefixing.encode salt password) = true := by
  simp [isBcrypt, Auth.startsWith, prefixing]

end SyncClipboard.UserFile
