import SyncClipboard.UserFile

/-!
What is left in the file of the users when a save fails.

A save that is cut off at once leaves no users, so it is all or nothing only where the old users or
the new ones are none. The server is told of no failure: if the file cannot be opened, its map has the
new users and the file the old ones. What remains are the operations that save nothing, and the tool
when it removes the only user (`saved_iff`).
-/

namespace SyncClipboard.SaveUsers

open UserFile
open UserFile.UserMap (Same)
open Auth (Encoder isBcrypt)
open Properties (Text OneLine)
open KeyHex (units)

inductive Op
  | upsertUser (username password : String)
  | removeUser (username : String)
  /-- a login, with a password that is still plain text -/
  | authenticate (username password : String)
  | init
  /-- `add` and `passwd` of the tool -/
  | add (username password : String)
  /-- `remove` of the tool -/
  | remove (username : String)

/-- The tool leaves the map of the server alone. -/
def run (p : Platform) (enc : Encoder) (salts : String → ℕ) (failure : Option Failure) (op : Op) (s : Server) : Server :=
  match op with
  | .upsertUser username password => upsertUser p enc (salts username) failure username password s
  | .removeUser username => (removeUser p failure username s).2
  | .authenticate username password =>
    (authenticate p enc (salts username) failure (some username) (some password) s).2
  | .init => init p enc salts failure s.file
  | .add username password => { s with file := add p enc (salts username) failure username password s.file }
  | .remove username => { s with file := remove p failure username s.file }

/-- The entries that an operation is to bring about. -/
def newEntries (enc : Encoder) (salts : String → ℕ) (op : Op) (old : UserMap) : UserMap :=
  match op with
  | .upsertUser username password => old.put username (enc.encode (salts username) password)
  | .removeUser username => old.remove username
  | .authenticate username password =>
    if old.get username = some password ∧ isBcrypt password = false then
      old.put username (enc.encode (salts username) password)
    else old
  | .init => (migrate enc salts old).1
  | .add username password => old.put username (enc.encode (salts username) password)
  | .remove username => old.remove username

/-- The file has the old entries; a server that is already there has them too. -/
def Before (op : Op) (old : UserMap) (s : Server) : Prop :=
  Holds s.file old ∧ (op = .init ∨ Same s.users old)

/-- The new entries, or the old ones, which the map has then too. -/
def AllOrNothing (old new : UserMap) (s : Server) : Prop :=
  Holds s.file new ∨ Holds s.file old ∧ Same s.users old

/-- Nothing is saved. -/
def Idle (op : Op) (old : UserMap) : Prop :=
  match op with
  | .upsertUser _ _ => False
  | .removeUser username => old.get username = none
  | .authenticate username password => ¬ (old.get username = some password ∧ isBcrypt password = false)
  | .init => ∀ username stored, old.get username = some stored → isBcrypt stored = true
  | .add _ _ => False
  | .remove username => old.get username = none

/-- Nothing is saved, or the tool removes the only user. -/
def Harmless (op : Op) (old : UserMap) : Prop :=
  Idle op old ∨ ∃ username, op = .remove username ∧ ∀ other, old.get other ≠ none → other = username

variable {p : Platform} {enc : Encoder} {salts : String → ℕ} {op : Op} {old : UserMap} {s : Server}

/-! ### Saves that fail -/

lemma oneLine_server : OneLine (units "SyncClipboard Users") := by
  unfold OneLine
  decide +kernel

lemma oneLine_tool : OneLine (units "SyncClipboard Users (managed by UserAdminCommand)") := by
  unfold OneLine
  decide +kernel

lemma holds_nil {m : UserMap} : Holds (some []) m ↔ ∀ k, m.get k = none := by
  have hload : load (some []) = some .empty := rfl
  constructor
  · rintro ⟨m', hm', hsame⟩ k
    obtain rfl := Option.some_inj.mp (hload.symm.trans hm')
    rw [← hsame k, UserMap.get_empty]
  · intro hnone
    exact ⟨.empty, hload, fun k => (hnone k).symm⟩

/-- A save of the server is not all or nothing, unless there are no users before and after. -/
lemma server_empty {new new' : UserMap} (hfile : Holds s.file old) (hnew : Same new' new)
    (h : ∀ failure : Failure, AllOrNothing old new (saveUsers p (some failure) ⟨new', s.file⟩)) :
    ∀ k, old.get k = none ∧ new.get k = none := by
  have hsame : Same old new := by
    rcases h .opening with hholds | ⟨-, hmap⟩
    · exact hfile.same hholds
    · exact (hnew.symm.trans hmap).symm
  intro k
  rcases h (.writing 0) with hholds | ⟨hholds, -⟩
  · have hnone := holds_nil.mp hholds k
    exact ⟨(hsame k).trans hnone, hnone⟩
  · have hnone := holds_nil.mp hholds k
    exact ⟨hnone, (hsame k).symm.trans hnone⟩

/-- A save of the tool is not all or nothing, unless there are no users before or none after. -/
lemma tool_empty {new props : UserMap}
    (h : AllOrNothing old new { s with file := save p (some (.writing 0)) props s.file }) :
    (∀ k, old.get k = none) ∨ ∀ k, new.get k = none := by
  rcases h with hholds | ⟨hholds, -⟩
  · exact .inr (holds_nil.mp hholds)
  · exact .inl (holds_nil.mp hholds)

lemma entries_eq_singleton {m : UserMap} {username password : String}
    (hm : ∀ k, m.get k = if k = username then some password else none) : m.entries = [(username, password)] := by
  have hmem : ∀ e ∈ m.entries, e = (username, password) := by
    rintro ⟨k, v⟩ he
    have hget := UserMap.get_eq_some.mpr he
    rw [hm] at hget
    split_ifs at hget with hk
    rw [hk, Option.some_inj.mp hget]
  have hin : (username, password) ∈ m.entries := UserMap.get_eq_some.mp (by rw [hm, if_pos rfl])
  have hdistinct := m.distinct
  rw [List.eq_replicate_of_mem hmem] at hdistinct hin ⊢
  -- two entries would have one name
  rcases hlen : m.entries.length with _ | _ | n
  · rw [hlen] at hin
    cases hin
  · rfl
  · rw [hlen] at hdistinct
    simp [Keyed.Distinct] at hdistinct

lemma holds_open_line {m : UserMap} {username password : String}
    (hm : ∀ k, m.get k = if k = username then some password else none) (comments : String)
    (hcomments : OneLine (units comments)) (file : Option Text) :
    ∃ written, Holds (overwrite (some (.writing written)) (store p comments m) file) (UserMap.empty.put username "") := by
  have horder : p.order m.entries = [(username, password)] := by
    rw [entries_eq_singleton hm]
    exact List.perm_singleton.mp (p.order_perm _)
  have htext : store p comments m = (Properties.header p.newLine (units comments) p.date ++
      Properties.storeLine (units username, [])) ++
        (Properties.saveConvert false (units password) ++ p.newLine) := by
    simp [store, Properties.store, horder, Properties.storeLine, Properties.saveConvert]
  have hload := @Properties.load_open_line _ _ _ p.newLine_ok hcomments p.date_ok (units username, [])
    (units_units username) (by simp [Properties.Units])
  generalize Properties.header p.newLine (units comments) p.date ++ Properties.storeLine (units username, []) = opened
    at htext hload
  refine ⟨opened.length, UserMap.empty.put username "", ?_, fun k => rfl⟩
  rw [overwrite, htext, List.take_left, load, hload, Option.map_some, putAll, List.foldl_cons, List.foldl_nil,
    toString_units]
  rfl

lemma holds_cut {m m' : UserMap} (hm : ∀ k, m.get k = none) (hm' : ∀ k, m'.get k = none) (comments : String)
    (hcomments : OneLine (units comments)) (written : ℕ) (file : Option Text) :
    Holds (overwrite (some (.writing written)) (store p comments m) file) m' := by
  have horder : p.order m.entries = [] := by
    rw [UserMap.entries_eq_nil hm]
    exact List.perm_nil.mp (p.order_perm _)
  have htext : store p comments m = Properties.header p.newLine (units comments) p.date := by
    simp [store, Properties.store, horder]
  refine ⟨.empty, ?_, fun k => (hm' k).symm⟩
  rw [overwrite, htext, load, Properties.load_take_header p.newLine_ok hcomments p.date_ok]
  rfl

/-! ### The operations -/

/-- What an operation does, whether its save fails or not. -/
inductive Effect (p : Platform) (op : Op) (old new : UserMap) (s : Server) (run : Option Failure → Server) : Prop
  | idle (hidle : Idle op old) (hnew : Same new old)
      (hrun : ∀ failure, (run failure).file = s.file ∧ Same (run failure).users old)
  | server (hsaves : ¬ Harmless op old) {users : UserMap} (hnew : Same users new)
      (hrun : ∀ failure, run failure = saveUsers p failure ⟨users, s.file⟩)
  | tool (hop : (∃ username password, op = .add username password) ∨ ∃ username, op = .remove username)
      (hsaves : ¬ Idle op old) {props : UserMap} (hnew : Same props new) (hmap : Same s.users old)
      (hrun : ∀ failure, run failure = { s with file := save p failure props s.file })

lemma effect_removeUser {username : String} (hmap : Same s.users old) :
    Effect p (.removeUser username) old (newEntries enc salts (.removeUser username) old) s
      fun failure => run p enc salts failure (.removeUser username) s := by
  cases hremoved : s.users.get username with
  | none =>
    have hnone : old.get username = none := (hmap username).symm.trans hremoved
    refine .idle hnone (UserMap.remove_of_none hnone) fun failure => ?_
    simp only [run, removeUser, hremoved, Option.isSome_none, Bool.false_eq_true, if_false, true_and]
    exact (UserMap.remove_of_none hremoved).trans hmap
  | some stored =>
    have hsome : old.get username = some stored := (hmap username).symm.trans hremoved
    refine .server ?_ (hmap.remove username) fun failure => ?_
    · simp [Harmless, Idle, hsome]
    · simp only [run, removeUser, hremoved, Option.isSome_some, if_true]

lemma effect_authenticate {username password : String} (hmap : Same s.users old) :
    Effect p (.authenticate username password) old (newEntries enc salts (.authenticate username password) old) s
      fun failure => run p enc salts failure (.authenticate username password) s := by
  by_cases hplain : old.get username = some password ∧ isBcrypt password = false
  · have hnew : newEntries enc salts (.authenticate username password) old =
        old.put username (enc.encode (salts username) password) := if_pos hplain
    rw [hnew]
    refine .server ?_ (hmap.put username (enc.encode (salts username) password)) fun failure => ?_
    · simp [Harmless, Idle, hplain]
    · simp [run, authenticate, hmap username, hplain]
  · refine .idle hplain (by rw [newEntries, if_neg hplain]; exact fun _ => rfl) fun failure => ?_
    have hrun : run p enc salts failure (.authenticate username password) s = s := by
      simp only [run, authenticate]
      cases hget : s.users.get username with
      | none => rfl
      | some stored =>
        dsimp only
        split_ifs with hhash heq
        · rfl
        · rw [hmap username, heq] at hget
          exact absurd ⟨hget, by rw [← heq]; simpa using hhash⟩ hplain
        · rfl
    rw [hrun]
    exact ⟨rfl, hmap⟩

lemma effect_init (hfile : Holds s.file old) :
    Effect p .init old (newEntries enc salts .init old) s fun failure => run p enc salts failure .init s := by
  obtain ⟨props, hprops, hsame⟩ := hfile
  have hflag : (migrate enc salts props).2 = false ↔ Idle .init old := by
    rw [migrate_flag]
    simp only [Idle, hsame _]
  cases hmigrated : (migrate enc salts props).2 with
  | true =>
    refine .server ?_ (hsame.migrate enc salts) fun failure => ?_
    · simp [Harmless, ← hflag, hmigrated]
    · simp only [run, init, hprops, hmigrated, if_true]
  | false =>
    have hidle := hflag.mp hmigrated
    refine .idle hidle (migrate_of_hashed hidle enc salts) fun failure => ?_
    simp only [run, init, hprops, hmigrated, Bool.false_eq_true, if_false, true_and]
    exact (hsame.migrate enc salts).trans (migrate_of_hashed hidle enc salts)

lemma effect_remove {username : String} (hfile : Holds s.file old) (hmap : Same s.users old) :
    Effect p (.remove username) old (newEntries enc salts (.remove username) old) s
      fun failure => run p enc salts failure (.remove username) s := by
  obtain ⟨props, hprops, hsame⟩ := hfile
  by_cases hnone : old.get username = none
  · refine .idle hnone (UserMap.remove_of_none hnone) fun failure => ?_
    simp only [run, remove, hprops, (hsame username).trans hnone, if_true, true_and]
    exact hmap
  · refine .tool (.inr ⟨username, rfl⟩) hnone (hsame.remove username) hmap fun failure => ?_
    simp only [run, remove, hprops, hsame username, if_neg hnone]

lemma run_effect (p : Platform) (enc : Encoder) (salts : String → ℕ) (hbefore : Before op old s) :
    Effect p op old (newEntries enc salts op old) s fun failure => run p enc salts failure op s := by
  obtain ⟨hfile, hmap⟩ := hbefore
  cases op with
  | upsertUser username password =>
    have hsame := hmap.resolve_left (by simp)
    exact .server (by simp [Harmless, Idle]) (hsame.put username (enc.encode (salts username) password))
      fun failure => rfl
  | removeUser username => exact effect_removeUser (hmap.resolve_left (by simp))
  | authenticate username password => exact effect_authenticate (hmap.resolve_left (by simp))
  | init => exact effect_init hfile
  | add username password =>
    obtain ⟨props, hprops, hsame⟩ := hfile
    refine .tool (.inl ⟨username, password, rfl⟩) (by simp [Idle])
      (hsame.put username (enc.encode (salts username) password)) (hmap.resolve_left (by simp)) fun failure => ?_
    simp only [run, add, hprops]
  | remove username => exact effect_remove hfile (hmap.resolve_left (by simp))

/-- Without a failure the new entries are in the file. -/
theorem run_saves (p : Platform) (enc : Encoder) (salts : String → ℕ) (hbefore : Before op old s) :
    Holds (run p enc salts none op s).file (newEntries enc salts op old) := by
  cases run_effect p enc salts hbefore with
  | idle _ hnew hrun =>
    rw [(hrun none).1]
    exact hbefore.1.congr hnew.symm
  | server _ hnew hrun =>
    rw [hrun none]
    exact (holds_store p oneLine_server _).congr hnew
  | tool _ _ hnew _ hrun =>
    rw [hrun none]
    exact (holds_store p oneLine_tool _).congr hnew

lemma exists_user (enc : Encoder) (salts : String → ℕ) (hsaves : ¬ Idle op old) :
    ∃ k, old.get k ≠ none ∨ (newEntries enc salts op old).get k ≠ none := by
  cases op with
  | upsertUser username password => exact ⟨username, .inr (by simp [newEntries])⟩
  | removeUser username => exact ⟨username, .inl hsaves⟩
  | authenticate username password =>
    obtain ⟨hstored, -⟩ := not_not.mp hsaves
    exact ⟨username, .inl (by simp [hstored])⟩
  | init =>
    simp only [Idle, not_forall] at hsaves
    obtain ⟨username, stored, hstored, -⟩ := hsaves
    exact ⟨username, .inl (by simp [hstored])⟩
  | add username password => exact ⟨username, .inr (by simp [newEntries])⟩
  | remove username => exact ⟨username, .inl hsaves⟩

/-- The first user that the tool adds may get an empty password. -/
lemma not_add {username password : String} {props : UserMap}
    (hhash : ∀ salt password, isBcrypt (enc.encode salt password) = true)
    (hnew : Same props (newEntries enc salts (.add username password) old)) :
    ¬ ∀ failure : Failure, AllOrNothing old (newEntries enc salts (.add username password) old)
      { s with file := save p (some failure) props s.file } := by
  intro h
  have hget : (newEntries enc salts (.add username password) old).get username =
      some (enc.encode (salts username) password) := by rw [newEntries, UserMap.get_put, if_pos rfl]
  have hnone : ∀ k, old.get k = none := by
    refine (tool_empty (h (.writing 0))).resolve_right fun hempty => ?_
    rw [hempty] at hget
    cases hget
  have hprops : ∀ k, props.get k = if k = username then some (enc.encode (salts username) password) else none := by
    intro k
    rw [hnew k, newEntries, UserMap.get_put, hnone k]
  obtain ⟨written, hcut⟩ := holds_open_line (p := p) hprops _ oneLine_tool s.file
  have hcutGet : (UserMap.empty.put username "").get username = some "" := by rw [UserMap.get_put, if_pos rfl]
  rcases h (.writing written) with hholds | ⟨hholds, -⟩
  · have heq := hcut.same hholds username
    rw [hcutGet, hget, Option.some_inj] at heq
    have hempty := hhash (salts username) password
    rw [← heq] at hempty
    exact absurd hempty (by decide)
  · have heq := hcut.same hholds username
    rw [hcutGet, hnone] at heq
    cases heq

lemma remove_iff {username : String} {props : UserMap} (hfile : Holds s.file old) (hmap : Same s.users old)
    (hsaves : old.get username ≠ none) (hnew : Same props (newEntries enc salts (.remove username) old)) :
    (∀ failure : Failure, AllOrNothing old (newEntries enc salts (.remove username) old)
      { s with file := save p (some failure) props s.file }) ↔ ∀ other, old.get other ≠ none → other = username := by
  have hget : ∀ k, (newEntries enc salts (.remove username) old).get k = if k = username then none else old.get k :=
    UserMap.get_remove old username
  constructor
  · intro h other hother
    have hempty := (tool_empty (h (.writing 0))).resolve_left fun hnone => hsaves (hnone username)
    by_contra hne
    have hgetOther := hget other
    rw [hempty, if_neg hne] at hgetOther
    exact hother hgetOther.symm
  · intro honly failure
    have hempty : ∀ k, (newEntries enc salts (.remove username) old).get k = none := by
      intro k
      rw [hget k]
      split_ifs with hk
      · rfl
      · exact not_not.mp fun hother => hk (honly k hother)
    cases failure with
    | opening => exact .inr ⟨hfile, hmap⟩
    | writing written =>
      exact .inl (holds_cut (fun k => (hnew k).trans (hempty k)) hempty _ oneLine_tool written s.file)

/-- **When a failure leaves all or nothing.** -/
theorem saved_iff (p : Platform) (enc : Encoder) (hhash : ∀ salt password, isBcrypt (enc.encode salt password) = true)
    (salts : String → ℕ) (op : Op) (old : UserMap) (s : Server) (hbefore : Before op old s) :
    (∀ failure : Failure, AllOrNothing old (newEntries enc salts op old) (run p enc salts (some failure) op s)) ↔
      Harmless op old := by
  cases run_effect p enc salts hbefore with
  | idle hidle _ hrun =>
    refine iff_of_true (fun failure => .inr ?_) (.inl hidle)
    obtain ⟨hfile, hmap⟩ := hrun (some failure)
    rw [hfile]
    exact ⟨hbefore.1, hmap⟩
  | server hsaves hnew hrun =>
    refine iff_of_false (fun h => ?_) hsaves
    simp only [hrun] at h
    obtain ⟨k, hk⟩ := exists_user enc salts (not_or.mp hsaves).1
    obtain ⟨hold, hnew'⟩ := server_empty hbefore.1 hnew h k
    exact hk.elim (fun hne => hne hold) fun hne => hne hnew'
  | tool hop hsaves hnew hmap hrun =>
    simp only [hrun]
    rcases hop with ⟨username, password, rfl⟩ | ⟨username, rfl⟩
    · refine iff_of_false (not_add hhash hnew) ?_
      simp [Harmless, Idle]
    · rw [remove_iff hbefore.1 hmap hsaves hnew]
      have hop : ∀ other, Op.remove username = .remove other ↔ other = username := by simp [eq_comm]
      simp only [Harmless, hsaves, false_or, hop, exists_eq_left]

/-! ### One user -/

def alice : UserMap := UserMap.empty.put "alice" "$2a$secret"

def oneUser : Server := ⟨alice, some (store linux "SyncClipboard Users" alice)⟩

lemma before_oneUser (op : Op) : Before op alice oneUser :=
  ⟨holds_store linux oneLine_server alice, .inr fun _ => rfl⟩

theorem saved_iff_onlyUser : AllOrNothing alice (alice.remove "alice")
    (run linux prefixing (fun _ => 0) (some (.writing 20)) (.remove "alice") oneUser) := by
  refine (saved_iff linux prefixing isBcrypt_prefixing (fun _ => 0) (.remove "alice") alice oneUser
    (before_oneUser _)).mpr (.inr ⟨"alice", rfl, fun other hother => ?_⟩) (.writing 20)
  by_contra hne
  simp [alice, hne] at hother

/-- The disk is full when another user is added: nobody is in the file any more. -/
theorem upsertUser_locksOut : Before (.upsertUser "bob" "pw") alice oneUser ∧
    ¬ AllOrNothing alice (newEntries prefixing (fun _ => 0) (.upsertUser "bob" "pw") alice)
      (run linux prefixing (fun _ => 0) (some (.writing 0)) (.upsertUser "bob" "pw") oneUser) := by
  refine ⟨before_oneUser _, ?_⟩
  rintro (hholds | ⟨hholds, -⟩)
  · have hnone := holds_nil.mp hholds "bob"
    simp [newEntries] at hnone
  · have hnone := holds_nil.mp hholds "alice"
    simp [alice] at hnone

end SyncClipboard.SaveUsers
