import SyncClipboard.Auth
import SyncClipboard.Run

/-!
Where the tokens of the server and its sessions come from.

A run is a list of login, refresh and handshake requests of any clients, in any order, with
connections coming up and going down and restarts of the server in between. A client may present
any text, but the only texts with a right signature are those the server has handed out.
-/

namespace SyncClipboard.TokenOrigin

open ServerModel Auth

inductive Event
  | login (acquire record : ℤ) (times : Kind → ℤ) (salt : ℕ) (ip : String) (req : LoginRequest)
  | refresh (now : ℤ) (times : Kind → ℤ) (req : RefreshRequest)
  | handshake (sid : SessionId) (now : ℤ) (header : Option String)
  | established (sid : SessionId)
  | closed (sid : SessionId)
  -- the users file is read again; the signing key stays
  | restart (users : Users)

structure Sys where
  auth : AuthState
  attributes : SessionId → Option (String × String)
  sessions : Registry
  issued : List String

def start (users : Users) : Sys := ⟨⟨users, fun _ => none⟩, fun _ => none, [], []⟩

/-- What succeeded. -/
inductive Entry
  | loggedIn (users : Users) (salt : ℕ) (req : LoginRequest) (times : Kind → ℤ) (pair : TokenPair)
  | refreshed (now : ℤ) (req : RefreshRequest) (times : Kind → ℤ) (pair : TokenPair)
  | opened (sid : SessionId) (now : ℤ) (token username deviceId : String)

def Sys.hand (y : Sys) (pair : TokenPair) : Sys :=
  { y with issued := pair.accessToken :: pair.refreshToken :: y.issued }

/-- `afterConnectionEstablished`, up to the registration. -/
def register (sid : SessionId) (y : Sys) : Sys :=
  match y.attributes sid with
  | none => y
  | some (username, deviceId) =>
    match addAuthenticated sid username deviceId y.sessions with
    | none => y
    | some reg => { y with sessions := reg }

variable (cfg : Settings) (enc : Encoder) (jwt : Jwt)

def step (y : Sys) : Event → Sys × List Entry
  | .login acquire record times salt ip req =>
    let r := login cfg enc jwt acquire record times salt ip req y.auth
    match r.1 with
    | .ok pair => (Sys.hand { y with auth := r.2 } pair,
        [.loggedIn y.auth.users salt req times pair])
    | _ => ({ y with auth := r.2 }, [])
  | .refresh now times req =>
    match refresh cfg jwt now times req y.auth.users with
    | .ok pair => (y.hand pair, [.refreshed now req times pair])
    | _ => (y, [])
  | .handshake sid now header =>
    match beforeHandshake jwt now header, extractToken header with
    | .accepted username deviceId _, some token =>
      ({ y with attributes := Function.update y.attributes sid (some (username, deviceId)) },
        [.opened sid now token username deviceId])
    | _, _ => (y, [])
  | .established sid => (register sid y, [])
  | .closed sid => ({ y with sessions := removeSession sid y.sessions }, [])
  | .restart users => ({ start users with issued := y.issued }, [])

/-- The token a request presents. -/
def presented : Event → Option String
  | .refresh _ _ req => some req.refreshToken
  | .handshake _ _ header => extractToken header
  | _ => none

/-- A signature is never forged: a presented token that has a right one was handed out. -/
def Unforged (y : Sys) (e : Event) : Prop :=
  ∀ token ∈ presented e, (jwt.signed token).isSome = true → token ∈ y.issued

instance (y : Sys) (e : Event) : Decidable (Unforged jwt y e) :=
  inferInstanceAs (Decidable (∀ token ∈ presented e, _ → _))

/-- **The origin of a token.** A token of some kind, for a user and device and issued at some
time, comes from a login with the right password, or from a refresh with a refresh token for the
same user and device that was not too old and has an origin itself. -/
inductive Origin : List Entry → Kind → String → String → String → ℤ → Prop
  | login {tr : List Entry} {users : Users} {salt : ℕ} {req : LoginRequest} {times : Kind → ℤ}
      {pair : TokenPair} (kind : Kind) (hmem : .loggedIn users salt req times pair ∈ tr)
      (hauth : (authenticate enc salt (some req.username) (some req.password) users).1 = true)
      (hpair : pair = issueTokens cfg jwt times req.username req.deviceId) :
      Origin tr kind (pair.token kind) req.username req.deviceId (times kind)
  | refresh {pre post : List Entry} {now t : ℤ} {req : RefreshRequest} {times : Kind → ℤ}
      {pair : TokenPair} {username deviceId : String} (kind : Kind)
      (hold : Origin pre .refresh req.refreshToken username deviceId t)
      (hage : now - t ≤ cfg.ttl .refresh)
      (hpair : pair = issueTokens cfg jwt times username deviceId) :
      Origin (pre ++ .refreshed now req times pair :: post) kind (pair.token kind) username
        deviceId (times kind)

/-- The token was handed out as one of the given kind. -/
inductive Handed (tr : List Entry) (kind : Kind) : String → Prop
  | login {users : Users} {salt : ℕ} {req : LoginRequest} {times : Kind → ℤ} {pair : TokenPair}
      (hmem : .loggedIn users salt req times pair ∈ tr) : Handed tr kind (pair.token kind)
  | refresh {now : ℤ} {req : RefreshRequest} {times : Kind → ℤ} {pair : TokenPair}
      (hmem : .refreshed now req times pair ∈ tr) : Handed tr kind (pair.token kind)

/-- A handshake for the session succeeded with an access token of the user and device that was
not too old and has an origin. -/
def Opened (tr : List Entry) (sid : SessionId) (username deviceId : String) : Prop :=
  ∃ pre now token post t, tr = pre ++ .opened sid now token username deviceId :: post ∧
    Origin cfg enc jwt pre .access token username deviceId t ∧ now - t ≤ cfg.ttl .access

/-- Every session traces back to a login, and the kinds of tokens are kept apart. -/
structure Traced (y : Sys) (tr : List Entry) : Prop where
  session : ∀ cs ∈ y.sessions, Opened cfg enc jwt tr cs.session cs.username cs.deviceId
  opened : ∀ {sid now token username deviceId}, .opened sid now token username deviceId ∈ tr →
    ¬ Handed tr .refresh token
  refreshed : ∀ {now req times pair}, .refreshed now req times pair ∈ tr →
    ¬ Handed tr .access req.refreshToken

/-! ### What a token says -/

variable {cfg enc jwt}

lemma token_issueTokens (times : Kind → ℤ) (username deviceId : String) (kind : Kind) :
    (issueTokens cfg jwt times username deviceId).token kind =
      jwt.sign (claimsOf cfg (times kind) username deviceId kind) := by
  cases kind <;> rfl

lemma Origin.eq_sign {tr : List Entry} {kind : Kind} {token username deviceId : String} {t : ℤ}
    (h : Origin cfg enc jwt tr kind token username deviceId t) :
    token = jwt.sign (claimsOf cfg t username deviceId kind) := by
  cases h with
  | login kind hmem hauth hpair => rw [hpair, token_issueTokens]
  | refresh kind hold hage hpair => rw [hpair, token_issueTokens]

/-- A token that has not expired was issued at most its time to live ago. -/
lemma age_le {now t ttl : ℤ} (h : now ≤ (t + ttl) / 1000 * 1000) : now - t ≤ ttl := by
  omega

lemma Origin.append {tr : List Entry} {kind : Kind} {token username deviceId : String} {t : ℤ}
    (h : Origin cfg enc jwt tr kind token username deviceId t) (os : List Entry) :
    Origin cfg enc jwt (tr ++ os) kind token username deviceId t := by
  cases h with
  | login kind hmem hauth hpair => exact .login kind (List.mem_append_left os hmem) hauth hpair
  | refresh kind hold hage hpair =>
    rw [List.append_assoc, List.cons_append]
    exact .refresh kind hold hage hpair

lemma Opened.append {tr : List Entry} {sid : SessionId} {username deviceId : String}
    (h : Opened cfg enc jwt tr sid username deviceId) (os : List Entry) :
    Opened cfg enc jwt (tr ++ os) sid username deviceId := by
  obtain ⟨pre, now, token, post, t, rfl, horigin, hage⟩ := h
  exact ⟨pre, now, token, post ++ os, t, by simp, horigin, hage⟩

/-! ### The invariant -/

/-- The pair is one for some user and device, and the token that was presented is of the kind it
was presented as. -/
inductive Entry.Sound (cfg : Settings) (jwt : Jwt) : Entry → Prop
  | loggedIn {users : Users} {salt : ℕ} {req : LoginRequest} {times : Kind → ℤ}
      (username deviceId : String) : Sound cfg jwt
        (.loggedIn users salt req times (issueTokens cfg jwt times username deviceId))
  | refreshed {now : ℤ} {req : RefreshRequest} {times : Kind → ℤ} (username deviceId : String)
      {c : Claims} (hc : jwt.signed req.refreshToken = some c) (hkind : c.kind = .refresh) :
      Sound cfg jwt (.refreshed now req times (issueTokens cfg jwt times username deviceId))
  | opened {sid : SessionId} {now : ℤ} {token username deviceId : String} {c : Claims}
      (hc : jwt.signed token = some c) (hkind : c.kind = .access) :
      Sound cfg jwt (.opened sid now token username deviceId)

structure Inv (cfg : Settings) (enc : Encoder) (jwt : Jwt) (y : Sys) (tr : List Entry) : Prop where
  issued : ∀ token ∈ y.issued, ∃ kind username deviceId t,
    Origin cfg enc jwt tr kind token username deviceId t
  attributes : ∀ {sid username deviceId}, y.attributes sid = some (username, deviceId) →
    Opened cfg enc jwt tr sid username deviceId
  session : ∀ cs ∈ y.sessions, Opened cfg enc jwt tr cs.session cs.username cs.deviceId
  sound : ∀ o ∈ tr, Entry.Sound cfg jwt o

/-- A token that is presented and has a right signature has an origin that its claims name. -/
lemma Inv.origin (hjwt : ∀ c, jwt.signed (jwt.sign c) = some c) {y : Sys} {tr : List Entry}
    (h : Inv cfg enc jwt y tr) {e : Event} (hun : Unforged jwt y e) {token : String} {c : Claims}
    (htoken : presented e = some token) (hc : jwt.signed token = some c) :
    ∃ t, c = claimsOf cfg t c.subject c.deviceId c.kind ∧
      Origin cfg enc jwt tr c.kind token c.subject c.deviceId t := by
  have hissued := hun token htoken (by simp [hc])
  obtain ⟨kind, username, deviceId, t, horigin⟩ := h.issued token hissued
  have hclaims : jwt.signed token = some (claimsOf cfg t username deviceId kind) := by
    rw [horigin.eq_sign, hjwt]
  rw [hc] at hclaims
  cases hclaims
  exact ⟨t, rfl, horigin⟩

lemma Inv.append {y : Sys} {tr : List Entry} (h : Inv cfg enc jwt y tr) (auth : AuthState)
    {o : Entry} (ho : Entry.Sound cfg jwt o) :
    Inv cfg enc jwt { y with auth := auth } (tr ++ [o]) where
  issued token ht := by
    obtain ⟨kind, username, deviceId, t, horigin⟩ := h.issued token ht
    exact ⟨kind, username, deviceId, t, horigin.append _⟩
  attributes ha := (h.attributes ha).append _
  session cs hcs := (h.session cs hcs).append _
  sound o' ho' := by
    rcases List.mem_append.mp ho' with ho' | ho'
    · exact h.sound o' ho'
    · rw [List.mem_singleton.mp ho']
      exact ho

lemma Inv.hand {y : Sys} {tr : List Entry} (h : Inv cfg enc jwt y tr) {pair : TokenPair}
    {times : Kind → ℤ} {username deviceId : String}
    (hpair : ∀ kind, Origin cfg enc jwt tr kind (pair.token kind) username deviceId (times kind)) :
    Inv cfg enc jwt (y.hand pair) tr where
  issued token ht := by
    rcases List.mem_cons.mp ht with rfl | ht
    · exact ⟨_, _, _, _, hpair .access⟩
    · rcases List.mem_cons.mp ht with rfl | ht
      · exact ⟨_, _, _, _, hpair .refresh⟩
      · exact h.issued token ht
  attributes := h.attributes
  session := h.session
  sound := h.sound

/-- What only changes the users and the counters keeps the invariant. -/
lemma Inv.auth {y : Sys} {tr : List Entry} (h : Inv cfg enc jwt y tr) (auth : AuthState) :
    Inv cfg enc jwt { y with auth := auth } tr :=
  ⟨h.issued, h.attributes, h.session, h.sound⟩

lemma inv_start (users : Users) : Inv cfg enc jwt (start users) [] where
  issued := by simp [start]
  attributes := by simp [start]
  session := by simp [start]
  sound := by simp

/-! ### One step -/

lemma inv_login {y : Sys} {tr : List Entry} (h : Inv cfg enc jwt y tr) (acquire record : ℤ)
    (times : Kind → ℤ) (salt : ℕ) (ip : String) (req : LoginRequest) :
    Inv cfg enc jwt (step cfg enc jwt y (.login acquire record times salt ip req)).1
      (tr ++ (step cfg enc jwt y (.login acquire record times salt ip req)).2) := by
  rcases hr : login cfg enc jwt acquire record times salt ip req y.auth with ⟨r, auth⟩
  cases r with
  | ok pair =>
    obtain ⟨hauth, hpair⟩ := login_eq_ok hr
    have hsound : Entry.Sound cfg jwt (.loggedIn y.auth.users salt req times pair) :=
      hpair ▸ .loggedIn _ _
    simp only [step, hr]
    exact (h.append auth hsound).hand fun kind => .login kind (by simp) hauth hpair
  | refused status code message => simpa [step, hr] using h.auth auth
  | badRequest => simpa [step, hr] using h.auth auth

lemma inv_refresh (hjwt : ∀ c, jwt.signed (jwt.sign c) = some c) {y : Sys} {tr : List Entry}
    (h : Inv cfg enc jwt y tr) {now : ℤ} {times : Kind → ℤ} {req : RefreshRequest}
    (hun : Unforged jwt y (.refresh now times req)) :
    Inv cfg enc jwt (step cfg enc jwt y (.refresh now times req)).1
      (tr ++ (step cfg enc jwt y (.refresh now times req)).2) := by
  cases hr : refresh cfg jwt now times req y.auth.users with
  | ok pair =>
    obtain ⟨-, -, c, hc, hexp, hkind, -, -, hpair⟩ := refresh_eq_ok.mp hr
    obtain ⟨t, hclaims, horigin⟩ := h.origin hjwt hun rfl hc
    have hexp' : c.expiration = (t + cfg.ttl .refresh) / 1000 := by
      rw [hclaims, hkind, claimsOf]
    have hage : now - t ≤ cfg.ttl .refresh := age_le (by rwa [hexp'] at hexp)
    have hsound : Entry.Sound cfg jwt (.refreshed now req times pair) :=
      hpair ▸ .refreshed _ _ hc hkind
    rw [hkind] at horigin
    simp only [step, hr]
    exact (h.append y.auth hsound).hand fun kind => .refresh kind horigin hage hpair
  | refused status code message => simpa [step, hr] using h
  | badRequest => simpa [step, hr] using h

lemma inv_handshake (hjwt : ∀ c, jwt.signed (jwt.sign c) = some c) {y : Sys} {tr : List Entry}
    (h : Inv cfg enc jwt y tr) {sid : SessionId} {now : ℤ} {header : Option String}
    (hun : Unforged jwt y (.handshake sid now header)) :
    Inv cfg enc jwt (step cfg enc jwt y (.handshake sid now header)).1
      (tr ++ (step cfg enc jwt y (.handshake sid now header)).2) := by
  cases hr : beforeHandshake jwt now header with
  | rejected status => simpa [step, hr] using h
  | accepted username deviceId protocol =>
    obtain ⟨token, c, htoken, hc, hexp, hkind, rfl, rfl⟩ := beforeHandshake_accepted hr
    obtain ⟨t, hclaims, horigin⟩ := h.origin hjwt hun htoken hc
    have hexp' : c.expiration = (t + cfg.ttl .access) / 1000 := by
      rw [hclaims, hkind, claimsOf]
    have hage : now - t ≤ cfg.ttl .access := age_le (by rwa [hexp'] at hexp)
    rw [hkind] at horigin
    have hopened : Opened cfg enc jwt
        (tr ++ [.opened sid now token c.subject c.deviceId]) sid c.subject c.deviceId :=
      ⟨tr, now, token, [], t, rfl, horigin, hage⟩
    have hnext := h.append y.auth (o := .opened sid now token c.subject c.deviceId)
      (.opened hc hkind)
    simp only [step, hr, htoken]
    refine ⟨hnext.issued, fun {sid' username' deviceId'} ha => ?_, hnext.session, hnext.sound⟩
    dsimp only at ha
    by_cases hsid : sid' = sid
    · subst hsid
      rw [Function.update_self] at ha
      cases ha
      exact hopened
    · rw [Function.update_of_ne hsid] at ha
      exact hnext.attributes ha

lemma inv_register {y : Sys} {tr : List Entry} (h : Inv cfg enc jwt y tr) (sid : SessionId) :
    Inv cfg enc jwt (register sid y) tr := by
  unfold register
  cases ha : y.attributes sid with
  | none => exact h
  | some attrs =>
    obtain ⟨username, deviceId⟩ := attrs
    dsimp only
    cases hadd : addAuthenticated sid username deviceId y.sessions with
    | none => exact h
    | some reg =>
      refine ⟨h.issued, h.attributes, fun cs hcs => ?_, h.sound⟩
      unfold addAuthenticated at hadd
      split_ifs at hadd
      cases hadd
      rcases Keyed.mem_put.mp hcs with ⟨hcs, -⟩ | rfl
      · exact h.session cs hcs
      · exact h.attributes ha

lemma inv_step (hjwt : ∀ c, jwt.signed (jwt.sign c) = some c) {y : Sys} {tr : List Entry}
    {e : Event} (hun : Unforged jwt y e) (h : Inv cfg enc jwt y tr) :
    Inv cfg enc jwt (step cfg enc jwt y e).1 (tr ++ (step cfg enc jwt y e).2) := by
  cases e with
  | login acquire record times salt ip req => exact inv_login h acquire record times salt ip req
  | refresh now times req => exact inv_refresh hjwt h hun
  | handshake sid now header => exact inv_handshake hjwt h hun
  | established sid =>
    rw [show (step cfg enc jwt y (.established sid)).2 = [] from rfl, List.append_nil]
    exact inv_register h sid
  | closed sid =>
    rw [show (step cfg enc jwt y (.closed sid)).2 = [] from rfl, List.append_nil]
    exact ⟨h.issued, h.attributes, fun cs hcs => h.session cs (Keyed.mem_remove.mp hcs).1, h.sound⟩
  | restart users =>
    rw [show (step cfg enc jwt y (.restart users)).2 = [] from rfl, List.append_nil]
    refine ⟨h.issued, fun ha => ?_, fun cs hcs => ?_, h.sound⟩
    · simp [step, start] at ha
    · simp [step, start] at hcs

/-! ### Every run -/

/-- The claims of a token that was handed out name the kind it was handed out as. -/
lemma Inv.kind_of_handed (hjwt : ∀ c, jwt.signed (jwt.sign c) = some c) {y : Sys}
    {tr : List Entry} (h : Inv cfg enc jwt y tr) {kind : Kind} {token : String}
    (hh : Handed tr kind token) {c : Claims} (hc : jwt.signed token = some c) : c.kind = kind := by
  have hsign : ∃ username deviceId t,
      token = jwt.sign (claimsOf cfg t username deviceId kind) := by
    cases hh with
    | login hmem =>
      cases h.sound _ hmem with
      | loggedIn username deviceId => exact ⟨_, _, _, token_issueTokens _ _ _ _⟩
    | refresh hmem =>
      cases h.sound _ hmem with
      | refreshed username deviceId hc hkind => exact ⟨_, _, _, token_issueTokens _ _ _ _⟩
  obtain ⟨username, deviceId, t, rfl⟩ := hsign
  rw [hjwt] at hc
  cases hc
  rfl

lemma Inv.traced (hjwt : ∀ c, jwt.signed (jwt.sign c) = some c) {y : Sys} {tr : List Entry}
    (h : Inv cfg enc jwt y tr) : Traced cfg enc jwt y tr where
  session := h.session
  opened hmem hh := by
    cases h.sound _ hmem with
    | opened hc hkind => exact absurd (hkind.symm.trans (h.kind_of_handed hjwt hh hc)) (by decide)
  refreshed hmem hh := by
    cases h.sound _ hmem with
    | refreshed username deviceId hc hkind =>
      exact absurd (hkind.symm.trans (h.kind_of_handed hjwt hh hc)) (by decide)

lemma inv_run (hjwt : ∀ c, jwt.signed (jwt.sign c) = some c) (users : Users) {es : List Event}
    (hun : Run.Steps (step cfg enc jwt) (Unforged jwt) (start users) es) :
    Inv cfg enc jwt (Run.exec (step cfg enc jwt) (start users) es)
      (Run.outs (step cfg enc jwt) (start users) es) :=
  Run.exec_outs_inv_of_steps (fun _ _ _ hok hinv => inv_step hjwt hok hinv) (inv_start users) hun

/-- **Every session traces back to a login with the right password.** -/
theorem session_traced (hjwt : ∀ c, jwt.signed (jwt.sign c) = some c) (users : Users)
    (es : List Event) (hun : Run.Steps (step cfg enc jwt) (Unforged jwt) (start users) es) :
    Traced cfg enc jwt (Run.exec (step cfg enc jwt) (start users) es)
      (Run.outs (step cfg enc jwt) (start users) es) :=
  (inv_run hjwt users hun).traced hjwt

/-! A signature for small runs: the claims, written out. -/

def tally : ℕ → List Char → List Char
  | 0, rest => '.' :: rest
  | n + 1, rest => '|' :: tally n rest

def untally : List Char → ℕ × List Char
  | '|' :: l => ((untally l).1 + 1, (untally l).2)
  | _ :: l => (0, l)
  | [] => (0, [])

def signText (c : Claims) : List Char :=
  tally c.subject.toList.length <| c.subject.toList ++
    tally c.deviceId.toList.length (c.deviceId.toList ++
      tally (if c.kind = .access then 0 else 1) (tally c.issuedAt.toNat (tally (-c.issuedAt).toNat
        (tally c.expiration.toNat (tally (-c.expiration).toNat [])))))

def claimsText (l : List Char) : Claims :=
  let s := untally l
  let d := untally (s.2.drop s.1)
  let k := untally (d.2.drop d.1)
  let i := untally k.2
  let j := untally i.2
  let e := untally j.2
  ⟨String.ofList (s.2.take s.1), String.ofList (d.2.take d.1),
    if k.1 = 0 then .access else .refresh, i.1 - j.1, e.1 - (untally e.2).1⟩

def sampleJwt : Jwt where
  sign c := String.ofList (signText c)
  signed token :=
    if signText (claimsText token.toList) = token.toList then some (claimsText token.toList)
    else none

lemma untally_tally (n : ℕ) (rest : List Char) : untally (tally n rest) = (n, rest) := by
  induction n with
  | zero => rfl
  | succ n ih => rw [tally, untally, ih]

lemma claimsText_signText (c : Claims) : claimsText (signText c) = c := by
  obtain ⟨subject, deviceId, kind, issuedAt, expiration⟩ := c
  unfold claimsText signText
  cases kind <;>
    simp only [untally_tally, List.drop_left, List.take_left, String.ofList_toList,
      Int.toNat_sub_toNat_neg] <;> rfl

lemma sampleJwt_signed (c : Claims) : sampleJwt.signed (sampleJwt.sign c) = some c := by
  simp [sampleJwt, claimsText_signText]

def sampleSettings : Settings := ⟨⟨5, 60000⟩, fun k => if k = .access then 1000 else 5000⟩

def sampleEncoder : Encoder where
  check password stored := decide (stored = "$2a$" ++ password)
  encode _ password := "$2a$" ++ password

def sampleUsers : Users := fun u => if u = "al" then some "$2a$pw" else none

def sampleLogin : Event := .login 0 0 (fun _ => 0) 0 "ip" ⟨"al", "pw", "pc"⟩

def sampleToken (kind : Kind) : String := issue sampleSettings sampleJwt 0 "al" "pc" kind

def sampleConnect : List Event :=
  [sampleLogin, .handshake "s" 900 (some ("chat, bearer." ++ sampleToken .access)),
    .established "s"]

theorem session_traced_connect :
    Traced sampleSettings sampleEncoder sampleJwt
      (Run.exec (step sampleSettings sampleEncoder sampleJwt) (start sampleUsers) sampleConnect)
      (Run.outs (step sampleSettings sampleEncoder sampleJwt) (start sampleUsers) sampleConnect) ∧
    (Run.exec (step sampleSettings sampleEncoder sampleJwt) (start sampleUsers)
      sampleConnect).sessions = [⟨"s", true, true, "al", "pc"⟩] :=
  ⟨session_traced sampleJwt_signed sampleUsers sampleConnect (by decide),
    by decide⟩

/-! ### Refresh tokens are not used up -/

/-- The refresh token that yielded a pair. -/
def Entry.consumed : Entry → Option String
  | .refreshed _ req _ _ => some req.refreshToken
  | _ => none

/-- Every refresh token yields a pair at most once. -/
def Rotated (tr : List Entry) : Prop := (tr.filterMap Entry.consumed).Nodup

instance (tr : List Entry) : Decidable (Rotated tr) :=
  inferInstanceAs (Decidable (List.Nodup _))

def sampleReplay : List Event :=
  [sampleLogin, .refresh 1000 (fun _ => 1000) ⟨sampleToken .refresh, "pc"⟩,
    .refresh 2000 (fun _ => 2000) ⟨sampleToken .refresh, "pc"⟩]

lemma sampleReplay_unforged :
    Run.Steps (step sampleSettings sampleEncoder sampleJwt) (Unforged sampleJwt)
      (start sampleUsers) sampleReplay := by
  decide

/-- The token of a login yields a second pair. -/
theorem replay_not_rotated :
    Run.Steps (step sampleSettings sampleEncoder sampleJwt) (Unforged sampleJwt)
      (start sampleUsers) sampleReplay ∧
    ¬ Rotated (Run.outs (step sampleSettings sampleEncoder sampleJwt) (start sampleUsers)
      sampleReplay) :=
  ⟨sampleReplay_unforged, by decide⟩

/-- **A refresh token works until it expires.** After a refresh has succeeded, the same token
yields a pair again if and only if it has not expired, the request names its device and its user
is still there. -/
theorem refresh_repeats (hjwt : ∀ c, jwt.signed (jwt.sign c) = some c) (users : Users)
    (pre mid : List Event) {now : ℤ} {times : Kind → ℤ} {req : RefreshRequest} {pair : TokenPair}
    (hun : Run.Steps (step cfg enc jwt) (Unforged jwt) (start users)
      (pre ++ .refresh now times req :: mid))
    (hfirst : refresh cfg jwt now times req
      (Run.exec (step cfg enc jwt) (start users) pre).auth.users = .ok pair) :
    ∃ username deviceId t,
      Origin cfg enc jwt (Run.outs (step cfg enc jwt) (start users) pre) .refresh req.refreshToken
        username deviceId t ∧
      ∀ (now' : ℤ) (times' : Kind → ℤ) (req' : RefreshRequest) (pair' : TokenPair),
        req'.refreshToken = req.refreshToken →
        (refresh cfg jwt now' times' req' (Run.exec (step cfg enc jwt) (start users)
            (pre ++ .refresh now times req :: mid)).auth.users = .ok pair' ↔
          now' ≤ (t + cfg.ttl .refresh) / 1000 * 1000 ∧ req'.deviceId = deviceId ∧
          (Run.exec (step cfg enc jwt) (start users)
            (pre ++ .refresh now times req :: mid)).auth.users username ≠ none ∧
          pair' = issueTokens cfg jwt times' username deviceId) := by
  obtain ⟨htoken, hdevice, c, hc, -, hkind, hdev, -, -⟩ := refresh_eq_ok.mp hfirst
  have hinv := inv_run hjwt users (Run.steps_append.mp hun).1
  obtain ⟨t, hclaims, horigin⟩ := hinv.origin hjwt (Run.steps_at hun) rfl hc
  have hexp : c.expiration = (t + cfg.ttl .refresh) / 1000 := by
    rw [hclaims, hkind, claimsOf]
  rw [hkind] at horigin
  refine ⟨c.subject, c.deviceId, t, horigin, fun now' times' req' pair' hreq => ?_⟩
  rw [refresh_eq_ok, hreq]
  constructor
  · rintro ⟨-, -, c', hc', hle, -, hd, hu, hp⟩
    cases hc.symm.trans hc'
    exact ⟨by rwa [hexp] at hle, hd.symm, hu, hp⟩
  · rintro ⟨hle, hd, hu, hp⟩
    refine ⟨htoken, ?_, c, hc, by rwa [hexp], hkind, hd.symm, hu, hp⟩
    rw [hd, hdev]
    exact hdevice

theorem refresh_repeats_replay :
    ∃ username deviceId t, Origin sampleSettings sampleEncoder sampleJwt
        (Run.outs (step sampleSettings sampleEncoder sampleJwt) (start sampleUsers) [sampleLogin])
        .refresh (sampleToken .refresh) username deviceId t ∧
      ∀ now' pair', refresh sampleSettings sampleJwt now' (fun _ => now')
          ⟨sampleToken .refresh, "pc"⟩ (Run.exec (step sampleSettings sampleEncoder sampleJwt)
            (start sampleUsers) sampleReplay).auth.users = .ok pair' ↔
        now' ≤ (t + 5000) / 1000 * 1000 ∧ "pc" = deviceId ∧
          (Run.exec (step sampleSettings sampleEncoder sampleJwt) (start sampleUsers)
            sampleReplay).auth.users username ≠ none ∧
          pair' = issueTokens sampleSettings sampleJwt (fun _ => now') username deviceId := by
  have hfirst : refresh sampleSettings sampleJwt 1000 (fun _ => 1000) ⟨sampleToken .refresh, "pc"⟩
      (Run.exec (step sampleSettings sampleEncoder sampleJwt) (start sampleUsers)
        [sampleLogin]).auth.users =
      .ok (issueTokens sampleSettings sampleJwt (fun _ => 1000) "al" "pc") := by
    decide
  obtain ⟨username, deviceId, t, horigin, hagain⟩ := refresh_repeats sampleJwt_signed sampleUsers
    [sampleLogin] [.refresh 2000 (fun _ => 2000) ⟨sampleToken .refresh, "pc"⟩]
    sampleReplay_unforged hfirst
  exact ⟨username, deviceId, t, horigin, fun now' pair' => hagain now' _ _ pair' rfl⟩

end SyncClipboard.TokenOrigin
