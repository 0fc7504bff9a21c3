import Mathlib.Data.List.Induction
import SyncClipboard.TokenOrigin

/-!
The Android client getting its tokens from the server and opening its socket with them.

The phone keeps an access token with the time at which it expires and a refresh token, through restarts
and through changes of what the user has entered, the address of the server included. It asks the server only
when the access token is about to expire, with the refresh token first and the password after that. Requests
may get lost on either way, and whatever else happens at the servers happens in between. `phone_sessions`: a
socket is opened for nobody but a user and device that were entered and logged in at this server, and as long
as the address stays with one server, no token that the phone thinks valid is refused if the clocks and the
network are off by less than half a minute in sum. `phone_recovers`: whatever tokens it has, six steps without
a failure of the network bring it to an open socket.

A request takes its values out of the store at once. OkHttp throws for a header with characters outside ASCII,
which no token of a server has; that is left out.
-/

namespace SyncClipboard.PhoneLogin

open Auth
open TokenOrigin (tally untally untally_tally sampleJwt sampleJwt_signed sampleEncoder sampleUsers)

/-! ### SecureConfigStore -/

def isWhitespace (c : Char) : Bool :=
  let n := c.toNat
  (9 ≤ n && n ≤ 13) || (28 ≤ n && n ≤ 32) || n == 0xA0 || n == 0x1680 || (0x2000 ≤ n && n ≤ 0x200A) ||
    n == 0x2028 || n == 0x2029 || n == 0x202F || n == 0x205F || n == 0x3000

def isBlank (s : String) : Bool := s.toList.all isWhitespace

def isHexDigit (c : Char) : Bool :=
  ('0' ≤ c && c ≤ '9') || ('a' ≤ c && c ≤ 'f') || ('A' ≤ c && c ≤ 'F')

structure Form where
  serverHost : String
  serverPort : ℤ
  username : String
  password : String
  aesKey : String
  deviceId : String

/-- One of the values that `saveConfig` stores one after the other. -/
inductive Entry
  | serverHost (v : String)
  | serverPort (v : ℤ)
  | username (v : String)
  | password (v : String)
  | aesKey (v : String)
  | deviceId (v : String)

def Form.enter (f : Form) : Entry → Form
  | .serverHost v => { f with serverHost := v }
  | .serverPort v => { f with serverPort := v }
  | .username v => { f with username := v }
  | .password v => { f with password := v }
  | .aesKey v => { f with aesKey := v }
  | .deviceId v => { f with deviceId := v }

structure Store where
  form : Form
  accessToken : String
  refreshToken : String
  accessTokenExpEpoch : ℤ

def isConfigured (f : Form) : Bool :=
  !isBlank f.serverHost && (1 ≤ f.serverPort && f.serverPort ≤ 65535) && !isBlank f.username &&
    !isBlank f.password && f.aesKey.toList.length == 64 && f.aesKey.toList.all isHexDigit &&
    !isBlank f.deviceId

/-! ### The servers -/

variable {S : Type}

/-- The servers there are, and which of them is found at an address. -/
structure Servers (S : Type) where
  find : String → ℤ → S
  cfg : S → Settings
  enc : Encoder
  jwt : S → Jwt

/-- The server that is entered. -/
def Servers.of (net : Servers S) (f : Form) : S := net.find f.serverHost f.serverPort

/-! ### The loop and its requests -/

/-- Where the loop is, and with which server. A request has the values the store had when it was sent; with a
token goes the time on the phone's clock at which it was taken out of the store or put there. -/
inductive Phase (S : Type)
  | loop
  | refreshing (server : S) (req : RefreshRequest)
  | loggingIn (server : S) (req : LoginRequest)
  | opening (server : S) (token : String) (chosen : ℤ)
  | connected

structure World (S : Type) where
  store : Store
  phase : Phase S
  attempt : ℕ
  auth : S → AuthState

/-- A request: whether it reaches the server and the answer the phone, the clocks of the server while it
is handled, and the clock of the phone when the answer is there. -/
structure Exchange where
  reached : Bool
  answered : Bool
  acquire : ℤ
  record : ℤ
  verified : ℤ
  times : Kind → ℤ
  salt : ℕ
  ip : String
  received : ℤ

/-- A handshake: not answered, or answered at a time of the server's clock. -/
inductive Socket
  | failed
  | served (now : ℤ)

inductive Event (S : Type)
  /-- the loop comes to its head -/
  | turn (now : ℤ)
  /-- the request that is under way ends -/
  | answer (x : Exchange)
  /-- the handshake that is under way ends -/
  | socket (s : Socket)
  /-- the socket goes down -/
  | closed
  /-- the user saves what is in the form -/
  | enter (entry : Entry)
  /-- the app is started again, or the connection stopped and started -/
  | restart
  /-- a server has dealt with others -/
  | server (s : S) (auth : AuthState)

inductive Did (S : Type)
  | notConfigured
  | authFailed (backoffMs : ℕ)
  | connected (server : S) (username deviceId : String)
  /-- the handshake was answered with 401 -/
  | refused (backoffMs : ℕ)
  | disconnected (backoffMs : ℕ)
  deriving DecidableEq

def backoffMs (attempt : ℕ) : ℕ := min (1000 <<< min attempt 6) 60000

/-- What the server makes of a request, and what of its answer comes to the phone. -/
def serve (x : Exchange) (handled : Response × AuthState) (auth : AuthState) : Option Response × AuthState :=
  if x.reached = false then (none, auth)
  else if x.answered = false then (none, handled.2)
  else (some handled.1, handled.2)

def World.fail (w : World S) : World S × List (Did S) :=
  ({ w with phase := .loop, attempt := w.attempt + 1 }, [.authFailed (backoffMs w.attempt)])

def World.disconnect (w : World S) : World S × List (Did S) :=
  ({ w with phase := .loop, attempt := w.attempt + 1 }, [.disconnected (backoffMs w.attempt)])

variable (net : Servers S)

/-- The branch of `handleTokenResponse` for an answer that is successful; the socket is opened next. -/
def World.keep (w : World S) (received : ℤ) (pair : TokenPair) : World S × List (Did S) :=
  ({ w with
    store := { w.store with
      accessToken := pair.accessToken
      refreshToken := pair.refreshToken
      accessTokenExpEpoch := received / 1000 + pair.expiresInSec }
    phase := .opening (net.of w.store.form) pair.accessToken received }, [])

def World.login (w : World S) : World S × List (Did S) :=
  let req : LoginRequest := ⟨w.store.form.username, w.store.form.password, w.store.form.deviceId⟩
  ({ w with phase := .loggingIn (net.of w.store.form) req }, [])

def haveValidToken (now : ℤ) (s : Store) : Bool :=
  !isBlank s.accessToken && decide (now / 1000 + 30 < s.accessTokenExpEpoch)

/-- `ensureValidToken`, up to its first request. -/
def ensureValidToken (now : ℤ) (w : World S) : World S × List (Did S) :=
  if haveValidToken now w.store then
    ({ w with phase := .opening (net.of w.store.form) w.store.accessToken now }, [])
  else if isBlank w.store.refreshToken then w.login net
  else ({ w with phase := .refreshing (net.of w.store.form) ⟨w.store.refreshToken, w.store.form.deviceId⟩ }, [])

variable [DecidableEq S]

def step (w : World S) : Event S → World S × List (Did S)
  | .turn now =>
    match w.phase with
    | .loop => if isConfigured w.store.form then ensureValidToken net now w else (w, [.notConfigured])
    | _ => (w, [])
  | .answer x =>
    match w.phase with
    | .loggingIn s req =>
      let r := serve x (login (net.cfg s) net.enc (net.jwt s) x.acquire x.record x.times x.salt x.ip req (w.auth s))
        (w.auth s)
      let w := { w with auth := Function.update w.auth s r.2 }
      match r.1 with
      | some (.ok pair) => w.keep net x.received pair
      | _ => w.fail
    | .refreshing s req =>
      let r := serve x (refresh (net.cfg s) (net.jwt s) x.verified x.times req (w.auth s).users, w.auth s) (w.auth s)
      match r.1 with
      | some (.ok pair) => w.keep net x.received pair
      -- refused: the password is tried
      | some _ => w.login net
      | none => w.fail
    | _ => (w, [])
  | .socket o =>
    match w.phase with
    | .opening s token _ =>
      match o with
      | .failed => w.disconnect
      | .served now =>
        match beforeHandshake (net.jwt s) now (some ("bearer." ++ token)) with
        | .accepted username deviceId _ =>
          ({ w with phase := .connected, attempt := 0 }, [.connected s username deviceId])
        | .rejected status =>
          if status = 401 then
            ({ w with
              store := { w.store with accessToken := "", accessTokenExpEpoch := 0 }
              phase := .loop
              attempt := w.attempt + 1 }, [.refused (backoffMs w.attempt)])
          else w.disconnect
    | _ => (w, [])
  | .closed =>
    match w.phase with
    | .connected => ({ w with phase := .loop }, [])
    | _ => (w, [])
  | .enter entry => ({ w with store := { w.store with form := w.store.form.enter entry } }, [])
  | .restart => ({ w with phase := .loop, attempt := 0 }, [])
  | .server s auth => ({ w with auth := Function.update w.auth s auth }, [])

/-! ### Tokens -/

/-- Documented behaviour of the JWT library: a signature that it has made is right, and a token consists
of letters, digits, points, hyphens and underscores. -/
structure Documented (jwt : Jwt) : Prop where
  signed : ∀ c, jwt.signed (jwt.sign c) = some c
  plain : ∀ c, ∀ ch ∈ (jwt.sign c).toList, ch ≠ ',' ∧ ' ' < ch

/-- Documented behaviour, and each server has a secret of its own, so that no other one accepts its signature. -/
structure Servers.Documented (net : Servers S) : Prop where
  jwt : ∀ s, PhoneLogin.Documented (net.jwt s)
  apart : ∀ s s', s ≠ s' → ∀ c, (net.jwt s).signed ((net.jwt s').sign c) = none

variable {net} {cfg : Settings} {jwt : Jwt}

lemma trim_plain {s : List Char} (h : ∀ c ∈ s, ' ' < c) : trim s = s := by
  have hkeep : ∀ l : List Char, (∀ c ∈ l, ' ' < c) → l.dropWhile (fun c => decide (c ≤ ' ')) = l := by
    intro l hl
    cases l with
    | nil => rfl
    | cons c l =>
      have hc := hl c (by simp)
      exact List.dropWhile_cons_of_neg (by simpa using hc)
  rw [trim, hkeep s h, hkeep s.reverse fun c hc => h c (List.mem_reverse.mp hc), List.reverse_reverse]

/-- The server finds the token in the header of the phone. -/
lemma extractToken_bearer {token : String} (h : ∀ ch ∈ token.toList, ch ≠ ',' ∧ ' ' < ch) :
    extractToken (some ("bearer." ++ token)) = some token := by
  have hlist : ("bearer." ++ token).toList = "bearer.".toList ++ token.toList := by simp
  have hbearer : ∀ ch ∈ "bearer.".toList, ch ≠ ',' ∧ ' ' < ch := by simp
  have hall : ∀ ch ∈ "bearer.".toList ++ token.toList, ch ≠ ',' ∧ ' ' < ch := by
    intro ch hch
    rcases List.mem_append.mp hch with hch | hch
    · exact hbearer ch hch
    · exact h ch hch
  have hsplit : ("bearer.".toList ++ token.toList).splitOn ',' = ["bearer.".toList ++ token.toList] :=
    List.splitOn_eq_singleton fun hcomma => (hall ',' hcomma).1 rfl
  have hbegins : "bearer.".toList.isPrefixOf ("bearer.".toList ++ token.toList) = true := by
    simp
  have hdrop : ("bearer.".toList ++ token.toList).drop 7 = token.toList := rfl
  simp only [extractToken, Option.bind_some, hlist, hsplit, List.map_cons, List.map_nil,
    trim_plain fun c hc => (hall c hc).2, List.findSome?_cons, hbegins, hdrop, if_true, String.ofList_toList]

/-- A token of the server opens a session for the one it was issued to, until it expires. -/
lemma beforeHandshake_issue (hjwt : Documented jwt) {now i : ℤ} {u d : String} :
    beforeHandshake jwt now (some ("bearer." ++ issue cfg jwt i u d .access)) =
      if now ≤ (i + cfg.ttl .access) / 1000 * 1000 then
        .accepted u d ("bearer." ++ issue cfg jwt i u d .access)
      else .rejected 401 := by
  have hextract := @extractToken_bearer (issue cfg jwt i u d .access) (hjwt.plain _)
  unfold beforeHandshake
  rw [hextract]
  dsimp only
  unfold verify
  rw [issue, hjwt.signed]
  by_cases hnow : now ≤ (i + cfg.ttl .access) / 1000 * 1000
  · simp [claimsOf, hnow, Int.not_lt.mpr hnow]
  · simp [claimsOf, hnow, Int.not_le.mp hnow]

/-- No other server lets a token in. -/
lemma beforeHandshake_foreign (hnet : net.Documented) {s s' : S} {now i : ℤ} {u d : String} :
    beforeHandshake (net.jwt s) now (some ("bearer." ++ issue (net.cfg s') (net.jwt s') i u d .access)) =
      if s = s' ∧ now ≤ (i + (net.cfg s').ttl .access) / 1000 * 1000 then
        .accepted u d ("bearer." ++ issue (net.cfg s') (net.jwt s') i u d .access)
      else .rejected 401 := by
  by_cases hs : s = s'
  · subst hs
    simpa using beforeHandshake_issue (hnet.jwt s)
  · have hextract := @extractToken_bearer (issue (net.cfg s') (net.jwt s') i u d .access) ((hnet.jwt s').plain _)
    unfold beforeHandshake
    rw [hextract]
    dsimp only
    unfold verify
    rw [issue, hnet.apart s s' hs]
    simp [hs]

/-! ### Answers -/

lemma serve_ok {x : Exchange} {handled : Response × AuthState} {auth : AuthState} {pair : TokenPair}
    (h : (serve x handled auth).1 = some (.ok pair)) : handled.1 = .ok pair := by
  unfold serve at h
  split_ifs at h
  exact Option.some.inj h

variable {w : World S}

lemma step_loggingIn {s : S} {req : LoginRequest} (hw : w.phase = .loggingIn s req) (x : Exchange) :
    let r := serve x (login (net.cfg s) net.enc (net.jwt s) x.acquire x.record x.times x.salt x.ip req (w.auth s))
      (w.auth s)
    let w' := { w with auth := Function.update w.auth s r.2 }
    (∃ pair, r.1 = some (.ok pair) ∧ step net w (.answer x) = w'.keep net x.received pair) ∨
      step net w (.answer x) = w'.fail := by
  simp only [step, hw]
  split
  · next pair hpair => exact .inl ⟨pair, hpair, rfl⟩
  · exact .inr rfl

lemma step_refreshing {s : S} {req : RefreshRequest} (hw : w.phase = .refreshing s req) (x : Exchange) :
    let r := serve x (refresh (net.cfg s) (net.jwt s) x.verified x.times req (w.auth s).users, w.auth s) (w.auth s)
    (∃ pair, r.1 = some (.ok pair) ∧ step net w (.answer x) = w.keep net x.received pair) ∨
      step net w (.answer x) = w.login net ∨ step net w (.answer x) = w.fail := by
  simp only [step, hw]
  split
  · next pair hpair => exact .inl ⟨pair, hpair, rfl⟩
  · exact .inr (.inl rfl)
  · exact .inr (.inr rfl)

/-! ### Who the tokens are for -/

section Past

variable (net) (w₀ : World S)

/-- The server was entered, and what is in the request, all at the same time. -/
def Entered (es : List (Event S)) (s : S) (req : LoginRequest) : Prop :=
  ∃ pre post f, es = pre ++ post ∧ f = (Run.exec (step net) w₀ pre).store.form ∧ net.of f = s ∧
    req = ⟨f.username, f.password, f.deviceId⟩

/-- The user and device were entered with a password that was right for the users the server had when it
answered. -/
def LoggedIn (es : List (Event S)) (s : S) (u d : String) : Prop :=
  ∃ pre x post password, es = pre ++ .answer x :: post ∧ Entered net w₀ pre s ⟨u, password, d⟩ ∧
    (Run.exec (step net) w₀ pre).phase = .loggingIn s ⟨u, password, d⟩ ∧
    (authenticate net.enc x.salt (some u) (some password) ((Run.exec (step net) w₀ pre).auth s).users).1 = true

/-- A token of a server that came with an answer of the run, for somebody who had logged in there. -/
def Issued (es : List (Event S)) (s : S) (kind : Kind) (token : String) (x : Exchange) : Prop :=
  .answer x ∈ es ∧ ∃ u d, LoggedIn net w₀ es s u d ∧
    token = issue (net.cfg s) (net.jwt s) (x.times kind) u d kind

/-- What the phone has got of some servers: tokens that came with answers of the run. -/
structure Store.Held (P : S → Prop) (es : List (Event S)) (st : Store) : Prop where
  access : isBlank st.accessToken = true ∨ ∃ s x, P s ∧ Issued net w₀ es s .access st.accessToken x ∧
    st.accessTokenExpEpoch = x.received / 1000 + (net.cfg s).ttl .access / 1000
  refresh : isBlank st.refreshToken = true ∨ ∃ s x, P s ∧ Issued net w₀ es s .refresh st.refreshToken x

def Phase.Held (P : S → Prop) (es : List (Event S)) : Phase S → Prop
  | .refreshing s req => P s ∧ ∃ s' x, P s' ∧ Issued net w₀ es s' .refresh req.refreshToken x
  | .loggingIn s req => P s ∧ Entered net w₀ es s req
  | .opening s token chosen => P s ∧ ∃ s' x, P s' ∧ Issued net w₀ es s' .access token x ∧
      (chosen = x.received ∨ chosen / 1000 + 30 < x.received / 1000 + (net.cfg s').ttl .access / 1000)
  | _ => True

structure Held (P : S → Prop) (es : List (Event S)) (w : World S) : Prop where
  run : w = Run.exec (step net) w₀ es
  address : P (net.of w.store.form)
  store : w.store.Held net w₀ P es
  phase : w.phase.Held net w₀ P es

/-- What is entered does not lead to other servers. -/
def Keeps (P : S → Prop) (w : World S) : Event S → Prop
  | .enter entry => P (net.of (w.store.form.enter entry))
  | _ => True

end Past

section Held

variable {w₀ : World S} {P : S → Prop} {es : List (Event S)} {e : Event S}

lemma Entered.snoc {s : S} {req : LoginRequest} (h : Entered net w₀ es s req) (e : Event S) :
    Entered net w₀ (es ++ [e]) s req := by
  obtain ⟨pre, post, f, rfl, hf⟩ := h
  exact ⟨pre, post ++ [e], f, List.append_assoc _ _ _, hf⟩

lemma LoggedIn.snoc {s : S} {u d : String} (h : LoggedIn net w₀ es s u d) (e : Event S) :
    LoggedIn net w₀ (es ++ [e]) s u d := by
  obtain ⟨pre, x, post, password, rfl, hrest⟩ := h
  exact ⟨pre, x, post ++ [e], password, by simp, hrest⟩

lemma Issued.snoc {s : S} {kind : Kind} {token : String} {x : Exchange} (h : Issued net w₀ es s kind token x)
    (e : Event S) : Issued net w₀ (es ++ [e]) s kind token x := by
  obtain ⟨hx, u, d, hlogged, htoken⟩ := h
  exact ⟨List.mem_append_left _ hx, u, d, hlogged.snoc e, htoken⟩

lemma Store.Held.snoc {st : Store} (h : st.Held net w₀ P es) (e : Event S) : st.Held net w₀ P (es ++ [e]) where
  access := h.access.imp_right fun ⟨s, x, hs, hx, hexp⟩ => ⟨s, x, hs, hx.snoc e, hexp⟩
  refresh := h.refresh.imp_right fun ⟨s, x, hs, hx⟩ => ⟨s, x, hs, hx.snoc e⟩

lemma Phase.Held.snoc {phase : Phase S} (h : phase.Held net w₀ P es) (e : Event S) :
    phase.Held net w₀ P (es ++ [e]) := by
  cases phase with
  | refreshing s req =>
    obtain ⟨hs, s', x, hs', hx⟩ := h
    exact ⟨hs, s', x, hs', hx.snoc e⟩
  | loggingIn s req => exact ⟨h.1, h.2.snoc e⟩
  | opening s token chosen =>
    obtain ⟨hs, s', x, hs', hx, hchosen⟩ := h
    exact ⟨hs, s', x, hs', hx.snoc e, hchosen⟩
  | _ => trivial

lemma Held.run_snoc (h : Held net w₀ P es w) (e : Event S) :
    (step net w e).1 = Run.exec (step net) w₀ (es ++ [e]) := by
  rw [Run.exec_append, ← h.run]
  rfl

lemma Held.next (h : Held net w₀ P es w) (hstore : (step net w e).1.store = w.store)
    (hphase : (step net w e).1.phase.Held net w₀ P (es ++ [e])) :
    Held net w₀ P (es ++ [e]) (step net w e).1 := by
  refine ⟨h.run_snoc e, ?_, ?_, hphase⟩
  · rw [hstore]
    exact h.address
  · rw [hstore]
    exact h.store.snoc e

lemma Held.idle (h : Held net w₀ P es w) (hstore : (step net w e).1.store = w.store)
    (hphase : (step net w e).1.phase = .loop ∨ (step net w e).1.phase = .connected) :
    Held net w₀ P (es ++ [e]) (step net w e).1 := by
  refine h.next hstore ?_
  rcases hphase with hphase | hphase
  · rw [hphase]
    trivial
  · rw [hphase]
    trivial

lemma Held.same (h : Held net w₀ P es w) (hstep : (step net w e).1 = w) :
    Held net w₀ P (es ++ [e]) (step net w e).1 := by
  refine h.next (by rw [hstep]) ?_
  rw [hstep]
  exact h.phase.snoc e

lemma Held.asks (h : Held net w₀ P es w) (hstep : (step net w e).1 = (w.login net).1) :
    Held net w₀ P (es ++ [e]) (step net w e).1 := by
  refine h.next (by rw [hstep]; rfl) ?_
  rw [hstep]
  refine ⟨h.address, Entered.snoc ⟨es, [], w.store.form, (List.append_nil es).symm, ?_, rfl, rfl⟩ e⟩
  rw [← h.run]

lemma Held.keep (h : Held net w₀ P es w) {x : Exchange} {s : S} (hs : P s) {u d : String}
    (hlogged : LoggedIn net w₀ (es ++ [.answer x]) s u d) {w' : World S} (hstore : w'.store = w.store)
    (hstep : (step net w (.answer x)).1 =
      (w'.keep net x.received (issueTokens (net.cfg s) (net.jwt s) x.times u d)).1) :
    Held net w₀ P (es ++ [.answer x]) (step net w (.answer x)).1 := by
  have hx : .answer x ∈ es ++ [.answer x] := List.mem_append_right _ (List.mem_singleton_self _)
  have haddress : P (net.of w'.store.form) := by
    rw [hstore]
    exact h.address
  refine ⟨h.run_snoc _, ?_, ?_, ?_⟩
  · rw [hstep]
    exact haddress
  · rw [hstep]
    exact ⟨.inr ⟨s, x, hs, ⟨hx, u, d, hlogged, rfl⟩, rfl⟩, .inr ⟨s, x, hs, hx, u, d, hlogged, rfl⟩⟩
  · rw [hstep]
    exact ⟨haddress, s, x, hs, ⟨hx, u, d, hlogged, rfl⟩, .inl rfl⟩

lemma isBlank_empty : isBlank "" = true := by decide

lemma Held.turn (h : Held net w₀ P es w) (now : ℤ) :
    Held net w₀ P (es ++ [.turn now]) (step net w (.turn now)).1 := by
  have hstore := h.store.snoc (.turn now)
  cases hw : w.phase with
  | loop =>
    by_cases hconf : isConfigured w.store.form
    · have hstep : step net w (.turn now) = ensureValidToken net now w := by simp only [step, hw, if_pos hconf]
      by_cases hvalid : haveValidToken now w.store
      · rw [ensureValidToken, if_pos hvalid] at hstep
        refine h.next (by rw [hstep]) ?_
        rw [hstep]
        refine ⟨h.address, ?_⟩
        simp only [haveValidToken, Bool.and_eq_true, Bool.not_eq_true', decide_eq_true_eq] at hvalid
        rcases hstore.access with hblank | ⟨s, x, hs, hx, heq⟩
        · rw [hvalid.1] at hblank
          cases hblank
        · exact ⟨s, x, hs, hx, .inr (heq ▸ hvalid.2)⟩
      · rw [ensureValidToken, if_neg hvalid] at hstep
        by_cases hblank : isBlank w.store.refreshToken
        · rw [if_pos hblank] at hstep
          exact h.asks (congrArg Prod.fst hstep)
        · rw [if_neg hblank] at hstep
          refine h.next (by rw [hstep]) ?_
          rw [hstep]
          exact ⟨h.address, hstore.refresh.resolve_left hblank⟩
    · exact h.same (by simp only [step, hw, if_neg hconf])
  | _ => exact h.same (by simp only [step, hw])

lemma Held.loggingIn (h : Held net w₀ P es w) {s : S} {req : LoginRequest} (hw : w.phase = .loggingIn s req)
    (x : Exchange) : Held net w₀ P (es ++ [.answer x]) (step net w (.answer x)).1 := by
  have hphase := h.phase
  rw [hw] at hphase
  obtain ⟨hs, hentered⟩ := hphase
  rcases @step_loggingIn S net _ w s req hw x with ⟨pair, hpair, hstep⟩ | hstep
  · obtain ⟨hauth, rfl⟩ := login_eq_ok (Prod.ext (serve_ok hpair) rfl)
    refine h.keep hs ⟨es, x, [], req.password, rfl, hentered, ?_, ?_⟩ (by rfl) (congrArg Prod.fst hstep)
    · rw [← h.run, hw]
    · rw [← h.run]
      exact hauth
  · exact h.idle (by rw [hstep]; rfl) (.inl (by rw [hstep]; rfl))

lemma Held.refreshing (hnet : net.Documented) (h : Held net w₀ P es w) {s : S} {req : RefreshRequest}
    (hw : w.phase = .refreshing s req) (x : Exchange) :
    Held net w₀ P (es ++ [.answer x]) (step net w (.answer x)).1 := by
  have hphase := h.phase
  rw [hw] at hphase
  obtain ⟨hs, s', y, -, -, u, d, hlogged, htoken⟩ := hphase
  rcases @step_refreshing S net _ w s req hw x with ⟨pair, hpair, hstep⟩ | hstep | hstep
  · obtain ⟨-, -, c, hc, -, -, -, -, rfl⟩ := refresh_eq_ok.mp (serve_ok hpair)
    -- the server has signed the token itself
    have hsame : s = s' := by
      by_contra hne
      rw [htoken, issue, hnet.apart s s' hne] at hc
      cases hc
    subst hsame
    rw [htoken, issue, (hnet.jwt s).signed] at hc
    obtain rfl := Option.some.inj hc
    exact h.keep hs (hlogged.snoc _) rfl (congrArg Prod.fst hstep)
  · exact h.asks (congrArg Prod.fst hstep)
  · exact h.idle (by rw [hstep]; rfl) (.inl (by rw [hstep]; rfl))

lemma Held.socket (h : Held net w₀ P es w) (o : Socket) :
    Held net w₀ P (es ++ [.socket o]) (step net w (.socket o)).1 := by
  cases hw : w.phase with
  | opening s token chosen =>
    cases o with
    | failed => exact h.idle (by simp [step, hw, World.disconnect]) (by simp [step, hw, World.disconnect])
    | served now =>
      cases hhandshake : beforeHandshake (net.jwt s) now (some ("bearer." ++ token)) with
      | accepted u d protocol => exact h.idle (by simp [step, hw, hhandshake]) (by simp [step, hw, hhandshake])
      | rejected status =>
        by_cases hstatus : status = 401
        · have hstep : (step net w (.socket (.served now))).1 =
              ⟨{ w.store with accessToken := "", accessTokenExpEpoch := 0 }, .loop, w.attempt + 1, w.auth⟩ := by
            simp only [step, hw, hhandshake, if_pos hstatus]
          refine ⟨h.run_snoc _, ?_, ?_, ?_⟩
          · rw [hstep]
            exact h.address
          · rw [hstep]
            exact ⟨.inl isBlank_empty, (h.store.snoc _).refresh⟩
          · rw [hstep]
            trivial
        · exact h.idle (by simp [step, hw, hhandshake, hstatus, World.disconnect])
            (by simp [step, hw, hhandshake, hstatus, World.disconnect])
  | _ => exact h.same (by simp only [step, hw])

lemma step_held (hnet : net.Documented) (h : Held net w₀ P es w) {e : Event S} (he : Keeps net P w e) :
    Held net w₀ P (es ++ [e]) (step net w e).1 := by
  cases e with
  | turn now => exact h.turn now
  | answer x =>
    cases hw : w.phase with
    | loggingIn s req => exact h.loggingIn hw x
    | refreshing s req => exact h.refreshing hnet hw x
    | _ => exact h.same (by simp only [step, hw])
  | socket o => exact h.socket o
  | closed =>
    cases hw : w.phase with
    | connected => exact h.idle (by simp [step, hw]) (by simp [step, hw])
    | _ => exact h.same (by simp only [step, hw])
  | enter entry =>
    exact ⟨h.run_snoc _, he, ⟨(h.store.snoc _).access, (h.store.snoc _).refresh⟩, h.phase.snoc _⟩
  | restart => exact h.idle rfl (.inl rfl)
  | server s auth => exact h.next rfl (h.phase.snoc _)

/-! ### Sessions -/

lemma answer_no_socket {x : Exchange} {o : Did S} (ho : o ∈ (step net w (.answer x)).2) :
    ∃ ms, o = .authFailed ms := by
  simp only [step] at ho
  split at ho
  · split at ho
    · simp [World.keep] at ho
    · simp only [World.fail, List.mem_singleton] at ho
      exact ⟨_, ho⟩
  · split at ho
    · simp [World.keep] at ho
    · simp [World.login] at ho
    · simp only [World.fail, List.mem_singleton] at ho
      exact ⟨_, ho⟩
  · simp at ho

lemma turn_no_socket {now : ℤ} {o : Did S} (ho : o ∈ (step net w (.turn now)).2) :
    o = .notConfigured := by
  simp only [step, ensureValidToken] at ho
  split at ho
  · split_ifs at ho <;> simp_all [World.login]
  · simp at ho

/-- What a handshake does with the token, the one place where a session is opened or refused. -/
lemma socket_cases (hnet : net.Documented) (h : Held net w₀ P es w) {e : Event S} {o : Did S}
    (ho : o ∈ (step net w e).2) :
    (∀ ms, o ≠ .refused ms) ∧ (∀ s u d, o ≠ .connected s u d) ∨
    ∃ now chosen x s s' u d, e = .socket (.served now) ∧ P s ∧ P s' ∧ .answer x ∈ es ∧
      LoggedIn net w₀ es s' u d ∧ (∃ token, w.phase = .opening s token chosen) ∧
      (chosen = x.received ∨ chosen / 1000 + 30 < x.received / 1000 + (net.cfg s').ttl .access / 1000) ∧
      o = if s = s' ∧ now ≤ (x.times .access + (net.cfg s').ttl .access) / 1000 * 1000 then .connected s u d
        else .refused (backoffMs w.attempt) := by
  cases e with
  | turn now =>
    rw [turn_no_socket ho]
    simp
  | answer x =>
    obtain ⟨ms, rfl⟩ := answer_no_socket ho
    simp
  | socket outcome =>
    have hphase := h.phase
    simp only [step] at ho
    cases hw : w.phase with
    | opening s token chosen =>
      rw [hw] at hphase ho
      obtain ⟨hs, s', x, hs', ⟨hx, u, d, hlogged, rfl⟩, hchosen⟩ := hphase
      cases outcome with
      | failed =>
        simp only [World.disconnect, List.mem_singleton] at ho
        simp [ho]
      | served now =>
        refine .inr ⟨now, chosen, x, s, s', u, d, rfl, hs, hs', hx, hlogged, ⟨_, rfl⟩, hchosen, ?_⟩
        simp only [beforeHandshake_foreign hnet] at ho
        split_ifs with hnow
        · simpa [hnow] using ho
        · simpa [hnow] using ho
    | _ => simp [hw] at ho
  | closed =>
    simp only [step] at ho
    split at ho <;> simp at ho
  | enter entry => simp [step] at ho
  | restart => simp [step] at ho
  | server s auth => simp [step] at ho

end Held

/-! A signature for small runs: each character of the claims, counted out. -/

def plainText (s : List Char) : List Char := s.flatMap fun ch => tally ch.toNat []

def plainChars : ℕ → List Char → List Char
  | 0, _ => []
  | _, [] => []
  | n + 1, l => Char.ofNat (untally l).1 :: plainChars n (untally l).2

def plainJwt : Jwt where
  sign c := String.ofList (plainText (sampleJwt.sign c).toList)
  signed token := sampleJwt.signed (String.ofList (plainChars token.toList.length token.toList))

lemma tally_append (n : ℕ) (rest : List Char) : tally n [] ++ rest = tally n rest := by
  induction n with
  | zero => rfl
  | succ n ih => rw [tally, tally, List.cons_append, ih]

lemma mem_tally {n : ℕ} {ch : Char} (h : ch ∈ tally n []) : ch = '|' ∨ ch = '.' := by
  induction n with
  | zero => exact .inr (List.mem_singleton.mp h)
  | succ n ih =>
    rcases List.mem_cons.mp h with rfl | h
    · exact .inl rfl
    · exact ih h

lemma plainChars_plainText {n : ℕ} {s : List Char} (h : s.length ≤ n) : plainChars n (plainText s) = s := by
  induction s generalizing n with
  | nil => cases n <;> rfl
  | cons ch s ih =>
    obtain ⟨n, rfl⟩ : ∃ n', n = n' + 1 := ⟨n - 1, by rw [List.length_cons] at h; omega⟩
    have htext : plainText (ch :: s) = tally ch.toNat (plainText s) := by
      rw [plainText, List.flatMap_cons, tally_append]
      rfl
    have hne : tally ch.toNat (plainText s) ≠ [] := by
      cases ch.toNat <;> simp [tally]
    rw [htext, plainChars.eq_3 _ _ hne, untally_tally, Char.ofNat_toNat, ih (by simpa using h)]

lemma length_plainText (s : List Char) : s.length ≤ (plainText s).length := by
  induction s with
  | nil => simp
  | cons ch s ih =>
    have hpos : 0 < (tally ch.toNat []).length := by
      cases ch.toNat <;> simp [tally]
    rw [plainText, List.flatMap_cons, List.length_append, List.length_cons]
    rw [plainText] at ih
    omega

lemma plainJwt_documented : Documented plainJwt where
  signed c := by
    have hchars := plainChars_plainText (length_plainText (sampleJwt.sign c).toList)
    simp only [plainJwt, String.toList_ofList, hchars, String.ofList_toList, sampleJwt_signed]
  plain c ch hch := by
    have hmem : ch ∈ plainText (sampleJwt.sign c).toList := by simpa [plainJwt] using hch
    obtain ⟨b, -, hb⟩ := List.mem_flatMap.mp hmem
    rcases mem_tally hb with rfl | rfl
    · decide
    · decide

/-- Two servers sign with marks of their own. -/
def markedJwt (mark : Char) : Jwt where
  sign c := String.ofList (mark :: (plainJwt.sign c).toList)
  signed token := match token.toList with
    | ch :: rest => if ch = mark then plainJwt.signed (String.ofList rest) else none
    | [] => none

lemma markedJwt_signed (mark mark' : Char) (c : Claims) :
    (markedJwt mark).signed ((markedJwt mark').sign c) = if mark' = mark then some c else none := by
  simp only [markedJwt, String.toList_ofList, String.ofList_toList, plainJwt_documented.signed]

lemma markedJwt_documented {mark : Char} (hcomma : mark ≠ ',') (hspace : ' ' < mark) :
    Documented (markedJwt mark) where
  signed c := by rw [markedJwt_signed, if_pos rfl]
  plain c ch hch := by
    have hmem : ch = mark ∨ ch ∈ (plainJwt.sign c).toList := by simpa [markedJwt] using hch
    rcases hmem with rfl | hmem
    · exact ⟨hcomma, hspace⟩
    · exact plainJwt_documented.plain c ch hmem

def start (form : Form) (auth : S → AuthState) : World S := ⟨⟨form, "", "", 0⟩, .loop, 0, auth⟩

/-- The clocks and the network are off by less than half a minute in sum: the phone's clock, read when an
answer is there, is at most so far ahead of the server's, read when the tokens in it were issued; and the
server's clock, read at the handshake, is at most 29 seconds more than that ahead of the phone's, read when
the token was chosen. The server stays the one that was entered. -/
def Timely (net : Servers S) (ahead : ℤ) (w : World S) : Event S → Prop
  | .answer x => x.received - x.times .access ≤ ahead
  | .socket (.served now) => ∀ s token chosen, w.phase = .opening s token chosen → now - chosen ≤ 29000 - ahead
  | .enter entry => net.of (w.store.form.enter entry) = net.of w.store.form
  | _ => True

section Sessions

variable {form : Form} {auth : S → AuthState} {es : List (Event S)}

lemma held_start {P : S → Prop} (h : P (net.of form)) : Held net (start form auth) P [] (start form auth) :=
  ⟨rfl, h, ⟨.inl isBlank_empty, .inl isBlank_empty⟩, trivial⟩

lemma held_exec (hnet : net.Documented) :
    Held net (start form auth) (fun _ => True) es (Run.exec (step net) (start form auth) es) := by
  refine Run.exec_inv_of_past (I := Held net (start form auth) fun _ => True) (fun past w e h => ?_)
    (held_start trivial) es
  exact step_held hnet h (by cases e <;> trivial)

/-- In a timely run there is but one server. -/
lemma held_timely (hnet : net.Documented) {ahead : ℤ}
    (h : Run.Steps (step net) (Timely net ahead) (start form auth) es) :
    Held net (start form auth) (fun s => s = net.of form) es (Run.exec (step net) (start form auth) es) := by
  induction es using List.reverseRec with
  | nil => exact held_start rfl
  | append_singleton es e ih =>
    obtain ⟨hes, he, -⟩ := Run.steps_append.mp h
    have hheld := ih hes
    have hkeeps : Keeps net (fun s => s = net.of form) (Run.exec (step net) (start form auth) es) e := by
      cases e with
      | enter entry => exact he.trans hheld.address
      | _ => trivial
    have hnext := step_held hnet hheld hkeeps
    rwa [Run.exec_append, Run.exec_cons, Run.exec_nil]

/-- **Whose sessions a phone opens, and that it is let in.** From a start without tokens and in every run,
whatever is entered meanwhile and whatever else the servers do, each session the phone opens is for a user and
device that were entered for this server, with a password that was right for its users when it answered. If the
server stays the same, the clocks and the network are off by less than half a minute in sum and tokens live at
least half a minute, no handshake is refused. -/
theorem phone_sessions (hnet : net.Documented) (form : Form) (auth : S → AuthState) (es : List (Event S)) :
    (∀ e s u d, .connected s u d ∈ (step net (Run.exec (step net) (start form auth) es) e).2 →
      LoggedIn net (start form auth) es s u d) ∧
    ∀ ahead, 30000 ≤ (net.cfg (net.of form)).ttl .access →
      Run.Steps (step net) (Timely net ahead) (start form auth) es →
      ∀ ms, .refused ms ∉ Run.outs (step net) (start form auth) es := by
  constructor
  · intro e s u d hmem
    rcases socket_cases hnet (held_exec hnet) hmem with
      ⟨-, hno⟩ | ⟨now, chosen, x, s₁, s₂, u', d', -, -, -, -, hlogged, -, -, heq⟩
    · exact absurd rfl (hno s u d)
    · split_ifs at heq with hlet
      cases heq
      exact hlet.1 ▸ hlogged
  · intro ahead httl hsteps ms hmem
    obtain ⟨pre, e, post, rfl, hrefused⟩ := Run.mem_outs.mp hmem
    obtain ⟨hpre, he, -⟩ := Run.steps_append.mp hsteps
    rcases socket_cases hnet (held_timely hnet hpre) hrefused with
      ⟨hno, -⟩ | ⟨now, chosen, x, s, s', u, d, rfl, rfl, rfl, hx, -, ⟨token, hphase⟩, hchosen, heq⟩
    · exact hno ms rfl
    · -- the token still lives at the handshake
      have hanswer : x.received - x.times .access ≤ ahead := by
        obtain ⟨before, after, rfl⟩ := List.append_of_mem hx
        exact Run.steps_at hpre
      have hsocket : now - chosen ≤ 29000 - ahead := he _ token chosen hphase
      rw [if_pos ⟨rfl, by omega⟩] at heq
      cases heq

end Sessions

/-- Access tokens live for an hour, refresh tokens for thirty days. -/
def hourSettings : Settings := ⟨⟨5, 60000⟩, fun k => if k = .access then 3600000 else 2592000000⟩

/-- The server that is called `host`, and all others. -/
def twoServers : Servers Bool where
  find host _ := host == "host"
  cfg _ := hourSettings
  enc := sampleEncoder
  jwt s := markedJwt (if s then 'h' else 'o')

lemma twoServers_documented : twoServers.Documented where
  jwt s := by
    refine markedJwt_documented ?_ ?_
    · cases s <;> decide
    · cases s <;> decide
  apart s s' hne c := by
    rw [twoServers, markedJwt_signed, if_neg]
    cases s <;> cases s' <;> first | exact absurd rfl hne | decide

def alForm : Form where
  serverHost := "host"
  serverPort := 8080
  username := "al"
  password := "pw"
  aesKey := String.ofList (List.replicate 64 'a')
  deviceId := "pc"

def alStart : World Bool := start alForm fun _ => ⟨sampleUsers, fun _ => none⟩

def alAnswer : Exchange := ⟨true, true, 0, 0, 0, fun _ => 0, 0, "ip", 0⟩

/-- The first connection of a phone, the user of which saves the password once more. -/
def alAsks : List (Event Bool) := [.turn 0, .enter (.password "pw"), .answer alAnswer]

lemma alAsks_phase : (Run.exec (step twoServers) alStart alAsks).phase =
    .opening true (issue hourSettings (markedJwt 'h') 0 "al" "pc" .access) 0 := rfl

theorem phone_sessions_al :
    (∀ e s u d, .connected s u d ∈ (step twoServers (Run.exec (step twoServers) alStart alAsks) e).2 →
      LoggedIn twoServers alStart alAsks s u d) ∧
    ∀ ms, .refused ms ∉ Run.outs (step twoServers) alStart (alAsks ++ [.socket (.served 5)]) := by
  have h := phone_sessions twoServers_documented alForm fun _ => ⟨sampleUsers, fun _ => none⟩
  refine ⟨(h alAsks).1, (h _).2 0 (by decide) (Run.steps_append.mpr ⟨⟨trivial, rfl, ?_, trivial⟩, ?_, trivial⟩)⟩
  · show (0 : ℤ) - 0 ≤ 0
    decide
  · intro s token chosen hphase
    have hsame := alAsks_phase.symm.trans hphase
    injection hsame with _ _ hchosen
    rw [← hchosen]
    decide

/-! ### Recovery -/

/-- The server lets the user in: the form passes its checks, the password is right, and there have not been
too many wrong ones. -/
def LetsIn (cfg : Settings) (enc : Encoder) (x : Exchange) (req : LoginRequest) (auth : AuthState) : Prop :=
  (notBlank req.username && notBlank req.password && notBlank req.deviceId) = true ∧
    (tryAcquire cfg.limits x.acquire (some req.username) (some x.ip) auth.counters).1 = true ∧
    (authenticate enc x.salt (some req.username) (some req.password) auth.users).1 = true

/-- The step that is due, without a failure of the network and with the clock of the server between two
times. -/
def Works (net : Servers S) (lo hi : ℤ) (w : World S) (e : Event S) : Prop :=
  match w.phase, e with
  | .loop, .turn _ => isConfigured w.store.form = true
  | .refreshing _ _, .answer x => x.reached = true ∧ x.answered = true ∧ lo ≤ x.times .access
  | .loggingIn s req, .answer x =>
    x.reached = true ∧ x.answered = true ∧ lo ≤ x.times .access ∧ LetsIn (net.cfg s) net.enc x req (w.auth s)
  | .opening _ _ _, .socket (.served now) => now ≤ hi
  | .connected, _ => True
  | _, _ => False

/-- At most so many steps to an open socket, while a server is entered. -/
def Near (net : Servers S) (lo : ℤ) (s : S) (w : World S) (n : ℕ) : Prop :=
  net.of w.store.form = s ∧ match n with
    | 1 => ∃ chosen u d i, w.phase = .opening s (issue (net.cfg s) (net.jwt s) i u d .access) chosen ∧ lo ≤ i
    | 2 => ∃ req, w.phase = .loggingIn s req
    | 3 => ∃ req, w.phase = .refreshing s req
    | 4 => w.phase = .loop ∧ isBlank w.store.accessToken = true
    | 5 => ∃ s' token chosen, w.phase = .opening s' token chosen
    | 6 => w.phase = .loop ∨ (∃ s' req, w.phase = .loggingIn s' req) ∨ ∃ s' req, w.phase = .refreshing s' req
    | _ => False

section Recovery

variable {e : Event S} {lo hi : ℤ} {s s' : S}

lemma serve_works {x : Exchange} {handled : Response × AuthState} {auth : AuthState} (hreached : x.reached = true)
    (hanswered : x.answered = true) : serve x handled auth = (some handled.1, handled.2) := by
  simp [serve, hreached, hanswered]

lemma login_letsIn {cfg : Settings} {enc : Encoder} {jwt : Jwt} {x : Exchange} {req : LoginRequest} {auth : AuthState}
    (h : LetsIn cfg enc x req auth) : (login cfg enc jwt x.acquire x.record x.times x.salt x.ip req auth).1 =
      .ok (issueTokens cfg jwt x.times req.username req.deviceId) := by
  obtain ⟨hblank, hacquire, hauth⟩ := h
  simp [login, hblank, hacquire, hauth]

/-! #### What a step that works does -/

lemma works_loop (hw : w.phase = .loop) (h : Works net lo hi w e) :
    ∃ now, (step net w e).1 = (ensureValidToken net now w).1 := by
  simp only [Works, hw] at h
  cases e with
  | turn now => exact ⟨now, by simp only [step, hw, h, if_true]⟩
  | _ => exact absurd h id

lemma works_loggingIn {req : LoginRequest} (hw : w.phase = .loggingIn s' req) (h : Works net lo hi w e) :
    ∃ (x : Exchange) (auth : S → AuthState), lo ≤ x.times .access ∧ (step net w e).1 = (({ w with auth := auth } : World S).keep net x.received
      (issueTokens (net.cfg s') (net.jwt s') x.times req.username req.deviceId)).1 := by
  simp only [Works, hw] at h
  cases e with
  | answer x =>
    obtain ⟨hreached, hanswered, hlo, hin⟩ := h
    exact ⟨x, _, hlo, by simp only [step, hw, serve_works hreached hanswered, login_letsIn hin]; rfl⟩
  | _ => exact absurd h id

lemma works_refreshing {req : RefreshRequest} (hw : w.phase = .refreshing s' req) (h : Works net lo hi w e) :
    (∃ (x : Exchange) (u d : String), lo ≤ x.times .access ∧
      (step net w e).1 = (w.keep net x.received (issueTokens (net.cfg s') (net.jwt s') x.times u d)).1) ∨
    (step net w e).1 = (w.login net).1 := by
  simp only [Works, hw] at h
  cases e with
  | answer x =>
    obtain ⟨hreached, hanswered, hlo⟩ := h
    simp only [step, hw, serve_works hreached hanswered]
    cases hrefresh : refresh (net.cfg s') (net.jwt s') x.verified x.times req (w.auth s').users with
    | ok pair =>
      obtain ⟨-, -, c, -, -, -, -, -, rfl⟩ := refresh_eq_ok.mp hrefresh
      exact .inl ⟨x, c.subject, c.deviceId, hlo, rfl⟩
    | refused status code message => exact .inr rfl
    | badRequest => exact .inr rfl
  | _ => exact absurd h id

lemma works_opening {token : String} {chosen : ℤ} (hw : w.phase = .opening s' token chosen)
    (h : Works net lo hi w e) :
    (∃ u d, .connected s' u d ∈ (step net w e).2) ∨ (step net w e).1.store.form = w.store.form ∧
      (step net w e).1.phase = .loop ∧ (step net w e).1.store.accessToken = "" := by
  simp only [Works, hw] at h
  cases e with
  | socket o =>
    cases o with
    | served now =>
      cases hhandshake : beforeHandshake (net.jwt s') now (some ("bearer." ++ token)) with
      | accepted u d protocol => exact .inl ⟨u, d, by simp [step, hw, hhandshake]⟩
      | rejected status =>
        have hstatus : status = 401 := by
          unfold beforeHandshake at hhandshake
          split at hhandshake
          · simpa using hhandshake.symm
          · split at hhandshake
            · simpa using hhandshake.symm
            · cases hhandshake
        exact .inr (by simp [step, hw, hhandshake, hstatus])
    | failed => exact absurd h id
  | _ => exact absurd h id

lemma works_live (hjwt : Documented (net.jwt s)) {chosen i : ℤ} {u d : String}
    (hw : w.phase = .opening s (issue (net.cfg s) (net.jwt s) i u d .access) chosen)
    (hlive : hi ≤ (i + (net.cfg s).ttl .access) / 1000 * 1000) (h : Works net lo hi w e) :
    .connected s u d ∈ (step net w e).2 := by
  simp only [Works, hw] at h
  cases e with
  | socket o =>
    cases o with
    | served now =>
      have hnow : now ≤ (i + (net.cfg s).ttl .access) / 1000 * 1000 := Int.le_trans h hlive
      simp [step, hw, beforeHandshake_issue hjwt, hnow]
    | failed => exact absurd h id
  | _ => exact absurd h id

/-! #### How near it comes -/

omit [DecidableEq S] in
/-- After the head of the loop, a token that seems valid is tried, or a request is made. -/
lemma turn_near (hs : net.of w.store.form = s) (now : ℤ) :
    ∃ m < 6, (isBlank w.store.accessToken = true → m < 4) ∧ Near net lo s (ensureValidToken net now w).1 m := by
  unfold ensureValidToken
  split_ifs with hvalid hblank
  · refine ⟨5, by decide, fun hblank => ?_, hs, _, _, _, rfl⟩
    simp [haveValidToken, hblank] at hvalid
  · exact ⟨2, by decide, fun _ => by decide, hs, _, by rw [← hs]; rfl⟩
  · exact ⟨3, by decide, fun _ => by decide, hs, _, by rw [← hs]⟩

omit [DecidableEq S] in
lemma login_near (hs : net.of w.store.form = s) : Near net lo s (w.login net).1 2 :=
  ⟨hs, _, by rw [← hs]; rfl⟩

omit [DecidableEq S] in
lemma keep_near (hs : net.of w.store.form = s) (received : ℤ) {times : Kind → ℤ} (hlo : lo ≤ times .access)
    (u d : String) :
    Near net lo s (w.keep net received (issueTokens (net.cfg s) (net.jwt s) times u d)).1 1 :=
  ⟨hs, received, u, d, times .access, by rw [← hs]; rfl, hlo⟩

omit [DecidableEq S] in
lemma keep_tried (hs : net.of w.store.form = s) (received : ℤ) (pair : TokenPair) :
    Near net lo s (w.keep net received pair).1 5 :=
  ⟨hs, _, _, _, rfl⟩

lemma step_near (hjwt : Documented (net.jwt s)) (hlife : hi + 999 ≤ lo + (net.cfg s).ttl .access) {n : ℕ}
    (h : Near net lo s w n) (hworks : Works net lo hi w e) :
    (∃ s' u d, .connected s' u d ∈ (step net w e).2) ∨ ∃ m < n, Near net lo s (step net w e).1 m := by
  match n, h with
  | 1, ⟨hs, chosen, u, d, i, hphase, hi'⟩ => exact .inl ⟨s, u, d, works_live hjwt hphase (by omega) hworks⟩
  | 2, ⟨hs, req, hphase⟩ =>
    obtain ⟨x, auth, hlo, hstep⟩ := works_loggingIn hphase hworks
    rw [hstep]
    exact .inr ⟨1, by decide, keep_near hs _ hlo _ _⟩
  | 3, ⟨hs, req, hphase⟩ =>
    rcases works_refreshing hphase hworks with ⟨x, u, d, hlo, hstep⟩ | hstep
    · rw [hstep]
      exact .inr ⟨1, by decide, keep_near hs _ hlo _ _⟩
    · rw [hstep]
      exact .inr ⟨2, by decide, login_near hs⟩
  | 4, ⟨hs, hphase, hblank⟩ =>
    obtain ⟨now, hstep⟩ := works_loop hphase hworks
    obtain ⟨m, -, hm, hnear⟩ := turn_near hs now
    rw [hstep]
    exact .inr ⟨m, hm hblank, hnear⟩
  | 5, ⟨hs, s', token, chosen, hphase⟩ =>
    rcases works_opening hphase hworks with ⟨u, d, hopen⟩ | ⟨hform, hloop, hempty⟩
    · exact .inl ⟨s', u, d, hopen⟩
    · exact .inr ⟨4, by decide, by rw [hform]; exact hs, hloop, by rw [hempty]; exact isBlank_empty⟩
  | 6, ⟨hs, .inl hphase⟩ =>
    obtain ⟨now, hstep⟩ := works_loop hphase hworks
    obtain ⟨m, hm, -, hnear⟩ := turn_near hs now
    rw [hstep]
    exact .inr ⟨m, hm, hnear⟩
  | 6, ⟨hs, .inr (.inl ⟨s', req, hphase⟩)⟩ =>
    -- the request went to a server that was entered before
    obtain ⟨x, auth, -, hstep⟩ := works_loggingIn hphase hworks
    have hs' : net.of ({ w with auth := auth } : World S).store.form = s := hs
    rw [hstep]
    exact .inr ⟨5, by decide, keep_tried hs' _ _⟩
  | 6, ⟨hs, .inr (.inr ⟨s', req, hphase⟩)⟩ =>
    rcases works_refreshing hphase hworks with ⟨x, u, d, -, hstep⟩ | hstep
    · rw [hstep]
      exact .inr ⟨5, by decide, keep_tried hs _ _⟩
    · rw [hstep]
      exact .inr ⟨2, by decide, login_near hs⟩

omit [DecidableEq S] in
lemma near_six (hw : w.phase ≠ .connected) (lo : ℤ) : ∃ n ≤ 6, Near net lo (net.of w.store.form) w n := by
  cases hphase : w.phase with
  | loop => exact ⟨6, by decide, rfl, .inl hphase⟩
  | refreshing s req => exact ⟨6, by decide, rfl, .inr (.inr ⟨s, req, hphase⟩)⟩
  | loggingIn s req => exact ⟨6, by decide, rfl, .inr (.inl ⟨s, req, hphase⟩)⟩
  | opening s token chosen => exact ⟨5, by decide, rfl, s, token, chosen, hphase⟩
  | connected => exact absurd hphase hw

/-- **The phone recovers.** From whatever state, with whatever tokens and requests under way, six steps that work
bring the phone to an open socket, if they take less time than a token of the server lives that is entered. -/
theorem phone_recovers (hnet : net.Documented) {lo hi : ℤ} {w : World S}
    (hlife : hi + 999 ≤ lo + (net.cfg (net.of w.store.form)).ttl .access) (hw : w.phase ≠ .connected)
    {es : List (Event S)} (hworks : Run.Steps (step net) (Works net lo hi) w es) (hlen : 6 ≤ es.length) :
    ∃ s u d, .connected s u d ∈ Run.outs (step net) w es := by
  obtain ⟨n, hn, hnear⟩ := @near_six S net w hw lo
  replace hlen : n ≤ es.length := by omega
  generalize net.of w.store.form = s at hlife hnear
  clear hn hw
  induction es generalizing w n with
  | nil =>
    obtain rfl : n = 0 := by simpa using hlen
    exact absurd hnear.2 id
  | cons e es ih =>
    rcases step_near (hnet.jwt s) hlife hnear hworks.1 with ⟨s', u, d, hmem⟩ | ⟨m, hm, hnear'⟩
    · exact ⟨s', u, d, List.mem_append_left _ hmem⟩
    · have hlen' : m ≤ es.length := by
        rw [List.length_cons] at hlen
        omega
      obtain ⟨s', u, d, hmem⟩ := ih hworks.2 m hlen' hnear'
      exact ⟨s', u, d, List.mem_append_right _ hmem⟩

end Recovery

/-- A phone with tokens that no server knows. -/
def alStale : World Bool := ⟨⟨alForm, "a", "r", 100⟩, .loop, 0, fun _ => ⟨sampleUsers, fun _ => none⟩⟩

/-- Both tokens are refused before the password is tried. -/
def alRetries : List (Event Bool) :=
  [.turn 0, .socket (.served 1), .turn 2, .answer alAnswer, .answer alAnswer]

lemma alRetries_phase : (Run.exec (step twoServers) alStale alRetries).phase =
    .opening true (issue hourSettings (markedJwt 'h') 0 "al" "pc" .access) 0 := rfl

theorem phone_recovers_al : ∃ s u d,
    .connected s u d ∈ Run.outs (step twoServers) alStale (alRetries ++ [.socket (.served 5)]) := by
  have hlife : (10 : ℤ) + 999 ≤ 0 + (twoServers.cfg (twoServers.of alStale.store.form)).ttl .access := by decide
  have hstart : alStale.phase ≠ .connected := by simp [alStale]
  have hconfigured : isConfigured alForm = true := by decide
  have hretries : Run.Steps (step twoServers) (Works twoServers 0 10) alStale alRetries := by
    refine ⟨hconfigured, (by decide : (1 : ℤ) ≤ 10), hconfigured, ⟨rfl, rfl, Int.le_refl 0⟩,
      ⟨rfl, rfl, Int.le_refl 0, ?_⟩, trivial⟩
    exact ⟨by decide, by decide, by decide⟩
  have hopening := alRetries_phase
  refine phone_recovers twoServers_documented hlife hstart (Run.steps_append.mpr ⟨hretries, ?_, trivial⟩)
    (by decide)
  generalize Run.exec (step twoServers) alStale alRetries = w at hopening ⊢
  simp [Works, hopening]

end SyncClipboard.PhoneLogin
