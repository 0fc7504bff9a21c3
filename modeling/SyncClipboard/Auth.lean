import SyncClipboard.ServerModel

/-!
How a client comes to a session: the login with its rate limit, the tokens, and the handshake of
the WebSocket.

BCrypt and the JWT library are parameters. Times of tokens are in milliseconds; a token keeps them
in seconds. The counters of the rate limit are in a cache that drops an entry when the window has
passed since the entry was made.
-/

namespace SyncClipboard.Auth

/-! ### LoginRateLimiter -/

structure Limits where
  maxAttempts : ℤ
  window : ℤ

/-- A counter, with the time it was put into the cache. An attempt is made only below `maxAttempts`, so the
2^31 failures after which an `AtomicInteger` wraps around would have to be under way at once. -/
structure Counter where
  created : ℤ
  count : ℕ
  deriving DecidableEq

abbrev Counters := String → Option Counter

def key (username remoteIp : Option String) : String :=
  username.getD "?" ++ "@" ++ remoteIp.getD "?"

/-- `counters.get(key, k -> new AtomicInteger(0))`. -/
def lookup (lim : Limits) (now : ℤ) (k : String) (counters : Counters) : Counter × Counters :=
  match (counters k).filter fun c => decide (now < c.created + lim.window) with
  | some c => (c, counters)
  | none => (⟨now, 0⟩, Function.update counters k (some ⟨now, 0⟩))

def tryAcquire (lim : Limits) (now : ℤ) (username remoteIp : Option String)
    (counters : Counters) : Bool × Counters :=
  let r := lookup lim now (key username remoteIp) counters
  (decide ((r.1.count : ℤ) < lim.maxAttempts), r.2)

/-- The counter is changed in place, so the cache does not see a write. -/
def recordFailure (lim : Limits) (now : ℤ) (username remoteIp : Option String)
    (counters : Counters) : Counters :=
  let r := lookup lim now (key username remoteIp) counters
  Function.update r.2 (key username remoteIp) (some ⟨r.1.created, r.1.count + 1⟩)

def recordSuccess (username remoteIp : Option String) (counters : Counters) : Counters :=
  Function.update counters (key username remoteIp) none

/-! ### UserService -/

abbrev Users := String → Option String

/-- The password encoder; every new hash has its own salt. -/
structure Encoder where
  check : String → String → Bool
  encode : ℕ → String → String

def startsWith (pat : String) (s : String) : Bool := pat.toList.isPrefixOf s.toList

def isBcrypt (s : String) : Bool :=
  startsWith "$2a$" s || startsWith "$2b$" s || startsWith "$2y$" s

/-- A password that is still stored as plain text is compared, and hashed when it is right. -/
def authenticate (enc : Encoder) (salt : ℕ) (username password : Option String) (users : Users) :
    Bool × Users :=
  match username, password with
  | some username, some password =>
    match users username with
    | none => (false, users)
    | some stored =>
      if isBcrypt stored then (enc.check password stored, users)
      else if stored = password then
        (true, Function.update users username (some (enc.encode salt password)))
      else (false, users)
  | _, _ => (false, users)

/-! ### JwtService -/

inductive Kind | access | refresh
  deriving DecidableEq

/-- The claims of a token; the dates are in seconds. -/
structure Claims where
  subject : String
  deviceId : String
  kind : Kind
  issuedAt : ℤ
  expiration : ℤ
  deriving DecidableEq

/-- Signing under the key of the server, and the claims of a text whose signature is right. -/
structure Jwt where
  sign : Claims → String
  signed : String → Option Claims

structure ParsedToken where
  username : String
  deviceId : String
  expiresAt : ℤ
  deriving DecidableEq

structure Settings where
  limits : Limits
  ttl : Kind → ℤ

def claimsOf (cfg : Settings) (now : ℤ) (username deviceId : String) (kind : Kind) : Claims :=
  ⟨username, deviceId, kind, now / 1000, (now + cfg.ttl kind) / 1000⟩

def issue (cfg : Settings) (jwt : Jwt) (now : ℤ) (username deviceId : String) (kind : Kind) :
    String :=
  jwt.sign (claimsOf cfg now username deviceId kind)

/-- The parser refuses a wrong signature and a token that has expired. -/
def verify (jwt : Jwt) (now : ℤ) (token : String) (expectedKind : Kind) : Option ParsedToken :=
  match jwt.signed token with
  | none => none
  | some claims =>
    if claims.expiration * 1000 < now then none
    else if claims.kind ≠ expectedKind then none
    else some ⟨claims.subject, claims.deviceId, claims.expiration * 1000⟩

/-! ### AuthController -/

structure LoginRequest where
  username : String
  password : String
  deviceId : String

structure RefreshRequest where
  refreshToken : String
  deviceId : String

structure TokenPair where
  accessToken : String
  refreshToken : String
  expiresInSec : ℤ
  deriving DecidableEq

def TokenPair.token (p : TokenPair) : Kind → String
  | .access => p.accessToken
  | .refresh => p.refreshToken

inductive Response
  | ok (tokens : TokenPair)
  | refused (status : ℕ) (code message : String)
  -- the request does not pass validation
  | badRequest
  deriving DecidableEq

/-- `@NotBlank`. -/
def notBlank (s : String) : Bool := s.toList.any fun c => decide (' ' < c)

structure AuthState where
  users : Users
  counters : Counters

/-- The two tokens of a user and device, each issued at its own time. -/
def issueTokens (cfg : Settings) (jwt : Jwt) (times : Kind → ℤ) (username deviceId : String) :
    TokenPair :=
  ⟨issue cfg jwt (times .access) username deviceId .access,
    issue cfg jwt (times .refresh) username deviceId .refresh, cfg.ttl .access / 1000⟩

/-- The clock of the rate limit is read twice in a login, before and after the password is
checked. -/
def login (cfg : Settings) (enc : Encoder) (jwt : Jwt) (acquire record : ℤ) (times : Kind → ℤ)
    (salt : ℕ) (ip : String) (req : LoginRequest) (st : AuthState) : Response × AuthState :=
  if (notBlank req.username && notBlank req.password && notBlank req.deviceId) = false then
    (.badRequest, st)
  else
    let a := tryAcquire cfg.limits acquire (some req.username) (some ip) st.counters
    if a.1 = false then
      (.refused 429 "RATE_LIMITED" "Too many failed attempts, please try again later",
        { st with counters := a.2 })
    else
      let r := authenticate enc salt (some req.username) (some req.password) st.users
      if r.1 = false then
        (.refused 401 "AUTH_INVALID" "Invalid username or password",
          ⟨r.2, recordFailure cfg.limits record (some req.username) (some ip) a.2⟩)
      else (.ok (issueTokens cfg jwt times req.username req.deviceId),
        ⟨r.2, recordSuccess (some req.username) (some ip) a.2⟩)

def refresh (cfg : Settings) (jwt : Jwt) (now : ℤ) (times : Kind → ℤ) (req : RefreshRequest)
    (users : Users) : Response :=
  if (notBlank req.refreshToken && notBlank req.deviceId) = false then .badRequest
  else match verify jwt now req.refreshToken .refresh with
    | none => .refused 401 "AUTH_INVALID" "Refresh token invalid or expired"
    | some parsed =>
      if parsed.deviceId ≠ req.deviceId then
        .refused 401 "AUTH_INVALID" "Refresh token invalid or expired"
      else if users parsed.username = none then
        .refused 401 "AUTH_INVALID" "User no longer exists"
      else .ok (issueTokens cfg jwt times parsed.username parsed.deviceId)

/-! ### JwtHandshakeInterceptor -/

/-- `String.trim()`. -/
def trim (s : List Char) : List Char :=
  ((s.dropWhile fun c => decide (c ≤ ' ')).reverse.dropWhile fun c => decide (c ≤ ' ')).reverse

/-- The first entry of the subprotocol header that starts with `bearer.`. -/
def extractToken (header : Option String) : Option String :=
  header.bind fun values =>
    ((values.toList.splitOn ',').map trim).findSome? fun entry =>
      if "bearer.".toList.isPrefixOf entry then some (String.ofList (entry.drop 7)) else none

/-- An accepted handshake sets the attributes of the session and echoes the subprotocol. -/
inductive Handshake
  | accepted (username deviceId protocol : String)
  | rejected (status : ℕ)
  deriving DecidableEq

def beforeHandshake (jwt : Jwt) (now : ℤ) (header : Option String) : Handshake :=
  match extractToken header with
  | none => .rejected 401
  | some token =>
    match verify jwt now token .access with
    | none => .rejected 401
    | some parsed => .accepted parsed.username parsed.deviceId ("bearer." ++ token)

/-! ### What success means -/

variable {cfg : Settings} {enc : Encoder} {jwt : Jwt}

/-- The counter of a key as the cache gives it: the one it holds, or a new one. -/
def look (lim : Limits) (now : ℤ) (held : Option Counter) : Counter :=
  (held.filter fun c => decide (now < c.created + lim.window)).getD ⟨now, 0⟩

lemma look_of_live {lim : Limits} {now : ℤ} {c : Counter} (h : now < c.created + lim.window) :
    look lim now (some c) = c := by
  simp [look, Option.filter_some, h]

lemma look_of_expired {lim : Limits} {now : ℤ} {c : Counter} (h : c.created + lim.window ≤ now) :
    look lim now (some c) = ⟨now, 0⟩ := by
  simp [look, Option.filter_some, Int.not_lt.mpr h]

@[simp] lemma look_none (lim : Limits) (now : ℤ) : look lim now none = ⟨now, 0⟩ := rfl

lemma lookup_eq (lim : Limits) (now : ℤ) (k : String) (counters : Counters) :
    lookup lim now k counters =
      (look lim now (counters k), Function.update counters k (some (look lim now (counters k)))) := by
  unfold lookup look
  cases hc : (counters k).filter fun c => decide (now < c.created + lim.window) with
  | none => rfl
  | some c =>
    have hk : counters k = some c := (Option.filter_eq_some_iff.mp hc).1
    have hupdate : Function.update counters k (some c) = counters := by
      rw [← hk, Function.update_eq_self]
    rw [Option.getD_some, hupdate]

lemma eq_nil_of_sep {b b' m : List Char} {x : Char} (hb : x ∉ b) (h : x :: b = m ++ x :: b') :
    m = [] := by
  cases m with
  | nil => rfl
  | cons y m =>
    obtain ⟨-, htail⟩ := List.cons.inj h
    exact absurd (by simp [htail]) hb

/-- Two pairs have one key only if they are the same: a remote address has no `@`. -/
lemma key_inj {username username' ip ip' : String} (hip : '@' ∉ ip.toList)
    (hip' : '@' ∉ ip'.toList) (h : key (some username) (some ip) = key (some username') (some ip')) :
    username = username' ∧ ip = ip' := by
  have hlist : username.toList ++ '@' :: ip.toList = username'.toList ++ '@' :: ip'.toList := by
    simpa [key] using congrArg String.toList h
  rcases List.append_eq_append_iff.mp hlist with ⟨m, hm, hrest⟩ | ⟨m, hm, hrest⟩
  · obtain rfl := eq_nil_of_sep hip hrest
    exact ⟨String.toList_injective (by simpa using hm.symm),
      String.toList_injective (by simpa using hrest)⟩
  · obtain rfl := eq_nil_of_sep hip' hrest
    exact ⟨String.toList_injective (by simpa using hm),
      String.toList_injective (by simpa using hrest.symm)⟩

lemma verify_eq_some {now : ℤ} {token : String} {kind : Kind} {parsed : ParsedToken} :
    verify jwt now token kind = some parsed ↔
      ∃ c, jwt.signed token = some c ∧ now ≤ c.expiration * 1000 ∧ c.kind = kind ∧
        parsed = ⟨c.subject, c.deviceId, c.expiration * 1000⟩ := by
  unfold verify
  cases hs : jwt.signed token with
  | none => simp
  | some c =>
    dsimp only
    split_ifs with hexp hkind
    · simp only [false_iff, not_exists, not_and]
      rintro c' hc' hle
      cases hc'
      omega
    · simp only [false_iff, not_exists, not_and]
      rintro c' hc' - hk
      cases hc'
      exact absurd hk hkind
    · have hkind : c.kind = kind := by simpa using hkind
      constructor
      · intro h
        cases h
        exact ⟨c, rfl, Int.not_lt.mp hexp, hkind, rfl⟩
      · rintro ⟨c', hc', -, -, rfl⟩
        cases hc'
        rfl

lemma login_eq_ok {acquire record : ℤ} {times : Kind → ℤ} {salt : ℕ} {ip : String}
    {req : LoginRequest} {st st' : AuthState} {pair : TokenPair}
    (h : login cfg enc jwt acquire record times salt ip req st = (.ok pair, st')) :
    (authenticate enc salt (some req.username) (some req.password) st.users).1 = true ∧
      pair = issueTokens cfg jwt times req.username req.deviceId := by
  unfold login at h
  dsimp only at h
  split_ifs at h with hblank hacquire hauth
  all_goals cases h
  exact ⟨by simpa using hauth, rfl⟩

lemma refresh_eq_ok {now : ℤ} {times : Kind → ℤ} {req : RefreshRequest} {users : Users}
    {pair : TokenPair} :
    refresh cfg jwt now times req users = .ok pair ↔
      notBlank req.refreshToken = true ∧ notBlank req.deviceId = true ∧
      ∃ c, jwt.signed req.refreshToken = some c ∧ now ≤ c.expiration * 1000 ∧ c.kind = .refresh ∧
        c.deviceId = req.deviceId ∧ users c.subject ≠ none ∧
        pair = issueTokens cfg jwt times c.subject c.deviceId := by
  unfold refresh
  by_cases hblank : (notBlank req.refreshToken && notBlank req.deviceId) = false
  · rw [if_pos hblank]
    constructor
    · intro h
      cases h
    · rintro ⟨h₁, h₂, -⟩
      simp [h₁, h₂] at hblank
  · rw [if_neg hblank]
    have hnot : notBlank req.refreshToken = true ∧ notBlank req.deviceId = true := by
      simpa using hblank
    cases hv : verify jwt now req.refreshToken .refresh with
    | none =>
      constructor
      · intro h
        cases h
      · rintro ⟨-, -, c, hc, hexp, hkind, -⟩
        have hsome := verify_eq_some.mpr ⟨c, hc, hexp, hkind, rfl⟩
        rw [hv] at hsome
        cases hsome
    | some parsed =>
      obtain ⟨c, hc, hexp, hkind, rfl⟩ := verify_eq_some.mp hv
      dsimp only
      split_ifs with hdev huser
      · constructor
        · intro h
          cases h
        · rintro ⟨-, -, c', hc', -, -, hd, -⟩
          cases hc.symm.trans hc'
          exact absurd hd hdev
      · constructor
        · intro h
          cases h
        · rintro ⟨-, -, c', hc', -, -, -, hu, -⟩
          cases hc.symm.trans hc'
          exact absurd huser hu
      · constructor
        · intro h
          cases h
          exact ⟨hnot.1, hnot.2, c, hc, hexp, hkind, by simpa using hdev, huser, rfl⟩
        · rintro ⟨-, -, c', hc', -, -, -, -, rfl⟩
          cases hc.symm.trans hc'
          rfl

lemma beforeHandshake_accepted {now : ℤ} {header : Option String} {u d protocol : String}
    (h : beforeHandshake jwt now header = .accepted u d protocol) :
    ∃ token c, extractToken header = some token ∧ jwt.signed token = some c ∧
      now ≤ c.expiration * 1000 ∧ c.kind = .access ∧ c.subject = u ∧ c.deviceId = d := by
  unfold beforeHandshake at h
  cases ht : extractToken header with
  | none => simp [ht] at h
  | some token =>
    simp only [ht] at h
    cases hv : verify jwt now token .access with
    | none => simp [hv] at h
    | some parsed =>
      obtain ⟨c, hc, hexp, hkind, rfl⟩ := verify_eq_some.mp hv
      simp only [hv] at h
      cases h
      exact ⟨token, c, rfl, hc, hexp, hkind, rfl, rfl⟩

end SyncClipboard.Auth
