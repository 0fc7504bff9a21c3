import SyncClipboard.AcquireTokens
import SyncClipboard.Messages
import SyncClipboard.PhoneLogin

/-!
The Linux and Windows clients getting their tokens from the server, through the texts that go both ways.

A call makes up to three requests. The body of each is printed by cJSON, the server answers with a pair of
tokens in JSON or with another status, and the client parses what it gets and copies it into its arrays.
`client_sessions`: every subprotocol the client offers has an access token which the server has issued in
the same call, for the user and device of the configuration, after a login with its password; and the
server accepts it for them until it expires.
-/

namespace SyncClipboard.ClientLogin

open FtAuth Config CString CJson Messages Auth
open AcquireTokens hiding Json
open Crypto (cString cString_eq)
open Json (Value)
open PhoneLogin (Documented beforeHandshake_issue plainJwt plainJwt_documented plainText mem_tally hourSettings)
open TokenOrigin (sampleEncoder sampleUsers sampleJwt)

/-! ### cJSON in place of the parser -/

section Program

variable {D : Type} (dbl : Doubles D)

def leaf : Item D → AcquireTokens.Json D
  | .string s => .string s
  | .number d => .number d
  | _ => .other

def root : Item D → AcquireTokens.Json D
  | .object members => .object (members.map fun m => (m.1, leaf m.2))
  | v => leaf v

def cjsonParse (text : Bytes) : Option (AcquireTokens.Json D) := (CJson.parse dbl.value text).map root

def bodyItem (body : List (String × Bytes)) : Item D := .object (body.map fun m => (ascii m.1, .string m.2))

/-- `ws_build_bearer_protocol`: what it returns, and what is in `out` then. -/
def wsBuildBearerProtocol (token : Bytes) (outLen : ℕ) : ℤ × Bytes :=
  let text := ascii "bearer." ++ token
  (if text.length < outLen then 0 else -1, text.take (outLen - 1))

/-! ### The server -/

/-- What the server has, and what its clocks show, while it handles a request. -/
structure Exchange where
  auth : AuthState
  acquire : ℤ
  record : ℤ
  verified : ℤ
  times : Kind → ℤ
  salt : ℕ
  ip : String

variable (settings : Settings) (enc : Encoder) (jwt : Jwt) (cfg : ClientConfig)

/-- The server has handled a request at its address and with its members. -/
inductive Handled (x : Exchange) (req : Request) : Response → Prop
  | login {r : LoginRequest} (hurl : buildUrl cfg "/api/v2/auth/login" = some req.url)
      (hbody : req.body = [("username", utf8 r.username), ("password", utf8 r.password),
        ("deviceId", utf8 r.deviceId)]) :
      Handled x req (login settings enc jwt x.acquire x.record x.times x.salt x.ip r x.auth).1
  | refresh {r : RefreshRequest} (hurl : buildUrl cfg "/api/v2/auth/refresh" = some req.url)
      (hbody : req.body = [("refreshToken", utf8 r.refreshToken), ("deviceId", utf8 r.deviceId)]) :
      Handled x req (refresh settings jwt x.verified x.times r x.auth.users)

/-- A pair of tokens as a JSON text, its members in some order. -/
def PairText (pair : TokenPair) (t : Bytes) : Prop :=
  ∃ members n, n ≤ nestingLimit ∧ Json.Text dbl.value id n t (.object members) ∧
    members.Perm [(ascii "accessToken", .string (utf8 pair.accessToken)),
      (ascii "refreshToken", .string (utf8 pair.refreshToken)),
      (ascii "expiresInSec", .number (dbl.ofInt pair.expiresInSec))]

/-- An answer with status 200 is that of the server. -/
def Served (exchanges : List Exchange) (req : Request) : Outcome → Prop
  | .answer httpCode data =>
    httpCode = 200 → ∃ x ∈ exchanges, ∃ pair t, Handled settings enc jwt cfg x req (.ok pair) ∧
      PairText dbl pair t ∧ data = some (t ++ [0])
  | _ => True

/-! ### The loop -/

/-- An attempt to connect: how its requests end, and what the server does meanwhile. -/
structure Attempt where
  net : ℕ → Outcome
  exchanges : List Exchange

/-- What the client offers to the server in an attempt. -/
structure Offered where
  attempt : Attempt
  protocol : Bytes

/-- The call of `ws_acquire_tokens` in an attempt. -/
def acquire (tokens : AuthTokens) (a : Attempt) : (ℤ × AuthTokens) × Log :=
  wsAcquireTokens dbl.toInt (cjsonParse dbl) a.net cfg tokens

def step (tokens : AuthTokens) (a : Attempt) : AuthTokens × List Offered :=
  let r := acquire dbl cfg tokens a
  (r.1.2, if r.1.1 = 0 then [⟨a, (wsBuildBearerProtocol r.1.2.accessToken 1200).2⟩] else [])

def start : AuthTokens := ⟨[], [], 0⟩

/-- The requests of an attempt are served, with tokens that are shorter than 1024 bytes. -/
structure Genuine (tokens : AuthTokens) (a : Attempt) : Prop where
  short : ∀ n, Short dbl.toInt (cjsonParse dbl) (a.net n)
  served : ∀ x ∈ (acquire dbl cfg tokens a).2.made, Served dbl settings enc jwt cfg a.exchanges x.1 x.2

end Program

/-! ### Requests -/

section Requests

variable {D : Type} {toLong : D → ℤ} {parse : Bytes → Option (AcquireTokens.Json D)} {net : ℕ → Outcome}
  {cfg : ClientConfig}

/-- A request of the client: a login, or a refresh with the token that it has. -/
def Asked (cfg : ClientConfig) (tokens : AuthTokens) (req : Request) : Prop :=
  (buildUrl cfg "/api/v2/auth/login" = some req.url ∧
    req.body = [("username", cfg.username), ("password", cfg.password), ("deviceId", cfg.deviceId)]) ∨
  tokens.refreshToken ≠ [] ∧ buildUrl cfg "/api/v2/auth/refresh" = some req.url ∧
    req.body = [("refreshToken", tokens.refreshToken), ("deviceId", cfg.deviceId)]

/-- Some more requests and their ends, with a property. -/
def Makes (P : Request × Outcome → Prop) (log log' : Log) : Prop :=
  ∃ made, log'.made = log.made ++ made ∧ ∀ x ∈ made, P x

lemma Makes.refl {P : Request × Outcome → Prop} (log : Log) : Makes P log log := ⟨[], by simp, by simp⟩

lemma Makes.trans {P : Request × Outcome → Prop} {log log₁ log₂ : Log} (h : Makes P log log₁)
    (h' : Makes P log₁ log₂) : Makes P log log₂ := by
  obtain ⟨made, hmade, hP⟩ := h
  obtain ⟨made', hmade', hP'⟩ := h'
  refine ⟨made ++ made', by rw [hmade', hmade, List.append_assoc], fun x hx => ?_⟩
  rcases List.mem_append.mp hx with hx | hx
  · exact hP x hx
  · exact hP' x hx

lemma makes_postJson {P : Request × Outcome → Prop} {req : Request} (hreq : ∀ n, P (req, net n))
    (out : AuthTokens) (log : Log) {refused : Log → (ℤ × AuthTokens) × Log}
    (hrefused : ∀ log, Makes P log (refused log).2) :
    Makes P log
      (match postJson net req log with
      | (none, log) => ((-1, out), log)
      | (some (httpCode, data), log) =>
        if httpCode ≠ 200 then refused log else (parseTokenResponse toLong parse data out, log)).2 := by
  have hnext := hreq log.tried
  unfold postJson
  cases hnet : net log.tried with
  | notMade => exact ⟨[], by simp, by simp⟩
  | transport =>
    rw [hnet] at hnext
    exact ⟨[(req, .transport)], rfl, by simpa using hnext⟩
  | answer httpCode data =>
    rw [hnet] at hnext
    have hmade : Makes P log ⟨log.tried + 1, log.made ++ [(req, .answer httpCode data)]⟩ :=
      ⟨[(req, .answer httpCode data)], rfl, by simpa using hnext⟩
    dsimp only
    split_ifs
    · exact hmade.trans (hrefused _)
    · exact hmade

/-- A request of the client, and one of the ends that the network has for it. -/
def Exchanged (cfg : ClientConfig) (net : ℕ → Outcome) (tokens : AuthTokens) (x : Request × Outcome) : Prop :=
  Asked cfg tokens x.1 ∧ ∃ n, x.2 = net n

lemma makes_login (out tokens : AuthTokens) (log : Log) :
    Makes (Exchanged cfg net tokens) log (authHttpLogin toLong parse net cfg out log).2 := by
  unfold authHttpLogin
  cases hurl : buildUrl cfg "/api/v2/auth/login" with
  | none => exact Makes.refl log
  | some url => exact makes_postJson (fun n => ⟨.inl ⟨hurl, rfl⟩, n, rfl⟩) out log Makes.refl

lemma makes_refresh (tokens : AuthTokens) (log : Log) :
    Makes (Exchanged cfg net tokens) log (authHttpRefresh toLong parse net cfg tokens log).2 := by
  unfold authHttpRefresh
  split_ifs with hempty
  · exact makes_login tokens tokens log
  · cases hurl : buildUrl cfg "/api/v2/auth/refresh" with
    | none => exact Makes.refl log
    | some url =>
      exact makes_postJson (fun n => ⟨.inr ⟨hempty, hurl, rfl⟩, n, rfl⟩) tokens log (makes_login tokens tokens)

lemma makes_loginOnly (out tokens : AuthTokens) (log : Log) :
    Makes (Exchanged cfg net tokens) log (loginOnly toLong parse net cfg out log).2 := by
  have hlogin := @makes_login _ toLong parse net cfg out tokens log
  unfold loginOnly
  generalize authHttpLogin toLong parse net cfg out log = r at hlogin ⊢
  exact hlogin

/-- Every request of a call is a login or a refresh of the client. -/
lemma made_exchanged (tokens : AuthTokens) :
    ∀ x ∈ (wsAcquireTokens toLong parse net cfg tokens).2.made, Exchanged cfg net tokens x := by
  have hmakes : Makes (Exchanged cfg net tokens) ⟨0, []⟩ (wsAcquireTokens toLong parse net cfg tokens).2 := by
    unfold wsAcquireTokens
    split_ifs
    · have hrefresh := @makes_refresh _ toLong parse net cfg tokens ⟨0, []⟩
      generalize authHttpRefresh toLong parse net cfg tokens ⟨0, []⟩ = r at hrefresh ⊢
      obtain ⟨⟨rc, tokens'⟩, log⟩ := r
      dsimp only at hrefresh ⊢
      split_ifs
      · exact hrefresh
      · exact hrefresh.trans (makes_loginOnly tokens' tokens log)
    · exact makes_loginOnly tokens tokens _
  obtain ⟨made, hmade, hexchanged⟩ := hmakes
  rw [hmade]
  exact hexchanged

end Requests

/-! ### Texts -/

section Texts

variable {D : Type} {dbl : Doubles D}

lemma getObjectItem_eq {items : List (Bytes × AcquireTokens.Json D)} {name : String} {v : AcquireTokens.Json D}
    (hmem : (ascii name, v) ∈ items) (honly : ∀ i ∈ items, i.1 = ascii name → i.2 = v) :
    AcquireTokens.getObjectItem name (.object items) = some v := by
  rw [AcquireTokens.getObjectItem]
  cases hfind : items.find? fun i => decide (i.1 = ascii name) with
  | none =>
    have hno := List.find?_eq_none.mp hfind _ hmem
    simp at hno
  | some i =>
    have hname := List.find?_some hfind
    rw [Option.map_some, honly i (List.mem_of_find?_eq_some hfind) (by simpa using hname)]

/-- The client finds the two tokens in the answer of the server. -/
lemma stringItems_pair {pair : TokenPair} {t : Bytes} (h : PairText dbl pair t)
    (haccess : '\x00' ∉ pair.accessToken.toList) (hrefresh : '\x00' ∉ pair.refreshToken.toList) :
    ∃ r, cjsonParse dbl (cString (t ++ [0])) = some r ∧
      stringItems r = some (utf8 pair.accessToken, utf8 pair.refreshToken) := by
  obtain ⟨members, n, hn, htext, hperm⟩ := h
  have hparse := parse_members hn htext
  have hnames : cString (ascii "accessToken") = ascii "accessToken" ∧
      cString (ascii "refreshToken") = ascii "refreshToken" ∧
      cString (ascii "expiresInSec") = ascii "expiresInSec" := by decide
  have hne : ascii "refreshToken" ≠ ascii "accessToken" ∧ ascii "expiresInSec" ≠ ascii "accessToken" ∧
      ascii "accessToken" ≠ ascii "refreshToken" ∧ ascii "expiresInSec" ≠ ascii "refreshToken" := by
    decide
  have hitems : ∀ i, i ∈ (parsedMembers members).map (fun m => (m.1, leaf m.2)) ↔
      i = (ascii "accessToken", .string (utf8 pair.accessToken)) ∨
      i = (ascii "refreshToken", .string (utf8 pair.refreshToken)) ∨
      i = (ascii "expiresInSec", .number (dbl.ofInt pair.expiresInSec)) := by
    intro i
    have hmem := ((hperm.map fun a => (cString a.1, a.2.map id cString)).map
      fun m : Bytes × Item D => (m.1, leaf m.2)).mem_iff (a := i)
    rw [parsedMembers, hmem]
    simp [hnames, Value.map, leaf, cString_eq (utf8_ne_zero haccess), cString_eq (utf8_ne_zero hrefresh)]
  refine ⟨root (.object (parsedMembers members)), ?_, ?_⟩
  · have hzero : cString (t ++ [0]) = t := by rw [Crypto.cString_append_zero, cString_eq htext.ne_zero]
    rw [cjsonParse, hzero, hparse, Option.map_some]
  · rw [root]
    generalize (parsedMembers members).map (fun m => (m.1, leaf m.2)) = items at hitems ⊢
    have ha := @getObjectItem_eq D items "accessToken" _ ((hitems _).mpr (.inl rfl)) fun i hi hname => by
      rcases (hitems i).mp hi with rfl | rfl | rfl
      · rfl
      · exact absurd hname hne.1
      · exact absurd hname hne.2.1
    have hr := @getObjectItem_eq D items "refreshToken" _ ((hitems _).mpr (.inr (.inl rfl))) fun i hi hname => by
      rcases (hitems i).mp hi with rfl | rfl | rfl
      · exact absurd hname hne.2.2.1
      · rfl
      · exact absurd hname hne.2.2.2
    rw [stringItems, ha, hr]

/-- What is printed for a request is JSON for its members. -/
lemma bodyItem_text {body : List (String × Bytes)} (h : ∀ m ∈ body, 0 ∉ ascii m.1 ∧ 0 ∉ m.2) :
    ∃ t, render dbl nestingLimit (bodyItem body) = some t ∧ Json.Text dbl.value id 1 t (bodyItem body) := by
  have hfaithful : Faithful dbl 1 (bodyItem body) := by
    refine Faithful.object (fun a ha => ?_) fun a ha => ?_
    · obtain ⟨m, hm, rfl⟩ := List.mem_map.mp ha
      exact (h m hm).1
    · obtain ⟨m, hm, rfl⟩ := List.mem_map.mp ha
      exact Faithful.string (h m hm).2
  obtain ⟨t, hrender, ht⟩ := @render_denotes _ dbl id (fun _ _ => rfl) 1 nestingLimit (by decide) _ hfaithful
  exact ⟨t, hrender, by simpa using Json.Text.mk Json.ws_nil ht Json.ws_nil⟩

end Texts

/-! ### Who the tokens are for -/

section Sessions

variable {D : Type} {dbl : Doubles D} {settings : Settings} {enc : Encoder} {jwt : Jwt} {cfg : ClientConfig}

/-- The user and the device of the configuration, who logged in with its password in one of the attempts. -/
structure Known (enc : Encoder) (cfg : ClientConfig) (as : List Attempt) (u d : String) : Prop where
  user : utf8 u = cfg.username
  device : utf8 d = cfg.deviceId
  loggedIn : ∃ a ∈ as, ∃ x ∈ a.exchanges, ∃ password, utf8 password = cfg.password ∧
    (authenticate enc x.salt (some u) (some password) x.auth.users).1 = true

/-- The refresh token that the client has, if it has one, was issued for them. -/
def Held (settings : Settings) (enc : Encoder) (jwt : Jwt) (cfg : ClientConfig) (as : List Attempt)
    (tokens : AuthTokens) : Prop :=
  tokens.refreshToken = [] ∨ ∃ u d i, Known enc cfg as u d ∧
    tokens.refreshToken = utf8 (issue settings jwt i u d .refresh)

variable {as : List Attempt} {tokens : AuthTokens} {a : Attempt}

lemma token_noZero (hjwt : Documented jwt) (i : ℤ) (u d : String) (kind : Kind) :
    '\x00' ∉ (issue settings jwt i u d kind).toList := by
  intro hmem
  have hlt := (hjwt.plain _ _ hmem).2
  exact absurd hlt (by decide)

/-- Whom the server issues a pair for in answer to a request of the client. -/
lemma handled_ok (hjwt : Documented jwt) (ha : a ∈ as) {x : Exchange} (hx : x ∈ a.exchanges) {req : Request}
    {pair : TokenPair} (h : Handled settings enc jwt cfg x req (.ok pair)) (hasked : Asked cfg tokens req)
    (hheld : Held settings enc jwt cfg as tokens) :
    ∃ u d, Known enc cfg as u d ∧ pair = issueTokens settings jwt x.times u d := by
  generalize hresp : Response.ok pair = resp at h
  cases h with
  | @login r hurl hbody =>
    rcases hasked with ⟨-, hlogin⟩ | ⟨-, -, hrefresh⟩
    · rw [hlogin] at hbody
      simp only [List.cons.injEq, Prod.mk.injEq, true_and, and_true] at hbody
      obtain ⟨hauth, rfl⟩ := login_eq_ok (Prod.ext hresp.symm rfl)
      exact ⟨r.username, r.deviceId,
        ⟨hbody.1.symm, hbody.2.2.symm, a, ha, x, hx, r.password, hbody.2.1.symm, hauth⟩, rfl⟩
    · rw [hrefresh] at hbody
      simp at hbody
  | @refresh r hurl hbody =>
    rcases hasked with ⟨-, hlogin⟩ | ⟨hne, -, hrefresh⟩
    · rw [hlogin] at hbody
      simp at hbody
    · rw [hrefresh] at hbody
      simp only [List.cons.injEq, Prod.mk.injEq, true_and, and_true] at hbody
      obtain ⟨u, d, i, hknown, htoken⟩ := hheld.resolve_left hne
      -- the token that is presented is the one that was issued
      have hsame : r.refreshToken = issue settings jwt i u d .refresh := utf8_inj (hbody.1.symm.trans htoken)
      obtain ⟨-, -, c, hc, -, -, -, -, rfl⟩ := refresh_eq_ok.mp hresp.symm
      rw [hsame, issue, hjwt.signed] at hc
      obtain rfl := Option.some.inj hc
      exact ⟨u, d, hknown, rfl⟩

/-- A call that succeeds has stored a pair that the server issued in this call. -/
lemma acquired (hjwt : Documented jwt) (ha : a ∈ as) (hgenuine : Genuine dbl settings enc jwt cfg tokens a)
    (hheld : Held settings enc jwt cfg as tokens) (hrc : (acquire dbl cfg tokens a).1.1 = 0) :
    ∃ x ∈ a.exchanges, ∃ u d, Known enc cfg as u d ∧
      (acquire dbl cfg tokens a).1.2.accessToken = utf8 (issue settings jwt (x.times .access) u d .access) ∧
      (utf8 (issue settings jwt (x.times .access) u d .access)).length < 1024 ∧
      (acquire dbl cfg tokens a).1.2.refreshToken = utf8 (issue settings jwt (x.times .refresh) u d .refresh) := by
  have hserved := hgenuine.served
  have hexchanged := @made_exchanged D dbl.toInt (cjsonParse dbl) a.net cfg tokens
  have hsettled := acquire_settled hgenuine.short cfg tokens
  unfold acquire at hserved hrc ⊢
  generalize wsAcquireTokens dbl.toInt (cjsonParse dbl) a.net cfg tokens = r
    at hserved hrc hexchanged hsettled ⊢
  dsimp only at hsettled
  rcases hsettled with ⟨-, hpair⟩ | ⟨hfail, -⟩
  · obtain ⟨o, hlast, hpair⟩ := Option.bind_eq_some_iff.mp hpair
    obtain ⟨⟨req, o'⟩, hy, rfl⟩ := Option.map_eq_some_iff.mp hlast
    have hmem := List.mem_of_getLast? hy
    obtain ⟨hasked, n, hn⟩ := hexchanged _ hmem
    have hanswer := hserved _ hmem
    have hshort := hgenuine.short n _ (hn ▸ hpair)
    dsimp only at hpair hanswer
    cases o' with
    | notMade => cases hpair
    | transport => cases hpair
    | answer httpCode data =>
      rw [pairOf] at hpair
      split_ifs at hpair with hcode
      obtain ⟨x, hx, pair, t, hhandled, htext, rfl⟩ := hanswer hcode
      obtain ⟨u, d, hknown, rfl⟩ := handled_ok hjwt ha hx hhandled hasked hheld
      obtain ⟨json, hparse, hitems⟩ := stringItems_pair htext (token_noZero hjwt _ _ _ _) (token_noZero hjwt _ _ _ _)
      rw [Option.bind_some, hparse, Option.bind_some, hitems, Option.map_some] at hpair
      have htokens := Option.some.inj hpair
      dsimp only [issueTokens] at htokens
      rw [cString_eq (utf8_ne_zero (token_noZero hjwt _ _ _ _)),
        cString_eq (utf8_ne_zero (token_noZero hjwt _ _ _ _))] at htokens
      rw [← htokens] at hshort ⊢
      exact ⟨x, hx, u, d, hknown, rfl, hshort.1, rfl⟩
  · rw [hfail] at hrc
    exact absurd hrc (by decide)

lemma acquire_failed (hgenuine : Genuine dbl settings enc jwt cfg tokens a)
    (hrc : (acquire dbl cfg tokens a).1.1 ≠ 0) : (acquire dbl cfg tokens a).1.2 = tokens := by
  have hsettled := acquire_settled hgenuine.short cfg tokens
  dsimp only at hsettled
  rcases hsettled with ⟨hok, -⟩ | ⟨-, hout, -⟩
  · exact absurd hok hrc
  · exact hout

lemma step_held (hjwt : Documented jwt) (ha : a ∈ as) (hgenuine : Genuine dbl settings enc jwt cfg tokens a)
    (hheld : Held settings enc jwt cfg as tokens) :
    Held settings enc jwt cfg as (step dbl cfg tokens a).1 := by
  change Held settings enc jwt cfg as (acquire dbl cfg tokens a).1.2
  by_cases hrc : (acquire dbl cfg tokens a).1.1 = 0
  · obtain ⟨x, -, u, d, hknown, -, -, hrefresh⟩ := acquired hjwt ha hgenuine hheld hrc
    exact .inr ⟨u, d, x.times .refresh, hknown, hrefresh⟩
  · rw [acquire_failed hgenuine hrc]
    exact hheld

lemma utf8_bearer (token : String) : utf8 ("bearer." ++ token) = ascii "bearer." ++ utf8 token := by
  have hbearer : utf8 "bearer." = ascii "bearer." := by decide
  rw [← hbearer, utf8, utf8, utf8, String.toList_append, List.flatMap_append]

/-- The server takes the token out of the subprotocol that is offered for it. -/
lemma protocol_eq {token : String} (h : (utf8 token).length < 1024) :
    (wsBuildBearerProtocol (utf8 token) 1200).2 = utf8 ("bearer." ++ token) := by
  have hlen : (ascii "bearer.").length = 7 := rfl
  rw [wsBuildBearerProtocol, utf8_bearer]
  refine List.take_of_length_le ?_
  rw [List.length_append, hlen]
  omega

/-- **Whose tokens a client offers, and that they are good.** In every run of attempts from a start without
tokens, whatever the server has dealt with in between: what a client offers in an attempt has an access token
that the server issued in this attempt, for the user and device of the configuration, after a login with
the password of the configuration; the server accepts it for them until it expires. What the client posts
is JSON for the members it means. -/
theorem client_sessions (hjwt : Documented jwt) (hcfg : 0 ∉ cfg.username ∧ 0 ∉ cfg.password ∧ 0 ∉ cfg.deviceId)
    {as : List Attempt} (hgenuine : Run.Steps (step dbl cfg) (Genuine dbl settings enc jwt cfg) start as) :
    (∀ o ∈ Run.outs (step dbl cfg) start as, ∃ x ∈ o.attempt.exchanges, ∃ u d header,
      Known enc cfg as u d ∧ o.protocol = utf8 header ∧
      ∀ now, beforeHandshake jwt now (some header) =
        if now ≤ (x.times .access + settings.ttl .access) / 1000 * 1000 then .accepted u d header
        else .rejected 401) ∧
    ∀ pre a post, as = pre ++ a :: post →
      ∀ y ∈ (acquire dbl cfg (Run.exec (step dbl cfg) start pre) a).2.made,
        ∃ t, render dbl nestingLimit (bodyItem y.1.body) = some t ∧
          Json.Text dbl.value id 1 t (bodyItem y.1.body) := by
  have hstart : Held settings enc jwt cfg as start := .inl rfl
  have hok := @Run.steps_and _ _ _ (step dbl cfg) _ (· ∈ as) _ _ hgenuine fun a ha => ha
  constructor
  · refine Run.outs_inv_of_steps ?_ hstart hok
    rintro tokens a hheld ⟨hg, ha⟩
    refine ⟨step_held hjwt ha hg hheld, fun o ho => ?_⟩
    simp only [step] at ho
    split_ifs at ho with hrc
    · obtain rfl := List.mem_singleton.mp ho
      obtain ⟨x, hx, u, d, hknown, haccess, hlen, -⟩ := acquired hjwt ha hg hheld hrc
      refine ⟨x, hx, u, d, "bearer." ++ issue settings jwt (x.times .access) u d .access, hknown, ?_,
        fun now => beforeHandshake_issue hjwt⟩
      rw [haccess, protocol_eq hlen]
    · cases ho
  · rintro pre a post rfl y hy
    have hpre := (Run.steps_append.mp hok).1
    have hheld := Run.exec_inv_of_steps (fun tokens a h hga => step_held hjwt hga.2 hga.1 h) hstart hpre
    obtain ⟨hasked, -⟩ := made_exchanged _ y hy
    refine bodyItem_text fun m hm => ?_
    have hnames : ∀ n ∈ ["username", "password", "deviceId", "refreshToken"], 0 ∉ ascii n := by decide
    rcases hasked with ⟨-, hbody⟩ | ⟨hne, -, hbody⟩
    · rw [hbody] at hm
      simp only [List.mem_cons, List.not_mem_nil, or_false] at hm
      rcases hm with rfl | rfl | rfl
      · exact ⟨hnames "username" (by simp), hcfg.1⟩
      · exact ⟨hnames "password" (by simp), hcfg.2.1⟩
      · exact ⟨hnames "deviceId" (by simp), hcfg.2.2⟩
    · obtain ⟨u, d, i, -, htoken⟩ := hheld.resolve_left hne
      rw [hbody] at hm
      simp only [List.mem_cons, List.not_mem_nil, or_false] at hm
      rcases hm with rfl | rfl
      · refine ⟨hnames "refreshToken" (by simp), ?_⟩
        rw [htoken]
        exact utf8_ne_zero (token_noZero hjwt _ _ _ _)
      · exact ⟨hnames "deviceId" (by simp), hcfg.2.2⟩

end Sessions

/-! ### One login -/

def alClaims (kind : Kind) : Claims := claimsOf hourSettings 0 "al" "pc" kind

/-- A signature with short tokens for one user and device. -/
def shortJwt : Jwt where
  sign c := if c = alClaims .access then "a" else if c = alClaims .refresh then "r" else plainJwt.sign c
  signed token :=
    if token = "a" then some (alClaims .access) else if token = "r" then some (alClaims .refresh)
    else plainJwt.signed token

lemma plainJwt_ne (c : Claims) : plainJwt.sign c ≠ "a" ∧ plainJwt.sign c ≠ "r" := by
  have hchar : ∀ ch ∈ (plainJwt.sign c).toList, ch = '|' ∨ ch = '.' := by
    intro ch hch
    have hmem : ch ∈ plainText (sampleJwt.sign c).toList := by simpa [plainJwt] using hch
    obtain ⟨b, -, hb⟩ := List.mem_flatMap.mp hmem
    exact mem_tally hb
  constructor
  · intro h
    rw [h] at hchar
    exact absurd (hchar 'a' (by decide)) (by decide)
  · intro h
    rw [h] at hchar
    exact absurd (hchar 'r' (by decide)) (by decide)

lemma shortJwt_documented : Documented shortJwt where
  signed c := by
    simp only [shortJwt]
    split_ifs with haccess hrefresh <;> simp_all [plainJwt_ne, plainJwt_documented.signed]
  plain c ch hch := by
    simp only [shortJwt] at hch
    split_ifs at hch
    · obtain rfl : ch = 'a' := by simpa using hch
      decide
    · obtain rfl : ch = 'r' := by simpa using hch
      decide
    · exact plainJwt_documented.plain c ch hch

def alConfig : ClientConfig :=
  { configSetDefaults with
    serverHost := ascii "host", username := ascii "al", password := ascii "pw", deviceId := ascii "pc" }

def alPair : TokenPair := issueTokens hourSettings shortJwt (fun _ => 0) "al" "pc"

def alExchange : Exchange := ⟨⟨sampleUsers, fun _ => none⟩, 0, 0, 0, fun _ => 0, 0, "ip"⟩

/-- The pair in JSON, as the server writes it. -/
def alMembers : List (Bytes × Item ℤ) :=
  [(ascii "accessToken", .string (utf8 "a")), (ascii "refreshToken", .string (utf8 "r")),
    (ascii "expiresInSec", .number 3600)]

lemma alPair_text : ∃ t, render integers nestingLimit (.object alMembers) = some t ∧
    PairText integers alPair t := by
  have hhour : (3600 : ℤ).natAbs < 10 ^ 15 := by decide
  have hfaithful : Faithful integers 1 (.object alMembers) := by
    refine Faithful.object (by decide) fun m hm => ?_
    simp only [alMembers, List.mem_cons, List.not_mem_nil, or_false] at hm
    rcases hm with rfl | rfl | rfl
    · exact Faithful.string (by decide)
    · exact Faithful.string (by decide)
    · exact Faithful.number (numberText_ofInt exact_integers hhour) (Json.isNumber_decimal 3600)
        (exact_integers.value hhour)
  obtain ⟨t, hrender, ht⟩ :=
    @render_denotes _ integers id (fun _ _ => rfl) 1 nestingLimit (by decide) _ hfaithful
  have htext := Json.Text.mk Json.ws_nil ht Json.ws_nil
  rw [List.nil_append, List.append_nil] at htext
  exact ⟨t, hrender, alMembers, 1, by decide, htext, List.Perm.refl _⟩

lemma alPair_handled (req : Request) (hreq : Asked alConfig start req) :
    Handled hourSettings sampleEncoder shortJwt alConfig alExchange req (.ok alPair) := by
  obtain ⟨hurl, hbody⟩ := hreq.resolve_right fun h => h.1 rfl
  have hok : (login hourSettings sampleEncoder shortJwt 0 0 (fun _ => 0) 0 "ip" ⟨"al", "pw", "pc"⟩
      ⟨sampleUsers, fun _ => none⟩).1 = .ok alPair := by decide
  have hfields : alConfig.username = utf8 "al" ∧ alConfig.password = utf8 "pw" ∧
      alConfig.deviceId = utf8 "pc" := by decide
  rw [hfields.1, hfields.2.1, hfields.2.2] at hbody
  have hhandled := @Handled.login hourSettings sampleEncoder shortJwt alConfig alExchange req
    ⟨"al", "pw", "pc"⟩ hurl hbody
  exact hok ▸ hhandled

/-- Every request of the attempt is answered with this text. -/
def alAttempt (t : Bytes) : Attempt := ⟨fun _ => .answer 200 (some (t ++ [0])), [alExchange]⟩

lemma alTokens : alPair.accessToken = "a" ∧ alPair.refreshToken = "r" := by decide

lemma alPair_pairOf {t : Bytes} (h : PairText integers alPair t) :
    ∃ r, cjsonParse integers (cString (t ++ [0])) = some r ∧ stringItems r = some (utf8 "a", utf8 "r") := by
  have hitems := stringItems_pair h (by rw [alTokens.1]; decide) (by rw [alTokens.2]; decide)
  rw [alTokens.1, alTokens.2] at hitems
  exact hitems

lemma alAttempt_genuine {t : Bytes} (h : PairText integers alPair t) :
    Genuine integers hourSettings sampleEncoder shortJwt alConfig start (alAttempt t) where
  short n tokens htokens := by
    obtain ⟨r, hparse, hitems⟩ := alPair_pairOf h
    have hpair : pairOf integers.toInt (cjsonParse integers) (.answer 200 (some (t ++ [0]))) = some tokens := htokens
    rw [pairOf, if_pos rfl, Option.bind_some, hparse, Option.bind_some, hitems, Option.map_some] at hpair
    obtain rfl := Option.some.inj hpair
    have hlen : (cString (utf8 "a")).length < 1024 ∧ (cString (utf8 "r")).length < 1024 := by decide
    exact hlen
  served x hx := by
    obtain ⟨hasked, n, hn⟩ := made_exchanged start x hx
    rw [hn]
    exact fun _ => ⟨alExchange, List.mem_singleton_self _, alPair, t, alPair_handled x.1 hasked, h, rfl⟩

lemma alAttempt_offered {t : Bytes} (h : PairText integers alPair t) :
    Run.outs (step integers alConfig) start [alAttempt t] ≠ [] := by
  obtain ⟨r, hparse, hitems⟩ := alPair_pairOf h
  obtain ⟨url, hurl⟩ : ∃ url, buildUrl alConfig "/api/v2/auth/login" = some url := by
    rw [← Option.isSome_iff_exists]
    decide
  have hrc : (acquire integers alConfig start (alAttempt t)).1.1 = 0 := by
    simp [acquire, wsAcquireTokens, start, loginOnly, authHttpLogin, hurl, postJson, alAttempt, parseTokenResponse,
      hparse, hitems]
  simp [Run.outs, step, hrc]

/-- A server that answers the first login, and a client that offers the token which it gets. -/
theorem client_sessions_al : ∃ t, render integers nestingLimit (.object alMembers) = some t ∧
    Run.outs (step integers alConfig) start [alAttempt t] ≠ [] ∧
    ∀ o ∈ Run.outs (step integers alConfig) start [alAttempt t], ∃ x ∈ o.attempt.exchanges, ∃ u d header,
      Known sampleEncoder alConfig [alAttempt t] u d ∧ o.protocol = utf8 header ∧
      ∀ now, beforeHandshake shortJwt now (some header) =
        if now ≤ (x.times .access + hourSettings.ttl .access) / 1000 * 1000 then .accepted u d header
        else .rejected 401 := by
  obtain ⟨t, hrender, htext⟩ := alPair_text
  have hcfg : 0 ∉ alConfig.username ∧ 0 ∉ alConfig.password ∧ 0 ∉ alConfig.deviceId := by decide
  have hsteps : Run.Steps (step integers alConfig)
      (Genuine integers hourSettings sampleEncoder shortJwt alConfig) start [alAttempt t] :=
    ⟨alAttempt_genuine htext, trivial⟩
  exact ⟨t, hrender, alAttempt_offered htext, (client_sessions shortJwt_documented hcfg hsteps).1⟩

end SyncClipboard.ClientLogin
