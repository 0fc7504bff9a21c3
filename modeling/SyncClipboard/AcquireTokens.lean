import Mathlib.Data.List.Induction
import SyncClipboard.Config
import SyncClipboard.Crypto

/-!
How the Linux and Windows clients get their tokens.

`ws_acquire_tokens` refreshes if it has a refresh token and logs in otherwise, and also if refreshing
fails; refreshing itself logs in when the server refuses it. So up to three requests are made for one
call. The first that is answered with a pair of tokens ends the call, and no other one touches what is
stored (`acquire_atomic`). The parser of JSON is a parameter, with the conversion of its numbers to
`long`.
-/

namespace SyncClipboard.AcquireTokens

open FtAuth Config Crypto

/-- A value as cJSON has it. -/
inductive Json (D : Type)
  | string (valuestring : Bytes)
  | number (valuedouble : D)
  | object (items : List (Bytes × Json D))
  | other

structure AuthTokens where
  accessToken : Bytes
  refreshToken : Bytes
  expiresInSec : ℤ
  deriving DecidableEq

structure Request where
  url : Bytes
  body : List (String × Bytes)
  deriving DecidableEq

/-- How a request ends. -/
inductive Outcome
  /-- there is no memory for it, so it is not made -/
  | notMade
  | transport
  /-- without a body `data` stays `NULL` -/
  | answer (httpCode : ℤ) (data : Option Bytes)
  deriving DecidableEq

/-- How many requests were tried, and those that were made, each with its end. -/
structure Log where
  tried : ℕ
  made : List (Request × Outcome)

/-! ### The program -/

section Program

variable {D : Type} (toLong : D → ℤ) (parse : Bytes → Option (Json D)) (net : ℕ → Outcome)

/-- `cJSON_GetObjectItemCaseSensitive`. -/
def getObjectItem (name : String) : Json D → Option (Json D)
  | .object items => (items.find? fun i => decide (i.1 = ascii name)).map Prod.snd
  | _ => none

def postJson (req : Request) (log : Log) : Option (ℤ × Option Bytes) × Log :=
  match net log.tried with
  | .notMade => (none, ⟨log.tried + 1, log.made⟩)
  | .transport => (none, ⟨log.tried + 1, log.made ++ [(req, .transport)]⟩)
  | .answer httpCode data =>
    (some (httpCode, data), ⟨log.tried + 1, log.made ++ [(req, .answer httpCode data)]⟩)

/-- `cJSON_IsNumber(expires) ? (long)expires->valuedouble : 0`. -/
def expiresIn : Option (Json D) → ℤ
  | some (.number valuedouble) => toLong valuedouble
  | _ => 0

/-- `strncpy` into an array of 1024 characters, and a zero at its end. -/
def copied (valuestring : Bytes) : Bytes := (cString valuestring).take 1023

/-- `cJSON_IsString(access) && cJSON_IsString(refresh)`, with the two strings. -/
def stringItems (root : Json D) : Option (Bytes × Bytes) :=
  match getObjectItem "accessToken" root, getObjectItem "refreshToken" root with
  | some (.string access), some (.string refresh) => some (access, refresh)
  | _, _ => none

def parseTokenResponse (jsonText : Option Bytes) (out : AuthTokens) : ℤ × AuthTokens :=
  match jsonText.bind fun text => parse (cString text) with
  | none => (-1, out)
  | some root =>
    match stringItems root with
    | some (access, refresh) =>
      (0, ⟨copied access, copied refresh, expiresIn toLong (getObjectItem "expiresInSec" root)⟩)
    | none => (-1, out)

/-- `snprintf` into an array of 512 characters; `none` if the text does not fit. -/
def buildUrl (cfg : ClientConfig) (path : String) : Option Bytes :=
  let scheme := if cfg.useTls ≠ 0 then "https" else "http"
  let url := ascii scheme ++ ascii "://" ++ cfg.serverHost ++ ascii ":" ++ ascii (toString cfg.serverPort) ++
    ascii path
  if url.length < 512 then some url else none

def authHttpLogin (cfg : ClientConfig) (out : AuthTokens) (log : Log) : (ℤ × AuthTokens) × Log :=
  match buildUrl cfg "/api/v2/auth/login" with
  | none => ((-1, out), log)
  | some url =>
    match postJson net
      ⟨url, [("username", cfg.username), ("password", cfg.password), ("deviceId", cfg.deviceId)]⟩ log with
    | (none, log) => ((-1, out), log)
    | (some (httpCode, data), log) =>
      if httpCode ≠ 200 then ((-1, out), log) else (parseTokenResponse toLong parse data out, log)

def authHttpRefresh (cfg : ClientConfig) (out : AuthTokens) (log : Log) : (ℤ × AuthTokens) × Log :=
  if out.refreshToken = [] then authHttpLogin toLong parse net cfg out log
  else
    match buildUrl cfg "/api/v2/auth/refresh" with
    | none => ((-1, out), log)
    | some url =>
      match postJson net ⟨url, [("refreshToken", out.refreshToken), ("deviceId", cfg.deviceId)]⟩ log with
      | (none, log) => ((-1, out), log)
      | (some (httpCode, data), log) =>
        if httpCode ≠ 200 then authHttpLogin toLong parse net cfg out log
        else (parseTokenResponse toLong parse data out, log)

/-- The second half of `ws_acquire_tokens`; only success is told apart. -/
def loginOnly (cfg : ClientConfig) (tokens : AuthTokens) (log : Log) : (ℤ × AuthTokens) × Log :=
  match authHttpLogin toLong parse net cfg tokens log with
  | ((rc, tokens), log) => ((if rc = 0 then 0 else -1, tokens), log)

def wsAcquireTokens (cfg : ClientConfig) (tokens : AuthTokens) : (ℤ × AuthTokens) × Log :=
  if tokens.refreshToken ≠ [] then
    match authHttpRefresh toLong parse net cfg tokens ⟨0, []⟩ with
    | ((rc, tokens), log) =>
      if rc = 0 then ((0, tokens), log) else loginOnly toLong parse net cfg tokens log
  else loginOnly toLong parse net cfg tokens ⟨0, []⟩

end Program

/-! ### What is expected -/

section Spec

variable {D : Type} (toLong : D → ℤ) (parse : Bytes → Option (Json D))

/-- The pair of tokens that a request is answered with. -/
def pairOf : Outcome → Option AuthTokens
  | .answer httpCode data =>
    if httpCode = 200 then
      (data.bind fun text => parse (cString text)).bind fun root =>
        (stringItems root).map fun (access, refresh) =>
          ⟨cString access, cString refresh, expiresIn toLong (getObjectItem "expiresInSec" root)⟩
    else none
  | _ => none

/-- Its tokens are shorter than 1024 bytes. -/
def Short (o : Outcome) : Prop :=
  ∀ t, pairOf toLong parse o = some t → t.accessToken.length < 1024 ∧ t.refreshToken.length < 1024

/-- Of these requests the last one gave the pair that is stored, or none gave a pair and nothing is
changed. -/
def Settled (out : AuthTokens) (made : List (Request × Outcome)) (r : ℤ × AuthTokens) : Prop :=
  (r.1 = 0 ∧ ∃ before req o, made = before ++ [(req, o)] ∧ pairOf toLong parse o = some r.2) ∨
    (r.1 = -1 ∧ r.2 = out ∧ ∀ x ∈ made, pairOf toLong parse x.2 = none)

end Spec

/-! ### One function after the other -/

variable {D : Type} {toLong : D → ℤ} {parse : Bytes → Option (Json D)} {net : ℕ → Outcome}

lemma copied_eq {valuestring : Bytes} (h : (cString valuestring).length < 1024) :
    copied valuestring = cString valuestring :=
  List.take_of_length_le (by omega)

lemma parseTokenResponse_settled {data : Option Bytes} (hshort : Short toLong parse (.answer 200 data))
    (out : AuthTokens) (req : Request) :
    Settled toLong parse out [(req, .answer 200 data)] (parseTokenResponse toLong parse data out) := by
  unfold Settled parseTokenResponse
  cases hroot : data.bind fun text => parse (cString text) with
  | none => exact .inr ⟨rfl, rfl, by simp [pairOf, hroot]⟩
  | some root =>
    dsimp only
    cases hitems : stringItems root with
    | none => exact .inr ⟨rfl, rfl, by simp [pairOf, hroot, hitems]⟩
    | some items =>
      obtain ⟨access, refresh⟩ := items
      have hpair : pairOf toLong parse (.answer 200 data) =
          some ⟨cString access, cString refresh, expiresIn toLong (getObjectItem "expiresInSec" root)⟩ := by
        simp [pairOf, hroot, hitems]
      obtain ⟨hlt, hlt'⟩ := hshort _ hpair
      refine .inl ⟨rfl, [], req, _, rfl, ?_⟩
      dsimp only
      rw [hpair, copied_eq hlt, copied_eq hlt']

lemma Settled.after {out : AuthTokens} {made made' : List (Request × Outcome)} {r : ℤ × AuthTokens}
    (h : Settled toLong parse out made r) (hbefore : ∀ x ∈ made', pairOf toLong parse x.2 = none) :
    Settled toLong parse out (made' ++ made) r := by
  rcases h with ⟨hrc, before, req, o, rfl, ho⟩ | ⟨hrc, hout, hnone⟩
  · exact .inl ⟨hrc, made' ++ before, req, o, by simp, ho⟩
  · refine .inr ⟨hrc, hout, fun x hx => ?_⟩
    rcases List.mem_append.mp hx with hx | hx
    · exact hbefore x hx
    · exact hnone x hx

/-- What a function of the client does: it makes some more requests, and they settle its result. -/
def Asks (toLong : D → ℤ) (parse : Bytes → Option (Json D)) (out : AuthTokens) (log : Log)
    (r : (ℤ × AuthTokens) × Log) : Prop :=
  ∃ made, r.2.made = log.made ++ made ∧ Settled toLong parse out made r.1

lemma asks_nothing (out : AuthTokens) (log : Log) : Asks toLong parse out log ((-1, out), log) :=
  ⟨[], (List.append_nil _).symm, .inr ⟨rfl, rfl, by simp⟩⟩

lemma asks_postJson (hshort : ∀ n, Short toLong parse (net n)) (req : Request) (out : AuthTokens) (log : Log)
    {refused : Log → (ℤ × AuthTokens) × Log} (hrefused : ∀ log, Asks toLong parse out log (refused log)) :
    Asks toLong parse out log
      (match postJson net req log with
      | (none, log) => ((-1, out), log)
      | (some (httpCode, data), log) =>
        if httpCode ≠ 200 then refused log else (parseTokenResponse toLong parse data out, log)) := by
  unfold postJson
  cases hnet : net log.tried with
  | notMade => exact ⟨[], (List.append_nil _).symm, .inr ⟨rfl, rfl, by simp⟩⟩
  | transport => exact ⟨[(req, .transport)], rfl, .inr ⟨rfl, rfl, by simp [pairOf]⟩⟩
  | answer httpCode data =>
    dsimp only
    by_cases hcode : httpCode ≠ 200
    · rw [if_pos hcode]
      obtain ⟨made, hmade, hsettled⟩ := hrefused ⟨log.tried + 1, log.made ++ [(req, .answer httpCode data)]⟩
      refine ⟨[(req, .answer httpCode data)] ++ made, by rw [hmade, List.append_assoc], hsettled.after ?_⟩
      simp [pairOf, hcode]
    · rw [if_neg hcode]
      obtain rfl : httpCode = 200 := not_not.mp hcode
      have hanswer := hshort log.tried
      rw [hnet] at hanswer
      exact ⟨_, rfl, parseTokenResponse_settled hanswer out req⟩

lemma asks_login (hshort : ∀ n, Short toLong parse (net n)) (cfg : ClientConfig) (out : AuthTokens) (log : Log) :
    Asks toLong parse out log (authHttpLogin toLong parse net cfg out log) := by
  unfold authHttpLogin
  cases buildUrl cfg "/api/v2/auth/login" with
  | none => exact asks_nothing out log
  | some url => exact asks_postJson hshort _ out log (asks_nothing out)

lemma asks_refresh (hshort : ∀ n, Short toLong parse (net n)) (cfg : ClientConfig) (out : AuthTokens) (log : Log) :
    Asks toLong parse out log (authHttpRefresh toLong parse net cfg out log) := by
  unfold authHttpRefresh
  split_ifs with hempty
  · exact asks_login hshort cfg out log
  · cases buildUrl cfg "/api/v2/auth/refresh" with
    | none => exact asks_nothing out log
    | some url => exact asks_postJson hshort _ out log (asks_login hshort cfg out)

lemma asks_loginOnly (hshort : ∀ n, Short toLong parse (net n)) (cfg : ClientConfig) (out : AuthTokens) (log : Log) :
    Asks toLong parse out log (loginOnly toLong parse net cfg out log) := by
  have hasks := asks_login hshort cfg out log
  unfold loginOnly
  generalize authHttpLogin toLong parse net cfg out log = r at hasks ⊢
  obtain ⟨⟨rc, tokens⟩, log'⟩ := r
  obtain ⟨made, hmade, hsettled⟩ := hasks
  refine ⟨made, hmade, ?_⟩
  rcases hsettled with ⟨hrc, hpair⟩ | ⟨hrc, hnone⟩
  · exact .inl ⟨if_pos hrc, hpair⟩
  · obtain rfl : rc = -1 := hrc
    exact .inr ⟨rfl, hnone⟩

lemma asks_acquire (hshort : ∀ n, Short toLong parse (net n)) (cfg : ClientConfig) (tokens : AuthTokens) :
    Asks toLong parse tokens ⟨0, []⟩ (wsAcquireTokens toLong parse net cfg tokens) := by
  unfold wsAcquireTokens
  by_cases hempty : tokens.refreshToken ≠ []
  · rw [if_pos hempty]
    have hasks := asks_refresh hshort cfg tokens ⟨0, []⟩
    generalize authHttpRefresh toLong parse net cfg tokens ⟨0, []⟩ = r at hasks ⊢
    obtain ⟨⟨rc, tokens'⟩, log⟩ := r
    obtain ⟨made, hmade, hsettled⟩ := hasks
    dsimp only
    rcases hsettled with ⟨hrc, hpair⟩ | ⟨hrc, hout, hnone⟩
    · obtain rfl : rc = 0 := hrc
      exact ⟨made, hmade, .inl ⟨rfl, hpair⟩⟩
    · -- nothing was changed, so the login starts from the same tokens
      obtain rfl : rc = -1 := hrc
      obtain rfl : tokens' = tokens := hout
      rw [if_neg (by decide)]
      obtain ⟨made', hmade', hsettled'⟩ := asks_loginOnly hshort cfg tokens' log
      refine ⟨made ++ made', ?_, hsettled'.after hnone⟩
      rw [hmade', hmade, List.append_assoc]
  · rw [if_neg hempty]
    exact asks_loginOnly hshort cfg tokens ⟨0, []⟩

/-! ### Calls -/

/-- The last request that a call made. -/
def lastRequest (log : Log) : Option Outcome := log.made.getLast?.map Prod.snd

/-- The tokens after some calls, each of which meets its own network. -/
def afterCalls (toLong : D → ℤ) (parse : Bytes → Option (Json D)) (cfg : ClientConfig) (tokens : AuthTokens)
    (calls : List (ℕ → Outcome)) : AuthTokens :=
  calls.foldl (fun tokens net => (wsAcquireTokens toLong parse net cfg tokens).1.2) tokens

/-- The call succeeds exactly if its last request is answered with a pair, which is then stored; otherwise
it fails and changes nothing. -/
lemma acquire_settled (hshort : ∀ n, Short toLong parse (net n)) (cfg : ClientConfig) (tokens : AuthTokens) :
    let r := wsAcquireTokens toLong parse net cfg tokens
    (r.1.1 = 0 ∧ (lastRequest r.2).bind (pairOf toLong parse) = some r.1.2) ∨
      (r.1.1 = -1 ∧ r.1.2 = tokens ∧ (lastRequest r.2).bind (pairOf toLong parse) = none) := by
  obtain ⟨made, hmade, hsettled⟩ := asks_acquire hshort cfg tokens
  rw [List.nil_append] at hmade
  dsimp only
  unfold lastRequest
  rw [hmade]
  rcases hsettled with ⟨hrc, before, req, o, rfl, ho⟩ | ⟨hrc, hout, hnone⟩
  · exact .inl ⟨hrc, by simpa using ho⟩
  · refine .inr ⟨hrc, hout, ?_⟩
    cases hlast : made.getLast? with
    | none => rfl
    | some x => exact hnone x (List.mem_of_getLast? hlast)

/-- **Tokens are acquired atomically.** A call returns 0 exactly if its last request was answered with a pair,
and then stores that answer; otherwise it returns -1 and changes nothing. So after any calls what is
stored is what was there before or comes from the answer to the last request of one call. -/
theorem acquire_atomic (cfg : ClientConfig) (tokens : AuthTokens) (calls : List (ℕ → Outcome))
    (hshort : ∀ net ∈ calls, ∀ n, Short toLong parse (net n)) :
    (∀ net ∈ calls, ∀ tokens : AuthTokens,
      let r := wsAcquireTokens toLong parse net cfg tokens
      (r.1.1 = 0 ↔ ∃ o, lastRequest r.2 = some o ∧ (pairOf toLong parse o).isSome) ∧
        (r.1.1 = 0 → ∃ o, lastRequest r.2 = some o ∧ pairOf toLong parse o = some r.1.2) ∧
        (r.1.1 ≠ 0 → r.1.1 = -1 ∧ r.1.2 = tokens)) ∧
      (afterCalls toLong parse cfg tokens calls = tokens ∨
        ∃ before net after, calls = before ++ net :: after ∧
          ∃ o, lastRequest (wsAcquireTokens toLong parse net cfg (afterCalls toLong parse cfg tokens before)).2 =
              some o ∧ pairOf toLong parse o = some (afterCalls toLong parse cfg tokens calls)) := by
  constructor
  · intro net hnet tokens
    have hsettled := acquire_settled (hshort net hnet) cfg tokens
    dsimp only at hsettled ⊢
    rcases hsettled with ⟨hrc, hpair⟩ | ⟨hrc, hout, hnone⟩
    · obtain ⟨o, ho, hpair⟩ := Option.bind_eq_some_iff.mp hpair
      refine ⟨⟨fun _ => ⟨o, ho, by rw [hpair]; rfl⟩, fun _ => hrc⟩, fun _ => ⟨o, ho, hpair⟩, fun hne => ?_⟩
      exact absurd hrc hne
    · have hne : (wsAcquireTokens toLong parse net cfg tokens).1.1 ≠ 0 := by
        rw [hrc]
        decide
      refine ⟨⟨fun h0 => absurd h0 hne, ?_⟩, fun h0 => absurd h0 hne, fun _ => ⟨hrc, hout⟩⟩
      rintro ⟨o, ho, hpair⟩
      rw [ho, Option.bind_some] at hnone
      rw [hnone] at hpair
      cases hpair
  · induction calls using List.reverseRecOn with
    | nil => exact .inl rfl
    | append_singleton calls net ih =>
      have hstep : afterCalls toLong parse cfg tokens (calls ++ [net]) =
          (wsAcquireTokens toLong parse net cfg (afterCalls toLong parse cfg tokens calls)).1.2 := by
        rw [afterCalls, List.foldl_append]
        rfl
      rcases acquire_settled (hshort net (by simp)) cfg (afterCalls toLong parse cfg tokens calls) with
        ⟨-, hpair⟩ | ⟨-, hout, -⟩
      · obtain ⟨o, ho, hpair⟩ := Option.bind_eq_some_iff.mp hpair
        exact .inr ⟨calls, net, [], rfl, o, ho, by rw [hpair, hstep]⟩
      · -- the call changed nothing
        rw [hstep, hout]
        rcases ih fun net hnet => hshort net (by simp [hnet]) with hsame | ⟨before, net', after, rfl, o, ho, hpair⟩
        · exact .inl hsame
        · exact .inr ⟨before, net', after ++ [net], by simp, o, ho, hpair⟩

/-- A text of two tokens, as the parser gives it. -/
def sampleParse (text : Bytes) : Option (Json ℤ) :=
  if text = ascii "pair" then
    some (.object [(ascii "accessToken", .string (ascii "acc")), (ascii "refreshToken", .string (ascii "ref")),
      (ascii "expiresInSec", .number 900)])
  else none

/-- The refresh is refused, the login after it is not answered, and the next one is. -/
def sampleNet : ℕ → Outcome
  | 0 => .answer 401 (some (ascii "no"))
  | 1 => .transport
  | _ => .answer 200 (some (ascii "pair"))

lemma sampleNet_short (n : ℕ) : Short id sampleParse (sampleNet n) := by
  intro t ht
  match n with
  | 0 => simp [sampleNet, pairOf] at ht
  | 1 => simp [sampleNet, pairOf] at ht
  | n + 2 =>
    have hpair : pairOf id sampleParse (.answer 200 (some (ascii "pair"))) = some ⟨ascii "acc", ascii "ref", 900⟩ := by
      decide
    obtain rfl := Option.some.inj (hpair.symm.trans ht)
    decide

/-- All three requests are made, and what is stored comes from the last one. -/
theorem acquire_atomic_third :
    (wsAcquireTokens id sampleParse sampleNet configSetDefaults ⟨[], ascii "old", 0⟩).2.tried = 3 ∧
      afterCalls id sampleParse configSetDefaults ⟨[], ascii "old", 0⟩ [sampleNet] = ⟨ascii "acc", ascii "ref", 900⟩ ∧
      (afterCalls id sampleParse configSetDefaults ⟨[], ascii "old", 0⟩ [sampleNet] = ⟨[], ascii "old", 0⟩ ∨
        ∃ before net after, [sampleNet] = before ++ net :: after ∧
          ∃ o, lastRequest (wsAcquireTokens id sampleParse net configSetDefaults
              (afterCalls id sampleParse configSetDefaults ⟨[], ascii "old", 0⟩ before)).2 = some o ∧
            pairOf id sampleParse o =
              some (afterCalls id sampleParse configSetDefaults ⟨[], ascii "old", 0⟩ [sampleNet])) := by
  refine ⟨by decide, by decide, ?_⟩
  refine (acquire_atomic configSetDefaults ⟨[], ascii "old", 0⟩ [sampleNet] fun net hnet => ?_).2
  obtain rfl := List.mem_singleton.mp hnet
  exact sampleNet_short

end SyncClipboard.AcquireTokens
