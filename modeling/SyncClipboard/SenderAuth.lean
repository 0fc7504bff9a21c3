import SyncClipboard.FtLan

/-!
The sender's side of the handshake against a peer without the key.

The sender shows a proof but is shown none: it takes any peer that answers with the four bytes
`AKOK`. So it is exactly the peers that never answer so that are kept from the file
(`senderSafe_iff`); no knowledge of the key comes into it.
-/

namespace SyncClipboard.SenderAuth

open Pieces FtAuth FtLan

/-- What the adversary has seen: bytes, with the connection they came on. -/
abbrev View := List (Sock × Bytes)

/-- What the adversary sends on a connection, in pieces, is a function of what it has seen. -/
abbrev Strategy := View → Sock → List Bytes

/-- What the sender has put on the adversary's connections. -/
def view (adv : Sock → Bool) : List Act → View
  | [] => []
  | .wire c bs :: log => if adv c then (c, bs) :: view adv log else view adv log
  | .file c bs :: log => if adv c then (c, bs) :: view adv log else view adv log
  | .close _ :: log => view adv log

/-- On its connections the adversary follows its strategy; the others do as they like. -/
def Plays (adv : Sock → Bool) (σ : Strategy) (env : Env) : Prop :=
  ∀ log c, adv c = true → ∀ bs, (env log c).answers bs = σ (view adv log ++ [(c, bs)]) c

variable (H : Bytes → Bytes → Bytes)

/-- The sender's message for a file. -/
def proofOf (fileId keyHex : Bytes) : Bytes :=
  authFrame ((ftComputeHmac H fileId keyHex).getD [])

/-- What handshakes with the sender leave with the adversary: beginnings of the sender's
message. -/
def Seen (adv : Sock → Bool) (fileId keyHex : Bytes) (T : View) : Prop :=
  ∀ e ∈ T, adv e.1 = true ∧ e.2 <+: proofOf H fileId keyHex

/-- The sender never takes a connection of the adversary: its handshake fails on each, whatever the
adversary has seen before, no race returns one, and the file is sent on none. -/
structure SenderSafe (fileId keyHex : Bytes) (adv : Sock → Bool) (σ : Strategy) : Prop where
  auth : ∀ T c takes, adv c = true → Seen H adv fileId keyHex T →
    (ftAuthSend H ⟨takes, fun bs => σ (T ++ [(c, bs)]) c⟩ fileId keyHex).code ≠ 0
  lan : ∀ env, Plays adv σ env → ∀ listen conn nat polls,
    ∀ c ∈ (ftLanTransferAuth H env fileId keyHex true listen conn nat polls []).1, adv c = false
  file : ∀ env, Plays adv σ env → ∀ frame listen conn nat polls calls, ∀ c bs,
    .file c bs ∈ senderThread H env fileId keyHex frame listen conn nat polls calls → adv c = false

/-- The adversary at some point answers the sender's message with `AKOK`. -/
def AnswersAkok (fileId keyHex : Bytes) (adv : Sock → Bool) (σ : Strategy) : Prop :=
  ∃ T c, adv c = true ∧ Seen H adv fileId keyHex T ∧
    ascii "AKOK" <+: available (σ (T ++ [(c, proofOf H fileId keyHex)]) c)

variable {H} {fileId keyHex : Bytes} {adv : Sock → Bool} {σ : Strategy}

lemma view_append (log log' : List Act) : view adv (log ++ log') = view adv log ++ view adv log' := by
  induction log with
  | nil => rfl
  | cons a log ih =>
    cases a <;> simp only [List.cons_append, view, ih] <;> split_ifs <;> rfl

lemma Seen.append {T T' : View} (h : Seen H adv fileId keyHex T) (h' : Seen H adv fileId keyHex T') :
    Seen H adv fileId keyHex (T ++ T') :=
  fun e he => (List.mem_append.mp he).elim (h e) (h' e)

lemma akok_of_code {hmac : Bytes} (hc : ftComputeHmac H fileId keyHex = some hmac) {T : View}
    (hT : Seen H adv fileId keyHex T) {c : Sock} (hadv : adv c = true) {takes : List ℕ}
    (hcode : (ftAuthSend H ⟨takes, fun bs => σ (T ++ [(c, bs)]) c⟩ fileId keyHex).code = 0) :
    AnswersAkok H fileId keyHex adv σ := by
  have hproof : proofOf H fileId keyHex = authFrame hmac := by simp [proofOf, hc]
  refine ⟨T, c, hadv, hT, ?_⟩
  rw [hproof]
  exact ((ftAuthSend_code hc).mp hcode).2

variable (H fileId keyHex adv) in
/-- The adversary holds beginnings of the sender's message only, and no part of a file. -/
structure Clean (log : List Act) : Prop where
  seen : Seen H adv fileId keyHex (view adv log)
  file : ∀ c bs, .file c bs ∈ log → adv c = false

lemma Clean.append {log new : List Act} (h : Clean H fileId keyHex adv log)
    (hseen : Seen H adv fileId keyHex (view adv new))
    (hfile : ∀ c bs, .file c bs ∈ new → adv c = false) :
    Clean H fileId keyHex adv (log ++ new) where
  seen := by
    rw [view_append]
    exact h.seen.append hseen
  file c bs hmem := (List.mem_append.mp hmem).elim (h.file c bs) (hfile c bs)

lemma seen_wire {hmac : Bytes} (hc : ftComputeHmac H fileId keyHex = some hmac) (peer : Peer)
    (c : Sock) (rest : List Act) (hrest : view adv rest = []) :
    Seen H adv fileId keyHex
      (view adv (.wire c (ftAuthSend H peer fileId keyHex).sent :: rest)) := by
  have hproof : proofOf H fileId keyHex = authFrame hmac := by simp [proofOf, hc]
  intro e he
  simp only [view, hrest] at he
  split_ifs at he with hadv
  · obtain rfl := List.mem_singleton.mp he
    refine ⟨hadv, ?_⟩
    rw [hproof]
    exact ftAuthSend_sent hc
  · simp at he

lemma guard_sender {hmac : Bytes} (hc : ftComputeHmac H fileId keyHex = some hmac) {env : Env}
    (henv : Plays adv σ env) (hσ : ¬ AnswersAkok H fileId keyHex adv σ) :
    Guard ⟨tryAuthenticate H env fileId keyHex true, true⟩ (Clean H fileId keyHex adv)
      (fun c => adv c = true) where
  authenticate c log hlog := by
    simp only [tryAuthenticate, if_true]
    split_ifs with hcode
    · refine ⟨hlog.append (seen_wire hc _ c [] rfl) (by simp), fun _ hadv => hσ ?_⟩
      -- the peer of the adversary's connection is the strategy at this point
      rcases hpeer : env log c with ⟨takes, answers⟩
      have hans : answers = fun bs => σ (view adv log ++ [(c, bs)]) c := by
        funext bs
        have hplays := henv log c hadv bs
        rwa [hpeer] at hplays
      rw [hpeer, hans] at hcode
      exact akok_of_code hc hlog.seen hadv hcode
    · exact ⟨hlog.append (seen_wire hc _ c [.close c] rfl) (by simp), by simp⟩
  close c log hlog := hlog.append (by simp [view, Seen]) (by simp)

lemma lan_safe {hmac : Bytes} (hc : ftComputeHmac H fileId keyHex = some hmac)
    (hkey : keyHex ≠ []) {env : Env} (henv : Plays adv σ env)
    (hσ : ¬ AnswersAkok H fileId keyHex adv σ) (listen : Bool) (conn : List (Option Sock))
    (nat : Option Sock) (polls : List Poll) {log : List Act}
    (hlog : Clean H fileId keyHex adv log) :
    Clean H fileId keyHex adv
        (ftLanTransferAuth H env fileId keyHex true listen conn nat polls log).2 ∧
      ∀ c ∈ (ftLanTransferAuth H env fileId keyHex true listen conn nat polls log).1,
        adv c = false := by
  obtain ⟨hlog', hwin⟩ := (guard_sender hc henv hσ).lanTransfer listen conn nat polls hlog
  unfold ftLanTransferAuth
  rw [if_neg hkey]
  exact ⟨hlog', fun c hcw => by simpa using hwin c hcw⟩

lemma sendLoop_safe {hmac : Bytes} (hc : ftComputeHmac H fileId keyHex = some hmac)
    (hkey : keyHex ≠ []) {env : Env} (henv : Plays adv σ env)
    (hσ : ¬ AnswersAkok H fileId keyHex adv σ) (frame : Bytes) (listen : Bool)
    (calls : List (List Poll)) {sock : Option Sock} (hsock : ∀ c ∈ sock, adv c = false)
    {log : List Act} (hlog : Clean H fileId keyHex adv log) :
    Clean H fileId keyHex adv (sendLoop H env fileId keyHex frame listen calls sock log) := by
  have hsend : ∀ {w : Sock} {log : List Act}, adv w = false → Clean H fileId keyHex adv log →
      Clean H fileId keyHex adv (log ++ [.file w frame, .close w]) := by
    intro w log hw hlog
    refine hlog.append (by simp [view, hw, Seen]) fun c bs hmem => ?_
    have hcw : c = w ∧ bs = frame := by simpa using hmem
    rw [hcw.1]; exact hw
  induction calls generalizing sock log with
  | nil =>
    cases sock with
    | none => exact hlog
    | some w => exact hsend (hsock w rfl) hlog
  | cons polls calls ih =>
    cases sock with
    | none => exact hlog
    | some w =>
      have hsent := hsend (hsock w rfl) hlog
      unfold sendLoop
      dsimp only
      split_ifs
      · obtain ⟨hclean, hwin⟩ := lan_safe hc hkey henv hσ true [] none polls hsent
        exact ih hwin hclean
      · exact hsent

lemma clean_nil : Clean H fileId keyHex adv [] := ⟨by simp [view, Seen], by simp⟩

/-- **Exactly the answer `AKOK` opens the sender.** For every file id and every valid key, the
sender is safe from an adversary if and only if the adversary never answers the sender's message
with `AKOK`. -/
theorem senderSafe_iff (hH : ∀ k m, (H k m).length = 32) (hk : ValidKey keyHex) (fileId : Bytes)
    (adv : Sock → Bool) (σ : Strategy) :
    SenderSafe H fileId keyHex adv σ ↔ ¬ AnswersAkok H fileId keyHex adv σ := by
  obtain ⟨key, hc, -⟩ := hmac_valid hH hk fileId
  have hkey : keyHex ≠ [] := by
    rintro rfl
    exact absurd hk.1 (by decide)
  constructor
  · rintro hsafe ⟨T, c, hadv, hT, hakok⟩
    -- the sockets take the whole message, and the answer is there
    refine hsafe.auth T c [(proofOf H fileId keyHex).length] hadv hT ?_
    have hproof : proofOf H fileId keyHex = authFrame (H key fileId) := by simp [proofOf, hc]
    rw [hproof] at hakok ⊢
    exact (ftAuthSend_code hc).mpr ⟨writeAll_of_room _, hakok⟩
  · intro hσ
    refine ⟨fun T c takes hadv hT hcode => hσ (akok_of_code hc hT hadv hcode), ?_, ?_⟩
    · intro env henv listen conn nat polls
      exact (lan_safe hc hkey henv hσ listen conn nat polls clean_nil).2
    · intro env henv frame listen conn nat polls calls c bs hmem
      obtain ⟨hclean, hwin⟩ := lan_safe hc hkey henv hσ listen conn nat polls clean_nil
      exact (sendLoop_safe hc hkey henv hσ frame listen calls hwin hclean).file c bs hmem

/-! ### An adversary that says yes -/

/-- Answer `AKOK` to everybody, without looking at what they show. -/
def sayYes : Strategy := fun _ _ => [ascii "AKOK"]

/-- The adversary connects to the listening socket, and is sent the file. -/
theorem sayYes_is_sent_the_file :
    ¬ SenderSafe sampleHmac sampleFileId sampleKeyHex (fun _ => true) sayYes := by
  intro hsafe
  have hfile := hsafe.file (fun _ _ => ⟨[36], fun _ => [ascii "AKOK"]⟩) (fun _ _ _ _ => rfl)
    [1, 2, 3] true [] none [⟨some 7, fun _ => .idle, .idle⟩] [] 7 [1, 2, 3] (by decide)
  cases hfile

/-- An adversary that never answers is not. -/
theorem silence_is_safe :
    SenderSafe sampleHmac sampleFileId sampleKeyHex (fun _ => true) (fun _ _ => []) := by
  refine (senderSafe_iff sampleHmac_length sampleKeyHex_valid _ _ _).mpr ?_
  rintro ⟨T, c, -, -, h⟩
  have hnil : ascii "AKOK" = [] := List.prefix_nil.mp h
  exact absurd hnil (by decide)

end SyncClipboard.SenderAuth
