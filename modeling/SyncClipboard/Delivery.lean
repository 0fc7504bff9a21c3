import SyncClipboard.PublishConnect

/-!
What a session is delivered while others publish and connect.

The order of the steps inside the two handlers is enough that no publish is missed by a session
that connects meanwhile (`no_clipboard_lost`). It is not enough that all sessions end with the
cached clipboard: nothing keeps an older broadcast, or a replay read earlier, from arriving last
(`overtaken_disagrees`). Whatever arrives after the cached clipboard is of one of these two kinds
(`final_agreement`).
-/

namespace SyncClipboard.Delivery

open ServerModel PublishConnect

variable {cfg : Config} {t₀ : ℤ}

/-! ### Nothing is lost -/

/-- A read after the end of a publish finds that publish, or a later one. -/
lemma read_after {tr pre post : List Obs} (hlegal : Run.Legal (Rule cfg) tr) {q : SessionId}
    {r : Option WsMessage} (htr : tr = pre ++ .readCache q r :: post) {i : PublishId} {p : Publish}
    (hp : .stored i p ∈ pre) {d : String} (hu : (cfg.session q).username = some p.username)
    (hd : (cfg.session q).deviceId = some d) :
    ∃ j p', ((j, p') = (i, p) ∨ [Obs.stored i p, .stored j p'].Sublist tr) ∧
      p'.username = p.username ∧ r = shown (some p') d := by
  obtain ⟨u, d', hu', hd', hr⟩ := hlegal pre _ post htr
  obtain rfl : p.username = u := Option.some.inj (hu.symm.trans hu')
  obtain rfl : d = d' := Option.some.inj (hd.symm.trans hd')
  cases hl : lastStored p.username pre with
  | none => exact absurd rfl (lastStored_eq_none_iff.mp hl i p hp)
  | some p' =>
    obtain ⟨hp', j, a, b, hpre, hlast⟩ := lastStored_split hl
    refine ⟨j, p', ?_, hp', hl ▸ hr⟩
    rw [hpre, List.mem_append, List.mem_cons] at hp
    rcases hp with hp | hp | hp
    · right
      rw [htr, hpre]
      exact (Run.pair_sublist hp).trans (List.sublist_append_left _ _)
    · left
      cases hp; rfl
    · exact absurd rfl (hlast i p hp)

lemma stored_unique {tr : List Obs} (hlegal : Run.Legal (Rule cfg) tr) {i : PublishId}
    {p p' : Publish} (hp : .stored i p ∈ tr) (hp' : .stored i p' ∈ tr) : p = p' := by
  obtain ⟨pre, post, rfl, hfirst, -⟩ := Run.legal_of_mem hlegal hp
  rw [List.mem_append, List.mem_cons] at hp'
  rcases hp' with hp' | hp' | hp'
  · exact absurd hp' (hfirst p')
  · cases hp'; rfl
  · obtain ⟨a, b, rfl⟩ := List.append_of_mem hp'
    have hagain := hlegal (pre ++ .stored i p :: a) (.stored i p') b (by simp)
    exact absurd (by simp) (hagain.1 p)

lemma covered {tr : List Obs} (hlegal : Run.Legal (Rule cfg) tr) {i : PublishId} {p : Publish}
    (hp : .stored i p ∈ tr) (hfin : .finished i ∈ tr) {q : SessionId} (hq : .connected q ∈ tr)
    {d : String} (hu : (cfg.session q).username = some p.username)
    (hd : (cfg.session q).deviceId = some d) (hne : d ≠ p.deviceId) :
    .delivered q p.frame (.broadcast i) ∈ tr ∨
    (∃ j p', ((j, p') = (i, p) ∨ [Obs.stored i p, .stored j p'].Sublist tr) ∧
      p'.username = p.username ∧ .delivered q p'.replayFrame .replay ∈ tr) ∨
    (∃ j p', [Obs.stored i p, .stored j p'].Sublist tr ∧
      p'.username = p.username ∧ p'.deviceId = d) := by
  obtain ⟨pre, post, htr, p₁, hp₁, hreach⟩ := Run.legal_of_mem hlegal hfin
  obtain rfl : p₁ = p := stored_unique hlegal (by simp [htr, hp₁]) hp
  obtain ⟨pre', post', htr', r, hr, hsent⟩ := Run.legal_of_mem hlegal hq
  have hread : .readCache q r ∈ tr := by simp [htr', hr]
  have hself : q ≠ p₁.sid := by
    rintro rfl
    obtain ⟨-, -, -, -, -, hdev⟩ := Run.legal_of_mem hlegal hp
    exact hne (Option.some.inj (hd.symm.trans hdev))
  rw [htr, List.mem_append, List.mem_cons] at hread
  rcases hread with hread | hread | hread
  · -- the session had read the cache when the broadcast ended
    left
    have hmem := hreach q r hread hu hself
    simp [htr, hmem]
  · cases hread
  · -- the session read the cache after the broadcast ended
    right
    obtain ⟨a, b, rfl⟩ := List.append_of_mem hread
    have hsplit : tr = (pre ++ .finished i :: a) ++ .readCache q r :: b := by simp [htr]
    have hstored : .stored i p₁ ∈ pre ++ .finished i :: a := by simp [hp₁]
    obtain ⟨j, p', hj, hp', hshown⟩ := read_after hlegal hsplit hstored hu hd
    by_cases hdev : p'.deviceId = d
    · right
      refine ⟨j, p', ?_, hp', hdev⟩
      rcases hj with hj | hj
      · cases hj; exact absurd hdev.symm hne
      · exact hj
    · left
      refine ⟨j, p', hj, hp', ?_⟩
      have hf : r = some p'.replayFrame := by simp [hshown, shown, hdev]
      have hmem := hsent p'.replayFrame (by simp [hf])
      simp [htr', hmem]

/-- **No clipboard is lost between publish and connect.** For every interleaving within the hour:
once a publish has finished and a session of the same user on another device has completed its
connect, the session was sent the publish by its broadcast, or the replay it was sent carries that
publish or one stored later, or its own device stored one later. -/
theorem no_clipboard_lost {ls : List Label} (hls : ∀ l ∈ ls, Within t₀ l) {i : PublishId}
    {p : Publish} (hp : .stored i p ∈ history cfg ls) (hfin : .finished i ∈ history cfg ls)
    {q : SessionId} (hq : .connected q ∈ history cfg ls) {d : String}
    (hu : (cfg.session q).username = some p.username) (hd : (cfg.session q).deviceId = some d)
    (hne : d ≠ p.deviceId) :
    .delivered q p.frame (.broadcast i) ∈ history cfg ls ∨
    (∃ j p', ((j, p') = (i, p) ∨ [Obs.stored i p, .stored j p'].Sublist (history cfg ls)) ∧
      p'.username = p.username ∧ .delivered q p'.replayFrame .replay ∈ history cfg ls) ∨
    (∃ j p', [Obs.stored i p, .stored j p'].Sublist (history cfg ls) ∧
      p'.username = p.username ∧ p'.deviceId = d) := by
  exact covered (history_inv hls).legal hp hfin hq hu hd hne

def connect (sid : SessionId) (now : ℤ) : List Label :=
  [.register sid, .readCache sid now, .sendReplay sid]

/-- The phone connects while the laptop publishes: it reads the cache before the laptop stores. -/
def readEarly : List Label :=
  connect "a" 0 ++ [.register "b", .readCache "b" 1, .store 0 "a" ⟨none, some "hi", none⟩ 2,
    .broadcast 0, .sendReplay "b"]

lemma readEarly_within : ∀ l ∈ readEarly, Within 0 l := by
  simp [readEarly, connect, Within, Label.now?, ttlMs]

def hi : Publish := ⟨"a", "alice", "laptop", ⟨none, some "hi", none⟩⟩

theorem readEarly_not_lost :
    .delivered "b" hi.frame (.broadcast 0) ∈ history threeDevices readEarly ∨
    (∃ j p', ((j, p') = (0, hi) ∨ [Obs.stored 0 hi, .stored j p'].Sublist (history threeDevices readEarly)) ∧
      p'.username = hi.username ∧ .delivered "b" p'.replayFrame .replay ∈ history threeDevices readEarly) ∨
    (∃ j p', [Obs.stored 0 hi, .stored j p'].Sublist (history threeDevices readEarly) ∧
      p'.username = hi.username ∧ p'.deviceId = "phone") :=
  no_clipboard_lost readEarly_within (by decide) (by decide) (by decide) (by decide) (by decide)
    (by decide)

/-! ### The last frame -/

/-- No handler is under way. -/
def Quiescent (s : Sys) : Prop :=
  (∀ i p, s.publishing i ≠ .stored p) ∧
    ∀ q, s.connecting q ≠ .registered ∧ ∀ r, s.connecting q ≠ .read r

def framesTo (q : SessionId) : List Obs → List WsMessage
  | [] => []
  | .delivered sid f _ :: tr => if sid = q then f :: framesTo q tr else framesTo q tr
  | _ :: tr => framesTo q tr

def Carries (content : Option String) : WsMessage → Prop
  | .clipboard m => m.content = content
  | _ => False

/-- Every registered session of a user on another device than the cached clipboard's was last
delivered the cached content. -/
def FinalAgreement (s : Sys) (tr : List Obs) : Prop :=
  ∀ u e, s.cache u = some e → ∀ c ∈ s.sessions, c.username = u → c.deviceId ≠ e.fromDevice →
    ∃ f, (framesTo c.session tr).getLast? = some f ∧ Carries e.encryptedContent f

/-- A frame that belongs before the publish `k`: the broadcast of a publish stored before it, or
a replay read before it was stored. -/
def Overtaken (tr : List Obs) (k : PublishId) (p : Publish) (q : SessionId) (f : WsMessage) :
    Via → Prop
  | .broadcast j => ∃ p', f = p'.frame ∧ p'.username = p.username ∧
      [Obs.stored j p', .stored k p].Sublist tr
  | .replay => [Obs.readCache q (some f), .stored k p].Sublist tr

/-- The content of the last publish, by broadcast or by replay. -/
def Latest (p : Publish) (q : SessionId) (o : Obs) : Prop :=
  ∃ f via, o = .delivered q f via ∧ (f = p.frame ∨ f = p.replayFrame)

lemma overtaken_of_not_latest {tr : List Obs} (hlegal : Run.Legal (Rule cfg) tr) {k : PublishId}
    {p : Publish} {pre post : List Obs} (htr : tr = pre ++ .stored k p :: post)
    (hlast : ∀ j p', .stored j p' ∈ post → p'.username ≠ p.username) {q : SessionId}
    (hu : (cfg.session q).username = some p.username) {f : WsMessage} {via : Via} (ho : .delivered q f via ∈ tr)
    (hnot : ¬ Latest p q (.delivered q f via)) : Overtaken tr k p q f via := by
  obtain ⟨a, b, hsplit, hrule⟩ := Run.legal_of_mem hlegal ho
  cases via with
  | broadcast j =>
    obtain ⟨p', hp', rfl, hu'⟩ := hrule
    have huser : p'.username = p.username := Option.some.inj (hu'.symm.trans hu)
    have hmem : .stored j p' ∈ tr := by simp [hsplit, hp']
    rw [htr, List.mem_append, List.mem_cons] at hmem
    rcases hmem with hmem | hmem | hmem
    · exact ⟨p', rfl, huser, htr ▸ Run.pair_sublist hmem⟩
    · cases hmem
      exact absurd ⟨_, _, rfl, .inl rfl⟩ hnot
    · exact absurd huser (hlast j p' hmem)
  | replay =>
    have hread : .readCache q (some f) ∈ a := hrule
    have hmem : .readCache q (some f) ∈ tr := by simp [hsplit, hread]
    rw [htr, List.mem_append, List.mem_cons] at hmem
    rcases hmem with hmem | hmem | hmem
    · exact htr ▸ Run.pair_sublist hmem
    · cases hmem
    · -- a read after the last publish finds it
      obtain ⟨x, y, rfl⟩ := List.append_of_mem hmem
      obtain ⟨u, d', hu', hd', hr⟩ :=
        hlegal (pre ++ .stored k p :: x) (.readCache q (some f)) y (by simp [htr])
      obtain rfl : p.username = u := Option.some.inj (hu.symm.trans hu')
      have hx : lastStored p.username x = none :=
        lastStored_eq_none_iff.mpr fun j p' hp' => hlast j p' (by simp [hp'])
      have hp : lastStored p.username (pre ++ .stored k p :: x) = some p := by
        simp [lastStored_append, lastStored, hx]
      rw [hp] at hr
      by_cases hdev : p.deviceId = d'
      · simp [shown, hdev] at hr
      · have hf : f = p.replayFrame := by simpa [shown, hdev] using hr
        exact absurd ⟨_, _, rfl, .inr hf⟩ hnot

lemma finished_of_quiescent {s : Sys} {tr : List Obs} (h : Inv cfg t₀ s tr) (hq : Quiescent s)
    {k : PublishId} {p : Publish} (hk : .stored k p ∈ tr) : .finished k ∈ tr := by
  cases hpub : s.publishing k with
  | fresh => exact absurd hk (h.publishes.fresh k hpub p)
  | stored p' => exact absurd hpub (hq.1 k p')
  | finished => exact h.publishes.finished k hpub

lemma connected_of_quiescent {s : Sys} {tr : List Obs} (h : Inv cfg t₀ s tr) (hq : Quiescent s)
    {c : ClientSession} (hc : c ∈ s.sessions) : .connected c.session ∈ tr := by
  have hj := h.connects.joined c hc
  cases hcon : s.connecting c.session with
  | fresh => exact absurd hcon hj.notFresh
  | rejected => exact absurd hcon hj.notRejected
  | registered => exact absurd hcon (hq.2 c.session).1
  | read r => exact absurd hcon ((hq.2 c.session).2 r)
  | done => exact h.connects.done c.session hcon

lemma latest_delivered {tr : List Obs} (hlegal : Run.Legal (Rule cfg) tr) {k : PublishId}
    {p : Publish} {pre post : List Obs} (htr : tr = pre ++ .stored k p :: post)
    (hlast : ∀ j p', .stored j p' ∈ post → p'.username ≠ p.username) (hfin : .finished k ∈ tr)
    {q : SessionId} (hq : .connected q ∈ tr) {d : String}
    (hu : (cfg.session q).username = some p.username) (hd : (cfg.session q).deviceId = some d)
    (hne : d ≠ p.deviceId) : ∃ o ∈ tr, Latest p q o := by
  have hk : .stored k p ∈ tr := by simp [htr]
  -- no publish of the user is stored after the last one
  have hnone : ∀ {j p'}, p'.username = p.username →
      ¬ [Obs.stored k p, .stored j p'].Sublist tr := by
    intro j p' hp' hsub
    have hfirst := hlegal pre _ post htr
    rw [htr] at hsub
    exact hlast j p' (Run.mem_of_sublist_pair (hfirst.1 p) hsub) hp'
  rcases covered hlegal hk hfin hq hu hd hne with h | ⟨j, p', hj, hp', h⟩ | ⟨j, p', hj, hp', -⟩
  · exact ⟨_, h, _, _, rfl, .inl rfl⟩
  · rcases hj with hj | hj
    · cases hj
      exact ⟨_, h, _, _, rfl, .inr rfl⟩
    · exact absurd hj (hnone hp')
  · exact absurd hj (hnone hp')

/-- **Agreement up to overtaken frames.** Once no handler is under way, every registered session
of a user on another device than the cached clipboard's has been delivered the cached content, and
whatever it was delivered after that was overtaken by the cached publish. -/
theorem final_agreement {ls : List Label} (hls : ∀ l ∈ ls, Within t₀ l)
    (hquiet : Quiescent (Run.exec (step cfg) start ls)) {u : String} {e : CachedClipboard}
    (hcache : (Run.exec (step cfg) start ls).cache u = some e) {c : ClientSession}
    (hc : c ∈ (Run.exec (step cfg) start ls).sessions) (hcu : c.username = u)
    (hcd : c.deviceId ≠ e.fromDevice) :
    ∃ k p, .stored k p ∈ history cfg ls ∧ lastStored u (history cfg ls) = some p ∧
      p.msg.content = e.encryptedContent ∧ p.deviceId = e.fromDevice ∧
      ∃ pre f via post, history cfg ls = pre ++ .delivered c.session f via :: post ∧
        Carries e.encryptedContent f ∧
        ∀ f' via', .delivered c.session f' via' ∈ post →
          Overtaken (history cfg ls) k p c.session f' via' := by
  have hinv : Inv cfg t₀ (Run.exec (step cfg) start ls) (history cfg ls) := history_inv hls
  have hcached := hinv.cache u
  rw [hcache] at hcached
  cases hl : lastStored u (history cfg ls) with
  | none => rw [hl] at hcached; cases hcached
  | some p =>
    rw [hl] at hcached
    obtain ⟨t, -, -, he⟩ := hcached
    obtain rfl := Option.some.inj he
    obtain ⟨hpu, k, pre, post, htr, hlast⟩ := lastStored_split hl
    have hk : .stored k p ∈ history cfg ls := by simp [htr]
    have hjoined := hinv.connects.joined c hc
    have hu : (cfg.session c.session).username = some p.username := by
      rw [hpu, ← hcu]; exact hjoined.username
    have hfin := finished_of_quiescent hinv hquiet hk
    have hcon := connected_of_quiescent hinv hquiet hc
    have hsome := latest_delivered hinv.legal htr (hpu ▸ hlast) hfin hcon hu hjoined.deviceId hcd
    obtain ⟨a, o, b, hsplit, ⟨f, via, rfl, hf⟩, hrest⟩ := Run.exists_last hsome
    refine ⟨k, p, hk, rfl, rfl, rfl, a, f, via, b, hsplit, ?_, fun f' via' hf' => ?_⟩
    · rcases hf with rfl | rfl <;> rfl
    · refine overtaken_of_not_latest hinv.legal htr (hpu ▸ hlast) hu ?_ (hrest _ hf')
      simp [hsplit, hf']

/-- Laptop and phone publish at the same time. The phone's clipboard is stored last, but the
laptop's broadcast comes last. -/
def overtaking : List Label :=
  connect "a" 0 ++ connect "b" 1 ++ connect "c" 2 ++
    [.store 0 "a" ⟨none, some "old", none⟩ 3, .store 1 "b" ⟨none, some "new", none⟩ 4,
      .broadcast 1, .broadcast 0]

lemma overtaking_within : ∀ l ∈ overtaking, Within 0 l := by
  simp [overtaking, connect, Within, Label.now?, ttlMs]

lemma overtaking_quiescent : Quiescent (Run.exec (step threeDevices) start overtaking) := by
  have hpub : (Run.exec (step threeDevices) start overtaking).publishing =
      Function.update (Function.update (Function.update (Function.update (fun _ => .fresh) 0
        (.stored ⟨"a", "alice", "laptop", ⟨none, some "old", none⟩⟩)) 1
        (.stored ⟨"b", "alice", "phone", ⟨none, some "new", none⟩⟩)) 1 .finished) 0 .finished := rfl
  have hcon : (Run.exec (step threeDevices) start overtaking).connecting =
      ["a", "b", "c"].foldl (fun con q => Function.update (Function.update (Function.update con q
        .registered) q (.read none)) q .done) (fun _ => .fresh) := rfl
  refine ⟨fun i p => ?_, fun q => ?_⟩
  · rw [hpub]
    by_cases h0 : i = 0
    · simp [h0]
    · by_cases h1 : i = 1 <;> simp [h0, h1, Function.update_of_ne]
  · rw [hcon]
    simp only [List.foldl_cons, List.foldl_nil, Function.update_idem, Function.update_apply]
    split_ifs <;> simp

/-- The desktop was delivered the phone's clipboard, and after it only what that one overtook. -/
theorem overtaking_agreement :
    ∃ k p, .stored k p ∈ history threeDevices overtaking ∧
      lastStored "alice" (history threeDevices overtaking) = some p ∧
      p.msg.content = some "new" ∧ p.deviceId = "phone" ∧
      ∃ pre f via post, history threeDevices overtaking = pre ++ .delivered "c" f via :: post ∧
        Carries (some "new") f ∧
        ∀ f' via', .delivered "c" f' via' ∈ post →
          Overtaken (history threeDevices overtaking) k p "c" f' via' :=
  final_agreement (e := ⟨some "new", "phone", 4⟩) (c := ⟨"c", true, true, "alice", "desktop"⟩)
    overtaking_within overtaking_quiescent (by decide) (by decide) rfl (by decide)

/-- The desktop ends with the laptop's clipboard while the cache holds the phone's. -/
theorem overtaken_disagrees :
    ¬ ∀ ls, (∀ l ∈ ls, Within 0 l) → Quiescent (Run.exec (step threeDevices) start ls) →
      FinalAgreement (Run.exec (step threeDevices) start ls) (history threeDevices ls) := by
  intro h
  have hagree := h overtaking overtaking_within overtaking_quiescent
  obtain ⟨f, hf, hcarries⟩ := hagree "alice" ⟨some "new", "phone", 4⟩ (by decide)
    ⟨"c", true, true, "alice", "desktop"⟩ (by decide) rfl (by decide)
  have hlast : (framesTo "c" (history threeDevices overtaking)).getLast? =
      some (.clipboard ⟨none, some "old", some "laptop"⟩) := by decide
  rw [hlast] at hf
  obtain rfl := Option.some.inj hf
  simp [Carries] at hcarries

end SyncClipboard.Delivery
