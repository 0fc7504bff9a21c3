import SyncClipboard.Phone
import SyncClipboard.Run

/-!
Received images that are offered again.

The service that puts a received image into the clipboard ignores the next change it is told about. The
accessibility service sees the same change and hands the image to it, and what was received is not what
`sendImageFromExternal` compares with: it knows the last image that was offered. So the image goes out
again as soon as a callback takes it for new while the client is logged in (`not_reoffered_iff`).
-/

namespace SyncClipboard.Reoffer

open FtAuth ServerModel Phone
open Client (Lib Did)

def isOffer : Did → Bool
  | .send (.fileOffer _) => true
  | _ => false

/-- The clipboard belongs to the received image: the user does not copy, and nothing else comes. -/
def Quiet : Event → Prop
  | .copy _ | .text _ | .transfer (.post _) => False
  | _ => True

/-- The callback reads the clipboard, and not because it ignores a change of its own. -/
def Forwards (store : Android.Store) (p : State) : Event → Prop
  | .serviceCall r => p.serviceCalls ≠ 0 ∧ p.suppressNext = false ∧
      ¬ (store.fileTransferLevel ≤ 0 ∨ p.service.serverFileLevel ≤ 0) ∧
      r.access = .clip ∧ r.opens = true
  | .accessibilityCall r => p.accessibilityCalls ≠ 0 ∧ r.access = .clip ∧ r.opens = true
  | .reader r => p.readers ≠ 0 ∧ r.access = .clip ∧ r.opens = true
  | _ => False

/-- The image is in the clipboard, and another image was offered last. -/
def Holding (png : Bytes) (imgHash : String) (p : State) : Prop :=
  p.clip = imageClip png ∧ p.lastImgHash = imgHash

variable {lib : Lib} {store : Android.Store} {platform : Platform} {p : State} {r : Reading}

/-! ### Steps that have nothing to do with images -/

/-- The step offers nothing and leaves everything about the image. -/
structure Calm (p : State) (next : State × List Did) : Prop where
  clip : next.1.clip = p.clip
  lastImgHash : next.1.lastImgHash = p.lastImgHash
  noOffer : ∀ d ∈ next.2, isOffer d = false

lemma Calm.refl (p : State) : Calm p (p, []) := ⟨rfl, rfl, by simp⟩

lemma Calm.holding {png : Bytes} {imgHash : String} {next : State × List Did} (h : Calm p next)
    (hp : Holding png imgHash p) : Holding png imgHash next.1 := by
  unfold Holding
  rw [h.clip, h.lastImgHash]
  exact hp

lemma calm_sendText (text : String) : Calm p (sendText platform r text p) := by
  unfold sendText
  dsimp only
  split_ifs
  · exact .refl p
  · refine ⟨rfl, rfl, fun d hd => ?_⟩
    obtain ⟨enc, -, rfl⟩ := Option.map_eq_some_iff.mp (Option.mem_toList.mp hd)
    rfl

lemma calm_sendClipboardFromExternal (text : String) :
    Calm p (sendClipboardFromExternal platform r text p) := by
  unfold sendClipboardFromExternal
  split_ifs
  · exact .refl p
  · exact calm_sendText text

lemma calm_forwardToClipboardService (text : String) :
    Calm p (forwardToClipboardService platform r text p) := by
  unfold forwardToClipboardService
  dsimp only
  split_ifs
  · exact .refl p
  · have hcalm : Calm { p with seenClipHash := platform.hashCode text } _ :=
      @calm_sendClipboardFromExternal platform _ r text
    exact ⟨hcalm.clip, hcalm.lastImgHash, hcalm.noOffer⟩

lemma calm_launchClipboardReader : Calm p (launchClipboardReader r p, []) := by
  unfold launchClipboardReader
  split_ifs
  · exact ⟨rfl, rfl, by simp⟩
  · exact .refl p

lemma calm_readSelectedOrLaunch : Calm p (readSelectedOrLaunch platform r p) := by
  unfold readSelectedOrLaunch
  split
  · exact calm_forwardToClipboardService _
  · exact calm_launchClipboardReader

lemma calm_announcementPost : Calm p (announcementPost platform r p) := by
  unfold announcementPost
  split
  · exact calm_forwardToClipboardService _
  · split
    · exact calm_forwardToClipboardService _
    · exact calm_launchClipboardReader

/-- Apart from the posts, file transfer sends requests and relayed files only. -/
lemma sends_of_transfer {e : Android.Event} (hpost : ∀ main, e ≠ .post main)
    (himage : ∀ addrs fileId mime data, e ≠ .image addrs fileId mime data) (c : Android.Service) :
    ∀ d ∈ (Android.step lib store c e).2, (∃ m, d = .send m) ∧ isOffer d = false := by
  have hdoes := @Android.does lib store c e
  generalize Android.step lib store c e = next at hdoes ⊢
  intro d hd
  cases hdoes with
  | requested hlevel hid hdata =>
    rw [List.mem_singleton.mp hd]
    exact ⟨⟨_, rfl⟩, rfl⟩
  | answered hstate hdata =>
    rw [List.mem_singleton.mp hd]
    exact ⟨⟨_, rfl⟩, rfl⟩
  | ended hstate hds =>
    obtain ⟨m, rfl⟩ := hds d hd
    exact ⟨⟨_, rfl⟩, rfl⟩
  | offered => exact absurd rfl (himage _ _ _ _)
  | reported hposted hthrows hd' hres => exact absurd rfl (hpost _)
  | _ => cases hd

lemma foldl_place_sends {ds : List Did} (h : ∀ d ∈ ds, ∃ m, d = .send m) (p : State) :
    ds.foldl (place platform) p = p := by
  induction ds with
  | nil => rfl
  | cons d ds ih =>
    obtain ⟨m, rfl⟩ := h d (by simp)
    exact ih fun d' hd' => h d' (by simp [hd'])

lemma calm_transfer {e : Android.Event} (hpost : ∀ main, e ≠ .post main) :
    Calm p (step lib store platform p (.transfer e)) := by
  by_cases himage : ∃ addrs fileId mime data, e = .image addrs fileId mime data
  · obtain ⟨addrs, fileId, mime, data, rfl⟩ := himage
    exact .refl p
  · push Not at himage
    have hsends : ∀ d ∈ (Android.step lib store p.service e).2,
        (∃ m, d = .send m) ∧ isOffer d = false := sends_of_transfer hpost himage p.service
    have hplace : (Android.step lib store p.service e).2.foldl (place platform)
        { p with service := (Android.step lib store p.service e).1 } =
        { p with service := (Android.step lib store p.service e).1 } :=
      foldl_place_sends (fun d hd => (hsends d hd).1) _
    have hstep : step lib store platform p (.transfer e) =
        ({ p with service := (Android.step lib store p.service e).1 },
          (Android.step lib store p.service e).2) := by
      cases e with
      | image addrs fileId mime data => exact absurd rfl (himage addrs fileId mime data)
      | _ => exact Prod.ext hplace rfl
    rw [hstep]
    exact ⟨rfl, rfl, fun d hd => (hsends d hd).2⟩

/-! ### The image -/

variable {png : Bytes} {imgHash : String}

/-- An image that was not offered last is offered, if the client is logged in. -/
lemma sendImageFromExternal_offers (data : Bytes) (mime : String) :
    ((∀ d ∈ (sendImageFromExternal lib r data mime p).2, isOffer d = false) ↔
      p.loggedIn = false ∨ lib.sha256 data = p.lastImgHash) ∧
    (p.loggedIn = false ∨ lib.sha256 data = p.lastImgHash →
      sendImageFromExternal lib r data mime p = (p, [])) := by
  unfold sendImageFromExternal sendImage
  by_cases hlogged : p.loggedIn = false
  · simp [hlogged]
  · by_cases hhash : lib.sha256 data = p.lastImgHash
    · simp [hlogged, hhash]
    · simp [hlogged, hhash, Android.sendImageOffer, isOffer]

lemma read_image (r : Reading) (type : Option String) :
    (Phone.read r ⟨type, some png⟩).filter (fun data => decide (data ≠ [])) =
      if r.opens = true ∧ png ≠ [] then some png else none := by
  unfold Phone.read
  by_cases hopens : r.opens = true
  · by_cases hempty : png = []
    · simp [hempty]
    · rw [if_pos hopens, if_pos ⟨hopens, hempty⟩, Option.filter_some, if_pos (by simpa using hempty)]
  · simp [hopens]

lemma type_image : (some "image/png").filter Client.isImage = some "image/png" := by decide

/-- What the service makes of a change that it does not ignore. -/
lemma serviceChanged_image (h : p.clip = imageClip png) :
    if (p.suppressNext = false ∧ ¬ (store.fileTransferLevel ≤ 0 ∨ p.service.serverFileLevel ≤ 0) ∧
        r.access = .clip ∧ r.opens = true) ∧ png ≠ [] then
      serviceChanged lib store platform r p = sendImageFromExternal lib r png "image/png" p
    else Calm p (serviceChanged lib store platform r p) := by
  unfold serviceChanged sendImageFromExternal
  by_cases hlogged : p.loggedIn = false
  · simp only [if_pos hlogged]
    split_ifs
    exact .refl p
  · simp only [if_neg hlogged]
    cases hsuppress : p.suppressNext with
    | true =>
      simp only [Bool.true_eq_false, false_and, if_true, if_false]
      exact ⟨rfl, rfl, by simp⟩
    | false =>
      simp only [Bool.false_eq_true, if_false, true_and, primaryClip, checkAndSendImageClipboard]
      by_cases haccess : r.access = .clip
      · simp only [haccess, if_true, h, true_and, imageOf, pickImageMime, imageClip, Option.bind_some,
          Option.getD_some, read_image, Option.filter_none]
        by_cases hlevel : store.fileTransferLevel ≤ 0 ∨ p.service.serverFileLevel ≤ 0
        · simp only [hlevel, not_true_eq_false, false_and, if_true, if_false]
          exact .refl p
        · by_cases hsent : r.opens = true ∧ png ≠ []
          · simp only [hlevel, hsent.1, hsent.2, ne_eq, not_false_eq_true, and_self, if_true, if_false,
              Option.map_some]
            by_cases hhash : lib.sha256 png = p.lastImgHash
            · simp only [hhash, if_true, sendImage]
            · simp only [hhash, if_false]
          · simp only [hlevel, not_false_eq_true, true_and, if_neg hsent, if_false, Option.map_none]
            exact .refl p
      · simp only [haccess, if_false, false_and, and_false]
        exact .refl p

/-- What the accessibility service does with the image. -/
lemma accessibilityChanged_image (h : p.clip = imageClip png) :
    if (r.access = .clip ∧ r.opens = true) ∧ png ≠ [] then
      accessibilityChanged lib platform r p = sendImageFromExternal lib r png "image/png" p
    else Calm p (accessibilityChanged lib platform r p) := by
  unfold accessibilityChanged
  cases haccess : r.access with
  | throws => exact .refl p
  | null => exact calm_readSelectedOrLaunch
  | clip =>
    simp only [h, imageClip, Option.filter_none, forwardImageToClipboardService, type_image, read_image,
      true_and]
    by_cases hsent : r.opens = true ∧ png ≠ []
    · simp only [if_pos hsent]
    · simp only [if_neg hsent]
      exact .refl p

lemma readClipboard_image (h : p.clip = imageClip png) :
    if (r.access = .clip ∧ r.opens = true) ∧ png ≠ [] then
      readClipboard lib platform r p = sendImageFromExternal lib r png "image/png" p
    else Calm p (readClipboard lib platform r p) := by
  unfold readClipboard primaryClip
  by_cases haccess : r.access = .clip
  · simp only [haccess, h, imageClip, if_true, Option.bind_some, type_image, read_image, true_and,
      Option.filter_none]
    by_cases hsent : r.opens = true ∧ png ≠ []
    · simp only [if_pos hsent]
    · simp only [if_neg hsent]
      exact .refl p
  · simp only [haccess, if_false, false_and]
    exact .refl p

/-- A callback that takes the image for new hands it over. -/
lemma handsOver {q : State} {next : State × List Did} {F : Prop} [Decidable F]
    (hq : Holding png imgHash q) (hlogged : q.loggedIn = p.loggedIn)
    (hnext : if F ∧ png ≠ [] then next = sendImageFromExternal lib r png "image/png" q
      else Calm q next) :
    (F ∧ png ≠ [] ∧ ∃ r q, Holding png imgHash q ∧ q.loggedIn = p.loggedIn ∧
      next = sendImageFromExternal lib r png "image/png" q) ∨
    (¬ (F ∧ png ≠ []) ∧ Holding png imgHash next.1 ∧ ∀ d ∈ next.2, isOffer d = false) := by
  by_cases hread : F ∧ png ≠ []
  · rw [if_pos hread] at hnext
    exact .inl ⟨hread.1, hread.2, r, q, hq, hlogged, hnext⟩
  · rw [if_neg hread] at hnext
    exact .inr ⟨hread, hnext.holding hq, hnext.noOffer⟩

/-- A step hands the image over, or has nothing to do with it. -/
lemma step_cases (hp : Holding png imgHash p) {e : Event} (he : Quiet e) :
    (Forwards store p e ∧ png ≠ [] ∧ ∃ r q, Holding png imgHash q ∧ q.loggedIn = p.loggedIn ∧
      step lib store platform p e = sendImageFromExternal lib r png "image/png" q) ∨
    (¬ (Forwards store p e ∧ png ≠ []) ∧ Holding png imgHash (step lib store platform p e).1 ∧
      ∀ d ∈ (step lib store platform p e).2, isOffer d = false) := by
  have hcalm : ∀ {next : State × List Did}, Calm p next → Holding png imgHash next.1 ∧
      ∀ d ∈ next.2, isOffer d = false := fun h => ⟨h.holding hp, h.noOffer⟩
  cases e with
  | copy clip => exact he.elim
  | text plaintext => exact he.elim
  | transfer e =>
    refine .inr ⟨fun h => h.1, hcalm (calm_transfer fun main heq => ?_)⟩
    subst heq
    exact he
  | state x =>
    refine .inr ⟨fun h => h.1, ?_, by simp [step]⟩
    cases x <;> exact hp
  | serviceCall r =>
    simp only [step, Forwards]
    split_ifs with hzero
    · exact .inr ⟨fun h => h.1.1 hzero, hcalm (.refl p)⟩
    · have hq : Holding png imgHash { p with serviceCalls := p.serviceCalls - 1 } := hp
      simp only [ne_eq, hzero, not_false_eq_true, true_and]
      exact handsOver hq rfl (serviceChanged_image hq.1)
  | accessibilityCall r =>
    simp only [step, Forwards]
    split_ifs with hzero
    · exact .inr ⟨fun h => h.1.1 hzero, hcalm (.refl p)⟩
    · have hq : Holding png imgHash { p with accessibilityCalls := p.accessibilityCalls - 1 } := hp
      simp only [ne_eq, hzero, not_false_eq_true, true_and]
      exact handsOver hq rfl (accessibilityChanged_image hq.1)
  | reader r =>
    simp only [step, Forwards]
    split_ifs with hzero
    · exact .inr ⟨fun h => h.1.1 hzero, hcalm (.refl p)⟩
    · have hq : Holding png imgHash { p with readers := p.readers - 1 } := hp
      simp only [ne_eq, hzero, not_false_eq_true, true_and]
      exact handsOver hq rfl (readClipboard_image hq.1)
  | announcement => exact .inr ⟨fun h => h.1, hcalm ⟨rfl, rfl, by simp [step]⟩⟩
  | announced r =>
    refine .inr ⟨fun h => h.1, ?_⟩
    simp only [step]
    split_ifs
    · exact hcalm (.refl p)
    · have hq : Holding png imgHash { p with announcements := p.announcements - 1 } := hp
      have hpost : Calm { p with announcements := p.announcements - 1 }
        (announcementPost platform r { p with announcements := p.announcements - 1 }) :=
          calm_announcementPost
      exact ⟨hpost.holding hq, hpost.noOffer⟩

lemma step_silent_iff (hp : Holding png imgHash p) {e : Event} (he : Quiet e) :
    ((∀ d ∈ (step lib store platform p e).2, isOffer d = false) ↔
      (Forwards store p e → (png = [] ∨ lib.sha256 png = imgHash) ∨ p.loggedIn = false)) ∧
    ((Forwards store p e → (png = [] ∨ lib.sha256 png = imgHash) ∨ p.loggedIn = false) →
      Holding png imgHash (step lib store platform p e).1) := by
  rcases @step_cases lib store platform p png imgHash hp e he with
    ⟨hforwards, hne, r, q, hq, hlogged, hstep⟩ | ⟨hnot, hnext, hsilent⟩
  · obtain ⟨hoffers, hsame⟩ := @sendImageFromExternal_offers lib q r png "image/png"
    rw [hstep]
    have hcond : (Forwards store p e → (png = [] ∨ lib.sha256 png = imgHash) ∨ p.loggedIn = false) ↔
        q.loggedIn = false ∨ lib.sha256 png = q.lastImgHash := by
      rw [hq.2, hlogged]
      constructor
      · intro h
        rcases h hforwards with (hempty | hhash) | hout
        · exact absurd hempty hne
        · exact .inr hhash
        · exact .inl hout
      · rintro (hout | hhash) _
        · exact .inr hout
        · exact .inl (.inr hhash)
    refine ⟨hoffers.trans hcond.symm, fun h => ?_⟩
    rw [hsame (hcond.mp h)]
    exact hq
  · refine ⟨⟨fun _ hforwards => .inl (.inl ?_), fun _ => hsilent⟩, fun _ => hnext⟩
    by_contra hne
    exact hnot ⟨hforwards, hne⟩

/-! ### After a reception -/

variable (lib store platform) in
/-- The image is received: the main thread runs the post of `onFileReceived`. -/
lemma holding_post {file : Android.Received} {posted : List Android.Received}
    (hposted : p.service.posted = file :: posted) (himage : Client.isImage file.mimeType = true)
    {main : Android.Main} (hsaved : main.saved = true) (hthrows : main.throws = false) :
    Holding (platform.encodePng file.file) p.lastImgHash
      (step lib store platform p (.transfer (.post main))).1 ∧
    ∀ d ∈ (step lib store platform p (.transfer (.post main))).2, isOffer d = false := by
  simp only [step, Android.step, Android.onFileReceived, hposted, hthrows, himage, hsaved, place,
    Bool.false_eq_true, if_false, Bool.and_self, if_true, List.cons_append, List.nil_append,
    List.foldl_cons, List.foldl_nil]
  refine ⟨⟨rfl, rfl⟩, ?_⟩
  simp [isOffer]

/-- **A received image is not offered again**, whatever the state before and in whatever order the
callbacks run, if and only if it is the image that was offered last, or the client is not logged in
whenever a callback reads it: one of the accessibility service, of the reader, or of the service itself
when there are more changes than it ignores. (An image of no bytes is never offered.) -/
theorem not_reoffered_iff (lib : Lib) (store : Android.Store) (platform : Platform) (p : State)
    (file : Android.Received) (posted : List Android.Received)
    (hposted : p.service.posted = file :: posted) (himage : Client.isImage file.mimeType = true)
    (main : Android.Main) (hsaved : main.saved = true) (hthrows : main.throws = false)
    (es : List Event) (hes : ∀ e ∈ es, Quiet e) :
    (∀ d ∈ Run.outs (step lib store platform) p (.transfer (.post main) :: es), isOffer d = false) ↔
      (platform.encodePng file.file = [] ∨
        lib.sha256 (platform.encodePng file.file) = p.lastImgHash) ∨
      Run.Steps (step lib store platform) (fun p e => Forwards store p e → p.loggedIn = false)
        (step lib store platform p (.transfer (.post main))).1 es := by
  obtain ⟨hholding, hpost⟩ := holding_post lib store platform hposted himage hsaved hthrows
  have hiff := Run.outs_iff_steps (fun p e hp he => @step_silent_iff lib store platform p _ _ hp e he)
    hholding hes
  rw [Run.outs_cons, List.forall_mem_append, and_iff_right hpost, hiff]
  by_cases hknown : platform.encodePng file.file = [] ∨
      lib.sha256 (platform.encodePng file.file) = p.lastImgHash
  · simp only [hknown, true_or, implies_true, Run.steps_true]
  · simp only [hknown, false_or]

section Sample

/-- A PNG of one byte, and its hash. -/
def pngLib : Lib :=
  ⟨fun data => if data = [137] then "png" else "", fun _ => "", fun _ => none, fun _ => none⟩

def pngPlatform : Platform := ⟨fun _ => [137], fun _ _ => ⟨false, none, none⟩, fun _ => ""⟩

def bothLevels : Android.Store := ⟨3, 100⟩

def received : Android.Received := ⟨[1, 2], "clipboard.jpg", "image/jpeg", "lan", 1, 1⟩

/-- An image has been received and waits for the main thread; `imgHash` was offered last. -/
def ready (imgHash : String) : State :=
  ⟨⟨3, false, none, [], [], [received]⟩, true, false, "", imgHash, "", ⟨false, none, none⟩, 0, 0, 0, 0⟩

/-- Nothing stands in the way. -/
def free : Reading := ⟨.clip, true, none, true, fun _ => none, "f", []⟩

/-- The image was offered here last, and it stays here. -/
theorem not_reoffered_known :
    (ready "png").service.posted = [received] ∧
      ∀ d ∈ Run.outs (step pngLib bothLevels pngPlatform) (ready "png")
        [.transfer (.post ⟨true, false⟩), .accessibilityCall free, .serviceCall free],
        isOffer d = false := by
  have hes : ∀ e ∈ [Event.accessibilityCall free, .serviceCall free], Quiet e := by
    intro e he
    rcases List.mem_cons.mp he with rfl | he
    · trivial
    · rw [List.mem_singleton.mp he]
      trivial
  exact ⟨rfl, (not_reoffered_iff pngLib bothLevels pngPlatform (ready "png") received [] rfl
    (by decide) ⟨true, false⟩ rfl rfl _ hes).mpr (.inl (.inr rfl))⟩

/-- Otherwise the accessibility service offers it, also where the other callback has run before. -/
theorem received_image_reoffered :
    (ready "").service.posted = [received] ∧
      ¬ ∀ d ∈ Run.outs (step pngLib bothLevels pngPlatform) (ready "")
        [.transfer (.post ⟨true, false⟩), .serviceCall free, .accessibilityCall free],
        isOffer d = false := by
  refine ⟨rfl, ?_⟩
  decide

end Sample

end SyncClipboard.Reoffer
