import Mathlib.Data.List.InsertIdx
import SyncClipboard.Client
import SyncClipboard.Run

/-!
The buffers and listening sockets of the Linux and Windows clients, as handles.

A transfer thread works on a copy of `g_xfer`, handles included. Every reset of `g_xfer` frees its
buffer and closes its socket, whether or not a thread still works with them: `file_notify` asks
nobody, and the clipboard monitor asks a count that a thread raises only once it runs, and asks it
before it takes the lock. A sender keeps its handles exactly as long as nothing resets a `g_xfer`
that shares one with it (`senders_keep_iff`).
-/

namespace SyncClipboard.Resources

open FtAuth ServerModel Client

/-- The handles in a `TransferState`, which are numbered. -/
structure Owned where
  data : Option ℕ
  listen : Option ℕ
  deriving DecidableEq

def Owned.handles (o : Owned) : List ℕ := o.data.toList ++ o.listen.toList

/-! ### A clipboard change in two steps -/

/-- What the monitor is about to offer. -/
inductive Pending
  | image (mime : String) (img : Bytes)
  | file (path : String) (data : Bytes)
  deriving DecidableEq

variable (lib : Lib) (opt : Options)

/-- A clipboard change up to the lock: the hashes, and the look at the active count. -/
def check (held : Held) (c : State) : State × Option Pending :=
  if effectiveFileLevel opt c ≤ 0 then (c, none)
  else match held.image with
    | some (mime, img) =>
      if lib.sha256 img = c.lastImgHash then (c, none)
      else
        let c := { c with lastImgHash := lib.sha256 img }
        if 0 < c.activeCount then (c, none) else (c, some (.image mime img))
    | none => match held.file with
      | some (path, some data) =>
        let size : ℤ := data.length
        if size ≤ 0 ∨ 1024 * 1024 * opt.maxTransferSize ≤ size then (c, none)
        else match opt.platform with
          | .linux => if 0 < c.activeCount then (c, none) else (c, some (.file path data))
          | .windows =>
            if lib.sha256 data = c.lastFileHash then (c, none)
            else
              let c := { c with lastFileHash := lib.sha256 data }
              if held.loaded = false ∨ 0 < c.activeCount then (c, none)
              else (c, some (.file path data))
      | _ => (c, none)

/-- The part under the lock. -/
def reset (l : Listening) (uuid : String) (p : Pending) (c : State) : State × List Did :=
  match p, opt.platform with
  | .image mime img, .linux =>
    offer l { Xfer.zero with
      fileId := uuid
      fileName := imageName mime
      mimeType := strncpy 63 mime
      fileSize := img.length
      data := some img
      checksum := lib.sha256 img } c
  | .image _ img, .windows =>
    match (lib.bmpToPng img).filter fun png => decide (png ≠ []) with
    | none =>
      ({ c with xfer := { Xfer.zero with
          isSender := true, fileId := uuid, listenFd := invalidSock } }, closeListen c.xfer)
    | some png =>
      offer l { Xfer.zero with
        fileId := uuid
        fileName := "clipboard.png"
        mimeType := "image/png"
        fileSize := png.length
        data := some png
        checksum := lib.sha256 png } c
  | .file path data, platform =>
    let xfer := { Xfer.zero with
      fileId := uuid
      fileName := strncpy 255 (fileNameOf opt path)
      mimeType := strncpy 63 (mimeFromExtension opt (fileNameOf opt path))
      fileSize := data.length
      checksum := lib.sha256 data }
    match platform with
    | .linux =>
      offer l { xfer with sourcePath := strncpy 511 path } { c with lastImgHash := lib.sha256 data }
    | .windows => offer l { xfer with data := some data } c

/-- With nothing in between, the two steps are the clipboard change. -/
theorem clipboardChange_eq (l : Listening) (uuid : String) (held : Held) (c : State)
    (htext : held.text = none) :
    clipboardChange lib opt l uuid held c =
      match check lib opt held c with
      | (c', some p) => reset lib opt l uuid p c'
      | (c', none) => (c', []) := by
  unfold clipboardChange check
  simp only [htext, Option.elim_none]
  by_cases hlevel : effectiveFileLevel opt c ≤ 0
  · rw [if_pos hlevel, if_pos hlevel]
  · rw [if_neg hlevel, if_neg hlevel]
    cases himg : held.image with
    | some mi =>
      obtain ⟨mime, img⟩ := mi
      simp only [offerImage]
      by_cases hsame : lib.sha256 img = c.lastImgHash
      · simp [hsame]
      · simp only [hsame, if_false]
        by_cases hactive : 0 < c.activeCount
        · simp [hactive]
        · simp only [hactive, if_false, reset]
          cases opt.platform <;> rfl
    | none =>
      cases hfile : held.file with
      | none => rfl
      | some pc =>
        obtain ⟨path, _ | data⟩ := pc
        · rfl
        · simp only [offerFile]
          by_cases hsize : (data.length : ℤ) ≤ 0 ∨ 1024 * 1024 * opt.maxTransferSize ≤ data.length
          · rw [if_pos hsize, if_pos hsize]
          · simp only [if_neg hsize, reset]
            cases opt.platform with
            | linux =>
              by_cases hactive : 0 < c.activeCount
              · simp [hactive]
              · simp only [hactive, if_false]
            | windows =>
              by_cases hsame : lib.sha256 data = c.lastFileHash
              · simp [hsame]
              · simp only [hsame, if_false]
                by_cases hskip : held.loaded = false ∨ 0 < c.activeCount
                · simp [hskip]
                · simp only [hskip, if_false]

/-! ### The client with its handles -/

/-- The client, what its monitor is about to offer, the handles in `g_xfer` and in the copies of the
threads (with whether the thread is a sender), those released, and the next fresh one. -/
structure World where
  client : State
  pending : Option Pending
  xfer : Owned
  threads : List (Bool × Owned)
  released : List ℕ
  next : ℕ

/-- `g_xfer` is zero when the program starts, which makes its listening socket descriptor 0. -/
def World.start : World := ⟨Client.start, none, ⟨none, some 0⟩, [], [], 1⟩

/-- `g_xfer` is reset: its handles are released, and it gets fresh ones for what it then holds. -/
def World.renew (w : World) (c : State) : World :=
  { w with
    client := c
    released := w.released ++ w.xfer.handles
    xfer := ⟨if c.xfer.data.isSome then some w.next else none,
      if c.xfer.listenFd ≠ invalidSock then some (w.next + 1) else none⟩
    next := w.next + 2 }

/-- `file_peer_info` starts a thread. -/
def accepts (m : FilePeerInfo) (c : State) : Prop :=
  m.fileId = c.xfer.fileId ∧ ¬ (c.xfer.isSender = false ∧ (0 < c.activeCount ∨ 2 ≤ c.xfer.phase))

instance (m : FilePeerInfo) (c : State) : Decidable (accepts m c) :=
  inferInstanceAs (Decidable (_ ∧ _))

def World.onMessage (l : Listening) (m : WsMessage) (w : World) : World :=
  let c := (Client.onMessage lib opt l m w.client).1
  match m with
  | .fileNotify _ => if effectiveFileLevel opt w.client ≤ 0 then { w with client := c } else w.renew c
  | .filePeerInfo p =>
    if accepts p w.client then
      { w with
        client := c
        threads := w.threads ++ [(w.client.xfer.isSender, w.xfer)]
        -- the thread of a receiver takes the listening socket over
        xfer := if w.client.xfer.isSender then w.xfer else { w.xfer with listen := none } }
    else { w with client := c }
  | _ => { w with client := c }

/-- A receiver closes its listening socket when it ends, a sender releases nothing. -/
def World.threadEnd (i : ℕ) (out : Outcome) (w : World) : World :=
  let c := (Client.threadEnd lib opt i out w.client).1
  match w.client.threads[i]?, w.threads[i]? with
  | some t, some (isSender, copy) =>
    if t.started = false then { w with client := c }
    else { w with
      client := c
      threads := w.threads.eraseIdx i
      released := if isSender then w.released else w.released ++ copy.listen.toList }
  | _, _ => { w with client := c }

inductive Event
  | message (l : Listening) (m : WsMessage)
  | change (held : Held)
  | offer (l : Listening) (uuid : String)
  | threadStart (i : ℕ)
  | threadEnd (i : ℕ) (out : Outcome)

def react (w : World) : Event → World
  | .message l m => w.onMessage lib opt l m
  -- the monitor is one thread
  | .change held =>
    if w.pending.isSome then w
    else { w with
      client := (check lib opt held w.client).1
      pending := (check lib opt held w.client).2 }
  | .offer l uuid =>
    match w.pending with
    | none => w
    | some p => { w.renew (reset lib opt l uuid p w.client).1 with pending := none }
  | .threadStart i => { w with client := (Client.threadStart i w.client).1 }
  | .threadEnd i out => w.threadEnd lib opt i out

def step (w : World) (e : Event) : World × List Empty := (react lib opt w e, [])

/-- No sender thread that has not ended has lost a handle of its copy. -/
def Kept (w : World) : Prop :=
  ∀ t ∈ w.threads, t.1 = true → ∀ h ∈ t.2.handles, h ∉ w.released

/-- The steps that reset `g_xfer`. -/
def resetsAt (c : State) (pending : Option Pending) : Event → Bool
  | .message _ (.fileNotify _) => decide (0 < effectiveFileLevel opt c)
  | .offer _ _ => pending.isSome
  | _ => false

def resets (w : World) : Event → Bool := resetsAt opt w.client w.pending

/-- The step does not reset `g_xfer` while a sender thread that has not ended shares a handle with
it. -/
def Safe (w : World) (e : Event) : Prop :=
  resets opt w e = true → ∀ t ∈ w.threads, t.1 = true → ∀ h ∈ t.2.handles, h ∉ w.xfer.handles

instance (w : World) (e : Event) : Decidable (Safe opt w e) := inferInstanceAs (Decidable (_ → _))

/-! ### Whose handles are whose -/

variable {lib opt}

lemma mem_handles {o : Owned} {h : ℕ} : h ∈ o.handles ↔ o.data = some h ∨ o.listen = some h := by
  simp [Owned.handles]

lemma mem_handles_of_listen {o : Owned} {h : ℕ} (hl : h ∈ o.listen.toList) : h ∈ o.handles :=
  List.mem_append_right _ hl

/-- The handles in `g_xfer` are live, and none of them, nor of a sender's, is the socket of a
receiver. While `g_xfer` is that of a receiver, it shares nothing with a sender. -/
structure Inv (w : World) : Prop where
  live : ∀ h ∈ w.xfer.handles, h ∉ w.released
  two : ∀ h, w.xfer.data = some h → w.xfer.listen ≠ some h
  boundXfer : ∀ h ∈ w.xfer.handles, h < w.next
  boundThreads : ∀ t ∈ w.threads, ∀ h ∈ t.2.handles, h < w.next
  boundReleased : ∀ h ∈ w.released, h < w.next
  apart : ∀ t ∈ w.threads, t.1 = false → ∀ h ∈ t.2.listen.toList, h ∉ w.xfer.handles ∧
    ∀ t' ∈ w.threads, t'.1 = true → h ∉ t'.2.handles
  own : w.client.xfer.isSender = false → ∀ t ∈ w.threads, t.1 = true → ∀ h ∈ t.2.handles,
    h ∉ w.xfer.handles

lemma inv_start : Inv World.start where
  live := by simp [World.start]
  two := by simp [World.start]
  boundXfer := by simp [World.start, Owned.handles]
  boundThreads := by simp [World.start]
  boundReleased := by simp [World.start]
  apart := by simp [World.start]
  own := by simp [World.start]

/-- The client may change, as long as `g_xfer` keeps its role. -/
lemma Inv.client {w : World} (h : Inv w) {c : State} (hrole : c.xfer.isSender = w.client.xfer.isSender)
    (pending : Option Pending) : Inv { w with client := c, pending := pending } :=
  ⟨h.live, h.two, h.boundXfer, h.boundThreads, h.boundReleased, h.apart,
    fun hs => h.own (hrole ▸ hs)⟩

lemma le_of_mem_renew {w : World} {c : State} {h : ℕ} (hh : h ∈ (w.renew c).xfer.handles) :
    w.next ≤ h ∧ h < w.next + 2 := by
  rw [mem_handles] at hh
  simp only [World.renew] at hh
  rcases hh with hh | hh
  · split_ifs at hh
    obtain rfl := Option.some.inj hh
    omega
  · split_ifs at hh
    obtain rfl := Option.some.inj hh
    omega

lemma Inv.renew {w : World} (h : Inv w) (c : State) : Inv (w.renew c) := by
  have hnext : (w.renew c).next = w.next + 2 := rfl
  have hold : ∀ x ∈ (w.renew c).released, x < w.next := by
    intro x hx
    rcases List.mem_append.mp hx with hx | hx
    · exact h.boundReleased x hx
    · exact h.boundXfer x hx
  have hfresh : ∀ t ∈ w.threads, ∀ x ∈ t.2.handles, x ∉ (w.renew c).xfer.handles := by
    intro t ht x hx hx'
    have hlt := h.boundThreads t ht x hx
    have hle := (le_of_mem_renew hx').1
    omega
  refine ⟨?_, ?_, ?_, ?_, ?_, ?_, ?_⟩
  · intro x hx hrel
    have hlt := hold x hrel
    have hle := (le_of_mem_renew hx).1
    omega
  · intro x hdata hlisten
    simp only [World.renew] at hdata hlisten
    split_ifs at hdata hlisten
    have hd := Option.some.inj hdata
    have hl := Option.some.inj hlisten
    omega
  · intro x hx
    exact hnext ▸ (le_of_mem_renew hx).2
  · intro t ht x hx
    have hlt := h.boundThreads t ht x hx
    rw [hnext]
    omega
  · intro x hx
    have hlt := hold x hx
    rw [hnext]
    omega
  · intro t ht hrole x hx
    exact ⟨hfresh t ht x (mem_handles_of_listen hx), (h.apart t ht hrole x hx).2⟩
  · intro _ t ht _ x hx
    exact hfresh t ht x hx

lemma Inv.spawn {w : World} (h : Inv w) {c : State}
    (hrole : c.xfer.isSender = w.client.xfer.isSender) :
    Inv { w with
      client := c
      threads := w.threads ++ [(w.client.xfer.isSender, w.xfer)]
      xfer := if w.client.xfer.isSender then w.xfer else { w.xfer with listen := none } } := by
  have hless : ∀ x, x ∈ (if w.client.xfer.isSender then w.xfer
      else { w.xfer with listen := none }).handles → x ∈ w.xfer.handles := by
    intro x hx
    split_ifs at hx
    · exact hx
    · rw [mem_handles] at hx ⊢
      exact .inl (hx.resolve_right (by simp))
  have hthreads : ∀ t ∈ w.threads ++ [(w.client.xfer.isSender, w.xfer)],
      t ∈ w.threads ∨ t = (w.client.xfer.isSender, w.xfer) := by
    intro t ht
    simpa using ht
  refine ⟨?_, ?_, ?_, ?_, h.boundReleased, ?_, ?_⟩
  · exact fun x hx => h.live x (hless x hx)
  · intro x hdata
    split_ifs at hdata ⊢
    · exact h.two x hdata
    · simp
  · exact fun x hx => h.boundXfer x (hless x hx)
  · intro t ht x hx
    rcases hthreads t ht with ht | rfl
    · exact h.boundThreads t ht x hx
    · exact h.boundXfer x hx
  · intro t ht hreceiver x hx
    rcases hthreads t ht with ht | rfl
    · obtain ⟨hxfer, hsenders⟩ := h.apart t ht hreceiver x hx
      refine ⟨fun hx' => hxfer (hless x hx'), fun t' ht' hsender => ?_⟩
      rcases hthreads t' ht' with ht' | rfl
      · exact hsenders t' ht' hsender
      · exact hxfer
    · -- the new thread is a receiver, and its socket is in `g_xfer` no more
      have hreceiver : w.client.xfer.isSender = false := hreceiver
      have hlisten : w.xfer.listen = some x := by simpa using hx
      refine ⟨?_, fun t' ht' hsender => ?_⟩
      · rw [mem_handles]
        simp only [hreceiver, Bool.false_eq_true, if_false, reduceCtorEq, or_false]
        exact fun hdata => h.two x hdata hlisten
      · rcases hthreads t' ht' with ht' | rfl
        · exact fun hx' => h.own hreceiver t' ht' hsender x hx' (mem_handles.mpr (.inr hlisten))
        · rw [hreceiver] at hsender
          cases hsender
  · intro hs t ht hsender x hx hx'
    have hreceiver : w.client.xfer.isSender = false := hrole ▸ hs
    rcases hthreads t ht with ht | rfl
    · exact h.own hreceiver t ht hsender x hx (hless x hx')
    · rw [hreceiver] at hsender
      cases hsender

lemma Inv.join {w : World} (h : Inv w) {c : State}
    (hrole : c.xfer.isSender = w.client.xfer.isSender) {i : ℕ} {isSender : Bool} {copy : Owned}
    (hi : w.threads[i]? = some (isSender, copy)) :
    Inv { w with
      client := c
      threads := w.threads.eraseIdx i
      released := if isSender then w.released else w.released ++ copy.listen.toList } := by
  have hmem : (isSender, copy) ∈ w.threads := List.mem_of_getElem? hi
  have hsub : ∀ t ∈ w.threads.eraseIdx i, t ∈ w.threads := fun t ht => List.mem_of_mem_eraseIdx ht
  refine ⟨?_, h.two, h.boundXfer, fun t ht => h.boundThreads t (hsub t ht), ?_, ?_, ?_⟩
  · intro x hx hrel
    cases isSender with
    | true => exact h.live x hx hrel
    | false =>
      rcases List.mem_append.mp hrel with hrel | hrel
      · exact h.live x hx hrel
      · exact (h.apart _ hmem rfl x hrel).1 hx
  · intro x hrel
    cases isSender with
    | true => exact h.boundReleased x hrel
    | false =>
      rcases List.mem_append.mp hrel with hrel | hrel
      · exact h.boundReleased x hrel
      · exact h.boundThreads _ hmem x (mem_handles_of_listen hrel)
  · intro t ht hreceiver x hx
    obtain ⟨hxfer, hsenders⟩ := h.apart t (hsub t ht) hreceiver x hx
    exact ⟨hxfer, fun t' ht' => hsenders t' (hsub t' ht')⟩
  · exact fun hs t ht => h.own (hrole ▸ hs) t (hsub t ht)

/-! ### What the client does to `g_xfer` -/

lemma check_keeps (held : Held) (c : State) :
    (check lib opt held c).1.xfer = c.xfer ∧ (check lib opt held c).1.threads = c.threads := by
  simp only [check]
  repeat' split
  all_goals exact ⟨rfl, rfl⟩

lemma threadStart_xfer (i : ℕ) (c : State) : (Client.threadStart i c).1.xfer = c.xfer := by
  unfold Client.threadStart
  repeat' split
  all_goals rfl

variable (lib opt) in
lemma threadEnd_xfer (i : ℕ) (out : Outcome) (c : State) :
    (Client.threadEnd lib opt i out c).1.xfer = c.xfer := by
  unfold Client.threadEnd
  split
  · rfl
  · dsimp only
    split_ifs
    · rfl
    · rfl
    · cases out.received with
      | none => rfl
      | some data => exact (remember_same lib opt data _).2.2

variable (lib opt) in
lemma threadEnd_threads {i : ℕ} {c : State} {t : Thread} (ht : c.threads[i]? = some t)
    (hstarted : ¬ t.started = false) (out : Outcome) :
    (Client.threadEnd lib opt i out c).1.threads = c.threads.eraseIdx i := by
  simp only [Client.threadEnd, ht]
  rw [if_neg hstarted]
  by_cases hs : t.st.isSender = true
  · rw [if_pos hs]
  · rw [if_neg hs]
    cases out.received with
    | none => rfl
    | some data => exact (remember_same lib opt data _).2.1

variable (opt) in
lemma onFilePeerInfo_role (m : FilePeerInfo) (c : State) :
    (onFilePeerInfo opt m c).1.xfer.isSender = c.xfer.isSender := by
  unfold onFilePeerInfo
  split_ifs
  · rfl
  · rfl
  · dsimp only
    split_ifs <;> rfl

/-- Only `file_notify` and `file_peer_info` touch `g_xfer` and the threads. -/
lemma onMessage_keeps {l : Listening} {m : WsMessage} {c : State} (hn : ∀ n, m ≠ .fileNotify n)
    (hp : ∀ p, m ≠ .filePeerInfo p) :
    (Client.onMessage lib opt l m c).1.xfer = c.xfer ∧
      (Client.onMessage lib opt l m c).1.threads = c.threads := by
  cases m with
  | fileNotify n => exact absurd rfl (hn n)
  | filePeerInfo p => exact absurd rfl (hp p)
  | fileRelayRequest r =>
    simp only [Client.onMessage, onFileRelayRequest]
    repeat' split
    all_goals exact ⟨rfl, rfl⟩
  | fileRelayData d =>
    simp only [Client.onMessage, onFileRelayData]
    split
    · exact ⟨rfl, rfl⟩
    · next dec _ => exact ⟨(remember_same lib opt dec c).2.2, (remember_same lib opt dec c).2.1⟩
  | _ => exact ⟨rfl, rfl⟩

variable (lib opt) in
lemma onMessage_client (w : World) (l : Listening) (m : WsMessage) :
    (w.onMessage lib opt l m).client = (Client.onMessage lib opt l m w.client).1 ∧
      (w.onMessage lib opt l m).pending = w.pending := by
  cases m with
  | fileNotify n =>
    simp only [World.onMessage]
    split_ifs <;> exact ⟨rfl, rfl⟩
  | filePeerInfo p =>
    simp only [World.onMessage]
    by_cases hacc : accepts p w.client
    · rw [if_pos hacc]
      exact ⟨rfl, rfl⟩
    · rw [if_neg hacc]
      exact ⟨rfl, rfl⟩
  | _ => exact ⟨rfl, rfl⟩

variable (lib opt) in
lemma threadEnd_client (w : World) (i : ℕ) (out : Outcome) :
    (w.threadEnd lib opt i out).client = (Client.threadEnd lib opt i out w.client).1 ∧
      (w.threadEnd lib opt i out).pending = w.pending := by
  unfold World.threadEnd
  dsimp only
  split
  · split_ifs <;> exact ⟨rfl, rfl⟩
  · exact ⟨rfl, rfl⟩

/-! ### Steps -/

variable (opt) in
/-- The ways a step changes the handles. -/
inductive Moves (w : World) (e : Event) : World → Prop
  | keep (hno : resets opt w e = false) (c : State) (hrole : c.xfer.isSender = w.client.xfer.isSender)
      (pending : Option Pending) : Moves w e { w with client := c, pending := pending }
  | renew (hre : resets opt w e = true) (c : State) (pending : Option Pending) :
      Moves w e { w.renew c with pending := pending }
  | spawn (hno : resets opt w e = false) (c : State)
      (hrole : c.xfer.isSender = w.client.xfer.isSender) :
      Moves w e { w with
        client := c
        threads := w.threads ++ [(w.client.xfer.isSender, w.xfer)]
        xfer := if w.client.xfer.isSender then w.xfer else { w.xfer with listen := none } }
  | join (hno : resets opt w e = false) (c : State)
      (hrole : c.xfer.isSender = w.client.xfer.isSender) (i : ℕ) (isSender : Bool) (copy : Owned)
      (hi : w.threads[i]? = some (isSender, copy)) :
      Moves w e { w with
        client := c
        threads := w.threads.eraseIdx i
        released := if isSender then w.released else w.released ++ copy.listen.toList }

lemma onMessage_moves (w : World) (l : Listening) (m : WsMessage) :
    Moves opt w (.message l m) (w.onMessage lib opt l m) := by
  cases m with
  | fileNotify n =>
    simp only [World.onMessage]
    split_ifs with hlevel
    · refine .keep (by simp [resets, resetsAt, hlevel]) _ ?_ w.pending
      simp [Client.onMessage, onFileNotify, hlevel]
    · exact .renew (by simp [resets, resetsAt]; omega) _ w.pending
  | filePeerInfo p =>
    have hrole := onFilePeerInfo_role opt p w.client
    simp only [World.onMessage]
    by_cases hacc : accepts p w.client
    · rw [if_pos hacc]
      exact .spawn rfl _ hrole
    · rw [if_neg hacc]
      exact .keep rfl _ hrole w.pending
  | _ =>
    refine .keep rfl _ ?_ w.pending
    rw [(onMessage_keeps (by simp) (by simp)).1]

variable (lib opt) in
lemma react_moves (w : World) (e : Event) : Moves opt w e (react lib opt w e) := by
  cases e with
  | message l m => exact onMessage_moves w l m
  | change held =>
    simp only [react]
    split_ifs
    · exact .keep rfl w.client rfl w.pending
    · exact .keep rfl _ (by rw [(check_keeps held w.client).1]) _
  | offer l uuid =>
    simp only [react]
    split
    · next hnone => exact .keep (by simp [resets, resetsAt, hnone]) w.client rfl w.pending
    · next p hsome => exact .renew (by simp [resets, resetsAt, hsome]) _ none
  | threadStart i => exact .keep rfl _ (by rw [threadStart_xfer]) w.pending
  | threadEnd i out =>
    simp only [react, World.threadEnd]
    split
    · next t isSender copy ht hi =>
      by_cases hstarted : t.started = false
      · rw [if_pos hstarted]
        exact .keep rfl _ (by rw [threadEnd_xfer]) w.pending
      · rw [if_neg hstarted]
        exact .join rfl _ (by rw [threadEnd_xfer]) i isSender copy hi
    · exact .keep rfl _ (by rw [threadEnd_xfer]) w.pending

lemma step_inv (w : World) (e : Event) (h : Inv w) : Inv (step lib opt w e).1 := by
  have hmoves := react_moves lib opt w e
  simp only [step]
  generalize react lib opt w e = w' at hmoves ⊢
  cases hmoves with
  | keep hno c hrole pending => exact h.client hrole pending
  | renew hre c pending => exact (h.renew c).client rfl pending
  | spawn hno c hrole => exact h.spawn hrole
  | join hno c hrole i isSender copy hi => exact h.join hrole hi

lemma kept_step (w : World) (e : Event) (h : Inv w) (hk : Kept w) :
    Kept (step lib opt w e).1 ↔ Safe opt w e := by
  have hmoves := react_moves lib opt w e
  simp only [step]
  generalize react lib opt w e = w' at hmoves ⊢
  cases hmoves with
  | keep hno c hrole pending => exact ⟨fun _ hre => by simp [hno] at hre, fun _ => hk⟩
  | renew hre c pending =>
    constructor
    · intro hkept _ t ht hsender x hx hx'
      exact hkept t ht hsender x hx (List.mem_append_right _ hx')
    · intro hsafe t ht hsender x hx hrel
      rcases List.mem_append.mp hrel with hrel | hrel
      · exact hk t ht hsender x hx hrel
      · exact hsafe hre t ht hsender x hx hrel
  | spawn hno c hrole =>
    refine ⟨fun _ hre => by simp [hno] at hre, fun _ t ht hsender x hx => ?_⟩
    rcases List.mem_append.mp ht with ht | ht
    · exact hk t ht hsender x hx
    · obtain rfl := List.mem_singleton.mp ht
      exact h.live x hx
  | join hno c hrole i isSender copy hi =>
    refine ⟨fun _ hre => by simp [hno] at hre, fun _ t ht hsender x hx hrel => ?_⟩
    have ht' : t ∈ w.threads := List.mem_of_mem_eraseIdx ht
    cases isSender with
    | true => exact hk t ht' hsender x hx hrel
    | false =>
      rcases List.mem_append.mp hrel with hrel | hrel
      · exact hk t ht' hsender x hx hrel
      · exact (h.apart _ (List.mem_of_getElem? hi) rfl x hrel).2 t ht' hsender hx

/-- **Senders keep their resources.** In every state of a run, whatever the order of messages, of
clipboard changes and of the threads' starts and ends, the handles of every sender that has not
ended are unreleased, if and only if no step resets a `g_xfer` that shares a handle with one. -/
theorem senders_keep_iff (lib : Lib) (opt : Options) (es : List Event) :
    (∀ pre post, es = pre ++ post → Kept (Run.exec (step lib opt) World.start pre)) ↔
      Run.Steps (step lib opt) (Safe opt) World.start es :=
  Run.always_iff_steps step_inv kept_step inv_start (by simp [Kept, World.start]) es

def sampleLib : Lib where
  sha256 data :=
    if data = [9] then "2b4c342f5433ebe591a1da77e013d1b72475562d48578dca8b84bac6651c3cb9" else ""
  base64Encode data := if data = [9] then "CQ==" else ""
  base64Decode s := if s = "CQ==" then some [9] else none
  bmpToPng _ := none

def sampleId : String := "6f1c8a2e-93d4-4b57-8f0a-1d2e3c4b5a69"

/-- An image is copied and offered, a peer asks for it and its sender runs; then a notification of
another file comes in. -/
def sampleRun : List Event := [
  .change ⟨some ("image/png", [9]), none, true, none⟩,
  .offer ⟨5, ["192.168.0.3:40001"]⟩ sampleId,
  .message ⟨6, []⟩ (.filePeerInfo ⟨sampleId, "phone", ["192.168.0.2:40002"], "", true, "sender", 3⟩),
  .threadStart 0,
  .message ⟨7, ["192.168.0.3:40003"]⟩ (.fileNotify ⟨"0b7d2f61-5a3c-4e88-9d10-7c6b5a493827",
    some "b.png", some "image/png", 1, none, "laptop", [], "", 1048576, 0, 3⟩)]

instance (w : World) : Decidable (Kept w) :=
  inferInstanceAs (Decidable (∀ t ∈ w.threads, t.1 = true → ∀ h ∈ t.2.handles, h ∉ w.released))

theorem notify_releases_sender :
    ¬ Kept (Run.exec (step sampleLib ⟨.linux, 3, 10⟩) World.start sampleRun) := by
  decide +kernel

/-! ### The handles against the client -/

/-- Which handles a `TransferState` holds. -/
def holds (x : Xfer) : Bool × Bool := (x.data.isSome, decide (x.listenFd ≠ invalidSock))

def Owned.holds (o : Owned) : Bool × Bool := (o.data.isSome, o.listen.isSome)

/-- The handles stand for the buffers and sockets of the client. -/
structure Matches (w : World) : Prop where
  xfer : w.xfer.holds = holds w.client.xfer
  threads : w.threads.map (fun t => (t.1, t.2.holds)) =
    w.client.threads.map fun t => (t.st.isSender, holds t.st)

lemma Matches.client {w : World} (h : Matches w) {c : State}
    (hkeeps : c.xfer = w.client.xfer ∧ c.threads = w.client.threads) (pending : Option Pending) :
    Matches { w with client := c, pending := pending } :=
  ⟨hkeeps.1 ▸ h.xfer, hkeeps.2 ▸ h.threads⟩

lemma Matches.renew {w : World} (h : Matches w) {c : State}
    (hthreads : c.threads = w.client.threads) (pending : Option Pending) :
    Matches { w.renew c with pending := pending } := by
  refine ⟨?_, ?_⟩
  · simp only [Owned.holds, World.renew, holds]
    split_ifs <;> simp_all
  · show w.threads.map _ = c.threads.map _
    rw [hthreads]
    exact h.threads

lemma Matches.onFilePeerInfo {w : World} (h : Matches w) (l : Listening) (p : FilePeerInfo) :
    Matches (w.onMessage lib opt l (.filePeerInfo p)) := by
  simp only [World.onMessage, Client.onMessage, Client.onFilePeerInfo]
  by_cases hacc : accepts p w.client
  · rw [if_pos hacc, if_neg (by simpa using hacc.1), if_neg hacc.2]
    refine ⟨?_, ?_⟩
    · have hx := h.xfer
      have hdata : w.xfer.data.isSome = w.client.xfer.data.isSome := congrArg Prod.fst hx
      cases hs : w.client.xfer.isSender with
      | true =>
        rw [if_pos rfl, if_pos (show (withPeer opt p w.client.xfer).isSender = true from hs)]
        exact hx
      | false => simp [hs, Owned.holds, holds, hdata, withPeer]
    · rw [List.map_append, List.map_append, h.threads]
      exact congrArg _ (congrArg (fun o => [(w.client.xfer.isSender, o)]) h.xfer)
  · rw [if_neg hacc]
    by_cases hid : p.fileId = w.client.xfer.fileId
    · rw [if_neg (by simpa using hid), if_pos (Decidable.not_not.mp fun hn => hacc ⟨hid, hn⟩)]
      exact h
    · rw [if_pos hid]
      exact h

lemma Matches.threadStart {w : World} (h : Matches w) (i : ℕ) :
    Matches { w with client := (Client.threadStart i w.client).1 } := by
  refine ⟨(threadStart_xfer i w.client) ▸ h.xfer, ?_⟩
  show w.threads.map _ = (Client.threadStart i w.client).1.threads.map _
  rw [h.threads]
  unfold Client.threadStart
  cases ht : w.client.threads[i]? with
  | none => rfl
  | some t =>
    dsimp only
    by_cases hs : t.started = true
    · rw [if_pos hs]
    · rw [if_neg hs]
      obtain ⟨hi, rfl⟩ := List.getElem?_eq_some_iff.mp ht
      refine List.ext_getElem (by simp) fun j hj hj' => ?_
      by_cases hij : i = j
      · simp [hij]
      · simp [hij]

lemma Matches.threadEnd {w : World} (h : Matches w) (i : ℕ) (out : Outcome) :
    Matches (w.threadEnd lib opt i out) := by
  have hxfer := threadEnd_xfer lib opt i out w.client
  have hget : (w.threads[i]?).map (fun t => (t.1, t.2.holds)) =
      (w.client.threads[i]?).map fun t => (t.st.isSender, holds t.st) := by
    rw [← List.getElem?_map, ← List.getElem?_map, h.threads]
  simp only [World.threadEnd]
  cases ht : w.client.threads[i]? with
  | none =>
    have hsame : (Client.threadEnd lib opt i out w.client).1 = w.client := by
      simp [Client.threadEnd, ht]
    rw [hsame]
    exact h
  | some t =>
    obtain ⟨u, hu, -⟩ := Option.map_eq_some_iff.mp (hget.trans (congrArg _ ht))
    obtain ⟨isSender, copy⟩ := u
    rw [hu]
    dsimp only
    by_cases hstarted : t.started = false
    · have hsame : (Client.threadEnd lib opt i out w.client).1 = w.client := by
        simp [Client.threadEnd, ht, hstarted]
      rw [if_pos hstarted, hsame]
      exact h
    · rw [if_neg hstarted]
      refine ⟨hxfer ▸ h.xfer, ?_⟩
      have hthreads := threadEnd_threads lib opt ht hstarted out
      show (w.threads.eraseIdx i).map _ = (Client.threadEnd lib opt i out w.client).1.threads.map _
      rw [hthreads, ← List.eraseIdx_map, ← List.eraseIdx_map, h.threads]

lemma reset_threads (l : Listening) (uuid : String) (p : Pending) (c : State) :
    (reset lib opt l uuid p c).1.threads = c.threads := by
  simp only [reset]
  repeat' split
  all_goals rfl

lemma step_matches (w : World) (e : Event) (h : Matches w) : Matches (step lib opt w e).1 := by
  cases e with
  | message l m =>
    cases m with
    | fileNotify n =>
      simp only [step, react, World.onMessage, Client.onMessage]
      by_cases hlevel : effectiveFileLevel opt w.client ≤ 0
      · rw [if_pos hlevel, onFileNotify, if_pos hlevel]
        exact h
      · rw [if_neg hlevel]
        exact h.renew (by rw [onFileNotify, if_neg hlevel]) w.pending
    | filePeerInfo p => exact h.onFilePeerInfo l p
    | _ => exact h.client (onMessage_keeps (by simp) (by simp)) w.pending
  | change held =>
    simp only [step, react]
    split_ifs
    · exact h
    · exact h.client (check_keeps held w.client) _
  | offer l uuid =>
    simp only [step, react]
    split
    · exact h
    · next p hp => exact h.renew (reset_threads l uuid p w.client) none
  | threadStart i => exact h.threadStart i
  | threadEnd i out => exact h.threadEnd i out

/-- In every run the handles in `g_xfer` and in the threads' copies are those of the client. -/
theorem exec_matches (lib : Lib) (opt : Options) (es : List Event) :
    Matches (Run.exec (step lib opt) World.start es) :=
  Run.exec_inv step_matches ⟨rfl, rfl⟩ es

end SyncClipboard.Resources
