import SyncClipboard.Dispatcher
import SyncClipboard.PeerInfo

/-!
The file that the Android client names when it reports a reception.

`onFileReceived` has no file id. Its post to the main thread names the current file, which is the one
that was announced or offered last, whatever file has been received. So each result names its own file
exactly where nothing was announced or offered between the two (`reported_iff`).
-/

namespace SyncClipboard.ReportedId

open ServerModel Client Android PeerInfo

/-- The service, with the file that each of its queues is about, entry by entry. -/
structure Tagged where
  service : Service
  relayedIds : List String
  postedIds : List String

def init : Tagged := ⟨Android.start, [], []⟩

/-- A result that was sent, and the file whose reception it reports. -/
structure Report where
  result : FileTransferResult
  file : Option String
  deriving DecidableEq

variable (lib : Lib) (store : Store)

/-- The file that a task of the executor is about. -/
def fileOf (t : Tagged) : Event → Option String
  | .transferEnd i _ => t.service.transfers[i]?.map TransferState.fileId
  | .relayEnd i _ => t.relayedIds[i]?
  | _ => none

def relayedIds (t : Tagged) : Event → List String
  | .message _ (.fileRelayData m) => if m.data.isSome then t.relayedIds ++ [m.fileId] else t.relayedIds
  | .relayEnd i _ => t.relayedIds.eraseIdx i
  | _ => t.relayedIds

/-- What the task has received is posted last, and the main thread takes the first post. -/
def postedIds (t : Tagged) (e : Event) (posted : List Android.Received) : List String :=
  if t.service.posted.length < posted.length then t.postedIds ++ (fileOf t e).toList
  else if posted.length < t.service.posted.length then t.postedIds.tail
  else t.postedIds

def results (ds : List Did) : List FileTransferResult :=
  ds.filterMap fun
    | .send (.fileTransferResult r) => some r
    | _ => none

/-- A step of the service, with the results it sends. -/
def step (t : Tagged) (e : Event) : Tagged × List Report :=
  let next := Android.step lib store t.service e
  (⟨next.1, relayedIds t e, postedIds t e next.1.posted⟩,
    (results next.2).map fun r => ⟨r, t.postedIds.head?⟩)

/-- The result names the file it reports on, and no other offer suffers from it. -/
def Report.Right (r : Report) : Prop :=
  r.result.fileId = r.file ∧
    ∀ (st : Server) (fileId : String), some fileId ≠ r.file →
      (Dispatcher.handleResult r.result st).st.activeOffers fileId = st.activeOffers fileId

/-- What an event makes of the current file. -/
def name (current : Option String) : Event → Option String
  | .message _ (.fileNotify m) => if store.fileTransferLevel ≤ 0 then current else some m.fileId
  | .image _ fileId _ _ => some fileId
  | .cleanup => none
  | _ => current

/-- The file that was announced or offered last, until the service is destroyed. -/
def named (past : List Event) : Option String := past.foldl (name store) none

/-- The same in a state of the service. -/
def current (t : Tagged) : Option String := t.service.currentState.map TransferState.fileId

variable {lib store} {t : Tagged}

/-! ### The current file -/

lemma name_of_calm {e : Event} (h : Calm store e) (current : Option String) :
    name store current e = current := by
  unfold name
  split
  · exact if_pos h
  · exact h.elim
  · exact h.elim
  · rfl

lemma current_step (t : Tagged) (e : Event) :
    current (step lib store t e).1 = name store (current t) e := by
  obtain hcalm | ⟨addrs, m, rfl, hlevel⟩ | ⟨addrs, m, rfl⟩ | ⟨addrs, fileId, mime, data, rfl⟩ | rfl :=
    calm_or store e
  · have hsame : Same t.service (step lib store t e).1.service := same_step hcalm
    rw [name_of_calm hcalm, current, hsame.current, current]
  · simp only [step, Android.step, handleMessage, handleFileNotify, name, if_neg hlevel]
    rfl
  · simp only [current, step, Android.step, handleMessage, handleFilePeerInfo, name]
    cases hstate : t.service.currentState with
    | none => simp [hstate]
    | some state =>
      dsimp only
      split_ifs
      · simp [hstate]
      · rfl
  · rfl
  · rfl

lemma current_exec (es : List Event) :
    current (Run.exec (step lib store) init es) = named store es :=
  Run.view_exec current_step init es

/-! ### The files of the queues -/

/-- Every entry has its file. -/
def Complete (t : Tagged) : Prop :=
  t.postedIds.length = t.service.posted.length ∧ t.relayedIds.length = t.service.relayed.length

lemma length_postedIds (h : t.postedIds.length = t.service.posted.length) {e : Event} {file : String}
    (hfile : fileOf t e = some file) (r : Android.Received) :
    (postedIds t e (t.service.posted ++ [r])).length = (t.service.posted ++ [r]).length := by
  simp [postedIds, hfile, h]

/-- Where nothing is posted and no post is taken, the files of the posts stay. -/
lemma postedIds_same (e : Event) : postedIds t e t.service.posted = t.postedIds := by
  simp [postedIds]

lemma postedIds_taken {r : Android.Received} {posted : List Android.Received}
    (h : t.service.posted = r :: posted) (e : Event) : postedIds t e posted = t.postedIds.tail := by
  have hlt : posted.length < t.service.posted.length := by
    rw [h, List.length_cons]
    omega
  rw [postedIds, if_neg (by omega), if_pos hlt]

/-- An event that finds nothing to do neither brings relayed data nor takes any. -/
lemma relayedIds_of_void (h : t.relayedIds.length = t.service.relayed.length) {e : Event}
    (hvoid : Void store t.service e) : relayedIds t e = t.relayedIds := by
  unfold relayedIds
  split
  · next m =>
    have hdata : m.data = none := hvoid
    rw [hdata]
    rfl
  · next i written =>
    have hlen : t.service.relayed.length ≤ i := List.getElem?_eq_none_iff.mp hvoid
    exact List.eraseIdx_of_length_le (by omega)
  · rfl

lemma Complete.step (h : Complete t) (e : Event) : Complete (step lib store t e).1 := by
  obtain ⟨hp, hr⟩ := h
  unfold ReportedId.step
  have hdoes := @does lib store t.service e
  generalize Android.step lib store t.service e = next at hdoes ⊢
  -- what is neither posted nor taken is counted as before
  have hkeep : (postedIds t e t.service.posted).length = t.service.posted.length := by
    rw [postedIds_same, hp]
  cases hdoes with
  | nothing hvoid =>
    refine ⟨hkeep, ?_⟩
    dsimp only
    rw [relayedIds_of_void hr hvoid, hr]
  | relayed hdata =>
    refine ⟨hkeep, ?_⟩
    simp [relayedIds, hdata, hr]
  | @arrived i a state r hstate hrecv =>
    have hfile : fileOf t (.transferEnd i a) = some state.fileId := by simp [fileOf, hstate]
    exact ⟨length_postedIds hp hfile r, hr⟩
  | dropped hat =>
    refine ⟨hkeep, ?_⟩
    simp only [relayedIds, List.length_eraseIdx, hr]
  | @decoded i written r x hat hdec =>
    have hlt : i < t.relayedIds.length := by
      rw [hr]
      exact (List.getElem?_eq_some_iff.mp hat).1
    have hfile : fileOf t (.relayEnd i written) = some t.relayedIds[i] :=
      List.getElem?_eq_getElem hlt
    refine ⟨length_postedIds hp hfile x, ?_⟩
    simp only [relayedIds, List.length_eraseIdx, hr]
  | thrown hposted hthrows =>
    refine ⟨?_, hr⟩
    dsimp only
    rw [postedIds_taken hposted, List.length_tail, hp, hposted, List.length_cons, Nat.add_sub_cancel]
  | reported hposted hthrows hd hres =>
    refine ⟨?_, hr⟩
    dsimp only
    rw [postedIds_taken hposted, List.length_tail, hp, hposted, List.length_cons, Nat.add_sub_cancel]
  | _ => exact ⟨hkeep, hr⟩

lemma complete_exec (es : List Event) : Complete (Run.exec (step lib store) init es) :=
  Run.exec_inv (fun _ e h => h.step e) ⟨rfl, rfl⟩ es

/-! ### The results -/

/-- Only a post that does not throw sends a result, and the result names the current file. -/
lemma results_step (c : Service) (e : Event) :
    results (Android.step lib store c e).2 = [] ∧
        (∀ main, e = .post main → c.posted = [] ∨ main.throws = true) ∨
      ∃ main res, e = .post main ∧ main.throws = false ∧ c.posted ≠ [] ∧
        results (Android.step lib store c e).2 = [res] ∧
        res.fileId = some ((c.currentState.map TransferState.fileId).getD "") := by
  have hdoes := @does lib store c e
  generalize Android.step lib store c e = next at hdoes ⊢
  cases hdoes with
  | nothing hvoid =>
    refine .inl ⟨rfl, ?_⟩
    rintro main rfl
    exact .inl hvoid
  | ended hstate hds =>
    refine .inl ⟨List.filterMap_eq_nil_iff.mpr fun d hd => ?_, by simp⟩
    obtain ⟨m, rfl⟩ := hds d hd
    rfl
  | thrown hposted hthrows =>
    refine .inl ⟨rfl, ?_⟩
    rintro main ⟨⟩
    exact .inr hthrows
  | @reported main r posted d res hposted hthrows hd hres =>
    refine .inr ⟨main, res, rfl, hthrows, by simp [hposted], ?_, hres⟩
    rcases hd with ⟨mime, rfl⟩ | ⟨name, rfl⟩ <;> rfl
  | _ => exact .inl ⟨rfl, by simp⟩

lemma mem_reports {e : Event} {r : Report} (h : r ∈ (step lib store t e).2) :
    ∃ main, e = .post main ∧ main.throws = false ∧ t.service.posted ≠ [] ∧
      r.result.fileId = some ((current t).getD "") ∧ r.file = t.postedIds.head? := by
  obtain ⟨res, hres, rfl⟩ := List.mem_map.mp h
  obtain ⟨hnone, -⟩ | ⟨main, only, rfl, hthrows, hposted, hone, hid⟩ :=
    @results_step lib store t.service e
  · rw [hnone] at hres
    cases hres
  · rw [hone, List.mem_singleton] at hres
    subst hres
    exact ⟨main, rfl, hthrows, hposted, hid, rfl⟩

lemma exists_report {main : Main} (hthrows : main.throws = false) (hposted : t.service.posted ≠ []) :
    ∃ r ∈ (step lib store t (.post main)).2,
      r.result.fileId = some ((current t).getD "") ∧ r.file = t.postedIds.head? := by
  obtain ⟨-, hnone⟩ | ⟨-, res, -, -, -, hone, hid⟩ := @results_step lib store t.service (.post main)
  · rcases hnone main rfl with hnil | hthrown
    · exact absurd hnil hposted
    · rw [hthrows] at hthrown
      cases hthrown
  · refine ⟨⟨res, t.postedIds.head?⟩, List.mem_map_of_mem ?_, hid, rfl⟩
    rw [hone]
    exact List.mem_singleton_self res

lemma handleResult_other {res : FileTransferResult} {fileId : String}
    (h : some fileId ≠ res.fileId) (st : Server) :
    (Dispatcher.handleResult res st).st.activeOffers fileId = st.activeOffers fileId := by
  unfold Dispatcher.handleResult
  split
  · rfl
  · next file hfile =>
    split
    · refine Function.update_of_ne (fun heq => h ?_) _ _
      rw [hfile, heq]
    · rfl

/-- **Results are reported under the right id** if and only if, whenever the main thread reports the
reception of a file, that file is the one that was announced or offered last. -/
theorem reported_iff (lib : Lib) (store : Store) (es : List Event) :
    (∀ r ∈ Run.outs (step lib store) init es, r.Right) ↔
      ∀ pre main post, es = pre ++ .post main :: post → main.throws = false →
        ∀ file ∈ (Run.exec (step lib store) init pre).postedIds.head?,
          (named store pre).getD "" = file := by
  have hcomplete : ∀ pre, Complete (Run.exec (step lib store) init pre) := complete_exec
  constructor
  · rintro hright pre main post rfl hthrows file hfile
    have hposted : (Run.exec (step lib store) init pre).service.posted ≠ [] := by
      intro hnil
      have hlen := (hcomplete pre).1
      rw [hnil, List.length_nil, List.length_eq_zero_iff] at hlen
      rw [hlen] at hfile
      cases hfile
    obtain ⟨r, hr, hid, hof⟩ := @exists_report lib store _ main hthrows hposted
    have hnames := (hright r (Run.mem_outs.mpr ⟨pre, _, post, rfl, hr⟩)).1
    rw [hid, hof, current_exec] at hnames
    exact Option.some.inj (hnames.trans hfile)
  · intro hcond r hr
    obtain ⟨pre, e, post, rfl, hstep⟩ := Run.mem_outs.mp hr
    obtain ⟨main, rfl, hthrows, hposted, hid, hof⟩ := mem_reports hstep
    have hnames : r.result.fileId = r.file := by
      cases hfile : (Run.exec (step lib store) init pre).postedIds with
      | nil =>
        have hlen := (hcomplete pre).1
        rw [hfile, List.length_nil] at hlen
        exact absurd (List.length_eq_zero_iff.mp hlen.symm) hposted
      | cons file ids =>
        have hfirst : file ∈ (Run.exec (step lib store) init pre).postedIds.head? := by
          rw [hfile]
          rfl
        rw [hid, hof, current_exec, hcond pre main post rfl hthrows file hfirst]
        exact hfirst.symm
    refine ⟨hnames, fun st fileId hne => handleResult_other ?_ st⟩
    rwa [hnames]

section Sample

/-- Relayed data that can be decoded. -/
def relayLib : Lib := ⟨fun _ => "", fun _ => "", fun _ => some [], fun _ => none⟩

/-- The data of a file comes by the server. -/
def relayData (fileId : String) : Event :=
  .message [] (.fileRelayData ⟨fileId, none, none, 0, none, some "", "peer"⟩)

/-- A second file is announced while the data of the first is on its way, and its offer is deleted. -/
theorem newer_file_reported :
    ¬ ∀ r ∈ Run.outs (step relayLib allLevels) init
      [announced "a", announced "b", relayData "a", .relayEnd 0 true, .post ⟨true, false⟩],
      r.Right := by
  intro hall
  have hright := hall ⟨⟨some "b", some "relay", true, 0, 0⟩, some "a"⟩ (by decide)
  have hid := hright.1
  revert hid
  decide

end Sample

end SyncClipboard.ReportedId
