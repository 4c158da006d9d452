import SewaConnect.Ios.Fetching

/-! The request table (`MasterViewController.swift`) and the fetches that fill it. The
subscription drops empty lists, so a controller keeps its old requests when an empty
list is published; but the provider's list only grows (`published_step`), and an empty
one is published only while nothing else ever was. -/

namespace SewaConnect.Ios

open Values Runs Runs.System RemoteDataProvider

structure RequestTableViewCell where
  requestTypeLabel : String
  requestSummary : String
  deriving DecidableEq

structure MasterViewController where
  requets : List Request := []
  /-- The number of rows the table was given when it last reloaded. -/
  rows : ℕ := 0
  deriving DecidableEq

namespace MasterViewController

/-- The subscription of `registerObservers`, behind its filter. -/
def onNext (c : MasterViewController) (requests : List Request) : MasterViewController :=
  if requests.length ≠ 0 then { c with requets := requests } else c

/-- `tableView(_:numberOfRowsInSection:)` -/
def numberOfRowsInSection (c : MasterViewController) : ℕ := c.requets.length

/-- `tableView(_:cellForRowAt:)`, where `date` describes the time of creation; `none` is
the trap of an index out of range. -/
def cellForRowAt (c : MasterViewController) (date : Double → String) (item : ℕ) :
    Option RequestTableViewCell := do
  let request ← c.requets[item]?
  return {
    requestTypeLabel := request.requestingHelpType.typeName
    requestSummary := "Created by " ++ request.requestor.name ++ " on " ++
      date request.createdAtUTC }

end MasterViewController

inductive MasterEvent where
  /-- A controller's view loads: `viewDidLoad` fetches and subscribes. -/
  | viewDidLoad
  | fetch (e : FetchEvent)
  /-- The table of the controller at this index carries out a reload. -/
  | reloadData (index : ℕ)
  | released (index : ℕ)

structure MasterState where
  fetches : FetchState := {}
  /-- The live controllers. -/
  controllers : List MasterViewController := []

namespace MasterState

def published (s : MasterState) : List Request := s.fetches.provider.loadedRequestsSubject

/-- Every live controller is subscribed to what the provider publishes. -/
def publish (s : MasterState) : MasterState :=
  { s with controllers := s.controllers.map (·.onNext s.published) }

end MasterState

/-- A missing snapshot publishes nothing. A reload takes place when it was asked for, or
later, or more often. -/
def mastering : System MasterState MasterEvent where
  init := {}
  step s
    | .viewDidLoad =>
      (fetching.step s.fetches .getRequests).map fun fetches => { s with
        fetches
        controllers := s.controllers ++ [MasterViewController.onNext {} s.published] }
    | .fetch (.completed call (some docs)) =>
      (fetching.step s.fetches (.completed call (some docs))).map fun fetches =>
        { s with fetches }.publish
    | .fetch e => (fetching.step s.fetches e).map fun fetches => { s with fetches }
    | .reloadData index =>
      if index < s.controllers.length then some { s with
        controllers := s.controllers.modify index fun c =>
          { c with rows := c.numberOfRowsInSection } }
      else none
    | .released index =>
      if index < s.controllers.length then
        some { s with controllers := s.controllers.eraseIdx index }
      else none

/-- The table shows what was published last, and has a cell for each row it asks for. -/
def Mirrors (published : List Request) (c : MasterViewController) : Prop :=
  c.requets = published ∧ ∀ date item, item < c.rows → (c.cellForRowAt date item).isSome

/-- The requests that an event brings to the provider. -/
def MasterEvent.decoded : MasterEvent → List Request
  | .fetch (.completed _ (some docs)) => RemoteDataProvider.decoded docs
  | _ => []

/-! ### Single steps -/

/-- A step adds to the provider's list what it brings. -/
theorem loadedRequests_master {s t : MasterState} {e : MasterEvent}
    (h : mastering.step s e = some t) :
    t.fetches.provider.loadedRequests = s.fetches.provider.loadedRequests ++ e.decoded := by
  cases e with
  | viewDidLoad =>
    simp only [mastering, Option.map_eq_some_iff] at h
    obtain ⟨fetches, hfetches, rfl⟩ := h
    rw [fetching_getRequests hfetches]
    exact (List.append_nil _).symm
  | fetch e =>
    cases e with
    | getRequests =>
      simp only [mastering, Option.map_eq_some_iff] at h
      obtain ⟨fetches, hfetches, rfl⟩ := h
      rw [fetching_getRequests hfetches]
      exact (List.append_nil _).symm
    | completed call snapShot =>
      cases snapShot with
      | none =>
        simp only [mastering, Option.map_eq_some_iff] at h
        obtain ⟨fetches, hfetches, rfl⟩ := h
        rw [(fetching_completed hfetches).2]
        exact (List.append_nil _).symm
      | some docs =>
        simp only [mastering, Option.map_eq_some_iff] at h
        obtain ⟨fetches, hfetches, rfl⟩ := h
        rw [MasterState.publish, (fetching_completed hfetches).2]
        exact loadedRequests_onDocuments s.fetches.provider docs
  | reloadData index =>
    simp only [mastering, Option.ite_none_right_eq_some, Option.some.injEq] at h
    rw [← h.2]
    exact (List.append_nil _).symm
  | released index =>
    simp only [mastering, Option.ite_none_right_eq_some, Option.some.injEq] at h
    rw [← h.2]
    exact (List.append_nil _).symm

/-- What is published is all that was ever loaded, and a fetch only adds to it. -/
theorem published_step {s t : FetchState} {e : FetchEvent}
    (hs : s.provider.loadedRequestsSubject = s.provider.loadedRequests)
    (h : fetching.step s e = some t) :
    t.provider.loadedRequestsSubject = t.provider.loadedRequests ∧
      ∃ more, t.provider.loadedRequestsSubject = s.provider.loadedRequestsSubject ++ more := by
  cases e with
  | getRequests =>
    rw [fetching_getRequests h]
    exact ⟨hs, [], by simp⟩
  | completed call snapShot =>
    rw [(fetching_completed h).2]
    cases snapShot with
    | none => exact ⟨hs, [], by simp⟩
    | some docs =>
      refine ⟨by simp, decoded docs, ?_⟩
      rw [loadedRequestsSubject_onDocuments, hs]

/-- The controller has what was published last, and at least the rows of its table. -/
structure UpToDate (published : List Request) (c : MasterViewController) : Prop where
  requets : c.requets = published
  rows : c.rows ≤ c.requets.length

/-- A controller that is up to date stays so: the filter drops an empty list only when
there was nothing before it. -/
theorem upToDate_onNext {c : MasterViewController} {old : List Request} (more : List Request)
    (h : UpToDate old c) : UpToDate (old ++ more) (c.onNext (old ++ more)) := by
  by_cases hempty : (old ++ more).length = 0
  · have hnothing : old = [] ∧ more = [] := by simpa using hempty
    rw [MasterViewController.onNext, if_neg (not_not.mpr hempty)]
    refine ⟨?_, h.rows⟩
    rw [h.requets, hnothing.1, hnothing.2, List.append_nil]
  · rw [MasterViewController.onNext, if_pos hempty]
    refine ⟨rfl, h.rows.trans ?_⟩
    rw [h.requets, List.length_append]
    exact Nat.le_add_right _ _

theorem upToDate_reload {c : MasterViewController} {published : List Request}
    (h : UpToDate published c) : UpToDate published { c with rows := c.numberOfRowsInSection } :=
  ⟨h.requets, le_rfl⟩

/-- What holds of every controller, and of each of them after a change, holds after a
change of one. -/
theorem forall_mem_modify {P : MasterViewController → Prop}
    {f : MasterViewController → MasterViewController} (hf : ∀ c, P c → P (f c)) {index : ℕ}
    {cs : List MasterViewController} (hindex : index < cs.length) (h : ∀ c ∈ cs, P c) :
    ∀ c ∈ cs.modify index f, P c := by
  obtain ⟨before, a, after, rfl, -, hmodify⟩ := List.exists_of_modify f hindex
  rw [hmodify]
  intro c hc
  rcases List.mem_append.mp hc with hbefore | hrest
  · exact h c (List.mem_append_left _ hbefore)
  · rcases List.mem_cons.mp hrest with rfl | hafter
    · exact hf a (h a (by simp))
    · exact h c (List.mem_append_right _ (List.mem_cons_of_mem _ hafter))

/-! ### Runs -/

structure MasterInv (s : MasterState) : Prop where
  loaded : s.published = s.fetches.provider.loadedRequests
  controllers : ∀ c ∈ s.controllers, UpToDate s.published c

/-- A step that publishes nothing keeps the invariant with the controllers it leaves. -/
theorem masterInv_of_unpublished {s : MasterState} {fetches : FetchState}
    {controllers : List MasterViewController} (hs : MasterInv s)
    (hprovider : fetches.provider = s.fetches.provider)
    (hcontrollers : ∀ c ∈ controllers, UpToDate s.published c) :
    MasterInv { fetches, controllers } where
  loaded := by
    rw [MasterState.published, hprovider]
    exact hs.loaded
  controllers := by
    rw [MasterState.published, hprovider]
    exact hcontrollers

theorem masterInv_step {s t : MasterState} {e : MasterEvent} (hs : MasterInv s)
    (h : mastering.step s e = some t) : MasterInv t := by
  cases e with
  | viewDidLoad =>
    simp only [mastering, Option.map_eq_some_iff] at h
    obtain ⟨fetches, hfetches, rfl⟩ := h
    refine masterInv_of_unpublished hs (fetching_getRequests hfetches) fun c hc => ?_
    rcases List.mem_append.mp hc with hlive | hnew
    · exact hs.controllers c hlive
    · -- the subject replays its value to the new subscriber
      rw [List.mem_singleton.mp hnew]
      have hnew : UpToDate [] ({} : MasterViewController) := ⟨rfl, le_rfl⟩
      exact upToDate_onNext s.published hnew
  | fetch e =>
    cases e with
    | getRequests =>
      simp only [mastering, Option.map_eq_some_iff] at h
      obtain ⟨fetches, hfetches, rfl⟩ := h
      exact masterInv_of_unpublished hs (fetching_getRequests hfetches) hs.controllers
    | completed call snapShot =>
      cases snapShot with
      | none =>
        simp only [mastering, Option.map_eq_some_iff] at h
        obtain ⟨fetches, hfetches, rfl⟩ := h
        exact masterInv_of_unpublished hs (fetching_completed hfetches).2 hs.controllers
      | some docs =>
        simp only [mastering, Option.map_eq_some_iff] at h
        obtain ⟨fetches, hfetches, rfl⟩ := h
        obtain ⟨hloaded, more, hmore⟩ := published_step hs.loaded hfetches
        refine ⟨hloaded, fun c' hc' => ?_⟩
        obtain ⟨c, hc, rfl⟩ := List.mem_map.mp hc'
        rw [MasterState.published, MasterState.publish, MasterState.published, hmore]
        exact upToDate_onNext more (hs.controllers c hc)
  | reloadData index =>
    simp only [mastering, Option.ite_none_right_eq_some, Option.some.injEq] at h
    obtain ⟨hindex, rfl⟩ := h
    refine masterInv_of_unpublished hs rfl ?_
    exact forall_mem_modify (fun c => upToDate_reload) hindex hs.controllers
  | released index =>
    simp only [mastering, Option.ite_none_right_eq_some, Option.some.injEq] at h
    obtain ⟨-, rfl⟩ := h
    exact masterInv_of_unpublished hs rfl
      fun c hc => hs.controllers c (List.mem_of_mem_eraseIdx hc)

theorem masterInv_run {es : List MasterEvent} {s : MasterState} (h : mastering.run es = some s) :
    MasterInv s :=
  run_invariant (S := mastering) (I := MasterInv) ⟨rfl, by simp [mastering]⟩
    (fun _ _ _ hs ht => masterInv_step hs ht) h

/-- What is published is what all the snapshots so far decoded to. -/
theorem published_run {es : List MasterEvent} {s : MasterState} (h : mastering.run es = some s) :
    s.published = es.flatMap MasterEvent.decoded := by
  rw [(masterInv_run h).loaded]
  refine run_induction (S := mastering)
    (I := fun es s => s.fetches.provider.loadedRequests = es.flatMap MasterEvent.decoded) rfl ?_ h
  intro es s e t _ hs ht
  rw [loadedRequests_master ht, hs]
  simp

/-- A table that has just reloaded has a row for each of these requests. -/
theorem rows_reloadData {es : List MasterEvent} {s : MasterState} {index : ℕ}
    (h : mastering.run (es ++ [.reloadData index]) = some s) :
    ∃ c, s.controllers[index]? = some c ∧ c.rows = c.requets.length ∧
      c.requets = es.flatMap MasterEvent.decoded := by
  obtain ⟨r, hr, ht⟩ := run_snoc.mp h
  simp only [mastering, Option.ite_none_right_eq_some, Option.some.injEq] at ht
  obtain ⟨hindex, rfl⟩ := ht
  have hrequets := ((masterInv_run hr).controllers _ (List.getElem_mem hindex)).requets
  rw [published_run hr] at hrequets
  let c := r.controllers[index]
  exact ⟨{ c with rows := c.numberOfRowsInSection }, by simp [hindex, c], rfl, hrequets⟩

/-- After every run, each live controller holds the list published last, and its table
never asks for a row beyond it. -/
theorem mirrorsProvider {es : List MasterEvent} {s : MasterState} (h : mastering.run es = some s) :
    ∀ c ∈ s.controllers, Mirrors s.published c := by
  intro c hc
  have hup := (masterInv_run h).controllers c hc
  refine ⟨hup.requets, fun date item hitem => ?_⟩
  have hrange : item < c.requets.length := hitem.trans_le hup.rows
  simp [MasterViewController.cellForRowAt, hrange]

/-- A controller sees a malformed snapshot and then a request; another one comes late. -/
def lateController : List MasterEvent :=
  [.viewDidLoad, .fetch (.completed 0 (some [⟨"bad", []⟩])), .fetch .getRequests,
    .fetch (.completed 1 (some [someDocument])), .reloadData 0, .viewDidLoad, .reloadData 1,
    .fetch (.completed 2 none)]

theorem mirrorsProvider_lateController :
    ∃ s, mastering.run lateController = some s ∧ s.controllers.length = 2 ∧
      ∀ c ∈ s.controllers, Mirrors s.published c :=
  ⟨_, rfl, rfl, @mirrorsProvider lateController _ rfl⟩

end SewaConnect.Ios
