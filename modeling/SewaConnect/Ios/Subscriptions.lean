import SewaConnect.Ios.MasterViewController
import SewaConnect.Rx.BehaviorSubject

/-! The request tables as observers of the provider's `BehaviorSubject`. In `mastering` a
published list reaches every live controller by definition; here it goes through the
subject's bag of observers, which a controller enters when its view loads and leaves when
its dispose bag is released. `mastering_of_observing` shows that the two agree. -/

namespace SewaConnect.Ios

open Runs Runs.System RemoteDataProvider Rx

/-- An event, with the order in which the dictionary of the bag enumerates its values. -/
abbrev ObservedEvent := MasterEvent × List ℕ

structure ObservedState where
  fetches : FetchState := {}
  /-- `loadedRequestsSubject`, and the disposables in the dispose bags. -/
  subscribed : Subscribed (List Request) ℕ := { subject := { element := [] } }
  /-- The number of views that have loaded. -/
  loaded : ℕ := 0
  /-- The live controllers, by the number of their view. -/
  controllers : List (ℕ × MasterViewController) := []

namespace ObservedState

/-- What the subject sends to an observer reaches the controller that it belongs to; the
subscription handles elements only. -/
def deliver (cs : List (ℕ × MasterViewController)) (sent : ℕ × Event (List Request)) :
    List (ℕ × MasterViewController) :=
  match sent.2 with
  | .next requests => cs.map fun c => if c.1 = sent.1 then (c.1, c.2.onNext requests) else c
  | _ => cs

/-- A step of the subject; `none` is a trap of its bag. -/
def onSubject (s : ObservedState) (e : SubjectEvent (List Request) ℕ) : Option ObservedState :=
  ((subject []).step s.subscribed e).map fun subscribed => { s with
    subscribed
    controllers := (sentBy s.subscribed e).foldl deliver s.controllers }

def toMasterState (s : ObservedState) : MasterState where
  fetches := s.fetches
  controllers := s.controllers.map Prod.snd

end ObservedState

def observing : System ObservedState ObservedEvent where
  init := {}
  step s
    | (.viewDidLoad, _) =>
      (fetching.step s.fetches .getRequests).bind fun fetches =>
        { s with
          fetches
          loaded := s.loaded + 1
          controllers := s.controllers ++ [(s.loaded, ({} : MasterViewController))]
        }.onSubject (.subscribe s.loaded)
    | (.fetch (.completed call (some docs)), values) =>
      (fetching.step s.fetches (.completed call (some docs))).bind fun fetches =>
        { s with fetches }.onSubject
          (.on (.next fetches.provider.loadedRequestsSubject) values)
    | (.fetch e, _) => (fetching.step s.fetches e).map fun fetches => { s with fetches }
    | (.reloadData index, _) =>
      if index < s.controllers.length then some { s with
        controllers := s.controllers.modify index fun c =>
          (c.1, { c.2 with rows := c.2.numberOfRowsInSection }) }
      else none
    | (.released index, _) =>
      s.controllers[index]?.bind fun c =>
        { s with controllers := s.controllers.eraseIdx index }.onSubject (.unsubscribe c.1)

/-- What a step does to the subject. -/
def subjectEvents (s : ObservedState) : ObservedEvent → List (SubjectEvent (List Request) ℕ)
  | (.viewDidLoad, _) => [.subscribe s.loaded]
  | (.fetch (.completed _ (some docs)), values) =>
    [.on (.next (s.fetches.provider.onDocuments (some docs)).loadedRequestsSubject) values]
  | (.released index, _) => s.controllers[index]?.toList.map fun c => .unsubscribe c.1
  | _ => []

/-! ### Single steps -/

namespace ObservedState

theorem onSubject_eq_some {s t : ObservedState} {e : SubjectEvent (List Request) ℕ}
    (h : s.onSubject e = some t) :
    ∃ subscribed, (subject []).step s.subscribed e = some subscribed ∧ t = { s with
      subscribed
      controllers := (sentBy s.subscribed e).foldl deliver s.controllers } := by
  obtain ⟨subscribed, hsubscribed, rfl⟩ := Option.map_eq_some_iff.mp h
  exact ⟨subscribed, hsubscribed, rfl⟩

/-- A list of requests that is sent to each of some observers once. -/
theorem foldl_deliver {os : List ℕ} (hos : os.Nodup) (requests : List Request)
    (cs : List (ℕ × MasterViewController)) :
    (os.map fun observer => (observer, Event.next requests)).foldl deliver cs =
      cs.map fun c => if c.1 ∈ os then (c.1, c.2.onNext requests) else c := by
  induction os generalizing cs with
  | nil => simp
  | cons o os ih =>
    obtain ⟨ho, hos⟩ := List.nodup_cons.mp hos
    rw [List.map_cons, List.foldl_cons, ih hos]
    simp only [deliver, List.map_map]
    refine List.map_congr_left fun c _ => ?_
    by_cases hc : c.1 = o
    · simp [hc, ho]
    · simp [hc]

end ObservedState

theorem observing_viewDidLoad {s t : ObservedState} {values : List ℕ}
    (h : observing.step s (.viewDidLoad, values) = some t) :
    ∃ fetches subscribed, fetching.step s.fetches .getRequests = some fetches ∧
      (subject []).step s.subscribed (.subscribe s.loaded) = some subscribed ∧
      t = {
        fetches
        subscribed
        loaded := s.loaded + 1
        controllers := ObservedState.deliver (s.controllers ++ [(s.loaded, {})])
          (s.loaded, (s.subscribed.subject.subscribe s.loaded).2.1) } := by
  simp only [observing, Option.bind_eq_some_iff] at h
  obtain ⟨fetches, hfetches, h⟩ := h
  obtain ⟨subscribed, hsubscribed, rfl⟩ := ObservedState.onSubject_eq_some h
  exact ⟨fetches, subscribed, hfetches, hsubscribed, rfl⟩

/-- A fetch that comes back with a snapshot publishes. -/
theorem observing_completed {s t : ObservedState} {call : ℕ}
    {docs : List QueryDocumentSnapshot} {values : List ℕ}
    (h : observing.step s (.fetch (.completed call (some docs)), values) = some t) :
    ∃ fetches subscribed,
      fetching.step s.fetches (.completed call (some docs)) = some fetches ∧
      (subject []).step s.subscribed
        (.on (.next fetches.provider.loadedRequestsSubject) values) = some subscribed ∧
      t = { s with
        fetches
        subscribed
        controllers := (sentBy s.subscribed
          (.on (.next fetches.provider.loadedRequestsSubject) values)).foldl
            ObservedState.deliver s.controllers } := by
  simp only [observing, Option.bind_eq_some_iff] at h
  obtain ⟨fetches, hfetches, h⟩ := h
  obtain ⟨subscribed, hsubscribed, rfl⟩ := ObservedState.onSubject_eq_some h
  exact ⟨fetches, subscribed, hfetches, hsubscribed, rfl⟩

/-- Other steps of a fetch leave the provider and the subject alone. -/
theorem observing_fetch {s t : ObservedState} {e : FetchEvent} {values : List ℕ}
    (hquiet : ∀ call docs, e ≠ .completed call (some docs))
    (h : observing.step s (.fetch e, values) = some t) :
    ∃ fetches, fetching.step s.fetches e = some fetches ∧
      fetches.provider = s.fetches.provider ∧ t = { s with fetches } := by
  cases e with
  | getRequests =>
    simp only [observing, Option.map_eq_some_iff] at h
    obtain ⟨fetches, hfetches, rfl⟩ := h
    exact ⟨fetches, hfetches, fetching_getRequests hfetches, rfl⟩
  | completed call snapShot =>
    cases snapShot with
    | none =>
      simp only [observing, Option.map_eq_some_iff] at h
      obtain ⟨fetches, hfetches, rfl⟩ := h
      exact ⟨fetches, hfetches, (fetching_completed hfetches).2, rfl⟩
    | some docs => exact absurd rfl (hquiet call docs)

theorem observing_reloadData {s t : ObservedState} {index : ℕ} {values : List ℕ}
    (h : observing.step s (.reloadData index, values) = some t) :
    index < s.controllers.length ∧ t = { s with
      controllers := s.controllers.modify index fun c =>
        (c.1, { c.2 with rows := c.2.numberOfRowsInSection }) } := by
  simp only [observing, Option.ite_none_right_eq_some, Option.some.injEq] at h
  exact ⟨h.1, h.2.symm⟩

theorem observing_released {s t : ObservedState} {index : ℕ} {values : List ℕ}
    (h : observing.step s (.released index, values) = some t) :
    ∃ c subscribed, s.controllers[index]? = some c ∧
      (subject []).step s.subscribed (.unsubscribe c.1) = some subscribed ∧
      t = { s with subscribed, controllers := s.controllers.eraseIdx index } := by
  simp only [observing, Option.bind_eq_some_iff] at h
  obtain ⟨c, hc, h⟩ := h
  obtain ⟨subscribed, hsubscribed, rfl⟩ := ObservedState.onSubject_eq_some h
  exact ⟨c, subscribed, hc, hsubscribed, rfl⟩

theorem subjectEvents_fetch (s : ObservedState) {e : FetchEvent} (values : List ℕ)
    (hquiet : ∀ call docs, e ≠ .completed call (some docs)) :
    subjectEvents s (.fetch e, values) = [] := by
  cases e with
  | getRequests => rfl
  | completed call snapShot =>
    cases snapShot with
    | none => rfl
    | some docs => exact absurd rfl (hquiet call docs)

/-! ### The subject's part of a run -/

/-- The subject of a run is in a state that it reaches by its own steps. -/
theorem subject_run {es : List ObservedEvent} {s : ObservedState} (h : observing.run es = some s) :
    (subject []).run (observing.emitted subjectEvents es) = some s.subscribed := by
  refine run_component (S := observing) (A := subject []) ObservedState.subscribed subjectEvents
    rfl ?_ h
  rintro s ⟨e, values⟩ t ht
  cases e with
  | viewDidLoad =>
    obtain ⟨fetches, subscribed, -, hsubscribed, rfl⟩ := observing_viewDidLoad ht
    exact Option.bind_eq_some_iff.mpr ⟨subscribed, hsubscribed, rfl⟩
  | fetch e =>
    by_cases hquiet : ∀ call docs, e ≠ .completed call (some docs)
    · obtain ⟨fetches, -, -, rfl⟩ := observing_fetch hquiet ht
      rw [subjectEvents_fetch _ _ hquiet]
      rfl
    · push Not at hquiet
      obtain ⟨call, docs, rfl⟩ := hquiet
      obtain ⟨fetches, subscribed, hfetches, hsubscribed, rfl⟩ := observing_completed ht
      rw [(fetching_completed hfetches).2] at hsubscribed
      exact Option.bind_eq_some_iff.mpr ⟨subscribed, hsubscribed, rfl⟩
  | reloadData index =>
    obtain ⟨-, rfl⟩ := observing_reloadData ht
    rfl
  | released index =>
    obtain ⟨c, subscribed, hc, hsubscribed, rfl⟩ := observing_released ht
    rw [subjectEvents, hc]
    exact Option.bind_eq_some_iff.mpr ⟨subscribed, hsubscribed, rfl⟩

/-- Every observer's wire holds the published list, and the live controllers are the
connected observers. -/
structure Observed (es : List ObservedEvent) (s : ObservedState) : Prop where
  subscribers : subscribers (observing.emitted subjectEvents es) = List.range s.loaded
  element : ∀ o, (wire [] o (observing.emitted subjectEvents es)).element =
    s.fetches.provider.loadedRequestsSubject
  ended : ∀ o, (wire [] o (observing.emitted subjectEvents es)).ended = none
  connected : ∀ o, (wire [] o (observing.emitted subjectEvents es)).connected = true ↔
    o ∈ s.controllers.map Prod.fst
  distinct : (s.controllers.map Prod.fst).Nodup
  loaded : ∀ o ∈ s.controllers.map Prod.fst, o < s.loaded

theorem ids_deliver (cs : List (ℕ × MasterViewController)) (sent : ℕ × Event (List Request)) :
    (ObservedState.deliver cs sent).map Prod.fst = cs.map Prod.fst := by
  unfold ObservedState.deliver
  split
  · rw [List.map_map]
    refine List.map_congr_left fun c _ => ?_
    simp only [Function.comp_apply]
    split <;> rfl
  · rfl

theorem ids_foldl_deliver (sent : List (ℕ × Event (List Request)))
    (cs : List (ℕ × MasterViewController)) :
    (sent.foldl ObservedState.deliver cs).map Prod.fst = cs.map Prod.fst := by
  induction sent generalizing cs with
  | nil => rfl
  | cons first sent ih => rw [List.foldl_cons, ih, ids_deliver]

theorem map_modify {α β : Type*} {g : α → β} {f : α → α} {k : β → β}
    (hf : ∀ a, g (f a) = k (g a)) (l : List α) (index : ℕ) :
    (l.modify index f).map g = (l.map g).modify index k := by
  induction l generalizing index with
  | nil => simp
  | cons a l ih => cases index <;> simp [hf, ih]

/-- A step that the subject takes no part in. -/
theorem observed_quiet {es : List ObservedEvent} {s t : ObservedState} {e : ObservedEvent}
    (hs : observing.run es = some s) (ht : observing.step s e = some t)
    (h : Observed es s) (hquiet : subjectEvents s e = []) (hloaded : t.loaded = s.loaded)
    (hprovider : t.fetches.provider = s.fetches.provider)
    (hids : t.controllers.map Prod.fst = s.controllers.map Prod.fst) : Observed (es ++ [e]) t := by
  have hsame : observing.emitted subjectEvents (es ++ [e]) =
      observing.emitted subjectEvents es := by
    rw [emitted_snoc subjectEvents hs ht, hquiet, List.append_nil]
  constructor
  · rw [hsame, hloaded, h.subscribers]
  · rw [hsame, hprovider]
    exact h.element
  · rw [hsame]
    exact h.ended
  · rw [hsame, hids]
    exact h.connected
  · rw [hids]
    exact h.distinct
  · rw [hids, hloaded]
    exact h.loaded

theorem observed_viewDidLoad {es : List ObservedEvent} {s t : ObservedState} {values : List ℕ}
    (hs : observing.run es = some s) (ht : observing.step s (.viewDidLoad, values) = some t)
    (h : Observed es s) : Observed (es ++ [(.viewDidLoad, values)]) t := by
  have hemitted := emitted_snoc subjectEvents hs ht
  obtain ⟨fetches, subscribed, hfetches, -, rfl⟩ := observing_viewDidLoad ht
  have hwire (o : ℕ) :
      wire [] o (observing.emitted subjectEvents (es ++ [(.viewDidLoad, values)])) =
      if s.loaded = o then (wire [] o (observing.emitted subjectEvents es)).subscribe
        else wire [] o (observing.emitted subjectEvents es) := by
    rw [hemitted]
    exact wire_snoc _ _ _ _
  have hids := ids_deliver (s.controllers ++ [(s.loaded, ({} : MasterViewController))])
    (s.loaded, (s.subscribed.subject.subscribe s.loaded).2.1)
  rw [List.map_append] at hids
  have hnew : s.loaded ∉ s.controllers.map Prod.fst :=
    fun hmem => Nat.lt_irrefl _ (h.loaded _ hmem)
  constructor
  · rw [hemitted, subjectEvents, subscribers_subscribe, h.subscribers, List.range_succ]
  · intro o
    rw [fetching_getRequests hfetches, hwire, ← h.element o]
    split
    · simp only [Wire.subscribe, h.ended]
    · rfl
  · intro o
    rw [hwire]
    split
    · simp only [Wire.subscribe, h.ended]
    · exact h.ended o
  · intro o
    rw [hwire, hids, List.mem_append, List.map_singleton, List.mem_singleton]
    by_cases ho : s.loaded = o
    · simp [ho, Wire.subscribe, h.ended]
    · rw [if_neg ho, h.connected]
      simp [Ne.symm ho]
  · rw [hids]
    refine List.nodup_append.mpr ⟨h.distinct, List.nodup_singleton _, fun o ho o' ho' heq => ?_⟩
    have hsame : o = s.loaded := heq.trans (List.mem_singleton.mp ho')
    exact hnew (hsame ▸ ho)
  · intro o ho
    rw [hids, List.mem_append, List.map_singleton, List.mem_singleton] at ho
    rcases ho with hlive | rfl
    · exact Nat.lt_succ_of_lt (h.loaded o hlive)
    · exact Nat.lt_succ_self _

theorem observed_completed {es : List ObservedEvent} {s t : ObservedState} {call : ℕ}
    {docs : List QueryDocumentSnapshot} {values : List ℕ} (hs : observing.run es = some s)
    (ht : observing.step s (.fetch (.completed call (some docs)), values) = some t)
    (h : Observed es s) :
    Observed (es ++ [(.fetch (.completed call (some docs)), values)]) t := by
  have hemitted := emitted_snoc subjectEvents hs ht
  obtain ⟨fetches, subscribed, hfetches, -, rfl⟩ := observing_completed ht
  have hwire (o : ℕ) : wire [] o (observing.emitted subjectEvents
      (es ++ [(.fetch (.completed call (some docs)), values)])) =
      (wire [] o (observing.emitted subjectEvents es)).on
        (.next fetches.provider.loadedRequestsSubject) := by
    rw [hemitted, (fetching_completed hfetches).2]
    exact wire_snoc _ _ _ _
  constructor
  · rw [hemitted, subjectEvents, subscribers_snoc, h.subscribers]
    exact List.append_nil _
  · intro o
    rw [hwire, Wire.on_of_running (h.ended o)]
    rfl
  · intro o
    rw [hwire, Wire.on_of_running (h.ended o)]
    rfl
  · intro o
    rw [hwire, Wire.on_of_running (h.ended o), ids_foldl_deliver]
    exact h.connected o
  · rw [ids_foldl_deliver]
    exact h.distinct
  · rw [ids_foldl_deliver]
    exact h.loaded

theorem observed_released {es : List ObservedEvent} {s t : ObservedState} {index : ℕ}
    {values : List ℕ} (hs : observing.run es = some s)
    (ht : observing.step s (.released index, values) = some t) (h : Observed es s) :
    Observed (es ++ [(.released index, values)]) t := by
  have hemitted := emitted_snoc subjectEvents hs ht
  obtain ⟨c, subscribed, hc, -, rfl⟩ := observing_released ht
  rw [subjectEvents, hc] at hemitted
  have hwire (o : ℕ) : wire [] o (observing.emitted subjectEvents
      (es ++ [(.released index, values)])) =
      { wire [] o (observing.emitted subjectEvents es) with
        connected := (wire [] o (observing.emitted subjectEvents es)).connected &&
          decide (c.1 ≠ o) } := by
    rw [hemitted]
    exact wire_unsubscribe _ _ _ _
  have hids : (s.controllers.eraseIdx index).map Prod.fst =
      (s.controllers.map Prod.fst).erase c.1 := by
    rw [← List.eraseIdx_map]
    refine (List.erase_eq_eraseIdx_of_idxOf ?_).symm
    obtain ⟨hindex, hcontroller⟩ := List.getElem?_eq_some_iff.mp hc
    rw [← hcontroller, ← List.getElem_map Prod.fst (h := by simpa using hindex)]
    exact h.distinct.idxOf_getElem index (by simpa using hindex)
  constructor
  · rw [hemitted]
    exact (subscribers_snoc _ _).trans ((List.append_nil _).trans h.subscribers)
  · intro o
    rw [hwire]
    exact h.element o
  · intro o
    rw [hwire]
    exact h.ended o
  · intro o
    rw [hwire, hids, h.distinct.mem_erase_iff, Bool.and_eq_true, h.connected, decide_eq_true_iff]
    exact and_comm.trans (and_congr_left' ne_comm)
  · rw [hids]
    exact h.distinct.erase _
  · intro o ho
    rw [hids] at ho
    exact h.loaded o (List.mem_of_mem_erase ho)

theorem observed_run {es : List ObservedEvent} {s : ObservedState} (h : observing.run es = some s) :
    Observed es s := by
  refine run_induction (S := observing) (I := Observed) ?_ ?_ h
  · constructor <;> simp [observing, subscribers, wire]
  · rintro es s ⟨e, values⟩ t hs hobserved ht
    cases e with
    | viewDidLoad => exact observed_viewDidLoad hs ht hobserved
    | fetch e =>
      by_cases hquiet : ∀ call docs, e ≠ .completed call (some docs)
      · have hnone := subjectEvents_fetch s values hquiet
        obtain ⟨fetches, -, hprovider, rfl⟩ := observing_fetch hquiet ht
        exact observed_quiet hs ht hobserved hnone rfl hprovider rfl
      · push Not at hquiet
        obtain ⟨call, docs, rfl⟩ := hquiet
        exact observed_completed hs ht hobserved
    | reloadData index =>
      have hsame := observing_reloadData ht
      refine observed_quiet hs ht hobserved rfl ?_ ?_ ?_ <;> rw [hsame.2]
      have hids := map_modify (g := Prod.fst) (k := id)
        (f := fun c : ℕ × MasterViewController =>
          (c.1, { c.2 with rows := c.2.numberOfRowsInSection })) (fun _ => rfl) s.controllers index
      rwa [List.modify_id] at hids
    | released index => exact observed_released hs ht hobserved

/-- The bag of the subject holds the live controllers. -/
theorem exists_attached_observing {es : List ObservedEvent} {s : ObservedState}
    (h : observing.run es = some s) (hroom : s.loaded ≤ UInt64.size) :
    ∃ r, Attached [] (observing.emitted subjectEvents es) s.subscribed r := by
  have hsubscribers := (observed_run h).subscribers
  refine exists_attached (subject_run h) ?_ ?_
  · rw [hsubscribers]
    exact List.nodup_range
  · rwa [hsubscribers, List.length_range]

/-! ### Refinement -/

theorem mastering_of_observing_step {es : List ObservedEvent} {s t : ObservedState}
    {e : ObservedEvent} (hs : observing.run es = some s) (hroom : s.loaded ≤ UInt64.size)
    (ht : observing.step s e = some t) :
    mastering.step s.toMasterState e.1 = some t.toMasterState := by
  have hobserved := observed_run hs
  obtain ⟨r, hattached⟩ := exists_attached_observing hs hroom
  have helement := (hattached.element 0).symm.trans (hobserved.element 0)
  have hended := (hattached.ended 0).symm.trans (hobserved.ended 0)
  obtain ⟨e, values⟩ := e
  cases e with
  | viewDidLoad =>
    obtain ⟨fetches, subscribed, hfetches, -, rfl⟩ := observing_viewDidLoad ht
    have hothers : s.controllers.map (fun c =>
        if c.1 = s.loaded then (c.1, c.2.onNext s.subscribed.subject.element) else c) =
          s.controllers := by
      refine (List.map_congr_left fun c hc => ?_).trans (List.map_id _)
      have hlt := hobserved.loaded c.1 (List.mem_map_of_mem hc)
      exact if_neg (Nat.ne_of_lt hlt)
    have hcontrollers : (ObservedState.deliver
        (s.controllers ++ [(s.loaded, ({} : MasterViewController))])
        (s.loaded, (s.subscribed.subject.subscribe s.loaded).2.1)).map Prod.snd =
        s.controllers.map Prod.snd ++
          [MasterViewController.onNext {} s.fetches.provider.loadedRequestsSubject] := by
      rw [BehaviorSubject.subscribe_of_running hended, ← helement]
      simp only [ObservedState.deliver, List.map_append, hothers, List.map_singleton, if_true]
    simp only [mastering, ObservedState.toMasterState, hfetches, Option.map_some,
      MasterState.published]
    rw [hcontrollers]
  | fetch e =>
    by_cases hquiet : ∀ call docs, e ≠ .completed call (some docs)
    · obtain ⟨fetches, hfetches, -, rfl⟩ := observing_fetch hquiet ht
      have hstep : mastering.step s.toMasterState (.fetch e) =
          (fetching.step s.fetches e).map fun fetches => { s.toMasterState with fetches } := by
        cases e with
        | getRequests => rfl
        | completed call snapShot =>
          cases snapShot with
          | none => rfl
          | some docs => exact absurd rfl (hquiet call docs)
      rw [hstep, hfetches]
      rfl
    · push Not at hquiet
      obtain ⟨call, docs, rfl⟩ := hquiet
      obtain ⟨fetches, subscribed, hfetches, hsubscribed, rfl⟩ := observing_completed ht
      obtain ⟨os, hos, hnodup, hmem⟩ := sentBy_on hattached hended hsubscribed
      have hcontrollers : (s.controllers.map fun c =>
          if c.1 ∈ os then (c.1, c.2.onNext fetches.provider.loadedRequestsSubject) else c) =
          s.controllers.map fun c =>
            (c.1, c.2.onNext fetches.provider.loadedRequestsSubject) := by
        refine List.map_congr_left fun c hc => if_pos ?_
        rw [hmem, hobserved.connected]
        exact List.mem_map_of_mem hc
      simp only [mastering, ObservedState.toMasterState, hfetches, Option.map_some,
        MasterState.publish, MasterState.published, hos,
        ObservedState.foldl_deliver hnodup, hcontrollers, List.map_map]
      rfl
  | reloadData index =>
    obtain ⟨hindex, rfl⟩ := observing_reloadData ht
    have hcontrollers := map_modify (g := Prod.snd)
      (f := fun c : ℕ × MasterViewController =>
        (c.1, { c.2 with rows := c.2.numberOfRowsInSection }))
      (k := fun c => { c with rows := c.numberOfRowsInSection }) (fun _ => rfl) s.controllers index
    simp only [mastering, ObservedState.toMasterState, List.length_map, if_pos hindex]
    rw [hcontrollers]
  | released index =>
    obtain ⟨c, subscribed, hc, -, rfl⟩ := observing_released ht
    obtain ⟨hindex, -⟩ := List.getElem?_eq_some_iff.mp hc
    simp only [mastering, ObservedState.toMasterState, List.length_map, if_pos hindex,
      List.eraseIdx_map]

theorem loaded_le_of_step {s t : ObservedState} {e : ObservedEvent}
    (h : observing.step s e = some t) : s.loaded ≤ t.loaded := by
  obtain ⟨e, values⟩ := e
  cases e with
  | viewDidLoad =>
    obtain ⟨fetches, subscribed, -, -, rfl⟩ := observing_viewDidLoad h
    exact Nat.le_succ _
  | fetch e =>
    by_cases hquiet : ∀ call docs, e ≠ .completed call (some docs)
    · obtain ⟨fetches, -, -, rfl⟩ := observing_fetch hquiet h
      exact Nat.le_refl _
    · push Not at hquiet
      obtain ⟨call, docs, rfl⟩ := hquiet
      obtain ⟨fetches, subscribed, -, -, rfl⟩ := observing_completed h
      exact Nat.le_refl _
  | reloadData index =>
    obtain ⟨-, rfl⟩ := observing_reloadData h
    exact Nat.le_refl _
  | released index =>
    obtain ⟨c, subscribed, -, -, rfl⟩ := observing_released h
    exact Nat.le_refl _

theorem mastering_of_observing {es : List ObservedEvent} {s : ObservedState}
    (h : observing.run es = some s) (hroom : s.loaded ≤ UInt64.size) :
    mastering.run (es.map Prod.fst) = some s.toMasterState := by
  refine run_induction (S := observing) (I := fun es s => s.loaded ≤ UInt64.size →
    mastering.run (es.map Prod.fst) = some s.toMasterState) (fun _ => rfl) ?_ h hroom
  intro es s e t hs ih ht hroom
  have hroom' := (loaded_le_of_step ht).trans hroom
  rw [List.map_append, List.map_singleton, run_snoc]
  exact ⟨_, ih hroom', mastering_of_observing_step hs hroom' ht⟩

/-- No trap of the bag keeps the subject from a step. -/
theorem exists_onSubject {s : ObservedState} {e : SubjectEvent (List Request) ℕ}
    (h : ((subject []).step s.subscribed e).isSome) : (s.onSubject e).isSome := by
  rwa [ObservedState.onSubject, Option.isSome_map]

theorem observing_enabled {es : List ObservedEvent} {s : ObservedState} {e : MasterEvent}
    (hs : observing.run es = some s) (hroom : s.loaded ≤ UInt64.size)
    (h : (mastering.step s.toMasterState e).isSome) :
    ∃ values, (observing.step s (e, values)).isSome := by
  obtain ⟨r, hattached⟩ := exists_attached_observing hs hroom
  cases e with
  | viewDidLoad => exact ⟨[], rfl⟩
  | fetch e =>
    cases e with
    | getRequests => exact ⟨[], rfl⟩
    | completed call snapShot =>
      cases snapShot with
      | none =>
        refine ⟨[], ?_⟩
        simpa [mastering, observing, ObservedState.toMasterState] using h
      | some docs =>
        obtain ⟨fetches, hfetches⟩ : ∃ fetches,
            fetching.step s.fetches (.completed call (some docs)) = some fetches := by
          simpa [mastering, ObservedState.toMasterState, Option.isSome_iff_exists] using h
        -- the dictionary enumerates its values in some order
        refine ⟨(s.subscribed.subject.synchronizedOn
          (.next fetches.provider.loadedRequestsSubject)).2.dictionaryEntries.map Sigma.snd, ?_⟩
        simp only [observing, hfetches, Option.bind_some]
        refine exists_onSubject ?_
        simp [subject, List.isPerm_iff]
  | reloadData index =>
    refine ⟨[], ?_⟩
    simpa [mastering, observing, ObservedState.toMasterState] using h
  | released index =>
    have hindex : index < s.controllers.length := by
      simpa [mastering, ObservedState.toMasterState] using h
    obtain ⟨t, -, ht, -⟩ := attached_unsubscribe (subject_run hs) hattached
      (s.controllers[index]).1
    refine ⟨[], ?_⟩
    simp only [observing, List.getElem?_eq_getElem hindex, Option.bind_some]
    refine exists_onSubject ?_
    rw [ht]
    rfl

theorem UpToDate.mirrors {published : List Request} {c : MasterViewController}
    (h : UpToDate published c) : Mirrors published c := by
  refine ⟨h.requets, fun date item hitem => ?_⟩
  have hrange : item < c.requets.length := Nat.lt_of_lt_of_le hitem h.rows
  simp [MasterViewController.cellForRowAt, hrange]

/-- With at most `UInt64.size` views loaded, the tables behave as in `mastering` whatever
the order in which the bag's dictionary enumerates the observers: each live one holds the
list published last, no table asks for a row beyond it, and the subject never traps. -/
theorem subscriptionsMirror {es : List ObservedEvent} {s : ObservedState}
    (h : observing.run es = some s) (hroom : s.loaded ≤ UInt64.size) :
    mastering.run (es.map Prod.fst) = some s.toMasterState ∧
      (∀ c ∈ s.controllers, Mirrors s.fetches.provider.loadedRequestsSubject c.2) ∧
      ∀ e, (∃ values, (observing.step s (e, values)).isSome) ↔
        (mastering.step s.toMasterState e).isSome := by
  have hmastering := mastering_of_observing h hroom
  refine ⟨hmastering, fun c hc => ?_, fun e => ⟨?_, observing_enabled h hroom⟩⟩
  · exact ((masterInv_run hmastering).controllers c.2 (List.mem_map_of_mem hc)).mirrors
  · rintro ⟨values, hvalues⟩
    obtain ⟨t, ht⟩ := Option.isSome_iff_exists.mp hvalues
    rw [mastering_of_observing_step h hroom ht]
    rfl

/-- Two views load, the first one is released, and a snapshot reaches the second. -/
def releasedController : List ObservedEvent :=
  [(.viewDidLoad, []), (.viewDidLoad, []), (.released 0, []),
    (.fetch (.completed 1 (some [someDocument])), []), (.reloadData 0, [])]

theorem subscriptionsMirror_releasedController :
    ∃ s, observing.run releasedController = some s ∧ s.controllers.map Prod.fst = [1] ∧
      ∀ c ∈ s.controllers, Mirrors s.fetches.provider.loadedRequestsSubject c.2 := by
  refine ⟨_, rfl, rfl, ?_⟩
  exact (@subscriptionsMirror releasedController _ rfl (by decide)).2.1

end SewaConnect.Ios
