import SewaConnect.Ios.Fetching

/-! Fetches and later writes of request documents. `getRequests` reads "requests" and
`setupListens` listens under "help_request", one listener for each time a document is
fetched (`snapshotListeners_run`). No write of a fetched request is ever heard
(`watchesOnce_iff`). -/

namespace SewaConnect.Ios

open Values Runs Runs.System RemoteDataProvider

inductive WatchEvent where
  | fetch (e : FetchEvent)
  /-- Some client writes a document of the collection of requests. -/
  | write (documentID : String)

structure WatchState where
  fetches : FetchState := {}
  /-- The listeners called so far, by the path each was registered on. -/
  deliveries : List DocumentPath := []

/-- A write is delivered to every listener on the path of its document. -/
def watching : System WatchState WatchEvent where
  init := {}
  step s
    | .fetch e => (fetching.step s.fetches e).map fun fetches => { s with fetches }
    | .write documentID =>
      some { s with
        deliveries := s.deliveries ++
          s.fetches.provider.snapshotListeners.filter (· = ⟨requestsDocRef, documentID⟩) }

/-- The documents of the snapshots so far, one entry for each time. -/
def fetched (es : List WatchEvent) : List String :=
  es.flatMap fun
    | .fetch (.completed _ (some docs)) => docs.map QueryDocumentSnapshot.documentID
    | _ => []

/-- A write to a fetched document reaches exactly one listener. -/
def DeliveredOnce (es : List WatchEvent) (s : WatchState) (e : WatchEvent) : Prop :=
  ∀ t documentID, watching.step s e = some t → e = .write documentID →
    documentID ∈ fetched es →
    t.deliveries = s.deliveries ++ [⟨requestsDocRef, documentID⟩]

/-- Each fetched document has exactly one listener on its path. -/
def ListenedOnce (es : List WatchEvent) (s : WatchState) : Prop :=
  ∀ documentID ∈ fetched es,
    s.fetches.provider.snapshotListeners.count ⟨requestsDocRef, documentID⟩ = 1

/-- No document of an earlier snapshot is written. -/
def WritesUnfetched (es : List WatchEvent) (_ : WatchState) : WatchEvent → Prop
  | .write documentID => documentID ∉ fetched es
  | .fetch _ => True

/-- Every listener is on a document of the other collection. -/
theorem snapshotListeners_run {es : List WatchEvent} {s : WatchState}
    (h : watching.run es = some s) :
    s.fetches.provider.snapshotListeners = (fetched es).map (⟨"help_request", ·⟩) := by
  refine run_induction (S := watching) (I := fun es s =>
    s.fetches.provider.snapshotListeners = (fetched es).map (⟨"help_request", ·⟩)) rfl ?_ h
  intro es s e t _ hs ht
  cases e with
  | write documentID =>
    simp only [watching, Option.some.injEq] at ht
    subst ht
    simpa [fetched] using hs
  | fetch e =>
    simp only [watching, Option.map_eq_some_iff] at ht
    obtain ⟨fetches, hfetches, rfl⟩ := ht
    cases e with
    | getRequests =>
      rw [fetching_getRequests hfetches, hs]
      simp [fetched]
    | completed call snapShot =>
      rw [(fetching_completed hfetches).2]
      cases snapShot with
      | none =>
        rw [onDocuments_none, hs]
        simp [fetched]
      | some docs =>
        rw [snapshotListeners_onDocuments, hs]
        simp [fetched]

/-- The path of a request has no listener, however often it was fetched. -/
theorem requestPath_not_mem {es : List WatchEvent} {s : WatchState}
    (h : watching.run es = some s) (documentID : String) :
    ⟨requestsDocRef, documentID⟩ ∉ s.fetches.provider.snapshotListeners := by
  rw [snapshotListeners_run h]
  simp [requestsDocRef]

/-- In every run, each write of a fetched document reaches exactly one listener just when no
fetched document is written, and each fetched document has its one listener just when
none is fetched. -/
theorem watchesOnce_iff {es : List WatchEvent} {s : WatchState} (h : watching.run es = some s) :
    (watching.EachStep DeliveredOnce es ↔ watching.EachStep WritesUnfetched es) ∧
      (watching.EachState ListenedOnce es ↔ fetched es = []) := by
  constructor
  · refine eachStep_congr ?_ h
    intro es s e t hs ht
    cases e with
    | fetch e => simp [DeliveredOnce, WritesUnfetched]
    | write documentID =>
      have hnone := requestPath_not_mem hs documentID
      simp only [watching, Option.some.injEq] at ht
      subst ht
      have hunheard : s.fetches.provider.snapshotListeners.filter
          (· = ⟨requestsDocRef, documentID⟩) = [] := by
        rw [List.filter_eq_nil_iff]
        intro path hpath heq
        rw [decide_eq_true_eq] at heq
        exact hnone (heq ▸ hpath)
      constructor
      · intro hdelivered hmem
        have hone := hdelivered _ documentID rfl rfl hmem
        rw [hunheard] at hone
        simp at hone
      · rintro hunfetched t documentID' - ⟨⟩ hmem
        exact absurd hmem hunfetched
  · constructor
    · intro hlistened
      have hend := hlistened es [] s (List.append_nil es).symm h
      rw [List.eq_nil_iff_forall_not_mem]
      intro documentID hmem
      have hcount := hend documentID hmem
      rw [List.count_eq_zero_of_not_mem (requestPath_not_mem h documentID)] at hcount
      exact absurd hcount (by decide)
    · intro hnone pre post r heq hr documentID hmem
      rw [heq, fetched, List.flatMap_append, List.append_eq_nil_iff] at hnone
      rw [fetched, hnone.1] at hmem
      exact absurd hmem List.not_mem_nil

/-- A request is fetched and then written. -/
def writtenAfterFetch : List WatchEvent :=
  [.fetch .getRequests, .fetch (.completed 0 (some [someDocument])), .write "doc"]

/-- A request is written before it is fetched, and another one after that. -/
def writtenUnfetched : List WatchEvent :=
  [.fetch .getRequests, .write "doc", .fetch (.completed 0 (some [someDocument])), .write "other"]

theorem writtenUnfetched_writesUnfetched : watching.EachStep WritesUnfetched writtenUnfetched :=
  EachStepFrom.eachStep ⟨trivial, by simp [WritesUnfetched, fetched], trivial,
    by simp [WritesUnfetched, fetched, someDocument], trivial⟩

/-- A fetch that finds nothing. -/
def emptyFetch : List WatchEvent :=
  [.fetch .getRequests, .fetch (.completed 0 (some [])), .write "doc"]

theorem watchesOnce_iff_writtenAfterFetch :
    ((watching.run writtenUnfetched).isSome ∧ watching.EachStep DeliveredOnce writtenUnfetched) ∧
    ((watching.run emptyFetch).isSome ∧ watching.EachState ListenedOnce emptyFetch) ∧
    (watching.run writtenAfterFetch).isSome ∧
      (watching.EachStep DeliveredOnce writtenAfterFetch ↔
        watching.EachStep WritesUnfetched writtenAfterFetch) ∧
      (watching.EachState ListenedOnce writtenAfterFetch ↔ fetched writtenAfterFetch = []) :=
  ⟨⟨rfl, (watchesOnce_iff rfl).1.mpr writtenUnfetched_writesUnfetched⟩,
    ⟨rfl, (watchesOnce_iff rfl).2.mpr rfl⟩, rfl, watchesOnce_iff rfl⟩

/-- Nothing hears the write. -/
theorem writtenAfterFetch_not_watchesOnce :
    (watching.run writtenAfterFetch).isSome ∧
      ¬ watching.EachStep DeliveredOnce writtenAfterFetch := by
  refine ⟨rfl, fun h => ?_⟩
  have hwrite :=
    h (writtenAfterFetch.take 2) (.write "doc") [] _ rfl rfl _ "doc" rfl rfl (by decide)
  exact absurd hwrite (by decide)

end SewaConnect.Ios
