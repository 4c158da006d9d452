import SewaConnect.Runs.System
import SewaConnect.Ios.RequestRoundTrip

/-! Overlapping fetches of the one `RemoteDataProvider`. Its accumulator is never
emptied, so it holds the decodings of all snapshots so far (`loadedRequests_run`).
A completion therefore publishes its own snapshot only while every earlier
snapshot decoded to nothing. -/

namespace SewaConnect.Ios

open Values Runs Runs.System RemoteDataProvider

inductive FetchEvent where
  | getRequests
  /-- The call completes, with a snapshot or with an error. -/
  | completed (call : ℕ) (snapShot : Option (List QueryDocumentSnapshot))

structure FetchState where
  provider : RemoteDataProvider := {}
  calls : ℕ := 0
  outstanding : List ℕ := []

/-- Calls complete in any order, each once. -/
def fetching : System FetchState FetchEvent where
  init := {}
  step s
    | .getRequests =>
      some { s with calls := s.calls + 1, outstanding := s.outstanding ++ [s.calls] }
    | .completed call snapShot =>
      if call ∈ s.outstanding then
        some { s with
          provider := s.provider.onDocuments snapShot
          outstanding := s.outstanding.erase call }
      else none

theorem fetching_getRequests {s t : FetchState} (h : fetching.step s .getRequests = some t) :
    t.provider = s.provider := by
  simp only [fetching, Option.some.injEq] at h
  subst t
  rfl

theorem fetching_completed {s t : FetchState} {call : ℕ}
    {snapShot : Option (List QueryDocumentSnapshot)}
    (h : fetching.step s (.completed call snapShot) = some t) :
    call ∈ s.outstanding ∧ t.provider = s.provider.onDocuments snapShot := by
  simp only [fetching, Option.ite_none_right_eq_some, Option.some.injEq] at h
  obtain ⟨hcall, rfl⟩ := h
  exact ⟨hcall, rfl⟩

/-- The snapshots a history has delivered, in order of completion. -/
def snapshots : List FetchEvent → List (List QueryDocumentSnapshot) :=
  List.filterMap fun
    | .completed _ snapShot => snapShot
    | .getRequests => none

/-- The accumulator after any run: everything every snapshot decoded to. -/
theorem loadedRequests_run {es : List FetchEvent} {s : FetchState}
    (h : fetching.run es = some s) :
    s.provider.loadedRequests = (snapshots es).flatMap decoded := by
  refine run_induction (S := fetching)
    (I := fun es s => s.provider.loadedRequests = (snapshots es).flatMap decoded) rfl ?_ h
  intro es s e t _ hs ht
  cases e with
  | getRequests =>
    rw [fetching_getRequests ht, hs]
    simp [snapshots]
  | completed call snapShot =>
    rw [(fetching_completed ht).2]
    cases snapShot with
    | none =>
      rw [onDocuments_none, hs]
      simp [snapshots]
    | some docs =>
      rw [loadedRequests_onDocuments, hs]
      simp [snapshots]

/-- A completion with a snapshot publishes exactly what that snapshot decodes
to, in document order; every other step leaves the published list alone. -/
def PublishesLastFetch (es : List FetchEvent) : Prop :=
  fetching.EachStep (fun _ s e => ∀ t, fetching.step s e = some t →
    match e with
    | .completed _ (some docs) => t.provider.loadedRequestsSubject = decoded docs
    | _ => t.provider.loadedRequestsSubject = s.provider.loadedRequestsSubject) es

/-- Snapshots are delivered only while all earlier ones held no well-formed document. -/
def NothingDecodedBefore (es : List FetchEvent) : Prop :=
  fetching.EachStep (fun pre _ e =>
    match e with
    | .completed _ (some _) => ∀ docs ∈ snapshots pre, decoded docs = []
    | _ => True) es

theorem publishesLastFetch_iff {es : List FetchEvent} {s : FetchState}
    (h : fetching.run es = some s) :
    PublishesLastFetch es ↔ NothingDecodedBefore es := by
  refine eachStep_congr ?_ h
  intro es s e t hs ht
  have hloaded := loadedRequests_run hs
  cases e with
  | getRequests => simp [ht, fetching_getRequests ht]
  | completed call snapShot =>
    obtain ⟨-, hprovider⟩ := fetching_completed ht
    cases snapShot with
    | none => simp [ht, hprovider]
    | some docs =>
      simp only [ht, Option.some.injEq, forall_eq', hprovider, loadedRequestsSubject_onDocuments,
        hloaded, List.append_left_eq_self, List.flatMap_eq_nil_iff]

/-- A document that decodes. -/
def someDocument : QueryDocumentSnapshot := ⟨"doc", assignedRequest.requestMap⟩

/-- Two fetches of the same one document. -/
def twoFetches : List FetchEvent :=
  [.getRequests, .completed 0 (some [someDocument]),
    .getRequests, .completed 1 (some [someDocument])]

/-- Two fetches at once; the one made last is answered first, with a document that does not
decode. -/
def emptyOvertakes : List FetchEvent :=
  [.getRequests, .getRequests, .completed 1 (some [⟨"other", []⟩]),
    .completed 0 (some [someDocument])]

theorem emptyOvertakes_nothingDecodedBefore : NothingDecodedBefore emptyOvertakes :=
  EachStepFrom.eachStep ⟨trivial, trivial, fun _ => nofun,
    by (intro docs hdocs; obtain rfl := List.mem_singleton.mp hdocs; rfl), trivial⟩

theorem publishesLastFetch_iff_twoFetches :
    ((fetching.run emptyOvertakes).isSome ∧ PublishesLastFetch emptyOvertakes) ∧
      (fetching.run twoFetches).isSome ∧
        (PublishesLastFetch twoFetches ↔ NothingDecodedBefore twoFetches) :=
  ⟨⟨rfl, (publishesLastFetch_iff rfl).mpr emptyOvertakes_nothingDecodedBefore⟩, rfl,
    publishesLastFetch_iff rfl⟩

/-- The second fetch publishes the document's request twice. -/
theorem twoFetches_not_publishesLastFetch :
    (fetching.run twoFetches).isSome ∧ ¬ PublishesLastFetch twoFetches := by
  refine ⟨rfl, fun h => ?_⟩
  have hlast := h (twoFetches.take 3) (.completed 1 (some [someDocument])) [] _ rfl rfl _ rfl
  simp [fetching, onDocuments, setupListens_eq, process_eq, decoded, someDocument,
    decode_requestMap] at hlast

end SewaConnect.Ios
