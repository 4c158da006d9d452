import SewaConnect.Ios.RemoteDataProvider

/-! A posted request read back by `process`. `requestMap` writes the requestor's
type and location and the assignee; `decode` reads none of the three, and puts
`.helpSeeker`, `nil` and `nil` in their place. `decode_requestMap` computes the
request that comes back, and the round trip holds for exactly the requests that
have these three values already. -/

namespace SewaConnect.Ios

open Values RemoteDataProvider

/-- The user `v` that was read back agrees with the stored user `u`. -/
structure User.ReadsBack (u v : User) : Prop where
  userId : v.userId = u.userId
  name : v.name = u.name
  type : v.type = u.type
  email : v.email = u.email
  phone : v.phone = u.phone
  location : ∀ l, u.location = some l → v.location = some l

/-- The request `q` that was read back agrees with the posted request `r`, up to
the defaults that the encoder puts in. -/
structure Request.ReadsBack (r q : Request) : Prop where
  helpType : q.requestingHelpType = r.requestingHelpType
  status : q.status = r.status
  createdAtUTC : q.createdAtUTC = r.createdAtUTC
  requestor : r.requestor.ReadsBack q.requestor
  assignee : q.assignee = r.assignee
  additionInfo : q.additionInfo = some (r.additionInfo.getD "none")
  lastModifiedAt : q.lastModifiedAt = some (r.lastModifiedAt.getD r.createdAtUTC)

/-- Among any other documents, a document with the keys and values of
`r.requestMap` makes `process` append one request, in its place, and that
request agrees with `r`. -/
def Request.DecodesBack (r : Request) : Prop :=
  ∀ (p : RemoteDataProvider) (before after : List QueryDocumentSnapshot)
    (doc : QueryDocumentSnapshot), (∀ key, doc.data.get key = r.requestMap.get key) →
    ∃ q, r.ReadsBack q ∧
      (p.process (before ++ doc :: after)).loadedRequests =
        (p.process before).loadedRequests ++ q :: (process {} after).loadedRequests

/-- What `decode` makes of the document of `r`. -/
def Request.returned (r : Request) : Request where
  requestingHelpType := r.requestingHelpType
  requestor := .requestor {
    userId := r.requestor.userId, name := r.requestor.name, type := .helpSeeker,
    email := r.requestor.email, phone := r.requestor.phone, location := none }
  status := r.status
  additionInfo := some (r.additionInfo.getD "none")
  createdAtUTC := r.createdAtUTC
  lastModifiedAt := some (r.lastModifiedAt.getD r.createdAtUTC)

/-- Decoding looks only at the values under keys. -/
theorem decode_congr {data data' : Fields} (h : ∀ key, data.get key = data'.get key) :
    decode data = decode data' := by
  simp only [decode, h]

theorem decode_requestMap (r : Request) : decode r.requestMap = some r.returned := by
  simp [decode, Request.requestMap, Request.returned]

theorem decodesBack_iff (r : Request) : r.DecodesBack ↔ r.ReadsBack r.returned := by
  constructor
  · intro h
    obtain ⟨q, hq, heq⟩ := h {} [] [] ⟨"", r.requestMap⟩ fun _ => rfl
    have hone : (process {} [⟨"", r.requestMap⟩]).loadedRequests = [r.returned] := by
      simp [process_eq, decoded, decode_requestMap]
    have hq' : [r.returned] = [q] := by
      rw [← hone]
      exact heq
    exact (List.singleton_inj.mp hq') ▸ hq
  · intro h p before after doc hdoc
    have hdecode : decode doc.data = some r.returned :=
      (decode_congr hdoc).trans (decode_requestMap r)
    refine ⟨r.returned, h, ?_⟩
    simp [process_eq, decoded, hdecode]

theorem requestor_readsBack_iff (r : Request) : r.requestor.ReadsBack r.returned.requestor ↔
    r.requestor.type = .helpSeeker ∧ r.requestor.location = none := by
  constructor
  · intro h
    refine ⟨h.type.symm, Option.eq_none_iff_forall_ne_some.mpr fun l hl => ?_⟩
    have hback := h.location l hl
    simp [Request.returned, User.location] at hback
  · rintro ⟨htype, hlocation⟩
    exact ⟨rfl, rfl, htype.symm, rfl, rfl, fun l hl => by simp [hlocation] at hl⟩

/-- The round trip holds exactly for unassigned requests of help seekers without
a location. -/
theorem request_decodesBack_iff (r : Request) : r.DecodesBack ↔
    r.requestor.type = .helpSeeker ∧ r.requestor.location = none ∧ r.assignee = none := by
  rw [decodesBack_iff]
  constructor
  · intro h
    obtain ⟨htype, hlocation⟩ := (requestor_readsBack_iff r).mp h.requestor
    exact ⟨htype, hlocation, h.assignee.symm⟩
  · rintro ⟨htype, hlocation, hassignee⟩
    exact ⟨rfl, rfl, rfl, (requestor_readsBack_iff r).mpr ⟨htype, hlocation⟩, hassignee.symm,
      rfl, rfl⟩

/-- A request whose volunteer is lost on the way back. -/
def assignedRequest : Request where
  requestingHelpType := .tutoring
  requestor := .requestor ⟨"seeker", "Asha", .helpSeeker, "asha@mail", "555", none⟩
  status := .assigned
  additionInfo := none
  createdAtUTC := 0
  lastModifiedAt := none
  assignee := some (.volunteer ⟨"Ravi", "helper", .volunteer, "ravi@mail", "556", none, .tutoring⟩)

theorem assignedRequest_not_decodesBack : ¬ assignedRequest.DecodesBack := by
  rw [decodesBack_iff]
  intro h
  exact absurd h.assignee (by decide)

end SewaConnect.Ios
