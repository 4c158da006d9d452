import SewaConnect.Ios.Model

/-! `RemoteDataProvider.swift`: decoding of fetched documents, the published
request list, the listeners of a fetch, and the documents that `post` adds.
`process` is the source's loop; `process_eq` gives its result at once. -/

namespace SewaConnect.Ios

open Values

/-- `db.collection("requests")` -/
def requestsDocRef : String := "requests"

/-- `db.collection("volunteers")` -/
def volunteersDocRef : String := "volunteers"

structure QueryDocumentSnapshot where
  documentID : String
  data : Fields

/-- A document's place in the database. -/
structure DocumentPath where
  collection : String
  documentID : String
  deriving DecidableEq

/-- The chained conditions in `process`: the request a document decodes to, or
`none` as soon as one cast fails. -/
def decode (data : Fields) : Option Request := do
  let info ← (data.get "additionInfo").bind Value.asString
  let createdAt ← (data.get "createdAtUTC").bind Value.asDouble
  let helpTypeNum ← (data.get "helpType").bind Value.asInt
  let helpType ← ofRawValue helpTypeNum
  let lastModifiedAt ← (data.get "lastModifiedAt").bind Value.asDouble
  let statsNum ← (data.get "status").bind Value.asInt
  let status ← ofRawValue statsNum
  let user ← (data.get "user").bind Value.asMap
  let userId ← (user.get "userId").bind Value.asString
  let userName ← (user.get "userName").bind Value.asString
  let email ← (user.get "email").bind Value.asString
  let phone ← (user.get "phone").bind Value.asString
  let requestor : Requestor := {
    userId, name := userName, type := .helpSeeker, email, phone, location := none }
  let request : Request := {
    requestingHelpType := helpType, requestor := .requestor requestor, additionInfo := some info,
    createdAtUTC := createdAt, lastModifiedAt := some lastModifiedAt }
  return { request with status }

structure RemoteDataProvider where
  loadedRequests : List Request := []
  /-- The value held by the behavior subject. -/
  loadedRequestsSubject : List Request := []
  /-- The documents with a snapshot listener, one entry for each registration. -/
  snapshotListeners : List DocumentPath := []
  deriving DecidableEq

namespace RemoteDataProvider

/-- One turn of the loop of `process`. -/
def processDoc (p : RemoteDataProvider) (doc : QueryDocumentSnapshot) : RemoteDataProvider :=
  match decode doc.data with
  | some request => { p with loadedRequests := p.loadedRequests ++ [request] }
  | none => p

def process (p : RemoteDataProvider) (requestDocs : List QueryDocumentSnapshot) :
    RemoteDataProvider :=
  let q := requestDocs.foldl processDoc p
  { q with loadedRequestsSubject := q.loadedRequests }

def setupListens (p : RemoteDataProvider) (docs : List QueryDocumentSnapshot) :
    RemoteDataProvider :=
  docs.foldl (fun p doc =>
    { p with snapshotListeners := p.snapshotListeners ++ [⟨"help_request", doc.documentID⟩] }) p

/-- The completion handler of `getRequests`; `none` stands for a missing snapshot. -/
def onDocuments (p : RemoteDataProvider) :
    Option (List QueryDocumentSnapshot) → RemoteDataProvider
  | none => p
  | some documents => (p.process documents).setupListens documents

/-! ### What a fetch does -/

/-- The requests the documents decode to, in document order. -/
def decoded (docs : List QueryDocumentSnapshot) : List Request :=
  docs.filterMap fun doc => decode doc.data

theorem foldl_processDoc (p : RemoteDataProvider) (docs : List QueryDocumentSnapshot) :
    docs.foldl processDoc p = { p with loadedRequests := p.loadedRequests ++ decoded docs } := by
  induction docs generalizing p with
  | nil => simp [decoded]
  | cons doc docs ih =>
    rw [List.foldl_cons, ih]
    cases h : decode doc.data <;> simp [processDoc, decoded, h]

/-- The loop appends what the documents decode to, and the subject follows. -/
theorem process_eq (p : RemoteDataProvider) (docs : List QueryDocumentSnapshot) :
    p.process docs = { p with
      loadedRequests := p.loadedRequests ++ decoded docs
      loadedRequestsSubject := p.loadedRequests ++ decoded docs } := by
  rw [process, foldl_processDoc]

theorem setupListens_eq (p : RemoteDataProvider) (docs : List QueryDocumentSnapshot) :
    p.setupListens docs = { p with
      snapshotListeners :=
        p.snapshotListeners ++ docs.map fun doc => ⟨"help_request", doc.documentID⟩ } := by
  induction docs generalizing p with
  | nil => simp [setupListens]
  | cons doc docs ih =>
    have hcons : p.setupListens (doc :: docs) =
        setupListens { p with
          snapshotListeners := p.snapshotListeners ++ [⟨"help_request", doc.documentID⟩] } docs :=
      rfl
    rw [hcons, ih]
    simp

@[simp] theorem onDocuments_none (p : RemoteDataProvider) : p.onDocuments none = p := rfl

@[simp] theorem loadedRequests_onDocuments (p : RemoteDataProvider)
    (docs : List QueryDocumentSnapshot) :
    (p.onDocuments (some docs)).loadedRequests = p.loadedRequests ++ decoded docs := by
  rw [onDocuments, setupListens_eq, process_eq]

@[simp] theorem loadedRequestsSubject_onDocuments (p : RemoteDataProvider)
    (docs : List QueryDocumentSnapshot) :
    (p.onDocuments (some docs)).loadedRequestsSubject = p.loadedRequests ++ decoded docs := by
  rw [onDocuments, setupListens_eq, process_eq]

@[simp] theorem snapshotListeners_onDocuments (p : RemoteDataProvider)
    (docs : List QueryDocumentSnapshot) :
    (p.onDocuments (some docs)).snapshotListeners =
      p.snapshotListeners ++ docs.map fun doc => ⟨"help_request", doc.documentID⟩ := by
  rw [onDocuments, setupListens_eq, process_eq]

end RemoteDataProvider

/-! ### Posting -/

/-- The argument of one of the two `post` functions. -/
inductive Post where
  | request (r : Request)
  | volunteer (v : Volunteer)
  deriving DecidableEq

namespace Post

/-- The collection that `post` adds a document to. -/
def collection : Post → String
  | .request _ => requestsDocRef
  | .volunteer _ => volunteersDocRef

/-- The document that `post` adds. -/
def document : Post → Fields
  | .request r => r.requestMap
  | .volunteer v => v.userMap

/-- The user that `post` hands to `UserProvider.save` once the server has
acknowledged the document. -/
def user : Post → User
  | .request r => r.requestor
  | .volunteer v => .volunteer v

end Post

end SewaConnect.Ios
