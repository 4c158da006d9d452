import SewaConnect.Ios.RemoteDataProvider

/-! The help request of the Android client (`FragmentLookingForHelp.java`) as the iOS
client of the same project reads it. The two agree neither on the collection nor on the
keys: `submitted_unread` shows that `process` passes over the document, and
`storesTexts_iff` that the typed location is stored only by coincidence. -/

namespace SewaConnect.Android

open Values Ios RemoteDataProvider

/-- The texts in the six edit texts. -/
structure HelpForm where
  name : String
  age : String
  moreInfo : String
  phone : String
  email : String
  location : String
  deriving DecidableEq

def HelpForm.texts (form : HelpForm) : List String :=
  [form.name, form.age, form.moreInfo, form.phone, form.email, form.location]

/-- A call of `add` on a collection. -/
structure AddedDocument where
  collection : String
  fields : Fields

structure FragmentLookingForHelp where
  editTexts : HelpForm
  mName : String := ""
  mAge : String := ""
  mMore : String := ""
  mPhone : String := ""
  mEmail : String := ""
  mLocation : String := ""
  /-- Nothing sets the two coordinates: the request for the device's location is
  commented out. -/
  mLng : Double := 0
  mLat : Double := 0

namespace FragmentLookingForHelp

def submitData (f : FragmentLookingForHelp) : AddedDocument where
  collection := "help_request"
  fields := [("name", .string f.mName), ("age", .string f.mAge),
    ("additionalInfo", .string f.mMore), ("phone", .string f.mPhone), ("email", .string f.mEmail),
    ("location", .map [("lat", .double f.mLat), ("lon", .double f.mLng)])]

/-- The click listener of the submit button. -/
def onClick (f : FragmentLookingForHelp) : FragmentLookingForHelp × AddedDocument :=
  let g := { f with
    mName := trim f.editTexts.name
    mAge := trim f.editTexts.age
    mMore := trim f.editTexts.moreInfo
    mPhone := trim f.editTexts.phone
    mEmail := trim f.editTexts.email
    mLocation := trim f.editTexts.location }
  (g, g.submitData)

end FragmentLookingForHelp

/-- The document that a press of the submit button adds. -/
def HelpForm.submitted (form : HelpForm) : AddedDocument :=
  (FragmentLookingForHelp.onClick { editTexts := form }).2

/-! ### Seen on iOS -/

/-- The request carries the trimmed texts of the form. -/
structure HelpForm.ReadsBack (form : HelpForm) (q : Request) : Prop where
  name : q.requestor.name = trim form.name
  phone : q.requestor.phone = trim form.phone
  email : q.requestor.email = trim form.email
  additionInfo : q.additionInfo = some (trim form.moreInfo)

/-- Among any other documents, the submitted one makes `process` append one request, in
its place, with the texts of the form. -/
def HelpForm.Accepted (form : HelpForm) : Prop :=
  ∃ q, form.ReadsBack q ∧ ∀ (p : RemoteDataProvider) (documentID : String)
    (before after : List QueryDocumentSnapshot),
    (p.process (before ++ ⟨documentID, form.submitted.fields⟩ :: after)).loadedRequests =
      (p.process before).loadedRequests ++ q ::
        (process {} after).loadedRequests

/-- No typed text is missing from the document. -/
def HelpForm.StoresTexts (form : HelpForm) : Prop :=
  ∀ text ∈ form.texts, trim text ∈ Value.textsOfFields form.submitted.fields

structure HelpForm.SeenOnIos (form : HelpForm) : Prop where
  collection : form.submitted.collection = requestsDocRef
  accepted : form.Accepted
  stored : form.StoresTexts

theorem submitted_collection_ne (form : HelpForm) :
    form.submitted.collection ≠ requestsDocRef := by
  show "help_request" ≠ "requests"
  decide

/-- The decoder asks first for a key that the document lacks. -/
theorem decode_submitted (form : HelpForm) : decode form.submitted.fields = none := by
  have hinfo : form.submitted.fields.get "additionInfo" = none := by
    simp [HelpForm.submitted, FragmentLookingForHelp.onClick, FragmentLookingForHelp.submitData]
  rw [decode, hinfo]
  rfl

/-- Even in the collection that is read, the document would be passed over. -/
theorem submitted_unread (form : HelpForm) (p : RemoteDataProvider) (documentID : String)
    (before after : List QueryDocumentSnapshot) :
    p.process (before ++ ⟨documentID, form.submitted.fields⟩ :: after) =
      p.process (before ++ after) := by
  simp [process_eq, decoded, decode_submitted]

theorem not_accepted (form : HelpForm) : ¬ form.Accepted := by
  rintro ⟨q, -, hq⟩
  have hone := hq {} "" [] []
  rw [submitted_unread] at hone
  simp [process_eq, decoded] at hone

/-- The location is stored only where it was typed into another field as well. -/
theorem storesTexts_iff (form : HelpForm) : form.StoresTexts ↔
    trim form.location ∈ [trim form.name, trim form.age, trim form.moreInfo, trim form.phone,
      trim form.email] := by
  have hstored : Value.textsOfFields form.submitted.fields =
      [trim form.name, trim form.age, trim form.moreInfo, trim form.phone, trim form.email] := rfl
  rw [HelpForm.StoresTexts, hstored]
  simp [HelpForm.texts]

/-- No request of the Android form is seen on iOS. -/
theorem not_seenOnIos (form : HelpForm) : ¬ form.SeenOnIos := by
  intro h
  exact not_accepted form h.accepted

/-- A form filled in as it should be. -/
def filledIn : HelpForm := ⟨"Asha", "34", "Groceries", "555", "asha@mail", "San Jose"⟩

/-- Its document lies in the other collection, does not decode and lacks the location. -/
theorem filledIn_not_seenOnIos : ¬ filledIn.SeenOnIos ∧
    filledIn.submitted.collection ≠ requestsDocRef ∧ decode filledIn.submitted.fields = none ∧
    "San Jose" ∉ Value.textsOfFields filledIn.submitted.fields :=
  ⟨fun h => not_accepted filledIn h.accepted, by decide, rfl, by decide⟩

end SewaConnect.Android
