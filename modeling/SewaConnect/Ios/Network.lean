import SewaConnect.Android.FragmentLookingForHelp
import SewaConnect.Ios.Device

/-! All installations of the client and the database they share. A submitted document
waits on its device until the server accepts or rejects it; the answer to a query of
"requests" holds accepted documents and, before they are decided, the device's own. A
relaunch loses the handlers and the answers under way, but no document. -/

namespace SewaConnect.Ios

open Values Runs Runs.System RemoteDataProvider

/-- A call of `addDocument` by one of the two `post` functions. -/
structure Addition (D : Type*) where
  device : D
  /-- Chosen at random by the caller. -/
  documentID : String
  post : Post
  deriving DecidableEq

/-- A document of the database, by the client that added it. -/
inductive Document (D : Type*) where
  | ios (a : Addition D)
  | android (documentID : String) (form : Android.HelpForm)
  deriving DecidableEq

namespace Document

variable {D : Type*}

def documentID : Document D → String
  | ios a => a.documentID
  | android documentID _ => documentID

def collection : Document D → String
  | ios a => a.post.collection
  | android _ form => form.submitted.collection

def data : Document D → Fields
  | ios a => a.post.document
  | android _ form => form.submitted.fields

def snapshot (doc : Document D) : QueryDocumentSnapshot := ⟨doc.documentID, doc.data⟩

def addition? : Document D → Option (Addition D)
  | ios a => some a
  | android _ _ => none

/-- The request in a document of the iOS client. -/
def request? : Document D → Option Request
  | ios ⟨_, _, .request r⟩ => some r
  | _ => none

end Document

/-- A document as the database keeps it, whichever client has added it. -/
structure Stored where
  collection : String
  documentID : String
  fields : Fields

def Document.stored {D : Type*} (doc : Document D) : Stored :=
  ⟨doc.collection, doc.documentID, doc.data⟩

/-- An answer to a call of `getRequests`. -/
structure Answer (D : Type*) where
  device : D
  call : ℕ
  documents : List (Document D)
  deriving DecidableEq

structure Network (D : Type*) where
  device : D → Device := fun _ => .launch none
  /-- Additions that the server has not decided on. -/
  pending : List (Addition D) := []
  /-- Additions whose completion handlers a running process waits for. -/
  awaiting : List (Addition D) := []
  documents : List (Document D) := []
  rejected : List (Addition D) := []
  /-- Answers on their way. -/
  answers : List (Answer D) := []

inductive NetworkEvent (D : Type*) where
  /-- What a process does without the server. -/
  | role (d : D) (e : RoleEvent)
  | master (d : D) (e : MasterEvent)
  | submit (d : D) (identifierForVendor : String) (now : Double) (documentID : String)
  | commit (a : Addition D)
  | reject (a : Addition D)
  | acknowledged (a : Addition D)
  | failed (a : Addition D)
  /-- A query is answered, by the server or from the device's cache. -/
  | answer (a : Answer D) (fromServer : Bool)
  | deliver (a : Answer D)
  | missing (d : D) (call : ℕ)
  /-- The Android client adds a document. -/
  | android (documentID : String) (form : Android.HelpForm)
  | relaunch (d : D)

def MasterEvent.completes : MasterEvent → Bool
  | .fetch (.completed _ _) => true
  | _ => false

namespace NetworkEvent

variable {D : Type*}

/-- The device that an event takes place on, and what happens there. -/
def deviceEvent : NetworkEvent D → Option (D × DeviceEvent)
  | role d e => some (d, .role e)
  | master d e => some (d, .master e)
  | submit d identifierForVendor now _ =>
    some (d, .role (.form (.submit identifierForVendor now)))
  | acknowledged a => some (a.device, .role (.form (.acknowledged a.post)))
  | failed a => some (a.device, .role (.form (.failed a.post)))
  | deliver a => some (a.device,
      .master (.fetch (.completed a.call (some (a.documents.map Document.snapshot)))))
  | missing d call => some (d, .master (.fetch (.completed call none)))
  | relaunch d => some (d, .relaunch)
  | commit _ | reject _ | answer _ _ | android _ _ => none

variable [DecidableEq D]

/-- The part of device `d` in an event. -/
def on (e : NetworkEvent D) (d : D) : List DeviceEvent :=
  match e.deviceEvent with
  | some (d', f) => if d' = d then [f] else []
  | none => []

end NetworkEvent

namespace Network

variable {D : Type*}

/-- What a press of Submit on the device adds. -/
def additions (n : Network D) (d : D) (identifierForVendor : String) (now : Double)
    (documentID : String) : List (Addition D) :=
  (((n.device d).role.forms.controller.bind (·.submit identifierForVendor now)).map
    fun post => ⟨d, documentID, post⟩).toList

def usedIDs (n : Network D) : List String :=
  n.pending.map Addition.documentID ++ n.rejected.map Addition.documentID ++
    n.documents.map Document.documentID

/-- The additions among the accepted documents. -/
def committed (n : Network D) : List (Addition D) := n.documents.filterMap Document.addition?

def decided (n : Network D) : List (Addition D) := n.committed ++ n.rejected

/-- Every document that was ever added, wherever it is. -/
def holdings (n : Network D) : List (Document D) :=
  (n.pending ++ n.rejected).map .ios ++ n.documents

theorem mem_committed {n : Network D} {a : Addition D} :
    a ∈ n.committed ↔ .ios a ∈ n.documents := by
  rw [committed, List.mem_filterMap]
  constructor
  · rintro ⟨doc, hdoc, ha⟩
    cases doc with
    | ios b => exact Option.some.inj ha ▸ hdoc
    | android documentID form => simp [Document.addition?] at ha
  · intro h
    exact ⟨.ios a, h, rfl⟩

theorem mem_holdings {n : Network D} {a : Addition D} :
    .ios a ∈ n.holdings ↔ a ∈ n.pending ++ n.decided := by
  simp only [holdings, decided, List.mem_append, mem_committed, List.mem_map, Document.ios.injEq,
    exists_eq_right]
  tauto

theorem additions_eq (n : Network D) (d : D) (identifierForVendor : String) (now : Double)
    (documentID : String) : n.additions d identifierForVendor now documentID = [] ∨
      ∃ post, n.additions d identifierForVendor now documentID = [⟨d, documentID, post⟩] := by
  unfold additions
  cases (n.device d).role.forms.controller.bind (·.submit identifierForVendor now) with
  | none => exact .inl rfl
  | some post => exact .inr ⟨post, rfl⟩

variable [DecidableEq D]

/-- The documents that a query of "requests" on the device can find: Firestore shows a device
the accepted ones and its own undecided ones. -/
def Visible (n : Network D) (d : D) (doc : Document D) : Prop :=
  doc.collection = requestsDocRef ∧
    (doc ∈ n.documents ∨ doc ∈ (n.pending.filter (·.device = d)).map .ios)

instance (n : Network D) (d : D) (doc : Document D) : Decidable (n.Visible d doc) :=
  inferInstanceAs (Decidable (_ ∧ _))

/-- When an event can happen. Firestore gives every new document a fresh ID, decides on each
addition once, and leaves out nothing accepted when the server itself answers. -/
def Enabled (n : Network D) : NetworkEvent D → Prop
  | .role _ e => e.posts = false
  | .master _ e => e.completes = false
  | .submit _ _ _ documentID => documentID ∉ n.usedIDs
  | .commit a => a ∈ n.pending
  | .reject a => a ∈ n.pending
  | .acknowledged a => a ∈ n.awaiting ∧ .ios a ∈ n.documents
  | .failed a => a ∈ n.awaiting ∧ a ∈ n.rejected
  | .answer a fromServer =>
    a.call ∈ (n.device a.device).master.fetches.outstanding ∧
      (∀ doc ∈ a.documents, n.Visible a.device doc) ∧ a.documents.Nodup ∧
      (fromServer = true → ∀ doc ∈ n.documents, doc.collection = requestsDocRef →
        doc ∈ a.documents)
  | .deliver a => a ∈ n.answers
  | .missing _ _ => True
  | .android documentID _ => documentID ∉ n.usedIDs
  | .relaunch _ => True

instance (n : Network D) : (e : NetworkEvent D) → Decidable (n.Enabled e)
  | .role _ e => inferInstanceAs (Decidable (e.posts = false))
  | .master _ e => inferInstanceAs (Decidable (e.completes = false))
  | .submit _ _ _ documentID => inferInstanceAs (Decidable (documentID ∉ n.usedIDs))
  | .commit a => inferInstanceAs (Decidable (a ∈ n.pending))
  | .reject a => inferInstanceAs (Decidable (a ∈ n.pending))
  | .acknowledged _ => inferInstanceAs (Decidable (_ ∧ _))
  | .failed _ => inferInstanceAs (Decidable (_ ∧ _))
  | .answer _ _ => inferInstanceAs (Decidable (_ ∧ _ ∧ _ ∧ _))
  | .deliver a => inferInstanceAs (Decidable (a ∈ n.answers))
  | .missing _ _ => inferInstanceAs (Decidable True)
  | .android documentID _ => inferInstanceAs (Decidable (documentID ∉ n.usedIDs))
  | .relaunch _ => inferInstanceAs (Decidable True)

/-- The effect of an event outside the processes. Firestore keeps the undecided additions of a
device through a relaunch, but not their handlers. -/
def serve (n : Network D) : NetworkEvent D → Network D
  | .submit d identifierForVendor now documentID => { n with
      pending := n.pending ++ n.additions d identifierForVendor now documentID
      awaiting := n.awaiting ++ n.additions d identifierForVendor now documentID }
  | .commit a => { n with pending := n.pending.erase a, documents := n.documents ++ [.ios a] }
  | .reject a => { n with pending := n.pending.erase a, rejected := n.rejected ++ [a] }
  | .acknowledged a => { n with awaiting := n.awaiting.erase a }
  | .failed a => { n with awaiting := n.awaiting.erase a }
  | .answer a _ => { n with answers := n.answers ++ [a] }
  | .deliver a => { n with answers := n.answers.erase a }
  | .android documentID form =>
    { n with documents := n.documents ++ [.android documentID form] }
  | .relaunch d => { n with
      awaiting := n.awaiting.filter (·.device ≠ d)
      answers := n.answers.filter (·.device ≠ d) }
  | _ => n

/-- The effect of an event inside the process of its device. -/
def act (n : Network D) (e : NetworkEvent D) : Option (D → Device) :=
  match e.deviceEvent with
  | none => some n.device
  | some (d, f) => (Ios.device.step (n.device d) f).map (Function.update n.device d)

end Network

/-- Devices act one at a time, and the server decides and answers in any order. -/
def network (D : Type*) [DecidableEq D] : System (Network D) (NetworkEvent D) where
  init := {}
  step n e := if n.Enabled e then (n.act e).map fun device => { n.serve e with device } else none

variable {D : Type*} [DecidableEq D]

/-! ### Single steps -/

/-- What a step does outside the processes. -/
theorem network_step {n m : Network D} {e : NetworkEvent D}
    (h : (network D).step n e = some m) :
    n.Enabled e ∧ m = { n.serve e with device := m.device } := by
  simp only [network, Option.ite_none_right_eq_some, Option.map_eq_some_iff] at h
  obtain ⟨henabled, next, -, rfl⟩ := h
  exact ⟨henabled, rfl⟩

/-- An event of a device is a step of that device, and no other one notices. -/
theorem device_of_event {n m : Network D} {e : NetworkEvent D} {d : D} {f : DeviceEvent}
    (he : e.deviceEvent = some (d, f)) (h : (network D).step n e = some m) :
    device.step (n.device d) f = some (m.device d) ∧ ∀ d', d' ≠ d → m.device d' = n.device d' := by
  simp only [network, Network.act, he, Option.ite_none_right_eq_some, Option.map_eq_some_iff] at h
  obtain ⟨-, next, ⟨x, hx, rfl⟩, rfl⟩ := h
  refine ⟨?_, fun d' hd' => Function.update_of_ne hd' x n.device⟩
  rw [hx]
  exact congrArg some (Function.update_self d x n.device).symm

theorem device_of_none {n m : Network D} {e : NetworkEvent D} (he : e.deviceEvent = none)
    (h : (network D).step n e = some m) : m.device = n.device := by
  simp only [network, Network.act, he, Option.ite_none_right_eq_some, Option.map_some,
    Option.some.injEq] at h
  rw [← h.2]

theorem runFrom_on {n m : Network D} {e : NetworkEvent D} (h : (network D).step n e = some m)
    (d : D) : device.runFrom (n.device d) (e.on d) = some (m.device d) := by
  unfold NetworkEvent.on
  cases hevent : e.deviceEvent with
  | none => simp [device_of_none hevent h]
  | some place =>
    obtain ⟨d', f⟩ := place
    obtain ⟨hstep, hothers⟩ := device_of_event hevent h
    by_cases hd : d' = d
    · subst hd
      simp [hstep]
    · simp [hd, hothers d fun heq => hd heq.symm]

/-- The run of one device inside the network. -/
def deviceEvents (d : D) (es : List (NetworkEvent D)) : List DeviceEvent := es.flatMap (·.on d)

theorem deviceEvents_snoc (d : D) (es : List (NetworkEvent D)) (e : NetworkEvent D) :
    deviceEvents d (es ++ [e]) = deviceEvents d es ++ e.on d := by
  simp [deviceEvents]

theorem device_run {es : List (NetworkEvent D)} {n : Network D}
    (h : (network D).run es = some n) (d : D) :
    device.run (deviceEvents d es) = some (n.device d) := by
  refine run_induction (S := network D)
    (I := fun es n => device.run (deviceEvents d es) = some (n.device d)) rfl ?_ h
  intro es n e m _ hn ht
  rw [deviceEvents_snoc, run, runFrom_append]
  exact Option.bind_eq_some_iff.mpr ⟨_, hn, runFrom_on ht d⟩

/-! ### No submission is lost or repeated -/

/-- The documents added in a run, each under the ID it was given. -/
def addedBy (n : Network D) : NetworkEvent D → List (Document D)
  | .submit d identifierForVendor now documentID =>
    (n.additions d identifierForVendor now documentID).map .ios
  | .android documentID form => [.android documentID form]
  | _ => []

def added (es : List (NetworkEvent D)) : List (Document D) := (network D).emitted addedBy es

namespace Network

/-- Each document is in one place, and a step moves it or puts a new one there. -/
theorem conserved_serve {n : Network D} {e : NetworkEvent D} (he : n.Enabled e)
    {docs : List (Document D)} (h : docs.Perm n.holdings) :
    (docs ++ addedBy n e).Perm (n.serve e).holdings := by
  cases e with
  | submit d identifierForVendor now documentID =>
    refine List.perm_iff_count.mpr fun doc => ?_
    have hcount := h.count_eq doc
    simp only [addedBy, serve, holdings, List.map_append, List.count_append] at hcount ⊢
    omega
  | commit a | reject a =>
    refine List.perm_iff_count.mpr fun doc => ?_
    have hcount := h.count_eq doc
    have hmoved := ((List.perm_cons_erase he).map Document.ios).count_eq doc
    simp only [addedBy, serve, holdings, List.map_append, List.map_cons, List.map_nil,
      List.count_append, List.count_cons, List.count_nil] at hcount hmoved ⊢
    omega
  | android documentID form =>
    rw [serve, holdings, addedBy, ← List.append_assoc]
    exact h.append_right _
  | _ => exact (List.append_nil docs).symm ▸ h

end Network

theorem conserved_run {es : List (NetworkEvent D)} {n : Network D}
    (h : (network D).run es = some n) : (added es).Perm n.holdings := by
  refine run_induction (S := network D) (I := fun es n => (added es).Perm n.holdings)
    (List.Perm.refl []) ?_ h
  intro es n e m hes hadded ht
  obtain ⟨henabled, hm⟩ := network_step ht
  rw [added, emitted_snoc addedBy hes ht, hm]
  exact Network.conserved_serve henabled hadded

/-- What a form shows when Submit is pressed. -/
structure Submission where
  type : SubmissionType
  /-- The row of the table that is selected. -/
  row : ℕ
  name : String
  email : String
  phone : String
  additionalInfo : String
  identifierForVendor : String
  now : Double

namespace Submission

/-- The collection a role's documents are for. -/
def collection (s : Submission) : String :=
  match s.type with
  | .requestHelp => "requests"
  | .volunteering => "volunteers"

/-- The document that says what the form shows. -/
def fields (s : Submission) : Fields :=
  match s.type with
  | .requestHelp =>
    [("helpType", .integer s.row), ("status", .integer 0),
      ("user", .map [("userId", .string s.identifierForVendor), ("userName", .string s.name),
        ("type", .integer 0), ("email", .string s.email), ("phone", .string s.phone),
        ("lat", .double 0), ("lon", .double 0)]),
      ("assignee", .map []), ("additionInfo", .string s.additionalInfo),
      ("createdAtUTC", .double s.now), ("lastModifiedAt", .double s.now)]
  | .volunteering =>
    [("userId", .string s.identifierForVendor), ("userName", .string s.name),
      ("type", .integer 1), ("offeringHelpType", .integer s.row), ("email", .string s.email),
      ("phone", .string s.phone), ("lat", .double 0), ("lon", .double 0)]

def stored (s : Submission) (documentID : String) : Stored :=
  ⟨s.collection, documentID, s.fields⟩

end Submission

/-- A form can be submitted once one of the first three rows of a section is selected. -/
def InfoTableViewController.submission (c : InfoTableViewController)
    (identifierForVendor : String) (now : Double) : Option Submission := do
  let type ← c.submissionType
  let indexPath ← c.selectedIndexPath
  if indexPath.row < 3 then
    some {
      type, row := indexPath.row, name := c.nameTextField, email := c.emailTextField
      phone := c.phoneTextField, additionalInfo := c.additionaInfo, identifierForVendor, now }
  else none

/-- The document that says what the edit texts show, but for the location. -/
def androidStored (form : Android.HelpForm) (documentID : String) : Stored where
  collection := "help_request"
  documentID
  fields := [("name", .string (trim form.name)), ("age", .string (trim form.age)),
    ("additionalInfo", .string (trim form.moreInfo)), ("phone", .string (trim form.phone)),
    ("email", .string (trim form.email)),
    ("location", .map [("lat", .double 0), ("lon", .double 0)])]

/-- The documents that the presses of the submit buttons stand for. -/
def submittedBy (n : Network D) : NetworkEvent D → List Stored
  | .submit d identifierForVendor now documentID =>
    (((n.device d).role.forms.controller.bind (·.submission identifierForVendor now)).map
      (·.stored documentID)).toList
  | .android documentID form => [androidStored form documentID]
  | _ => []

def submitted (es : List (NetworkEvent D)) : List Stored := (network D).emitted submittedBy es

/-- The raw values of the help types are the first three rows. -/
theorem ofRawValue_helpType (row : ℕ) :
    (row < 3 ∧ ∃ helpType : HelpType, ofRawValue (row : ℤ) = some helpType ∧
        rawValue helpType = (row : ℤ)) ∨
      ¬ row < 3 ∧ ofRawValue (row : ℤ) = (none : Option HelpType) := by
  match row with
  | 0 => exact .inl ⟨by omega, .disasterRecovery, rfl, rfl⟩
  | 1 => exact .inl ⟨by omega, .familyServices, rfl, rfl⟩
  | 2 => exact .inl ⟨by omega, .tutoring, rfl, rfl⟩
  | row + 3 => exact .inr ⟨by omega, rfl⟩

/-- A post holds what the form shows, in the collection of its role. -/
theorem stored_post {c : InfoTableViewController} {indexPath : IndexPath} {helpType : HelpType}
    {type : SubmissionType} (htype : c.submissionType = some type)
    (hselected : c.selectedIndexPath = some indexPath) (hrow : indexPath.row < 3)
    (hraw : rawValue helpType = (indexPath.row : ℤ)) (identifierForVendor : String) (now : Double) :
    some ((c.post helpType identifierForVendor now).collection,
        (c.post helpType identifierForVendor now).document) =
      (c.submission identifierForVendor now).map fun s => (s.collection, s.fields) := by
  have hstatus : rawValue Status.open = 0 := rfl
  have hseeker : rawValue UserType.helpSeeker = 0 := rfl
  have hvolunteer : rawValue UserType.volunteer = 1 := rfl
  have hshown : c.submission identifierForVendor now = some {
      type, row := indexPath.row, name := c.nameTextField, email := c.emailTextField
      phone := c.phoneTextField, additionalInfo := c.additionaInfo, identifierForVendor, now } := by
    simp [InfoTableViewController.submission, htype, hselected, hrow]
  rw [hshown, Option.map_some, InfoTableViewController.post, htype]
  cases type with
  | requestHelp =>
    rw [if_pos rfl, Post.collection, Post.document, Request.requestMap, User.userMap,
      Requestor.userMap, hstatus, hseeker, hraw]
    rfl
  | volunteering =>
    rw [if_neg (by simp), Post.collection, Post.document, Volunteer.userMap, hvolunteer, hraw]
    rfl

/-- A press of Submit adds what the form shows, or nothing where nothing can be submitted. -/
theorem stored_submit {c : InfoTableViewController} {type : SubmissionType}
    (htype : c.submissionType = some type) (identifierForVendor : String) (now : Double) :
    (c.submit identifierForVendor now).map (fun post => (post.collection, post.document)) =
      (c.submission identifierForVendor now).map fun s => (s.collection, s.fields) := by
  cases hselected : c.selectedIndexPath with
  | none =>
    rw [InfoTableViewController.submit_of_none hselected]
    simp [InfoTableViewController.submission, hselected]
  | some indexPath =>
    rcases ofRawValue_helpType indexPath.row with ⟨hrow, helpType, hhelp, hraw⟩ | ⟨hrow, hhelp⟩
    · rw [InfoTableViewController.submit_of_selected hselected hhelp]
      exact stored_post htype hselected hrow hraw identifierForVendor now
    · simp [InfoTableViewController.submit, InfoTableViewController.submission, htype, hselected,
        hhelp, hrow]

/-- The form that is open on a device has a role. -/
theorem submissionType_of_controller {es : List (NetworkEvent D)} {n : Network D} {d : D}
    {c : InfoTableViewController} (h : (network D).run es = some n)
    (hc : (n.device d).role.forms.controller = some c) : ∃ type, c.submissionType = some type := by
  obtain ⟨provider, hsession⟩ := session_run (device_run h d)
  have hinv := roleInv_run hsession
  rw [hinv.submissionType c hc]
  exact Option.ne_none_iff_exists'.mp (hinv.pressed (hinv.loaded (by simp [hc])))

theorem stored_addedBy {es : List (NetworkEvent D)} {n : Network D}
    (h : (network D).run es = some n) (e : NetworkEvent D) :
    (addedBy n e).map Document.stored = submittedBy n e := by
  cases e with
  | submit d identifierForVendor now documentID =>
    show ((n.additions d identifierForVendor now documentID).map Document.ios).map
        Document.stored =
      (((n.device d).role.forms.controller.bind (·.submission identifierForVendor now)).map
        (·.stored documentID)).toList
    unfold Network.additions
    cases hc : (n.device d).role.forms.controller with
    | none => rfl
    | some c =>
      obtain ⟨type, htype⟩ := submissionType_of_controller h hc
      have hstored := stored_submit htype identifierForVendor now
      rw [Option.bind_some, Option.bind_some]
      cases hsubmit : c.submit identifierForVendor now with
      | none =>
        rw [hsubmit, Option.map_none, eq_comm, Option.map_eq_none_iff] at hstored
        rw [hstored]
        rfl
      | some post =>
        rw [hsubmit, Option.map_some, eq_comm, Option.map_eq_some_iff] at hstored
        obtain ⟨s, hs, heq⟩ := hstored
        obtain ⟨hcollection, hfields⟩ := Prod.mk.inj heq
        rw [hs]
        show [Stored.mk post.collection documentID post.document] = [s.stored documentID]
        rw [Submission.stored, hcollection, hfields]
  | android documentID form => rfl
  | _ => rfl

theorem stored_added {es : List (NetworkEvent D)} {n : Network D}
    (h : (network D).run es = some n) : (added es).map Document.stored = submitted es := by
  refine run_induction (S := network D)
    (I := fun es _ => (added es).map Document.stored = submitted es) rfl ?_ h
  intro es n e m hes hstored ht
  rw [added, submitted, emitted_snoc addedBy hes ht, emitted_snoc submittedBy hes ht,
    List.map_append, stored_addedBy hes]
  exact congrArg (· ++ submittedBy n e) hstored

/-! ### Handlers -/

/-- Each process waits for its own awaited posts, one handler for each. -/
def Network.Waits (n : Network D) (d : D) : Prop :=
  (n.device d).role.forms.posts.Perm ((n.awaiting.filter (·.device = d)).map Addition.post)

/-- A step waits as it should if it did before and the device of its event does. -/
theorem waits_of_device {n m : Network D} {d : D} (hn : ∀ d', n.Waits d')
    (hdevice : ∀ d', d' ≠ d → m.device d' = n.device d')
    (hawaiting : ∀ d', d' ≠ d →
      m.awaiting.filter (·.device = d') = n.awaiting.filter (·.device = d'))
    (hd : m.Waits d) (d' : D) : m.Waits d' := by
  by_cases heq : d' = d
  · exact heq ▸ hd
  · unfold Network.Waits
    rw [hdevice d' heq, hawaiting d' heq]
    exact hn d'

theorem filter_erase_of_ne {as : List (Addition D)} {a : Addition D} {d : D} (h : d ≠ a.device) :
    (as.erase a).filter (·.device = d) = as.filter (·.device = d) := by
  rw [← List.erase_filter, List.erase_of_not_mem]
  intro hmem
  exact h (of_decide_eq_true (List.mem_filter.mp hmem).2).symm

/-- A handler that is called is one less to wait for. -/
theorem waits_erase {as : List (Addition D)} {a : Addition D} {posts : List Post} (ha : a ∈ as)
    (h : posts.Perm ((as.filter (·.device = a.device)).map Addition.post)) :
    (posts.erase a.post).Perm (((as.erase a).filter (·.device = a.device)).map Addition.post) := by
  have hmoved : (as.filter (·.device = a.device)).Perm
      (a :: (as.erase a).filter (·.device = a.device)) := by
    simpa using (List.perm_cons_erase ha).filter (·.device = a.device)
  have hposts := (h.trans (hmoved.map Addition.post)).erase a.post
  rwa [List.map_cons, List.erase_cons_head] at hposts

theorem waits_step {n m : Network D} {e : NetworkEvent D} (hn : ∀ d, n.Waits d)
    (h : (network D).step n e = some m) : ∀ d, m.Waits d := by
  obtain ⟨henabled, hm⟩ := network_step h
  have hawaiting : m.awaiting = (n.serve e).awaiting := by rw [hm]
  cases e with
  | role d e =>
    obtain ⟨hstep, hothers⟩ := device_of_event rfl h
    refine waits_of_device hn hothers (fun _ _ => by rw [hawaiting]; rfl) ?_
    rw [Network.Waits, posts_device hstep, postsAfter_of_not_posts henabled, hawaiting]
    exact hn d
  | master _ _ | deliver _ | missing _ _ =>
    obtain ⟨hstep, hothers⟩ := device_of_event rfl h
    refine waits_of_device hn hothers (fun _ _ => by rw [hawaiting]; rfl) ?_
    rw [Network.Waits, posts_device hstep, hawaiting]
    exact hn _
  | submit d identifierForVendor now documentID =>
    obtain ⟨hstep, hothers⟩ := device_of_event rfl h
    refine waits_of_device hn hothers (fun d' hd' => ?_) ?_
    · rw [hawaiting]
      rcases n.additions_eq d identifierForVendor now documentID with hnone | ⟨post, hone⟩
      · simp [Network.serve, hnone]
      · simp [Network.serve, hone, hd'.symm]
    · rw [Network.Waits, posts_device hstep, hawaiting]
      have hnew : ((n.additions d identifierForVendor now documentID).filter
          (·.device = d)).map Addition.post =
          ((n.device d).role.forms.controller.bind (·.submit identifierForVendor now)).toList := by
        unfold Network.additions
        cases (n.device d).role.forms.controller.bind (·.submit identifierForVendor now) <;> simp
      rw [Network.serve, List.filter_append, List.map_append, hnew]
      exact (hn d).append_right _
  | acknowledged a | failed a =>
    obtain ⟨hstep, hothers⟩ := device_of_event rfl h
    refine waits_of_device hn hothers (fun d' hd' => ?_) ?_
    · rw [hawaiting]
      exact filter_erase_of_ne hd'
    · rw [Network.Waits, posts_device hstep, hawaiting]
      exact waits_erase henabled.1 (hn a.device)
  | relaunch d =>
    obtain ⟨hstep, hothers⟩ := device_of_event rfl h
    refine waits_of_device hn hothers (fun d' hd' => ?_) ?_
    · rw [hawaiting, Network.serve, List.filter_filter]
      refine List.filter_congr fun a _ => ?_
      by_cases ha : a.device = d' <;> simp [ha, hd']
    · rw [Network.Waits, posts_device hstep, hawaiting, Network.serve, List.filter_filter]
      simp [DeviceEvent.postsAfter]
  | _ =>
    -- no device takes part, and nobody starts or stops waiting
    intro d
    unfold Network.Waits
    rw [device_of_none rfl h, hawaiting]
    exact hn d

theorem waits_run {es : List (NetworkEvent D)} {n : Network D} (h : (network D).run es = some n) :
    ∀ d, n.Waits d :=
  run_invariant (S := network D) (I := fun n => ∀ d, n.Waits d) (fun _ => List.Perm.refl [])
    (fun _ _ _ hn ht => waits_step hn ht) h

theorem added_of_awaiting {es : List (NetworkEvent D)} {n : Network D}
    (h : (network D).run es = some n) : ∀ a ∈ n.awaiting, .ios a ∈ added es := by
  refine run_induction (S := network D) (I := fun es n => ∀ a ∈ n.awaiting, .ios a ∈ added es)
    ?_ ?_ h
  · simp [network]
  intro es n e m hes hn ht a ha
  rw [added, emitted_snoc addedBy hes ht, List.mem_append]
  rw [(network_step ht).2] at ha
  cases e with
  | submit d identifierForVendor now documentID =>
    rcases List.mem_append.mp ha with hold | hnew
    · exact .inl (hn a hold)
    · exact .inr (List.mem_map_of_mem hnew)
  | acknowledged b => exact .inl (hn a (List.mem_of_mem_erase ha))
  | failed b => exact .inl (hn a (List.mem_of_mem_erase ha))
  | relaunch d => exact .inl (hn a (List.mem_filter.mp ha).1)
  | _ => exact .inl (hn a ha)

theorem mem_posts_of_awaiting {n : Network D} {a : Addition D} (hn : n.Waits a.device)
    (ha : a ∈ n.awaiting) : a.post ∈ (n.device a.device).role.forms.posts := by
  refine hn.mem_iff.mpr (List.mem_map_of_mem ?_)
  exact List.mem_filter.mpr ⟨ha, decide_eq_true rfl⟩

/-- A handler that is waited for is called as soon as the server has decided. -/
theorem handler_enabled {n : Network D} {a : Addition D} (hn : n.Waits a.device)
    (ha : a ∈ n.awaiting) (hdecided : a ∈ n.decided) :
    (network D).step n (.acknowledged a) ≠ none ∨ (network D).step n (.failed a) ≠ none := by
  have hpost := mem_posts_of_awaiting hn ha
  rcases List.mem_append.mp hdecided with hcommitted | hrejected
  · have henabled : n.Enabled (.acknowledged a) := ⟨ha, Network.mem_committed.mp hcommitted⟩
    left
    simp [network, Network.act, NetworkEvent.deviceEvent, henabled, device, roleSelection,
      FormEvent.opensOrCloses, forms, hpost]
  · have henabled : n.Enabled (.failed a) := ⟨ha, hrejected⟩
    right
    simp [network, Network.act, NetworkEvent.deviceEvent, henabled, device, roleSelection,
      FormEvent.opensOrCloses, forms, hpost]

/-- In every run of any number of devices, the documents that are pending, rejected or
accepted are those that the presses of the submit buttons stand for, each once, with what
its form showed; a process waits for one handler for each of its posts, which the server
has not decided on or which can be called now. -/
theorem submissionsConserved {es : List (NetworkEvent D)} {n : Network D}
    (h : (network D).run es = some n) :
    (n.holdings.map Document.stored).Perm (submitted es) ∧
      (∀ d, (n.device d).role.forms.posts.Perm
        ((n.awaiting.filter (·.device = d)).map Addition.post)) ∧
      ∀ a ∈ n.awaiting, a ∈ n.pending ∨
        (network D).step n (.acknowledged a) ≠ none ∨ (network D).step n (.failed a) ≠ none := by
  have hadded := conserved_run h
  refine ⟨?_, waits_run h, fun a ha => ?_⟩
  · rw [← stored_added h]
    exact (hadded.map Document.stored).symm
  · have hholds := Network.mem_holdings.mp (hadded.mem_iff.mp (added_of_awaiting h a ha))
    rcases List.mem_append.mp hholds with hpending | hdecided
    · exact .inl hpending
    · exact .inr (handler_enabled (waits_run h a.device) ha hdecided)

/-- A request as it is added from the first of two devices. -/
def sentRequest : Addition Bool := ⟨false, "doc", firstPost⟩

/-- It is accepted before the server answers the second device, and acknowledged last. -/
def requestSeen : List (NetworkEvent Bool) :=
  [.role false .presentFTUE, .role false (.press .requestHelp true),
    .role false (.form (.edit .email "first@mail")), .role false (.form (.select {⟨2, 0⟩} ⟨2, 0⟩)),
    .submit false "device" 0 "doc", .master true .viewDidLoad, .commit sentRequest,
    .answer ⟨true, 0, [.ios sentRequest]⟩ true, .deliver ⟨true, 0, [.ios sentRequest]⟩,
    .master true (.reloadData 0)]

/-- An Android client adds a document as well. -/
def bothClients : List (NetworkEvent Bool) :=
  requestSeen ++ [.android "other" Android.filledIn]

theorem submissionsConserved_bothClients : ∃ n, (network Bool).run bothClients = some n ∧
    n.awaiting = [sentRequest] ∧
    submitted bothClients =
      [⟨"requests", "doc", [("helpType", .integer 2), ("status", .integer 0),
          ("user", .map [("userId", .string "device"), ("userName", .string ""),
            ("type", .integer 0), ("email", .string "first@mail"), ("phone", .string ""),
            ("lat", .double 0), ("lon", .double 0)]),
          ("assignee", .map []), ("additionInfo", .string ""), ("createdAtUTC", .double 0),
          ("lastModifiedAt", .double 0)]⟩,
        ⟨"help_request", "other", [("name", .string "Asha"), ("age", .string "34"),
          ("additionalInfo", .string "Groceries"), ("phone", .string "555"),
          ("email", .string "asha@mail"), ("location", .map [("lat", .double 0),
            ("lon", .double 0)])]⟩] ∧
    (n.holdings.map Document.stored).Perm (submitted bothClients) :=
  ⟨_, rfl, rfl, rfl, (@submissionsConserved Bool _ bothClients _ rfl).1⟩

end SewaConnect.Ios
