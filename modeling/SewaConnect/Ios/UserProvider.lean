import SewaConnect.Runs.System
import SewaConnect.Ios.InfoTableViewController

/-! `UserProvider.swift`: the user remembered under the key "storedUser", and what a
relaunch makes of it. A volunteer is stored with the raw value of the offered help
type and read back with the cast `as? HelpType`, which no stored object passes, so
exactly the help seekers survive (`userOf_userMap`, `remembersUser_iff`). -/

namespace SewaConnect.Ios

open Values Runs Runs.System

structure UserProvider where
  /-- The value held by the behavior subject. -/
  currentUserSubject : Option User := none
  submissionTypeSubject : SubmissionType := .requestHelp
  deriving DecidableEq

/-- `as? HelpType`. A property list holds no value of a Swift enumeration. -/
def asHelpType : Value → Option HelpType := fun _ => none

namespace UserProvider

/-- `save`: the provider and the object stored under "storedUser". -/
def save (p : UserProvider) (user : User) : UserProvider × Value :=
  ({ p with currentUserSubject := some user }, .map user.userMap)

/-- The guards of `loadUser`, on the stored map. -/
def userOf (userMap : Fields) : Option User := do
  let name ← (userMap.get "userName").bind Value.asString
  let userId ← (userMap.get "userId").bind Value.asString
  let type ← (userMap.get "type").bind Value.asInt
  let userType : UserType ← ofRawValue type
  let email ← (userMap.get "email").bind Value.asString
  let phone ← (userMap.get "phone").bind Value.asString
  if userType = .volunteer then
    let helpType ← (userMap.get "offeringHelpType").bind asHelpType
    return .volunteer {
      name, userId, type := userType, email, phone, location := none, offeringHelpType := helpType }
  else
    return .requestor { userId, name, type := userType, email, phone, location := none }

def loadUser (p : UserProvider) (storedUser : Option Value) : UserProvider :=
  match (storedUser.bind Value.asMap).bind userOf with
  | some user => { p with currentUserSubject := some user }
  | none => p

/-- Reading back what `save` stored: nothing for the type `.volunteer`, and
otherwise a requestor without a location. -/
theorem userOf_userMap (u : User) : userOf u.userMap =
    if u.type = .volunteer then none
    else some (.requestor ⟨u.userId, u.name, u.type, u.email, u.phone, none⟩) := by
  by_cases h : u.type = .volunteer
  · cases hhelp : u.userMap.get "offeringHelpType" <;> simp [userOf, h, hhelp, asHelpType]
  · simp [userOf, h]

end UserProvider

/-! ### Submissions and relaunches -/

/-- A user that `InfoTableViewController` hands to `post`. -/
def User.FromForm : User → Prop
  | .requestor r => r.type = .helpSeeker ∧ r.location = none
  | .volunteer v => v.type = .volunteer ∧ v.location = none

theorem InfoTableViewController.submit_fromForm {c : InfoTableViewController}
    {identifierForVendor : String} {now : Double} {p : Post}
    (h : c.submit identifierForVendor now = some p) : p.user.FromForm := by
  obtain ⟨_, helpType, -, -, rfl⟩ := submit_eq_some h
  unfold post
  split <;> exact ⟨rfl, rfl⟩

/-- A help seeker comes back unchanged, a volunteer not at all. -/
theorem UserProvider.userOf_fromForm {u : User} (h : u.FromForm) :
    userOf u.userMap = some u ↔ ∀ v, u ≠ .volunteer v := by
  rw [userOf_userMap]
  cases u with
  | requestor r =>
    obtain ⟨htype, hlocation⟩ := h
    obtain ⟨userId, name, type, email, phone, location⟩ := r
    simp only at htype hlocation
    subst htype hlocation
    simp [User.type, User.userId, User.name, User.email, User.phone]
  | volunteer v => simp [User.type, h.1]

inductive SubmissionEvent where
  /-- Submit is pressed on a form in any state. -/
  | submit (controller : InfoTableViewController) (identifierForVendor : String) (now : Double)
  | acknowledged (post : Post)
  | failed (post : Post)
  /-- The next block on the main queue runs. -/
  | main
  | relaunch

structure SubmissionState where
  provider : UserProvider := {}
  storedUser : Option Value := none
  /-- The posted documents whose completion handlers have not been called. -/
  posts : List Post := []
  /-- The users to be saved by the blocks on the main queue. -/
  mainQueue : List User := []

/-- Posts complete in any order; their blocks run in the order of completion; the app
is relaunched when nothing is pending. -/
def submissions : System SubmissionState SubmissionEvent where
  init := {}
  step s
    | .submit controller identifierForVendor now =>
      some { s with posts := s.posts ++ (controller.submit identifierForVendor now).toList }
    | .acknowledged post =>
      if post ∈ s.posts then
        some { s with posts := s.posts.erase post, mainQueue := s.mainQueue ++ [post.user] }
      else none
    | .failed post =>
      if post ∈ s.posts then some { s with posts := s.posts.erase post } else none
    | .main =>
      match s.mainQueue with
      | [] => none
      | user :: mainQueue =>
        some { s with
          provider := (s.provider.save user).1
          storedUser := some (s.provider.save user).2
          mainQueue }
    | .relaunch =>
      if s.posts = [] ∧ s.mainQueue = [] then
        some { s with provider := UserProvider.loadUser {} s.storedUser }
      else none

/-- The users of the acknowledged submissions, in order. -/
def acknowledgedUsers : List SubmissionEvent → List User :=
  List.filterMap fun
    | .acknowledged post => some post.user
    | _ => none

theorem acknowledgedUsers_snoc (es : List SubmissionEvent) (e : SubmissionEvent) :
    acknowledgedUsers (es ++ [e]) = acknowledgedUsers es ++ acknowledgedUsers [e] :=
  List.filterMap_append

/-- The acknowledged users are saved in order, the ones on the main queue still to
come; the last one saved is the one stored. -/
structure SubmissionInv (es : List SubmissionEvent) (s : SubmissionState) : Prop where
  posts : ∀ p ∈ s.posts, p.user.FromForm
  users : ∀ u ∈ acknowledgedUsers es, u.FromForm
  saved : ∃ saved, acknowledgedUsers es = saved ++ s.mainQueue ∧
    s.storedUser = saved.getLast?.map fun u => .map u.userMap

theorem submissionInv_run {es : List SubmissionEvent} {s : SubmissionState}
    (h : submissions.run es = some s) : SubmissionInv es s := by
  refine run_induction (S := submissions) (I := SubmissionInv)
    ⟨by simp [submissions], by simp [acknowledgedUsers], [], rfl, rfl⟩ ?_ h
  rintro es s e t - ⟨hposts, husers, saved, hsaved, hstored⟩ ht
  have hsame (he : acknowledgedUsers [e] = []) :
      acknowledgedUsers (es ++ [e]) = acknowledgedUsers es := by
    rw [acknowledgedUsers_snoc, he, List.append_nil]
  cases e with
  | submit controller identifierForVendor now =>
    simp only [submissions, Option.some.injEq] at ht
    subst t
    refine ⟨fun p hp => ?_, by rwa [hsame rfl], saved, by rwa [hsame rfl], hstored⟩
    rcases List.mem_append.mp hp with hp | hp
    · exact hposts p hp
    · exact InfoTableViewController.submit_fromForm (Option.mem_toList.mp hp)
  | acknowledged post =>
    simp only [submissions, Option.ite_none_right_eq_some, Option.some.injEq] at ht
    obtain ⟨hpost, rfl⟩ := ht
    have hsnoc : acknowledgedUsers (es ++ [.acknowledged post]) =
        acknowledgedUsers es ++ [post.user] := acknowledgedUsers_snoc es _
    refine ⟨fun p hp => hposts p (List.mem_of_mem_erase hp), ?_, saved, ?_, hstored⟩
    · intro u hu
      rw [hsnoc, List.mem_append, List.mem_singleton] at hu
      rcases hu with hu | rfl
      · exact husers u hu
      · exact hposts post hpost
    · rw [hsnoc, hsaved, List.append_assoc]
  | failed post =>
    simp only [submissions, Option.ite_none_right_eq_some, Option.some.injEq] at ht
    obtain ⟨-, rfl⟩ := ht
    exact ⟨fun p hp => hposts p (List.mem_of_mem_erase hp), by rwa [hsame rfl],
      saved, by rwa [hsame rfl], hstored⟩
  | main =>
    simp only [submissions] at ht
    split at ht
    · simp at ht
    · next user mainQueue hqueue =>
      rw [Option.some.injEq] at ht
      subst t
      refine ⟨hposts, by rwa [hsame rfl], saved ++ [user], ?_, by simp [UserProvider.save]⟩
      rw [hsame rfl, hsaved, hqueue, List.append_assoc]
      rfl
  | relaunch =>
    simp only [submissions, Option.ite_none_right_eq_some, Option.some.injEq] at ht
    obtain ⟨-, rfl⟩ := ht
    exact ⟨hposts, by rwa [hsame rfl], saved, by rwa [hsame rfl], hstored⟩

/-- What a relaunch publishes: the last acknowledged user, as far as it can be read back. -/
theorem currentUser_relaunch {es : List SubmissionEvent} {s t : SubmissionState}
    (h : submissions.run es = some s) (ht : submissions.step s .relaunch = some t) :
    t.provider.currentUserSubject =
      (acknowledgedUsers es).getLast?.bind fun u => UserProvider.userOf u.userMap := by
  obtain ⟨-, -, saved, hsaved, hstored⟩ := submissionInv_run h
  simp only [submissions, Option.ite_none_right_eq_some, Option.some.injEq] at ht
  obtain ⟨⟨-, hqueue⟩, rfl⟩ := ht
  rw [hqueue, List.append_nil] at hsaved
  rw [hsaved, UserProvider.loadUser, hstored]
  cases saved.getLast? with
  | none => rfl
  | some u => cases huser : UserProvider.userOf u.userMap <;> simp [huser]

/-- A relaunch publishes the user of the last acknowledged submission, and nothing
only if there was none; a failed submission changes nothing. -/
def RemembersUser (es : List SubmissionEvent) : Prop :=
  submissions.EachStep (fun pre s e => ∀ t, submissions.step s e = some t →
    match e with
    | .relaunch => t.provider.currentUserSubject = (acknowledgedUsers pre).getLast?
    | .failed _ => t.provider = s.provider ∧ t.storedUser = s.storedUser
    | _ => True) es

/-- The app is not relaunched while its last acknowledged submission is a volunteer offer. -/
def NoVolunteerAtRelaunch (es : List SubmissionEvent) : Prop :=
  submissions.EachStep (fun pre _ e =>
    e = .relaunch → ∀ v, (acknowledgedUsers pre).getLast? ≠ some (.volunteer v)) es

theorem remembersUser_iff {es : List SubmissionEvent} {s : SubmissionState}
    (h : submissions.run es = some s) : RemembersUser es ↔ NoVolunteerAtRelaunch es := by
  refine eachStep_congr ?_ h
  intro es s e t hs ht
  cases e with
  | relaunch =>
    simp only [ht, Option.some.injEq, forall_eq', forall_const, currentUser_relaunch hs ht]
    cases hlast : (acknowledgedUsers es).getLast? with
    | none => simp
    | some u =>
      have hform : u.FromForm := (submissionInv_run hs).users u (List.mem_of_getLast? hlast)
      simpa using UserProvider.userOf_fromForm hform
  | failed post =>
    simp only [submissions, Option.ite_none_right_eq_some, Option.some.injEq] at ht
    obtain ⟨hpost, rfl⟩ := ht
    simp [submissions, hpost]
  | submit controller identifierForVendor now => simp
  | acknowledged post => simp
  | main => simp

/-- The offer of a volunteer, as the form submits it. -/
def tutor : Volunteer := ⟨"Ravi", "device", .volunteer, "ravi@mail", "556", none, .tutoring⟩

/-- An acknowledged volunteer offer and a relaunch. -/
def volunteerRelaunch : List SubmissionEvent :=
  [.submit {
      selectedIndexPath := some ⟨2, 0⟩, submissionType := some .volunteering,
      emailTextField := "ravi@mail", phoneTextField := "556", nameTextField := "Ravi" } "device" 0,
    .acknowledged (.volunteer tutor), .main, .relaunch]

/-- A help seeker, as the form submits it. -/
def seeker : Requestor := ⟨"device", "Asha", .helpSeeker, "asha@mail", "555", none⟩

/-- The volunteer offer, then a request, acknowledged and saved before the relaunch. -/
def seekerRelaunch : List SubmissionEvent :=
  volunteerRelaunch.take 3 ++ [.submit {
      selectedIndexPath := some ⟨2, 0⟩, submissionType := some .requestHelp,
      emailTextField := "asha@mail", phoneTextField := "555", nameTextField := "Asha" } "device" 0,
    .acknowledged (.request {
      requestingHelpType := .tutoring, requestor := .requestor seeker, additionInfo := some "",
      createdAtUTC := 0, lastModifiedAt := some 0 }), .main, .relaunch]

theorem seekerRelaunch_noVolunteerAtRelaunch : NoVolunteerAtRelaunch seekerRelaunch :=
  EachStepFrom.eachStep ⟨nofun, nofun, nofun, nofun, nofun, nofun,
    fun _ _ => by simp [acknowledgedUsers, Post.user], trivial⟩

theorem remembersUser_iff_volunteerRelaunch :
    ((submissions.run seekerRelaunch).isSome ∧ RemembersUser seekerRelaunch) ∧
      (submissions.run volunteerRelaunch).isSome ∧
        (RemembersUser volunteerRelaunch ↔ NoVolunteerAtRelaunch volunteerRelaunch) :=
  ⟨⟨rfl, (remembersUser_iff rfl).mpr seekerRelaunch_noVolunteerAtRelaunch⟩, rfl,
    remembersUser_iff rfl⟩

/-- After the relaunch no user is published, though the offer was acknowledged. -/
theorem volunteerRelaunch_not_remembersUser :
    (submissions.run volunteerRelaunch).isSome ∧ ¬ RemembersUser volunteerRelaunch := by
  refine ⟨rfl, fun h => ?_⟩
  have hlast := h (volunteerRelaunch.take 3) .relaunch [] _ rfl rfl _ rfl
  exact absurd hlast (by decide)

end SewaConnect.Ios
