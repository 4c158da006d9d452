import Mathlib.Logic.Function.Basic
import SewaConnect.Runs.Refinement
import SewaConnect.Ios.UserProvider

/-! The contact fields of an open form, while earlier posts are acknowledged. The form
stays subscribed to `currentUserObservable`, so each acknowledgement of a help request
schedules one more prefill, which writes all three fields. `IntendedForm` says what
the fields are for: the text typed last, or the prefilled text where nothing was
typed. The form shows it at all times exactly when no prefill brings another text
than the one typed (`keepsTyping_iff`). -/

namespace SewaConnect.Ios

open Values Runs Runs.System

/-- The text fields that are prefilled. -/
inductive ContactField where
  | email | phone | name
  deriving DecidableEq

def User.text (u : User) : ContactField → String
  | .email => u.email
  | .phone => u.phone
  | .name => u.name

namespace InfoTableViewController

def text (c : InfoTableViewController) : ContactField → String
  | .email => c.emailTextField
  | .phone => c.phoneTextField
  | .name => c.nameTextField

def setText (c : InfoTableViewController) (x : String) :
    ContactField → InfoTableViewController
  | .email => { c with emailTextField := x }
  | .phone => { c with phoneTextField := x }
  | .name => { c with nameTextField := x }

/-- The subscription to `currentUserObservable` in `viewDidLoad`. -/
def prefill (c : InfoTableViewController) (user : User) : InfoTableViewController :=
  if user.type = .helpSeeker ∧ c.submissionType = some .requestHelp then
    { c with
      emailTextField := user.email
      phoneTextField := user.phone
      nameTextField := user.name }
  else c

@[simp] theorem submissionType_setText (c : InfoTableViewController) (x : String)
    (f : ContactField) : (c.setText x f).submissionType = c.submissionType := by
  cases f <;> rfl

theorem text_setText (c : InfoTableViewController) (x : String) (f g : ContactField) :
    (c.setText x f).text g = if g = f then x else c.text g := by
  cases f <;> cases g <;> rfl

@[simp] theorem submissionType_prefill (c : InfoTableViewController) (user : User) :
    (c.prefill user).submissionType = c.submissionType := by
  unfold prefill
  split <;> rfl

theorem text_prefill (c : InfoTableViewController) (user : User) (f : ContactField) :
    (c.prefill user).text f =
      if user.type = .helpSeeker ∧ c.submissionType = some .requestHelp then user.text f
      else c.text f := by
  unfold prefill
  split <;> cases f <;> rfl

/-- Selecting a row leaves the texts and the submission type alone. -/
theorem didSelectRowAt_frame (c : InfoTableViewController) (visible : Finset IndexPath)
    (indexPath : IndexPath) :
    (c.didSelectRowAt visible indexPath).text = c.text ∧
      (c.didSelectRowAt visible indexPath).submissionType = c.submissionType := by
  unfold didSelectRowAt clearAccessory setCheckmark
  split_ifs
  · exact ⟨rfl, rfl⟩
  all_goals
    cases c.selectedIndexPath
    · exact ⟨rfl, rfl⟩
    · simp only
      split_ifs <;> exact ⟨rfl, rfl⟩

/-- A post carries the texts of the form. -/
theorem submit_text {c : InfoTableViewController} {identifierForVendor : String} {now : Double}
    {p : Post} (h : c.submit identifierForVendor now = some p) (f : ContactField) :
    p.user.text f = c.text f := by
  obtain ⟨_, helpType, -, -, rfl⟩ := submit_eq_some h
  cases f <;> simp [User.text, text]

end InfoTableViewController

/-! ### Forms, posts and acknowledgements -/

inductive FormEvent where
  /-- A button of the first screen opens a form and publishes its type. -/
  | openForm (type : SubmissionType)
  | closeForm
  | edit (field : ContactField) (text : String)
  | editAdditionalInfo (text : String)
  | select (visible : Finset IndexPath) (indexPath : IndexPath)
  | submit (identifierForVendor : String) (now : Double)
  | acknowledged (post : Post)
  | failed (post : Post)
  /-- The next block on the main queue saves the user of an acknowledged post. -/
  | save
  /-- The next scheduled emission of the current user reaches the form. -/
  | deliver (user : User)

structure OpenForm where
  controller : InfoTableViewController
  /-- Emissions of the current user that wait on the asynchronous main scheduler. -/
  scheduled : List User

structure FormState where
  provider : UserProvider := {}
  form : Option OpenForm := none
  posts : List Post := []
  mainQueue : List User := []

/-- At most one form is open. A new form replays the current user; a closed one is
released together with what was scheduled for it, while its posts stay under way. -/
def forms : System FormState FormEvent where
  init := {}
  step s
    | .openForm type =>
      match s.form with
      | some _ => none
      | none => some { s with
          provider := { s.provider with submissionTypeSubject := type }
          form := some ⟨{ submissionType := type }, s.provider.currentUserSubject.toList⟩ }
    | .closeForm => s.form.map fun _ => { s with form := none }
    | .edit field text => s.form.map fun form =>
        { s with form := some { form with controller := form.controller.setText text field } }
    | .editAdditionalInfo text => s.form.map fun form =>
        { s with form := some { form with controller.additionaInfo := text } }
    | .select visible indexPath => s.form.map fun form =>
        { s with form := some { form with
            controller := form.controller.didSelectRowAt visible indexPath } }
    | .submit identifierForVendor now => s.form.map fun form =>
        { s with posts := s.posts ++ (form.controller.submit identifierForVendor now).toList }
    | .acknowledged post =>
      if post ∈ s.posts then
        some { s with posts := s.posts.erase post, mainQueue := s.mainQueue ++ [post.user] }
      else none
    | .failed post =>
      if post ∈ s.posts then some { s with posts := s.posts.erase post } else none
    | .save =>
      match s.mainQueue with
      | [] => none
      | user :: mainQueue => some { s with
          provider := (s.provider.save user).1
          form := s.form.map fun form => { form with scheduled := form.scheduled ++ [user] }
          mainQueue }
    | .deliver user =>
      match s.form with
      | some ⟨controller, next :: scheduled⟩ =>
        if next = user then some { s with form := some ⟨controller.prefill user, scheduled⟩ }
        else none
      | _ => none

/-! ### What the fields are for -/

/-- The texts of an open form as its user means them. -/
structure IntendedForm where
  type : SubmissionType
  typed : ContactField → Option String := fun _ => none
  prefilled : ContactField → String := fun _ => ""

namespace IntendedForm

/-- The text typed last, or the prefilled one. -/
def text (i : IntendedForm) (f : ContactField) : String := (i.typed f).getD (i.prefilled f)

/-- A stored help seeker is meant for the forms that request help. -/
def Takes (i : IntendedForm) (user : User) : Prop :=
  user.type = .helpSeeker ∧ i.type = .requestHelp

instance (i : IntendedForm) (user : User) : Decidable (i.Takes user) :=
  inferInstanceAs (Decidable (_ ∧ _))

def next (i : IntendedForm) : FormEvent → IntendedForm
  | .edit field text => { i with typed := Function.update i.typed field (some text) }
  | .deliver user => if i.Takes user then { i with prefilled := user.text } else i
  | _ => i

end IntendedForm

/-- What is meant by the form open after a history of events, if one is. -/
def intended : List FormEvent → Option IntendedForm :=
  List.foldl (fun i e =>
    match e with
    | .openForm type => some { type }
    | .closeForm => none
    | e => i.map fun i => i.next e) none

def FormState.controller (s : FormState) : Option InfoTableViewController :=
  s.form.map OpenForm.controller

/-- The open form shows the texts that are meant, and they are what Submit would
post now. -/
def KeepsTyping (es : List FormEvent) (s : FormState) : Prop :=
  ∀ c i, s.controller = some c → intended es = some i →
    (∀ f, c.text f = i.text f) ∧
      ∀ identifierForVendor now post, c.submit identifierForVendor now = some post →
        ∀ f, post.user.text f = i.text f

/-- A help seeker delivered to a form that requests help has, in each field edited
since the form was opened, the text typed last. -/
def PrefillsUnedited (es : List FormEvent) (_ : FormState) : FormEvent → Prop
  | .deliver user => ∀ i, intended es = some i → i.Takes user →
      ∀ f x, i.typed f = some x → user.text f = x
  | _ => True

/-! ### Single steps -/

theorem intended_snoc (es : List FormEvent) (e : FormEvent) :
    intended (es ++ [e]) =
      match e with
      | .openForm type => some { type }
      | .closeForm => none
      | e => (intended es).map fun i => i.next e := by
  simp only [intended, List.foldl_append, List.foldl_cons, List.foldl_nil]

/-- How an event acts on the controller of the open form. -/
def FormEvent.act : FormEvent → InfoTableViewController → InfoTableViewController
  | .edit field text, c => c.setText text field
  | .editAdditionalInfo text, c => { c with additionaInfo := text }
  | .select visible indexPath, c => c.didSelectRowAt visible indexPath
  | .deliver user, c => c.prefill user
  | _, c => c

def FormEvent.actOpen (e : FormEvent) (c : Option InfoTableViewController) :
    Option InfoTableViewController :=
  match e with
  | .openForm type => some { submissionType := type }
  | .closeForm => none
  | e => c.map e.act

/-- What a step does to the open form: all that the proofs below need of `forms`. -/
theorem controller_step {s t : FormState} {e : FormEvent} (h : forms.step s e = some t) :
    t.controller = e.actOpen s.controller := by
  cases e with
  | openForm type =>
    cases hform : s.form with
    | some form => simp [forms, hform] at h
    | none =>
      simp only [forms, hform, Option.some.injEq] at h
      subst t
      rfl
  | closeForm =>
    obtain ⟨form, -, rfl⟩ := Option.map_eq_some_iff.mp h
    rfl
  | acknowledged post =>
    simp only [forms, Option.ite_none_right_eq_some, Option.some.injEq] at h
    obtain ⟨-, rfl⟩ := h
    cases hform : s.form <;> simp [FormState.controller, hform, FormEvent.actOpen, FormEvent.act]
  | failed post =>
    simp only [forms, Option.ite_none_right_eq_some, Option.some.injEq] at h
    obtain ⟨-, rfl⟩ := h
    cases hform : s.form <;> simp [FormState.controller, hform, FormEvent.actOpen, FormEvent.act]
  | save =>
    cases hqueue : s.mainQueue with
    | nil => simp [forms, hqueue] at h
    | cons user mainQueue =>
      simp only [forms, hqueue, Option.some.injEq] at h
      subst t
      cases hform : s.form <;> simp [FormState.controller, hform, FormEvent.actOpen, FormEvent.act]
  | deliver user =>
    simp only [forms] at h
    split at h
    · next controller next scheduled hform =>
      simp only [Option.ite_none_right_eq_some, Option.some.injEq] at h
      obtain ⟨rfl, rfl⟩ := h
      simp [FormState.controller, hform, FormEvent.actOpen, FormEvent.act]
    · simp at h
  | _ =>
    -- the remaining events need an open form, and act on it
    obtain ⟨form, hform, rfl⟩ := Option.map_eq_some_iff.mp h
    simp [FormState.controller, hform, FormEvent.actOpen, FormEvent.act]

/-- An event opens a form, closes it, or acts on the open one and on what it means. -/
theorem FormEvent.opens_closes_or_acts (e : FormEvent) :
    (∃ type, e = .openForm type) ∨ e = .closeForm ∨
      ((∀ c, e.actOpen c = c.map e.act) ∧
        ∀ es, intended (es ++ [e]) = (intended es).map fun i => i.next e) := by
  cases e with
  | openForm type => exact .inl ⟨type, rfl⟩
  | closeForm => exact .inr (.inl rfl)
  | _ => exact .inr (.inr ⟨fun _ => rfl, fun es => intended_snoc es _⟩)

theorem submissionType_act (e : FormEvent) (c : InfoTableViewController) :
    (e.act c).submissionType = c.submissionType := by
  cases e with
  | select visible indexPath => exact (c.didSelectRowAt_frame visible indexPath).2
  | _ => simp [FormEvent.act]

theorem type_next (i : IntendedForm) (e : FormEvent) : (i.next e).type = i.type := by
  cases e with
  | deliver user => simp only [IntendedForm.next]; split <;> rfl
  | _ => rfl

/-- A form is open exactly when one is meant to be, and they are of one type. -/
theorem submissionType_run {es : List FormEvent} {s : FormState} (h : forms.run es = some s) :
    s.controller.map InfoTableViewController.submissionType =
      (intended es).map fun i => some i.type := by
  refine run_induction (S := forms) (I := fun es s =>
    s.controller.map InfoTableViewController.submissionType =
      (intended es).map fun i => some i.type) rfl ?_ h
  intro es s e t _ hs ht
  rw [controller_step ht]
  rcases e.opens_closes_or_acts with ⟨type, rfl⟩ | rfl | ⟨hact, hnext⟩
  · rw [intended_snoc]
    rfl
  · rw [intended_snoc]
    rfl
  · simp only [hact, hnext, Option.map_map, Function.comp_def, submissionType_act, type_next]
    exact hs

theorem keepsTyping_iff_text {es : List FormEvent} {s : FormState} :
    KeepsTyping es s ↔ ∀ c i, s.controller = some c → intended es = some i →
      ∀ f, c.text f = i.text f := by
  constructor
  · intro h c i hc hi
    exact (h c i hc hi).1
  · intro h c i hc hi
    refine ⟨h c i hc hi, fun identifierForVendor now post hpost f => ?_⟩
    rw [InfoTableViewController.submit_text hpost, h c i hc hi]

/-- A form that shows what is meant goes on to do so exactly when the event brings no
other text into an edited field. -/
theorem text_act_iff {c : InfoTableViewController} {i : IntendedForm} {e : FormEvent}
    (htype : c.submissionType = some i.type) (htext : ∀ f, c.text f = i.text f) :
    (∀ f, (e.act c).text f = (i.next e).text f) ↔
      ∀ user, e = .deliver user → i.Takes user → ∀ f x, i.typed f = some x → user.text f = x := by
  cases e with
  | deliver user =>
    by_cases htakes : i.Takes user
    · have hshown (f : ContactField) : (c.prefill user).text f = user.text f := by
        rw [InfoTableViewController.text_prefill, htype, if_pos ⟨htakes.1, by rw [htakes.2]⟩]
      simp only [FormEvent.act, IntendedForm.next, hshown, htakes, IntendedForm.text, if_true,
        FormEvent.deliver.injEq, forall_eq', forall_const]
      refine forall_congr' fun f => ?_
      cases i.typed f <;> simp
    · have hshown : c.prefill user = c := if_neg fun h => htakes ⟨h.1, by simpa [htype] using h.2⟩
      simpa [FormEvent.act, IntendedForm.next, hshown, htakes] using htext
  | edit field x =>
    have hnext (f : ContactField) : ((c.setText x field).text f) =
        (IntendedForm.text { i with typed := Function.update i.typed field (some x) } f) := by
      rw [InfoTableViewController.text_setText, htext]
      by_cases hf : f = field
      · subst hf; simp [IntendedForm.text]
      · simp [IntendedForm.text, hf]
    simpa [FormEvent.act, IntendedForm.next] using hnext
  | select visible indexPath =>
    simpa [FormEvent.act, IntendedForm.next, (c.didSelectRowAt_frame visible indexPath).1]
      using htext
  | editAdditionalInfo x =>
    have hsame (f : ContactField) :
        InfoTableViewController.text { c with additionaInfo := x } f = i.text f := by
      rw [← htext]; cases f <;> rfl
    simpa [FormEvent.act, IntendedForm.next] using hsame
  | _ => simpa [FormEvent.act, IntendedForm.next] using htext

/-! ### Posts -/

/-- What a press of Submit adds to the posts under way. -/
def postedBy (s : FormState) : FormEvent → List Post
  | .submit identifierForVendor now =>
    (s.controller.bind (·.submit identifierForVendor now)).toList
  | _ => []

/-- The post that is acknowledged or fails. -/
def FormEvent.settled : FormEvent → List Post
  | .acknowledged post | .failed post => [post]
  | _ => []

/-- Posts are added by Submit and leave when they are settled. -/
theorem posts_step {s t : FormState} {e : FormEvent} (h : forms.step s e = some t) :
    (s.posts ++ postedBy s e).Perm (e.settled ++ t.posts) := by
  cases e with
  | submit identifierForVendor now =>
    obtain ⟨form, hform, rfl⟩ := Option.map_eq_some_iff.mp h
    rw [postedBy, FormState.controller, hform]
    rfl
  | acknowledged post =>
    simp only [forms, Option.ite_none_right_eq_some, Option.some.injEq] at h
    obtain ⟨hpost, rfl⟩ := h
    simpa [postedBy, FormEvent.settled] using List.perm_cons_erase hpost
  | failed post =>
    simp only [forms, Option.ite_none_right_eq_some, Option.some.injEq] at h
    obtain ⟨hpost, rfl⟩ := h
    simpa [postedBy, FormEvent.settled] using List.perm_cons_erase hpost
  | save =>
    cases hqueue : s.mainQueue with
    | nil => simp [forms, hqueue] at h
    | cons user mainQueue =>
      simp only [forms, hqueue, Option.some.injEq] at h
      subst t
      simp [postedBy, FormEvent.settled]
  | openForm type =>
    cases hform : s.form with
    | some form => simp [forms, hform] at h
    | none =>
      simp only [forms, hform, Option.some.injEq] at h
      subst t
      simp [postedBy, FormEvent.settled]
  | deliver user =>
    simp only [forms] at h
    split at h
    · simp only [Option.ite_none_right_eq_some, Option.some.injEq] at h
      obtain ⟨-, rfl⟩ := h
      simp [postedBy, FormEvent.settled]
    · simp at h
  | _ =>
    obtain ⟨form, -, rfl⟩ := Option.map_eq_some_iff.mp h
    simp [postedBy, FormEvent.settled]

/-- The posts that the presses of Submit have added are the settled ones and those under
way. -/
theorem posts_run {es : List FormEvent} {s : FormState} (h : forms.run es = some s) :
    (forms.emitted postedBy es).Perm (es.flatMap FormEvent.settled ++ s.posts) :=
  emitted_perm FormState.posts postedBy FormEvent.settled rfl (fun _ _ _ ht => posts_step ht) h

/-- A post is made by Submit only, and by the open form. -/
theorem mem_postedBy {s : FormState} {e : FormEvent} {post : Post} (h : post ∈ postedBy s e) :
    ∃ identifierForVendor now c, e = .submit identifierForVendor now ∧
      s.controller = some c ∧ c.submit identifierForVendor now = some post := by
  cases e with
  | submit identifierForVendor now =>
    obtain ⟨c, hc, hsubmit⟩ := Option.bind_eq_some_iff.mp (Option.mem_toList.mp h)
    exact ⟨identifierForVendor, now, c, rfl, hc, hsubmit⟩
  | _ => simp [postedBy] at h

/-- While the forms show the texts that are meant, each post carries those meant at the
press of Submit that made it. -/
theorem text_of_posted {es : List FormEvent} {s : FormState} (h : forms.run es = some s)
    (hkeeps : forms.EachState KeepsTyping es) {post : Post}
    (hpost : post ∈ forms.emitted postedBy es) :
    ∃ pre identifierForVendor now suf i, es = pre ++ .submit identifierForVendor now :: suf ∧
      intended pre = some i ∧ ∀ f, post.user.text f = i.text f := by
  obtain ⟨pre, e, suf, r, rfl, hr, hmade⟩ := mem_emitted h hpost
  obtain ⟨identifierForVendor, now, c, rfl, hc, hsubmit⟩ := mem_postedBy hmade
  obtain ⟨i, hi, -⟩ : ∃ i, intended pre = some i ∧ some i.type = c.submissionType := by
    simpa [hc, eq_comm] using submissionType_run hr
  have hkept := hkeeps pre (.submit identifierForVendor now :: suf) r rfl hr c i hc hi
  exact ⟨pre, identifierForVendor, now, suf, i, rfl, hi,
    hkept.2 identifierForVendor now post hsubmit⟩

/-! ### Runs -/

/-- In every run, the open form shows and submits the texts that are meant, at each
moment, exactly when every prefill keeps to the fields that were not edited. -/
theorem keepsTyping_iff {es : List FormEvent} {s : FormState} (h : forms.run es = some s) :
    forms.EachState KeepsTyping es ↔ forms.EachStep PrefillsUnedited es := by
  refine eachState_iff_eachStep ?_ ?_ h
  · rw [keepsTyping_iff_text]
    intro c i hc
    simp [FormState.controller, forms] at hc
  intro es s e t hs _ hP ht
  have htype := submissionType_run hs
  rw [keepsTyping_iff_text] at hP ⊢
  rw [controller_step ht]
  rcases e.opens_closes_or_acts with ⟨type, rfl⟩ | rfl | ⟨hact, hnext⟩
  · rw [intended_snoc]
    simp only [FormEvent.actOpen, Option.some.injEq, PrefillsUnedited, iff_true]
    rintro c i rfl rfl f
    cases f <;> rfl
  · simp [FormEvent.actOpen, PrefillsUnedited]
  · rw [hact, hnext]
    cases hc : s.controller with
    | none =>
      have hi : intended es = none := by simpa [hc] using htype
      cases e <;> simp [PrefillsUnedited, hi]
    | some c =>
      obtain ⟨i, hi, htypes⟩ : ∃ i, intended es = some i ∧ some i.type = c.submissionType := by
        simpa [hc, eq_comm] using htype
      have hshows : (∀ c' i', some (e.act c) = some c' → some (i.next e) = some i' →
          ∀ f, c'.text f = i'.text f) ↔ ∀ f, (e.act c).text f = (i.next e).text f :=
        ⟨fun hall => hall _ _ rfl rfl, by rintro hall _ _ ⟨⟩ ⟨⟩; exact hall⟩
      rw [hi, Option.map_some, Option.map_some, hshows,
        text_act_iff htypes.symm (hP c i hc hi)]
      cases e <;> simp [PrefillsUnedited, hi]

/-- The help seeker of the first post below. -/
def firstSeeker : Requestor := ⟨"device", "", .helpSeeker, "first@mail", "", none⟩

def firstPost : Post :=
  .request {
    requestingHelpType := .tutoring, requestor := .requestor firstSeeker, additionInfo := some "",
    createdAtUTC := 0, lastModifiedAt := some 0 }

/-- A request is posted, a second form opened and its email field edited; then the
first post is acknowledged. -/
def lateAcknowledgement : List FormEvent :=
  [.openForm .requestHelp, .edit .email "first@mail", .select {⟨2, 0⟩} ⟨2, 0⟩,
    .submit "device" 0, .closeForm, .openForm .requestHelp, .edit .email "second@mail",
    .acknowledged firstPost, .save, .deliver (.requestor firstSeeker)]

/-- As before, but the email field of the second form is edited after the prefill. -/
def editedAfterPrefill : List FormEvent :=
  [.openForm .requestHelp, .edit .email "first@mail", .select {⟨2, 0⟩} ⟨2, 0⟩,
    .submit "device" 0, .closeForm, .openForm .requestHelp, .acknowledged firstPost, .save,
    .deliver (.requestor firstSeeker), .edit .email "second@mail"]

theorem editedAfterPrefill_prefillsUnedited : forms.EachStep PrefillsUnedited editedAfterPrefill :=
  EachStepFrom.eachStep ⟨trivial, trivial, trivial, trivial, trivial, trivial, trivial, trivial,
    by (rintro i ⟨⟩ - f x ⟨⟩), trivial, trivial⟩

theorem keepsTyping_iff_lateAcknowledgement :
    ((forms.run editedAfterPrefill).isSome ∧ forms.EachState KeepsTyping editedAfterPrefill) ∧
      (forms.run lateAcknowledgement).isSome ∧
        (forms.EachState KeepsTyping lateAcknowledgement ↔
          forms.EachStep PrefillsUnedited lateAcknowledgement) :=
  ⟨⟨rfl, (keepsTyping_iff rfl).mpr editedAfterPrefill_prefillsUnedited⟩, rfl,
    keepsTyping_iff rfl⟩

/-- The edited field of the second form holds the email of the first post. -/
theorem lateAcknowledgement_not_keepsTyping : (forms.run lateAcknowledgement).isSome ∧
    ¬ forms.EachState KeepsTyping lateAcknowledgement := by
  refine ⟨rfl, fun h => ?_⟩
  have hlast := (h lateAcknowledgement [] _ rfl rfl _ _ rfl rfl).1 .email
  exact absurd hlast (by decide)

end SewaConnect.Ios
