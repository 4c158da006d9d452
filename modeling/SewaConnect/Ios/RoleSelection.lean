import SewaConnect.Ios.Prefill

/-! From the buttons of the first screen to the form (`FTUEViewController.swift`,
`InfoSubmissionViewController.swift`). A button starts the segue before it publishes
its type, so a view loaded inside the segue replays the type of an earlier press, and
one loaded afterwards the new type; by the end of the handler, and before any user is
delivered to the form, both have come to the new type (`submitsChosenRole`). -/

namespace SewaConnect.Ios

open Values Runs Runs.System

structure FTUEViewController where
  selectedType : Option SubmissionType := none

/-- Nothing ever sets `type`. -/
structure InfoSubmissionViewController where
  type : Option SubmissionType := none

/-- `prepare(for:sender:)`, with the form that the segue embeds. -/
def InfoSubmissionViewController.prepare (v : InfoSubmissionViewController)
    (segueID : Option String) (cv : InfoTableViewController) : InfoTableViewController :=
  if segueID = some "infoSubmissionTableView" then { cv with submissionType := v.type } else cv

/-- `viewDidLoad()`: the current user is replayed on the asynchronous scheduler, the
submission type at once. -/
def InfoTableViewController.viewDidLoad (c : InfoTableViewController) (provider : UserProvider) :
    OpenForm where
  controller := { c with submissionType := some provider.submissionTypeSubject }
  scheduled := provider.currentUserSubject.toList

/-- The view loads: the embed segue is prepared, and then the embedded view loads. -/
def InfoSubmissionViewController.loadView (v : InfoSubmissionViewController)
    (provider : UserProvider) : OpenForm :=
  (v.prepare (some "infoSubmissionTableView") {}).viewDidLoad provider

/-- `submissionTypeSubject.onNext(type)`: the value is kept and forwarded to the form
that has subscribed. -/
def FormState.publish (s : FormState) (type : SubmissionType) : FormState :=
  { s with
    provider := { s.provider with submissionTypeSubject := type }
    form := s.form.map fun form => { form with controller.submissionType := some type } }

inductive RoleEvent where
  | presentFTUE
  /-- One of the two buttons, with whether UIKit loads the view inside `performSegue`. -/
  | press (type : SubmissionType) (loads : Bool)
  /-- UIKit loads the view of the pushed screen. -/
  | loadView
  | back
  | dismiss
  /-- What the loaded form, its posts and the main queue do. -/
  | form (e : FormEvent)

/-- The presented navigation controller. -/
structure Presented where
  root : FTUEViewController := {}
  /-- The screen pushed onto the root. -/
  pushed : Option InfoSubmissionViewController := none

/-- `self?.selectedType = type` in the root. -/
def Presented.select (p : Presented) (type : SubmissionType) : Presented :=
  { p with root := { selectedType := some type } }

structure RoleState where
  forms : FormState := {}
  presented : Option Presented := none

namespace RoleState

/-- The view of `screen` is loaded into the state. -/
def load (s : RoleState) (screen : InfoSubmissionViewController) : RoleState :=
  { s with forms := { s.forms with form := some (screen.loadView s.forms.provider) } }

/-- `performSegue(withIdentifier: "submitInfo", sender: self)` -/
def performSegue (s : RoleState) (presented : Presented) (loads : Bool) : RoleState :=
  let screen : InfoSubmissionViewController := {}
  let pushed := { s with presented := some { presented with pushed := some screen } }
  if loads then pushed.load screen else pushed

/-- The handlers of the two buttons. -/
def tap (s : RoleState) (presented : Presented) (type : SubmissionType) (loads : Bool) :
    RoleState :=
  let segued := s.performSegue presented loads
  { segued with
    presented := segued.presented.map (·.select type)
    forms := segued.forms.publish type }

/-- A screen that is popped or dismissed takes its form with it. -/
def release (s : RoleState) : RoleState := { s with forms := { s.forms with form := none } }

end RoleState

/-- Forms open and close with their screens only. -/
def FormEvent.opensOrCloses : FormEvent → Bool
  | .openForm _ | .closeForm => true
  | _ => false

/-- The buttons can be pressed while the first screen is on top. At the start the
subjects hold what `provider` does. -/
def roleSelection (provider : UserProvider) : System RoleState RoleEvent where
  init := { forms := { provider } }
  step s
    | .presentFTUE =>
      match s.presented with
      | none => some { s with presented := some {} }
      | some _ => none
    | .press type loads =>
      match s.presented with
      | some ⟨root, none⟩ => some (s.tap ⟨root, none⟩ type loads)
      | _ => none
    | .loadView =>
      match s.presented, s.forms.form with
      | some ⟨_, some screen⟩, none => some (s.load screen)
      | _, _ => none
    | .back =>
      match s.presented with
      | some ⟨root, some _⟩ => some { s.release with presented := some ⟨root, none⟩ }
      | _ => none
    | .dismiss => s.presented.map fun _ => { s.release with presented := none }
    | .form e =>
      if e.opensOrCloses then none
      else (forms.step s.forms e).map fun forms => { s with forms }

/-! ### What the form is for -/

def lastPressed (es : List RoleEvent) : Option SubmissionType :=
  es.foldl (fun last e =>
    match e with
    | .press type _ => some type
    | _ => last) none

/-- The texts typed into the contact fields since the last press. -/
def typed (es : List RoleEvent) : ContactField → Option String :=
  es.foldl (fun typed e =>
    match e with
    | .press _ _ => fun _ => none
    | .form (.edit field text) => Function.update typed field (some text)
    | _ => typed) fun _ => none

/-- What Submit posts now is of the role chosen last, and goes to its collection. -/
def SubmitsRole (es : List RoleEvent) (s : RoleState) : Prop :=
  ∀ c identifierForVendor now post, s.forms.controller = some c →
    c.submit identifierForVendor now = some post →
    (lastPressed es = some .requestHelp ∧
        ∃ request, post = .request request ∧ post.collection = requestsDocRef) ∨
      (lastPressed es = some .volunteering ∧
        ∃ volunteer, post = .volunteer volunteer ∧ post.collection = volunteersDocRef)

/-- The contact fields of a volunteer's form hold what was typed into them, and nothing
where nothing was. -/
def NotPrefilled (es : List RoleEvent) (s : RoleState) : Prop :=
  ∀ c, s.forms.controller = some c → lastPressed es = some .volunteering →
    ∀ f, c.text f = (typed es f).getD ""

/-! ### Single steps -/

theorem lastPressed_snoc (es : List RoleEvent) (e : RoleEvent) :
    lastPressed (es ++ [e]) =
      match e with
      | .press type _ => some type
      | _ => lastPressed es := by
  simp only [lastPressed, List.foldl_append, List.foldl_cons, List.foldl_nil]

theorem typed_snoc (es : List RoleEvent) (e : RoleEvent) :
    typed (es ++ [e]) =
      match e with
      | .press _ _ => fun _ => none
      | .form (.edit field text) => Function.update (typed es) field (some text)
      | _ => typed es := by
  simp only [typed, List.foldl_append, List.foldl_cons, List.foldl_nil]

/-- Whatever `prepare` sets, a view that loads takes the type that the subject holds. -/
theorem loadView_eq (v : InfoSubmissionViewController) (provider : UserProvider) :
    v.loadView provider =
      ⟨{ submissionType := some provider.submissionTypeSubject },
        provider.currentUserSubject.toList⟩ := by
  unfold InfoSubmissionViewController.loadView InfoSubmissionViewController.prepare
  rw [if_pos rfl]
  rfl

/-- After a press the subject holds the new type, and a form that has loaded as well. -/
theorem tap_forms (s : RoleState) (presented : Presented) (type : SubmissionType) (loads : Bool) :
    (s.tap presented type loads).forms = { s.forms with
      provider := { s.forms.provider with submissionTypeSubject := type }
      form := if loads then
          some ⟨{ submissionType := some type }, s.forms.provider.currentUserSubject.toList⟩
        else
          s.forms.form.map fun form => { form with controller.submissionType := some type } } := by
  cases loads with
  | true =>
    simp [RoleState.tap, RoleState.performSegue, RoleState.load, FormState.publish, loadView_eq]
  | false => simp [RoleState.tap, RoleState.performSegue, FormState.publish]

/-- The screen on top of the first one. -/
def RoleState.pushed (s : RoleState) : Option InfoSubmissionViewController :=
  s.presented.bind Presented.pushed

/-- The events of a form do not replace it. -/
theorem controller_of_keeps {s t : FormState} {e : FormEvent} (hkeeps : e.opensOrCloses = false)
    (h : forms.step s e = some t) : t.controller = s.controller.map e.act := by
  rw [controller_step h]
  cases e with
  | openForm type => simp [FormEvent.opensOrCloses] at hkeeps
  | closeForm => simp [FormEvent.opensOrCloses] at hkeeps
  | _ => rfl

/-- Nor do they publish a type. -/
theorem submissionTypeSubject_of_keeps {s t : FormState} {e : FormEvent}
    (hkeeps : e.opensOrCloses = false) (h : forms.step s e = some t) :
    t.provider.submissionTypeSubject = s.provider.submissionTypeSubject := by
  cases e with
  | openForm type => simp [FormEvent.opensOrCloses] at hkeeps
  | closeForm => simp [FormEvent.opensOrCloses] at hkeeps
  | acknowledged post =>
    simp only [forms, Option.ite_none_right_eq_some, Option.some.injEq] at h
    obtain ⟨-, rfl⟩ := h
    rfl
  | failed post =>
    simp only [forms, Option.ite_none_right_eq_some, Option.some.injEq] at h
    obtain ⟨-, rfl⟩ := h
    rfl
  | save =>
    cases hqueue : s.mainQueue with
    | nil => simp [forms, hqueue] at h
    | cons user mainQueue =>
      simp only [forms, hqueue, Option.some.injEq] at h
      subst t
      rfl
  | deliver user =>
    simp only [forms] at h
    split at h
    · simp only [Option.ite_none_right_eq_some, Option.some.injEq] at h
      obtain ⟨-, rfl⟩ := h
      rfl
    · simp at h
  | _ =>
    obtain ⟨form, -, rfl⟩ := Option.map_eq_some_iff.mp h
    rfl

/-- A field can be edited only in a form. -/
theorem controller_of_edit {s t : FormState} {field : ContactField} {text : String}
    (h : forms.step s (.edit field text) = some t) : s.controller ≠ none := by
  obtain ⟨form, hform, -⟩ := Option.map_eq_some_iff.mp h
  simp [FormState.controller, hform]

/-! ### Runs -/

/-- The screens, the subject and the form follow the last press. -/
structure RoleInv (es : List RoleEvent) (s : RoleState) : Prop where
  subject : ∀ type, lastPressed es = some type → s.forms.provider.submissionTypeSubject = type
  pressed : s.pushed ≠ none → lastPressed es ≠ none
  loaded : s.forms.controller ≠ none → s.pushed ≠ none
  untyped : s.pushed ≠ none → s.forms.controller = none → typed es = fun _ => none
  submissionType : ∀ c, s.forms.controller = some c → c.submissionType = lastPressed es
  volunteer : ∀ c, s.forms.controller = some c → lastPressed es = some .volunteering →
    ∀ f, c.text f = (typed es f).getD ""

/-- An event of a volunteer's form changes its texts by typing only. -/
theorem text_act_volunteer {es : List RoleEvent} {c : InfoTableViewController} {e : FormEvent}
    (htype : c.submissionType = some .volunteering) (htext : ∀ f, c.text f = (typed es f).getD "")
    (f : ContactField) : (e.act c).text f = (typed (es ++ [.form e]) f).getD "" := by
  let i : IntendedForm := { type := .volunteering, typed := typed es }
  have hnext : (i.next e).text f = (typed (es ++ [.form e]) f).getD "" := by
    rw [typed_snoc]
    cases e with
    | deliver user => simp [IntendedForm.next, IntendedForm.Takes, IntendedForm.text, i]
    | _ => rfl
  rw [← hnext]
  refine (text_act_iff (i := i) htype htext).mpr ?_ f
  rintro user - htakes
  exact absurd htakes.2 (by simp [i])

/-- With no form loaded, what remains of the invariant. -/
theorem roleInv_of_none {es : List RoleEvent} {s : RoleState}
    (hsubject : ∀ type, lastPressed es = some type →
      s.forms.provider.submissionTypeSubject = type)
    (hcontroller : s.forms.controller = none)
    (hpushed : s.pushed ≠ none → lastPressed es ≠ none ∧ typed es = fun _ => none) :
    RoleInv es s where
  subject := hsubject
  pressed := fun h => (hpushed h).1
  loaded := fun h => absurd hcontroller h
  untyped := fun h _ => (hpushed h).2
  submissionType := by simp [hcontroller]
  volunteer := by simp [hcontroller]

/-- A form that has just loaded, with the type that the subject holds. -/
theorem roleInv_of_fresh {es : List RoleEvent} {s : RoleState} {type : SubmissionType}
    (hlast : lastPressed es = some type) (htyped : typed es = fun _ => none)
    (hsubject : s.forms.provider.submissionTypeSubject = type)
    (hcontroller : s.forms.controller = some { submissionType := some type })
    (hpushed : s.pushed ≠ none) : RoleInv es s where
  subject := by
    rw [hlast, hsubject]
    rintro _ ⟨⟩
    rfl
  pressed := fun _ => by simp [hlast]
  loaded := fun _ => hpushed
  untyped := fun _ h => by simp [hcontroller] at h
  submissionType := by
    rw [hcontroller, hlast]
    rintro _ ⟨⟩
    rfl
  volunteer := by
    rw [hcontroller, htyped]
    rintro _ ⟨⟩ - f
    cases f <;> rfl

theorem roleInv_step {provider : UserProvider} {es : List RoleEvent} {s t : RoleState}
    {e : RoleEvent} (hs : RoleInv es s) (h : (roleSelection provider).step s e = some t) :
    RoleInv (es ++ [e]) t := by
  cases e with
  | presentFTUE =>
    simp only [roleSelection] at h
    split at h
    · next hpresented =>
      rw [Option.some.injEq] at h
      subst h
      have hnone : s.forms.controller = none := by
        by_contra hform
        exact hs.loaded hform (by simp [RoleState.pushed, hpresented])
      refine roleInv_of_none ?_ hnone ?_
      · rw [lastPressed_snoc]
        exact hs.subject
      · simp [RoleState.pushed]
    · simp at h
  | press type loads =>
    simp only [roleSelection] at h
    split at h
    · next root hpresented =>
      rw [Option.some.injEq] at h
      subst h
      have hnone : s.forms.controller = none := by
        by_contra hform
        exact hs.loaded hform (by simp [RoleState.pushed, hpresented])
      have hlast : lastPressed (es ++ [.press type loads]) = some type := lastPressed_snoc es _
      have htyped : typed (es ++ [.press type loads]) = fun _ => none := typed_snoc es _
      have hpushed : (s.tap ⟨root, none⟩ type loads).pushed ≠ none := by
        cases loads <;>
          simp [RoleState.tap, RoleState.performSegue, RoleState.load, RoleState.pushed,
            Presented.select]
      cases loads with
      | true =>
        refine roleInv_of_fresh hlast htyped ?_ ?_ hpushed
        · rw [tap_forms]
        · rw [tap_forms]
          rfl
      | false =>
        refine roleInv_of_none ?_ ?_ fun _ => ⟨by simp [hlast], htyped⟩
        · rw [hlast, tap_forms]
          rintro _ ⟨⟩
          rfl
        · rw [tap_forms]
          simpa [FormState.controller] using hnone
    · simp at h
  | loadView =>
    simp only [roleSelection] at h
    split at h
    · next root screen hpresented hform =>
      rw [Option.some.injEq] at h
      subst h
      have hpushed : s.pushed ≠ none := by simp [RoleState.pushed, hpresented]
      have hnone : s.forms.controller = none := by simp [FormState.controller, hform]
      obtain ⟨type, hlast⟩ := Option.ne_none_iff_exists'.mp (hs.pressed hpushed)
      have hsubject := hs.subject type hlast
      refine roleInv_of_fresh ?_ ?_ hsubject ?_ hpushed
      · rw [lastPressed_snoc, hlast]
      · rw [typed_snoc]
        exact hs.untyped hpushed hnone
      · rw [← hsubject]
        simp [RoleState.load, FormState.controller, loadView_eq]
    · simp at h
  | back =>
    simp only [roleSelection] at h
    split at h
    · next root screen hpresented =>
      rw [Option.some.injEq] at h
      subst h
      refine roleInv_of_none ?_ rfl ?_
      · rw [lastPressed_snoc]
        exact hs.subject
      · simp [RoleState.pushed]
    · simp at h
  | dismiss =>
    simp only [roleSelection, Option.map_eq_some_iff] at h
    obtain ⟨presented, -, rfl⟩ := h
    refine roleInv_of_none ?_ rfl ?_
    · rw [lastPressed_snoc]
      exact hs.subject
    · simp [RoleState.pushed]
  | form e =>
    simp only [roleSelection, Option.ite_none_left_eq_some, Option.map_eq_some_iff] at h
    obtain ⟨hkeeps, forms', hforms, rfl⟩ := h
    rw [Bool.not_eq_true] at hkeeps
    have hcontroller := controller_of_keeps hkeeps hforms
    have hsubject := submissionTypeSubject_of_keeps hkeeps hforms
    have hlast : lastPressed (es ++ [.form e]) = lastPressed es := lastPressed_snoc es _
    constructor
    · rw [hlast, hsubject]
      exact hs.subject
    · rw [hlast]
      exact hs.pressed
    · intro hform
      refine hs.loaded fun hnone => hform ?_
      rw [hcontroller, hnone, Option.map_none]
    · intro hpushed hform
      have hnone : s.forms.controller = none := by
        simpa [hcontroller] using hform
      rw [typed_snoc]
      cases e with
      | edit field text => exact absurd hnone (controller_of_edit hforms)
      | _ => exact hs.untyped hpushed hnone
    · rw [hcontroller, hlast]
      intro c' hc'
      obtain ⟨c, hc, rfl⟩ := Option.map_eq_some_iff.mp hc'
      rw [submissionType_act, hs.submissionType c hc]
    · rw [hcontroller, hlast]
      intro c' hc' hvolunteer
      obtain ⟨c, hc, rfl⟩ := Option.map_eq_some_iff.mp hc'
      exact text_act_volunteer ((hs.submissionType c hc).trans hvolunteer)
        (hs.volunteer c hc hvolunteer)

theorem roleInv_run {provider : UserProvider} {es : List RoleEvent} {s : RoleState}
    (h : (roleSelection provider).run es = some s) : RoleInv es s := by
  refine run_induction (S := roleSelection provider) (I := RoleInv) ?_
    (fun es s e t _ hs ht => roleInv_step hs ht) h
  exact roleInv_of_none (by simp [lastPressed]) rfl (by simp [RoleState.pushed, roleSelection])

/-- What is posted is a request or an offer, as the form's type says. -/
theorem post_of_type (c : InfoTableViewController) (helpType : HelpType)
    (identifierForVendor : String) (now : Double) :
    if c.submissionType = some .requestHelp then
      ∃ request, c.post helpType identifierForVendor now = .request request
    else ∃ volunteer, c.post helpType identifierForVendor now = .volunteer volunteer := by
  unfold InfoTableViewController.post
  split
  · exact ⟨_, rfl⟩
  · exact ⟨_, rfl⟩

/-- What Submit posts is of the role chosen last. -/
theorem submitsRole_run {provider : UserProvider} {es : List RoleEvent} {s : RoleState}
    (h : (roleSelection provider).run es = some s) : SubmitsRole es s := by
  have hinv := roleInv_run h
  intro c identifierForVendor now post hc hpost
  obtain ⟨_, helpType, -, -, rfl⟩ := InfoTableViewController.submit_eq_some hpost
  have hlast : lastPressed es = c.submissionType := (hinv.submissionType c hc).symm
  have hform : s.forms.controller ≠ none := by simp [hc]
  obtain ⟨type, htype⟩ := Option.ne_none_iff_exists'.mp (hinv.pressed (hinv.loaded hform))
  have hpost := post_of_type c helpType identifierForVendor now
  rw [← hlast, htype] at hpost
  rw [htype]
  cases type with
  | requestHelp =>
    obtain ⟨request, hrequest⟩ := hpost
    exact .inl ⟨rfl, request, hrequest, by rw [hrequest]; rfl⟩
  | volunteering =>
    obtain ⟨volunteer, hvolunteer⟩ := hpost
    exact .inr ⟨rfl, volunteer, hvolunteer, by rw [hvolunteer]; rfl⟩

/-! ### Posts -/

/-- What a press of Submit adds to the posts under way. -/
def madeBy (s : RoleState) : RoleEvent → List Post
  | .form e => postedBy s.forms e
  | _ => []

/-- The post that is acknowledged or fails. -/
def RoleEvent.settled : RoleEvent → List Post
  | .form e => e.settled
  | _ => []

/-- Screens come and go without touching the posts. -/
theorem posts_role_step {provider : UserProvider} {s t : RoleState} {e : RoleEvent}
    (h : (roleSelection provider).step s e = some t) :
    (s.forms.posts ++ madeBy s e).Perm (e.settled ++ t.forms.posts) := by
  have hscreens (hposts : t.forms.posts = s.forms.posts) :
      (s.forms.posts ++ []).Perm ([] ++ t.forms.posts) := by
    rw [hposts, List.append_nil, List.nil_append]
  cases e with
  | presentFTUE | loadView | back =>
    simp only [roleSelection] at h
    split at h
    · rw [Option.some.injEq] at h
      exact hscreens (h ▸ rfl)
    · simp at h
  | press type loads =>
    simp only [roleSelection] at h
    split at h
    · rw [Option.some.injEq] at h
      refine hscreens ?_
      rw [← h, tap_forms]
    · simp at h
  | dismiss =>
    obtain ⟨presented, -, rfl⟩ := Option.map_eq_some_iff.mp h
    exact hscreens rfl
  | form e =>
    simp only [roleSelection, Option.ite_none_left_eq_some, Option.map_eq_some_iff] at h
    obtain ⟨-, forms', hforms, rfl⟩ := h
    exact posts_step hforms

/-- The posts that the presses of Submit have added are the settled ones and those under
way. -/
theorem posts_role_run {provider : UserProvider} {es : List RoleEvent} {s : RoleState}
    (h : (roleSelection provider).run es = some s) :
    ((roleSelection provider).emitted madeBy es).Perm
      (es.flatMap RoleEvent.settled ++ s.forms.posts) :=
  emitted_perm (fun s => s.forms.posts) madeBy RoleEvent.settled rfl
    (fun _ _ _ ht => posts_role_step ht) h

/-- Each post is of the role that had been chosen last at the press of Submit that made
it, and goes to its collection. -/
theorem role_of_posted {provider : UserProvider} {es : List RoleEvent} {s : RoleState}
    (h : (roleSelection provider).run es = some s) {post : Post}
    (hpost : post ∈ (roleSelection provider).emitted madeBy es) :
    ∃ pre identifierForVendor now suf, es = pre ++ .form (.submit identifierForVendor now) :: suf ∧
      ((lastPressed pre = some .requestHelp ∧
          ∃ request, post = .request request ∧ post.collection = requestsDocRef) ∨
        (lastPressed pre = some .volunteering ∧
          ∃ volunteer, post = .volunteer volunteer ∧ post.collection = volunteersDocRef)) := by
  obtain ⟨pre, e, suf, r, rfl, hr, hmade⟩ := mem_emitted h hpost
  cases e with
  | form e =>
    obtain ⟨identifierForVendor, now, c, rfl, hc, hsubmit⟩ := mem_postedBy hmade
    exact ⟨pre, identifierForVendor, now, suf, rfl,
      submitsRole_run hr c identifierForVendor now post hc hsubmit⟩
  | _ => simp [madeBy] at hmade

/-- From whatever the subjects hold at the start, every submission is of the role chosen
last and goes to its collection, and no volunteer's form is ever prefilled. -/
theorem submitsChosenRole (provider : UserProvider) {es : List RoleEvent} {s : RoleState}
    (h : (roleSelection provider).run es = some s) : SubmitsRole es s ∧ NotPrefilled es s :=
  ⟨submitsRole_run h, (roleInv_run h).volunteer⟩

/-- At the launch a help seeker is stored. -/
def seekerStored : UserProvider := { currentUserSubject := some (.requestor firstSeeker) }

/-- A request form is left again, and the view of an offer loads inside the segue, while
the subject still holds the type of the request. -/
def requestThenOffer : List RoleEvent :=
  [.presentFTUE, .press .requestHelp false, .loadView, .form (.deliver (.requestor firstSeeker)),
    .back, .press .volunteering true, .form (.deliver (.requestor firstSeeker)),
    .form (.edit .name "Ravi"), .form (.select {⟨2, 0⟩} ⟨2, 0⟩), .form (.submit "device" 0)]

theorem submitsChosenRole_requestThenOffer :
    ∃ s, (roleSelection seekerStored).run requestThenOffer = some s ∧ s.forms.posts ≠ [] ∧
      SubmitsRole requestThenOffer s ∧ NotPrefilled requestThenOffer s :=
  ⟨_, rfl, by decide, submitsChosenRole seekerStored rfl⟩

end SewaConnect.Ios
