import SewaConnect.Runs.Refinement
import SewaConnect.Ios.RoleSelection

/-! The users offered to an open form, and the texts they leave in it. A form that loads
is offered the current user, and each user saved while it is open; the asynchronous
scheduler delivers them one by one. `prefillsOffered` shows that none is lost, repeated or
overtaken, and what stands in a field that was not edited at any moment of the delivery. -/

namespace SewaConnect.Ios

open Values Runs Runs.System

/-- The event that loads a form. -/
def RoleEvent.loadsForm : RoleEvent → Bool
  | .press _ loads => loads
  | .loadView => true
  | _ => false

/-- The user that is saved in a step. -/
def userSaved (s : RoleState) : RoleEvent → List User
  | .form .save => s.forms.mainQueue.head?.toList
  | _ => []

/-- The users offered to a form that the first event loads: the current one, and the ones
saved since. -/
def offered (provider : UserProvider) (r : RoleState) (es : List RoleEvent) : List User :=
  r.forms.provider.currentUserSubject.toList ++
    (roleSelection provider).emittedFrom userSaved r es

def RoleEvent.delivered : RoleEvent → List User
  | .form (.deliver user) => [user]
  | _ => []

/-- The users that these events deliver to the form that is open, in order. -/
def delivered (es : List RoleEvent) : List User := es.flatMap RoleEvent.delivered

def lastSeeker (users : List User) : Option User :=
  (users.filter fun user => user.type = .helpSeeker).getLast?

/-- What the delivery of some users leaves in a field that was not edited. -/
def prefilledText (type : Option SubmissionType) (delivered : List User) (f : ContactField) :
    String :=
  if type = some .requestHelp then ((lastSeeker delivered).map fun user => user.text f).getD ""
  else ""

theorem prefilledText_nil (type : Option SubmissionType) (f : ContactField) :
    prefilledText type [] f = "" := by
  unfold prefilledText
  split <;> rfl

/-- The delivery of one more user writes the field as `prefill` does. -/
theorem prefilledText_snoc (type : Option SubmissionType) (delivered : List User) (user : User)
    (f : ContactField) :
    prefilledText type (delivered ++ [user]) f =
      if user.type = .helpSeeker ∧ type = some .requestHelp then user.text f
      else prefilledText type delivered f := by
  unfold prefilledText lastSeeker
  by_cases htype : type = some .requestHelp
  · by_cases hseeker : user.type = .helpSeeker <;> simp [htype, hseeker, List.filter_append]
  · simp [htype]

/-! ### Single steps -/

/-- A loaded form starts with empty fields, and with the current user scheduled. -/
theorem form_of_loadsForm {provider : UserProvider} {r s : RoleState} {load : RoleEvent}
    (hs : (roleSelection provider).step r load = some s) (hload : load.loadsForm = true) :
    ∃ form, s.forms.form = some form ∧
      form.scheduled = r.forms.provider.currentUserSubject.toList ∧
      ∀ f, form.controller.text f = "" := by
  have hempty (type : SubmissionType) (f : ContactField) :
      InfoTableViewController.text { submissionType := some type } f = "" := by
    cases f <;> rfl
  cases load with
  | press type loads =>
    obtain rfl : loads = true := hload
    simp only [roleSelection] at hs
    split at hs
    · rw [Option.some.injEq] at hs
      subst hs
      rw [tap_forms]
      exact ⟨_, rfl, rfl, hempty type⟩
    · simp at hs
  | loadView =>
    simp only [roleSelection] at hs
    split at hs
    · rw [Option.some.injEq] at hs
      subst hs
      simp only [RoleState.load, loadView_eq]
      exact ⟨_, rfl, rfl, hempty _⟩
    · simp at hs
  | presentFTUE | back | dismiss | form e => simp [RoleEvent.loadsForm] at hload

/-- A step of an open form acts on its controller; `deliver` takes the first of the
scheduled users, and `save` adds one at the end. -/
theorem form_step {s t : FormState} {e : FormEvent} {form : OpenForm}
    (hkeeps : e.opensOrCloses = false) (h : forms.step s e = some t) (hform : s.form = some form) :
    ∃ form', t.form = some form' ∧ form'.controller = e.act form.controller ∧
      match e with
      | .deliver user => form.scheduled = user :: form'.scheduled
      | .save => ∃ user, s.mainQueue.head? = some user ∧
          form'.scheduled = form.scheduled ++ [user]
      | _ => form'.scheduled = form.scheduled := by
  cases e with
  | openForm type => simp [FormEvent.opensOrCloses] at hkeeps
  | closeForm => simp [FormEvent.opensOrCloses] at hkeeps
  | deliver user =>
    obtain ⟨controller, scheduled⟩ := form
    cases scheduled with
    | nil => simp [forms, hform] at h
    | cons next scheduled =>
      simp only [forms, hform, Option.ite_none_right_eq_some, Option.some.injEq] at h
      obtain ⟨rfl, rfl⟩ := h
      exact ⟨_, rfl, rfl, rfl⟩
  | save =>
    cases hqueue : s.mainQueue with
    | nil => simp [forms, hqueue] at h
    | cons user mainQueue =>
      simp only [forms, hqueue, hform, Option.some.injEq] at h
      subst h
      exact ⟨_, rfl, rfl, user, rfl, rfl⟩
  | acknowledged post =>
    simp only [forms, Option.ite_none_right_eq_some, Option.some.injEq] at h
    obtain ⟨-, rfl⟩ := h
    exact ⟨form, hform, rfl, rfl⟩
  | failed post =>
    simp only [forms, Option.ite_none_right_eq_some, Option.some.injEq] at h
    obtain ⟨-, rfl⟩ := h
    exact ⟨form, hform, rfl, rfl⟩
  | submit identifierForVendor now =>
    obtain ⟨form', hform', rfl⟩ := Option.map_eq_some_iff.mp h
    obtain rfl := Option.some.inj (hform.symm.trans hform')
    exact ⟨form, hform, rfl, rfl⟩
  | _ =>
    -- the remaining events write to the controller
    obtain ⟨form', hform', rfl⟩ := Option.map_eq_some_iff.mp h
    obtain rfl := Option.some.inj (hform.symm.trans hform')
    exact ⟨_, rfl, rfl, rfl⟩

/-! ### Runs -/

/-- What was offered is what was delivered and what waits, and the delivered users stand
in the fields that were not edited. -/
structure Offers (es : List RoleEvent) (users : List User) (form : OpenForm)
    (delivered : List User) : Prop where
  offered : users = delivered ++ form.scheduled
  text : ∀ f, typed es f = none →
    form.controller.text f = prefilledText (lastPressed es) delivered f

/-- The events of a form that neither deliver nor save write no other field than the one
they are typed into. -/
theorem text_act_of_unedited {es : List RoleEvent} {e : FormEvent} {c : InfoTableViewController}
    (hdeliver : ∀ user, e ≠ .deliver user) {f : ContactField}
    (hf : typed (es ++ [.form e]) f = none) :
    typed es f = none ∧ (e.act c).text f = c.text f := by
  rw [typed_snoc] at hf
  cases e with
  | edit field text =>
    by_cases hfield : f = field
    · subst hfield
      simp at hf
    · have hbefore : typed es f = none := (Function.update_of_ne hfield _ _).symm.trans hf
      refine ⟨hbefore, ?_⟩
      exact (InfoTableViewController.text_setText c text field f).trans (if_neg hfield)
  | select visible indexPath =>
    exact ⟨hf, congrFun (c.didSelectRowAt_frame visible indexPath).1 f⟩
  | editAdditionalInfo text =>
    refine ⟨hf, ?_⟩
    cases f <;> rfl
  | deliver user => exact absurd rfl (hdeliver user)
  | _ => exact ⟨hf, rfl⟩

theorem delivered_snoc (es : List RoleEvent) (e : RoleEvent) :
    delivered (es ++ [e]) = delivered es ++ e.delivered := by
  simp [delivered]

theorem offers_step {provider : UserProvider} {es : List RoleEvent} {s t : RoleState}
    {e : FormEvent} {form : OpenForm} {users earlier : List User} (hinv : RoleInv es s)
    (hform : s.forms.form = some form) (hs : Offers es users form earlier)
    (ht : (roleSelection provider).step s (.form e) = some t) :
    ∃ form', t.forms.form = some form' ∧
      Offers (es ++ [.form e]) (users ++ userSaved s (.form e)) form'
        (earlier ++ (RoleEvent.form e).delivered) := by
  simp only [roleSelection, Option.ite_none_left_eq_some, Option.map_eq_some_iff] at ht
  obtain ⟨hkeeps, forms', hforms, rfl⟩ := ht
  rw [Bool.not_eq_true] at hkeeps
  obtain ⟨form', hform', hact, hscheduled⟩ := form_step hkeeps hforms hform
  have hlast : lastPressed (es ++ [.form e]) = lastPressed es := lastPressed_snoc es _
  refine ⟨form', hform', ?_⟩
  by_cases hdelivers : ∃ user, e = .deliver user
  · obtain ⟨user, rfl⟩ := hdelivers
    refine ⟨?_, fun f hf => ?_⟩
    · rw [hs.offered, hscheduled]
      simp [userSaved, RoleEvent.delivered]
    · have htype := hinv.submissionType form.controller (by simp [FormState.controller, hform])
      have hbefore : typed es f = none := by rwa [typed_snoc] at hf
      rw [hact, hlast, RoleEvent.delivered, prefilledText_snoc, ← hs.text f hbefore, ← htype]
      exact form.controller.text_prefill user f
  · have hquiet : ∀ user, e ≠ .deliver user := fun user h => hdelivers ⟨user, h⟩
    have hnone : (RoleEvent.form e).delivered = [] := by
      cases e with
      | deliver user => exact absurd rfl (hquiet user)
      | _ => rfl
    rw [hnone, List.append_nil]
    refine ⟨?_, fun f hf => ?_⟩
    · rw [hs.offered, List.append_assoc]
      congr 1
      cases e with
      | deliver user => exact absurd rfl (hquiet user)
      | save =>
        obtain ⟨user, hhead, hscheduled⟩ := hscheduled
        rw [hscheduled, userSaved, hhead]
        rfl
      | _ => exact (List.append_nil _).trans hscheduled.symm
    · obtain ⟨hbefore, hsame⟩ := text_act_of_unedited (c := form.controller) hquiet hf
      rw [hact, hsame, hlast, hs.text f hbefore]

theorem offered_snoc {provider : UserProvider} {r t u : RoleState} {load e : RoleEvent}
    {post : List RoleEvent} (ht : (roleSelection provider).runFrom r (load :: post) = some t)
    (hu : (roleSelection provider).step t e = some u) :
    offered provider r (load :: (post ++ [e])) =
      offered provider r (load :: post) ++ userSaved t e := by
  rw [offered, ← List.cons_append, emittedFrom_snoc userSaved ht hu, ← List.append_assoc]
  rfl

/-- A form that just loads is offered the current user only. -/
theorem offered_load {provider : UserProvider} {r s : RoleState} {load : RoleEvent}
    (hs : (roleSelection provider).step r load = some s) (hload : load.loadsForm = true) :
    offered provider r [load] = r.forms.provider.currentUserSubject.toList := by
  have hnone : userSaved r load = [] := by
    cases load with
    | form e => simp [RoleEvent.loadsForm] at hload
    | _ => rfl
  rw [offered, emittedFrom, hs, hnone]
  simp [emittedFrom]

theorem offers_run {provider : UserProvider} {pre post : List RoleEvent} {load : RoleEvent}
    {r s : RoleState} (hr : (roleSelection provider).run pre = some r)
    (hs : (roleSelection provider).run (pre ++ load :: post) = some s)
    (hload : load.loadsForm = true) (hpost : ∀ e ∈ post, ∃ e', e = .form e') :
    ∃ form, s.forms.form = some form ∧
      Offers (pre ++ load :: post) (offered provider r (load :: post)) form (delivered post) := by
  refine run_induction_after (S := roleSelection provider)
    (I := fun post s => (∀ e ∈ post, ∃ e', e = .form e') →
      ∃ form, s.forms.form = some form ∧
        Offers (pre ++ load :: post) (offered provider r (load :: post)) form (delivered post))
    hr hs ?_ ?_ hpost
  · intro t hstep _
    obtain ⟨form, hform, hscheduled, htext⟩ := form_of_loadsForm hstep hload
    refine ⟨form, hform, ?_, fun f _ => ?_⟩
    · rw [offered_load hstep hload, hscheduled]
      rfl
    · rw [htext, delivered, List.flatMap_nil, prefilledText_nil]
  · intro post t e u ht hrest ih hu hpost
    obtain ⟨form, hform, hoffers⟩ := ih fun e he => hpost e (List.mem_append_left _ he)
    obtain ⟨e', rfl⟩ := hpost e (List.mem_append_right _ (List.mem_singleton_self e))
    have hsplit : pre ++ load :: (post ++ [.form e']) = (pre ++ load :: post) ++ [.form e'] := by
      simp
    rw [hsplit, offered_snoc hrest hu, delivered_snoc]
    exact offers_step (roleInv_run ht) hform hoffers hu

/-- From the loading of a form on, at any moment: the users offered to it are those
delivered since and those that wait, in order, and each field not edited since the press
shows the last help seeker delivered to a form that requests help, or is empty. -/
theorem prefillsOffered (provider : UserProvider) {pre post : List RoleEvent} {load : RoleEvent}
    {r s : RoleState} (hr : (roleSelection provider).run pre = some r)
    (hs : (roleSelection provider).run (pre ++ load :: post) = some s)
    (hload : load.loadsForm = true) (hpost : ∀ e ∈ post, ∃ e', e = .form e') :
    ∃ form, s.forms.form = some form ∧
      offered provider r (load :: post) = delivered post ++ form.scheduled ∧
      ∀ f, typed (pre ++ load :: post) f = none →
        form.controller.text f =
          prefilledText (lastPressed (pre ++ load :: post)) (delivered post) f := by
  obtain ⟨form, hform, hoffers⟩ := offers_run hr hs hload hpost
  exact ⟨form, hform, hoffers.offered, hoffers.text⟩

/-- A form is open to which the stored help seeker was delivered. -/
def seekerDelivered : List RoleEvent := [.form (.deliver (.requestor firstSeeker))]

theorem prefillsOffered_seekerDelivered :
    ∃ r s form, (roleSelection seekerStored).run [.presentFTUE] = some r ∧
      (roleSelection seekerStored).run
        ([.presentFTUE] ++ .press .requestHelp true :: seekerDelivered) = some s ∧
      s.forms.form = some form ∧
      offered seekerStored r (.press .requestHelp true :: seekerDelivered) =
        [.requestor firstSeeker] ∧
      form.scheduled = [] ∧ form.controller.text .email = "first@mail" := by
  obtain ⟨r, hr⟩ : ∃ r, (roleSelection seekerStored).run [.presentFTUE] = some r := ⟨_, rfl⟩
  obtain ⟨s, hs⟩ : ∃ s, (roleSelection seekerStored).run
      ([.presentFTUE] ++ .press .requestHelp true :: seekerDelivered) = some s := ⟨_, rfl⟩
  obtain ⟨form, hform, hoffered, htext⟩ :=
    prefillsOffered seekerStored hr hs rfl (by simp [seekerDelivered])
  have hscheduled : form.scheduled = [] := by
    obtain rfl := Option.some.inj hs
    obtain rfl := Option.some.inj hform
    rfl
  rw [hscheduled, List.append_nil] at hoffered
  refine ⟨r, s, form, hr, hs, hform, hoffered, hscheduled, ?_⟩
  rw [htext .email rfl]
  rfl

end SewaConnect.Ios
