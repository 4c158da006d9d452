import SewaConnect.Runs.System
import SewaConnect.Android.AccountCreation

/-! The progress indicators of the two authentication screens, over every order of
presses, completions, stops and restarts. A listener that a stop has removed neither
dismisses the dialog of `LoginActivity` nor hides the bar of `RegisterActivity`; a
second press makes `mAlertDialog` forget the dialog of the first; the listener of one
call hides the bar of another, and a success leaves it (`showsProgress_iff`). -/

namespace SewaConnect.Android

open Values Runs Runs.System

/-! ### Calls of an activity -/

/-- An activity with one button: what a press with the contents `φ` of its edit texts
does, and what the completion listener of a call does. -/
structure CallingActivity (α φ : Type*) where
  init : α
  press : α → φ → α × AuthCall
  onComplete : α → Bool → α

/-- A call of Firebase, rather than a message to the user. -/
def AuthCall.isSent : AuthCall → Bool
  | .toast _ => false
  | .createUserWithEmailAndPassword _ _ | .signInWithEmailAndPassword _ _ => true

structure OutstandingCall where
  id : ℕ
  /-- The activity has not stopped since the call. -/
  listening : Bool
  deriving DecidableEq

structure CallingState (α : Type*) where
  activity : α
  /-- The activity has been started or restarted, and not stopped since. -/
  started : Bool := true
  finishing : Bool := false
  calls : List OutstandingCall := []
  /-- The number of calls made so far. -/
  made : ℕ := 0

inductive CallingEvent (φ : Type*) where
  | press (form : φ)
  | completed (call : OutstandingCall) (isSuccessful : Bool)
  | stop
  | restart

variable {α φ : Type*}

/-- A press makes a call or none. A completion reaches the listener unless a stop has
removed it, and a success then finishes the activity. -/
def callingActivity (a : CallingActivity α φ) : System (CallingState α) (CallingEvent φ) where
  init := { activity := a.init }
  step s
    | .press form =>
      if s.started then
        let pressed := a.press s.activity form
        if pressed.2.isSent then some { s with
          activity := pressed.1
          calls := s.calls ++ [⟨s.made, true⟩]
          made := s.made + 1 }
        else some { s with activity := pressed.1 }
      else none
    | .completed call isSuccessful =>
      if call ∈ s.calls then
        if call.listening then some { s with
          activity := a.onComplete s.activity isSuccessful
          finishing := s.finishing || isSuccessful
          calls := s.calls.erase call }
        else some { s with calls := s.calls.erase call }
      else none
    | .stop =>
      if s.started then some { s with
        started := false
        calls := s.calls.map fun call => { call with listening := false } }
      else none
    | .restart =>
      if ¬ s.started ∧ ¬ s.finishing then some { s with started := true } else none

/-- How an event acts on the activity. -/
def CallingActivity.act (a : CallingActivity α φ) (x : α) : CallingEvent φ → α
  | .press form => (a.press x form).1
  | .completed call isSuccessful => if call.listening then a.onComplete x isSuccessful else x
  | .stop | .restart => x

/-- How an event acts on the outstanding calls. -/
def CallingActivity.actOnCalls (a : CallingActivity α φ) (s : CallingState α) :
    CallingEvent φ → List OutstandingCall
  | .press form =>
    if (a.press s.activity form).2.isSent then s.calls ++ [⟨s.made, true⟩] else s.calls
  | .completed call _ => s.calls.erase call
  | .stop => s.calls.map fun call => { call with listening := false }
  | .restart => s.calls

/-- What a step does to the activity and its calls: all that the proofs below need of
`callingActivity`. -/
theorem callingActivity_step {a : CallingActivity α φ} {s t : CallingState α}
    {e : CallingEvent φ} (h : (callingActivity a).step s e = some t) :
    t.activity = a.act s.activity e ∧ t.calls = a.actOnCalls s e ∧
      ∀ call isSuccessful, e = .completed call isSuccessful → call ∈ s.calls := by
  cases e with
  | press form =>
    simp only [callingActivity, Option.ite_none_right_eq_some] at h
    obtain ⟨-, h⟩ := h
    by_cases hsent : (a.press s.activity form).2.isSent
    · simp only [hsent, if_true, Option.some.injEq] at h
      subst h
      simp [CallingActivity.act, CallingActivity.actOnCalls, hsent]
    · simp only [hsent, Bool.false_eq_true, if_false, Option.some.injEq] at h
      subst h
      simp [CallingActivity.act, CallingActivity.actOnCalls, hsent]
  | completed call isSuccessful =>
    simp only [callingActivity, Option.ite_none_right_eq_some] at h
    obtain ⟨hmem, h⟩ := h
    by_cases hlistening : call.listening
    · simp only [hlistening, if_true, Option.some.injEq] at h
      subst h
      simp [CallingActivity.act, CallingActivity.actOnCalls, hlistening, hmem]
    · simp only [hlistening, Bool.false_eq_true, if_false, Option.some.injEq] at h
      subst h
      simp [CallingActivity.act, CallingActivity.actOnCalls, hlistening, hmem]
  | stop =>
    simp only [callingActivity, Option.ite_none_right_eq_some, Option.some.injEq] at h
    obtain ⟨-, rfl⟩ := h
    simp [CallingActivity.act, CallingActivity.actOnCalls]
  | restart =>
    simp only [callingActivity, Option.ite_none_right_eq_some, Option.some.injEq] at h
    obtain ⟨-, rfl⟩ := h
    simp [CallingActivity.act, CallingActivity.actOnCalls]

/-! ### The two activities -/

structure LoginForm where
  username : String
  password : String
  deriving DecidableEq

/-- `mAlertDialog.dismiss()` -/
def LoginActivity.dismiss (a : LoginActivity) : LoginActivity :=
  { a with showing := a.showing.filter fun dialog => some dialog != a.mAlertDialog }

/-- The completion listener of `signInWithEmailAndPassword`: both outcomes dismiss the
dialog. -/
def LoginActivity.onComplete (a : LoginActivity) (_ : Bool) : LoginActivity := a.dismiss

def login : System (CallingState LoginActivity) (CallingEvent LoginForm) :=
  callingActivity {
    init := {}
    press := fun a form =>
      { a with userEditText := form.username, passwordEditText := form.password }.signIn
    onComplete := LoginActivity.onComplete }

def registration : System (CallingState RegisterActivity) (CallingEvent RegisterForm) :=
  callingActivity {
    init := {}
    press := fun a form => { a with form }.signUp
    onComplete := RegisterActivity.onComplete }

/-! ### What the indicators promise -/

/-- With the login screen in front and no sign-in outstanding, no dialog is showing. -/
def DialogGone (_ : List (CallingEvent LoginForm)) (s : CallingState LoginActivity) : Prop :=
  s.started → ¬ s.finishing → s.calls = [] → s.activity.showing = []

/-- The bar is visible, and the label blank, exactly while a call is outstanding. -/
def BarShown (_ : List (CallingEvent RegisterForm)) (s : CallingState RegisterActivity) : Prop :=
  (s.activity.progressBarVisible ↔ s.calls ≠ []) ∧
    (s.activity.createAccount = "" ↔ s.calls ≠ [])

/-- A press that passes the checks of `signIn`. -/
def CallingEvent.sendsSignIn : CallingEvent LoginForm → Bool
  | .press form => form.username != "" && form.password != ""
  | _ => false

/-- A completion that reaches its listener. -/
def CallingEvent.delivered : CallingEvent φ → Bool
  | .completed call _ => call.listening
  | _ => false

/-- A sign-in has been sent and no completion delivered since. -/
def awaitsDelivery (es : List (CallingEvent LoginForm)) : Bool :=
  es.foldl (fun awaits e => e.sendsSignIn || awaits && !e.delivered) false

/-- No sign-in was sent while an earlier one awaited a delivery. -/
def NoOverlap (es : List (CallingEvent LoginForm)) : Prop :=
  ∀ pre e post, es = pre ++ e :: post → e.sendsSignIn → awaitsDelivery pre = false

/-- With the login screen in front and no sign-in outstanding, a completion has been
delivered after every sign-in and before the next one. -/
def SignInsDelivered (es : List (CallingEvent LoginForm)) (s : CallingState LoginActivity) : Prop :=
  s.started → ¬ s.finishing → s.calls = [] → awaitsDelivery es = false ∧ NoOverlap es

/-- The one completion that clears the bar, a failure that is delivered, is that of the
last outstanding call, and no other completion is. -/
def ClearsLast (_ : List (CallingEvent RegisterForm)) (s : CallingState RegisterActivity) :
    CallingEvent RegisterForm → Prop
  | .completed call isSuccessful => call.listening ∧ ¬ isSuccessful ↔ s.calls.erase call = []
  | _ => True

/-! ### The dialogs -/

theorem awaitsDelivery_snoc (es : List (CallingEvent LoginForm)) (e : CallingEvent LoginForm) :
    awaitsDelivery (es ++ [e]) = (e.sendsSignIn || awaitsDelivery es && !e.delivered) := by
  simp only [awaitsDelivery, List.foldl_append, List.foldl_cons, List.foldl_nil]

theorem noOverlap_snoc (es : List (CallingEvent LoginForm)) (e : CallingEvent LoginForm) :
    NoOverlap (es ++ [e]) ↔ NoOverlap es ∧ (e.sendsSignIn → awaitsDelivery es = false) := by
  constructor
  · intro h
    refine ⟨fun pre f post hes => h pre f (post ++ [e]) (by rw [hes]; simp), h es e [] rfl⟩
  · rintro ⟨hes, he⟩ pre f post heq
    obtain ⟨mid, hmid, -⟩ | ⟨rfl, rfl, -⟩ := snoc_eq_append_cons heq
    · exact hes pre f mid hmid
    · exact he

/-- The dialogs on screen are those whose sign-in was overlapped by another one, which
nothing refers to any more, and the latest one while it awaits a delivery. -/
structure DialogInv (es : List (CallingEvent LoginForm)) (a : LoginActivity) (lost : List ℕ) :
    Prop where
  showing : a.showing = lost ++ if awaitsDelivery es then a.mAlertDialog.toList else []
  lost_eq_nil : lost = [] ↔ NoOverlap es
  lost_ne : ∀ dialog ∈ lost, some dialog ≠ a.mAlertDialog
  latest : awaitsDelivery es → a.mAlertDialog.isSome
  fresh : ∀ dialog ∈ a.showing, dialog < a.dialogs

/-- A dismissal takes the latest dialog off the screen, and no lost one. -/
theorem dismiss_showing {es : List (CallingEvent LoginForm)} {a : LoginActivity} {lost : List ℕ}
    (h : DialogInv es a lost) : a.dismiss.showing = lost := by
  have hkept : lost.filter (fun dialog => some dialog != a.mAlertDialog) = lost := by
    rw [List.filter_eq_self]
    intro dialog hmem
    simpa using h.lost_ne dialog hmem
  rw [LoginActivity.dismiss, h.showing, List.filter_append, hkept]
  cases hlatest : a.mAlertDialog <;> by_cases hawaits : awaitsDelivery es <;> simp [hawaits]

/-- No dialog is left when each sign-in met a delivery before the next one was sent. -/
theorem showing_eq_nil_iff {es : List (CallingEvent LoginForm)} {a : LoginActivity}
    {lost : List ℕ} (h : DialogInv es a lost) :
    a.showing = [] ↔ awaitsDelivery es = false ∧ NoOverlap es := by
  rw [h.showing, List.append_eq_nil_iff, h.lost_eq_nil, and_comm]
  refine and_congr_left fun _ => ?_
  by_cases hawaits : awaitsDelivery es
  · obtain ⟨dialog, hdialog⟩ := Option.isSome_iff_exists.mp (h.latest hawaits)
    simp [hawaits, hdialog]
  · simp [hawaits]

/-- The edit texts have no part in it. -/
theorem dialogInv_edit {es : List (CallingEvent LoginForm)} {a : LoginActivity} {lost : List ℕ}
    (h : DialogInv es a lost) (userEditText passwordEditText : String) :
    DialogInv es { a with userEditText, passwordEditText } lost :=
  ⟨h.showing, h.lost_eq_nil, h.lost_ne, h.latest, h.fresh⟩

/-- A sign-in that is sent: the dialogs on screen are all lost to the new one. -/
theorem dialogInv_setProgressDialog {es : List (CallingEvent LoginForm)}
    {e : CallingEvent LoginForm} {a : LoginActivity} {lost : List ℕ} (h : DialogInv es a lost)
    (hsends : e.sendsSignIn = true) : DialogInv (es ++ [e]) a.setProgressDialog a.showing where
  showing := by
    rw [awaitsDelivery_snoc, hsends, Bool.true_or]
    rfl
  lost_eq_nil := by
    rw [noOverlap_snoc, showing_eq_nil_iff h, and_comm]
    simp [hsends]
  lost_ne := by
    intro dialog hmem
    simpa [LoginActivity.setProgressDialog] using (h.fresh dialog hmem).ne
  latest := fun _ => rfl
  fresh := by
    intro dialog hmem
    rcases List.mem_append.mp hmem with hshown | hnew
    · exact Nat.lt_succ_of_lt (h.fresh dialog hshown)
    · rw [List.mem_singleton.mp hnew]
      exact Nat.lt_succ_self a.dialogs

theorem noOverlap_snoc_of_not_sends {es : List (CallingEvent LoginForm)}
    {e : CallingEvent LoginForm} (hsends : e.sendsSignIn = false) :
    NoOverlap (es ++ [e]) ↔ NoOverlap es := by
  rw [noOverlap_snoc]
  simp [hsends]

/-- A completion that is delivered. -/
theorem dialogInv_dismiss {es : List (CallingEvent LoginForm)} {e : CallingEvent LoginForm}
    {a : LoginActivity} {lost : List ℕ} (h : DialogInv es a lost)
    (hsends : e.sendsSignIn = false) (hdelivered : e.delivered = true) :
    DialogInv (es ++ [e]) a.dismiss lost := by
  have hawaits : awaitsDelivery (es ++ [e]) = false := by
    simp [awaitsDelivery_snoc, hsends, hdelivered]
  constructor
  · simp [dismiss_showing h, hawaits]
  · rw [noOverlap_snoc_of_not_sends hsends, h.lost_eq_nil]
  · exact h.lost_ne
  · simp [hawaits]
  · rw [dismiss_showing h]
    intro dialog hmem
    refine h.fresh dialog ?_
    rw [h.showing]
    exact List.mem_append_left _ hmem

/-- An event without a part in it. -/
theorem dialogInv_of_same {es : List (CallingEvent LoginForm)} {e : CallingEvent LoginForm}
    {a : LoginActivity} {lost : List ℕ} (h : DialogInv es a lost)
    (hsends : e.sendsSignIn = false) (hdelivered : e.delivered = false) :
    DialogInv (es ++ [e]) a lost := by
  have hawaits : awaitsDelivery (es ++ [e]) = awaitsDelivery es := by
    simp [awaitsDelivery_snoc, hsends, hdelivered]
  constructor
  · rw [hawaits, h.showing]
  · rw [noOverlap_snoc_of_not_sends hsends, h.lost_eq_nil]
  · exact h.lost_ne
  · rw [hawaits]
    exact h.latest
  · exact h.fresh

theorem dialogInv_press {es : List (CallingEvent LoginForm)} {a : LoginActivity} {lost : List ℕ}
    (h : DialogInv es a lost) (form : LoginForm) :
    ∃ lost', DialogInv (es ++ [.press form])
      { a with
        userEditText := form.username
        passwordEditText := form.password }.signIn.1 lost' := by
  have hedited := dialogInv_edit h form.username form.password
  by_cases hblank : form.username = "" ∨ form.password = ""
  · rw [LoginActivity.signIn_of_blank (a := { a with
      userEditText := form.username, passwordEditText := form.password }) hblank]
    refine ⟨lost, dialogInv_of_same hedited ?_ rfl⟩
    rcases hblank with husername | hpassword
    · simp [CallingEvent.sendsSignIn, husername]
    · simp [CallingEvent.sendsSignIn, hpassword]
  · rw [LoginActivity.signIn_of_filled (a := { a with
      userEditText := form.username, passwordEditText := form.password }) hblank]
    refine ⟨a.showing, dialogInv_setProgressDialog hedited ?_⟩
    obtain ⟨husername, hpassword⟩ := not_or.mp hblank
    simp [CallingEvent.sendsSignIn, husername, hpassword]

theorem dialogInv_step {es : List (CallingEvent LoginForm)} {s t : CallingState LoginActivity}
    {e : CallingEvent LoginForm} {lost : List ℕ} (hs : DialogInv es s.activity lost)
    (h : login.step s e = some t) : ∃ lost', DialogInv (es ++ [e]) t.activity lost' := by
  obtain ⟨hactivity, -, -⟩ := callingActivity_step h
  rw [hactivity]
  cases e with
  | press form => exact dialogInv_press hs form
  | completed call isSuccessful =>
    refine ⟨lost, ?_⟩
    by_cases hlistening : call.listening
    · rw [CallingActivity.act, if_pos hlistening]
      exact dialogInv_dismiss hs rfl hlistening
    · rw [CallingActivity.act, if_neg hlistening]
      exact dialogInv_of_same hs rfl (by simpa [CallingEvent.delivered] using hlistening)
  | stop => exact ⟨lost, dialogInv_of_same hs rfl rfl⟩
  | restart => exact ⟨lost, dialogInv_of_same hs rfl rfl⟩

theorem dialogInv_run {es : List (CallingEvent LoginForm)} {s : CallingState LoginActivity}
    (h : login.run es = some s) : ∃ lost, DialogInv es s.activity lost := by
  refine run_induction (S := login) (I := fun es s => ∃ lost, DialogInv es s.activity lost)
    ⟨[], ?_, ?_, ?_, ?_, ?_⟩ ?_ h
  · rfl
  · simp [NoOverlap]
  · simp
  · simp [awaitsDelivery]
  · simp [login, callingActivity]
  · rintro es s e t - ⟨lost, hs⟩ ht
    exact dialogInv_step hs ht

/-! ### The bar -/

/-- What a step of the registration does to the indicator. -/
theorem registration_step {es : List (CallingEvent RegisterForm)}
    {s t : CallingState RegisterActivity} {e : CallingEvent RegisterForm}
    (hs : BarShown es s) (h : registration.step s e = some t) :
    BarShown (es ++ [e]) t ↔ ClearsLast es s e := by
  obtain ⟨hactivity, hcalls, hmem⟩ := callingActivity_step h
  rw [BarShown, hactivity, hcalls]
  cases e with
  | press form =>
    refine iff_of_true ?_ trivial
    by_cases hrejects : RegisterActivity.Rejects form
    · have hsignUp := RegisterActivity.signUp_of_rejects (a := { s.activity with form }) hrejects
      simp only [CallingActivity.act, CallingActivity.actOnCalls, hsignUp, AuthCall.isSent]
      exact hs
    · have hsignUp :=
        RegisterActivity.signUp_of_not_rejects (a := { s.activity with form }) hrejects
      simp [CallingActivity.act, CallingActivity.actOnCalls, hsignUp, AuthCall.isSent]
  | completed call isSuccessful =>
    have houtstanding : s.calls ≠ [] := List.ne_nil_of_mem (hmem call isSuccessful rfl)
    have hbar : s.activity.progressBarVisible := hs.1.mpr houtstanding
    have hlabel : s.activity.createAccount = "" := hs.2.mpr houtstanding
    simp only [CallingActivity.act, CallingActivity.actOnCalls, ClearsLast]
    by_cases hlistening : call.listening
    · cases isSuccessful with
      | true => simp [RegisterActivity.onComplete, hlistening, hbar, hlabel]
      | false => simp [RegisterActivity.onComplete, hlistening, houtstanding]
    · simp [hlistening, hbar, hlabel]
  | stop => simpa [CallingActivity.act, CallingActivity.actOnCalls, ClearsLast, BarShown] using hs
  | restart => exact iff_of_true hs trivial

/-! ### When the indicators keep their promise -/

theorem dialogGone_iff {es : List (CallingEvent LoginForm)} {s : CallingState LoginActivity}
    (h : login.run es = some s) : DialogGone es s ↔ SignInsDelivered es s := by
  obtain ⟨lost, hinv⟩ := dialogInv_run h
  rw [DialogGone, SignInsDelivered, showing_eq_nil_iff hinv]

/-- No dialog outlives its sign-in just when every sign-in is heard of before the next one
is sent, and the bar follows the outstanding calls just when the completions that clear it
are those of the last outstanding call. -/
theorem showsProgress_iff (es : List (CallingEvent LoginForm))
    {fs : List (CallingEvent RegisterForm)} {t : CallingState RegisterActivity}
    (h : registration.run fs = some t) :
    (login.EachState DialogGone es ↔ login.EachState SignInsDelivered es) ∧
      (registration.EachState BarShown fs ↔ registration.EachStep ClearsLast fs) := by
  constructor
  · exact eachState_congr (fun _ _ hs => dialogGone_iff hs) es
  · refine eachState_iff_eachStep ?_ (fun _ _ _ _ _ _ hs ht => registration_step hs ht) h
    simp [BarShown, registration, callingActivity]

/-- A failed attempt, with its answer heard, and a second one under way. -/
def retriedRegistration : List (CallingEvent RegisterForm) :=
  [.press ⟨"asha@mail", "Asha", "secret", "secret"⟩, .completed ⟨0, true⟩ false,
    .press ⟨"asha@mail", "Asha", "secret", "secret"⟩]

theorem retriedRegistration_clearsLast : registration.EachStep ClearsLast retriedRegistration :=
  EachStepFrom.eachStep ⟨trivial, ⟨fun _ => rfl, fun _ => ⟨rfl, by decide⟩⟩, trivial, trivial⟩

/-- A sign-in that fails while its screen is in front. -/
def failedSignIn : List (CallingEvent LoginForm) :=
  [.press ⟨"asha@mail", "secret"⟩, .completed ⟨0, true⟩ false]

theorem failedSignIn_delivered : login.EachState SignInsDelivered failedSignIn := by
  have hnoOverlap : NoOverlap failedSignIn :=
    (noOverlap_snoc (failedSignIn.take 1) _).mpr
      ⟨(noOverlap_snoc [] _).mpr ⟨by simp [NoOverlap], fun _ => rfl⟩, by rintro ⟨⟩⟩
  have hinit : login.EachState SignInsDelivered [] :=
    eachState_nil.mpr fun _ _ _ => ⟨rfl, by simp [NoOverlap]⟩
  have hpressed :
      login.EachState SignInsDelivered ([] ++ [.press ⟨"asha@mail", "secret"⟩]) := by
    refine eachState_snoc.mpr ⟨hinit, ?_⟩
    rintro t ht - - hcalls
    obtain rfl := Option.some.inj ht
    cases hcalls
  exact eachState_snoc.mpr ⟨hpressed, fun _ _ _ _ _ => ⟨rfl, hnoOverlap⟩⟩

theorem showsProgress_iff_retried :
    ∃ t, registration.run retriedRegistration = some t ∧ t.calls ≠ [] ∧
      login.EachState DialogGone failedSignIn ∧
      registration.EachState BarShown retriedRegistration := by
  obtain ⟨hlogin, hregistration⟩ :=
    @showsProgress_iff failedSignIn retriedRegistration _ rfl
  exact ⟨_, rfl, by decide, hlogin.mpr failedSignIn_delivered,
    hregistration.mpr retriedRegistration_clearsLast⟩

/-- The app is left while the sign-in is under way, and come back to after it failed. -/
def unheardSignIn : List (CallingEvent LoginForm) :=
  [.press ⟨"asha@mail", "secret"⟩, .stop, .completed ⟨0, false⟩ false, .restart]

/-- Two attempts at once, the first of which fails. -/
def overlappingRegistrations : List (CallingEvent RegisterForm) :=
  [.press ⟨"asha@mail", "Asha", "secret", "secret"⟩,
    .press ⟨"asha@mail", "Asha", "secret", "secret"⟩, .completed ⟨0, true⟩ false]

/-- The dialog stays for good, and the button is back while a call is outstanding. -/
theorem indicators_not_follow :
    (∃ s, login.run unheardSignIn = some s ∧ ¬ DialogGone unheardSignIn s) ∧
      ∃ s, registration.run overlappingRegistrations = some s ∧
        ¬ BarShown overlappingRegistrations s := by
  constructor
  · refine ⟨_, rfl, fun h => ?_⟩
    have hnone := h rfl (by decide) rfl
    exact absurd hnone (by decide)
  · refine ⟨_, rfl, fun h => ?_⟩
    have hvisible := h.1.mpr (by decide)
    exact absurd hvisible (by decide)

/-! ### The registration of the accounts -/

/-- The form of a press, valid or not. -/
def CallingEvent.pressed {φ : Type*} : CallingEvent φ → Option φ
  | .press form => some form
  | _ => none

def CreateCall.outstanding (call : CreateCall) : OutstandingCall := ⟨call.id, call.listening⟩

/-- A registration in step with `accountCreation`: the calls whose listeners wait there, with
what these wait to tell, are still outstanding. -/
structure InStep (s : AccountState) (waiting : List (ℕ × Option Account))
    (t : CallingState RegisterActivity) : Prop where
  activity : t.activity = s.activity
  started : t.started = s.started
  finishing : t.finishing = s.finishing
  made : t.made = s.made
  listeners : (waiting.map Prod.snd).Perm s.listeners
  calls : t.calls.Perm
    (s.calls.map CreateCall.outstanding ++ waiting.map fun call => ⟨call.1, true⟩)

section InStep

variable {s : AccountState} {waiting : List (ℕ × Option Account)}
  {t : CallingState RegisterActivity}

theorem step_press_of_rejects {form : RegisterForm} (hstarted : t.started = true)
    (hrejects : RegisterActivity.Rejects form) : registration.step t (.press form) =
      some { t with activity := ({ t.activity with form }.signUp).1 } := by
  have hsignUp := RegisterActivity.signUp_of_rejects (a := { t.activity with form }) hrejects
  simp [registration, callingActivity, hstarted, hsignUp, AuthCall.isSent]

theorem step_press_of_not_rejects {form : RegisterForm} (hstarted : t.started = true)
    (hrejects : ¬ RegisterActivity.Rejects form) : registration.step t (.press form) =
      some { t with
        activity := ({ t.activity with form }.signUp).1
        calls := t.calls ++ [⟨t.made, true⟩]
        made := t.made + 1 } := by
  have hsignUp := RegisterActivity.signUp_of_not_rejects (a := { t.activity with form }) hrejects
  simp [registration, callingActivity, hstarted, hsignUp, AuthCall.isSent]

theorem inStep_press (h : InStep s waiting t) (hstarted : s.started = true)
    (form : RegisterForm) :
    ∃ t', registration.step t (.press form) = some t' ∧ InStep (s.press form) waiting t' := by
  have hstarted' : t.started = true := h.started.trans hstarted
  by_cases hrejects : RegisterActivity.Rejects form
  · refine ⟨_, step_press_of_rejects hstarted' hrejects, ?_⟩
    rw [press_of_rejects s hrejects, h.activity]
    exact ⟨rfl, h.started, h.finishing, h.made, h.listeners, h.calls⟩
  · refine ⟨_, step_press_of_not_rejects hstarted' hrejects, ?_⟩
    rw [press_of_not_rejects s hrejects, h.activity, h.made]
    refine ⟨rfl, h.started, h.finishing, rfl, h.listeners, ?_⟩
    refine (h.calls.append_right _).trans ?_
    rw [List.map_append, List.append_assoc, List.append_assoc]
    exact List.Perm.append_left _ List.perm_append_comm

/-- A completion that nothing listens to. -/
theorem step_unheard {call : OutstandingCall} (hmem : call ∈ t.calls)
    (hcall : call.listening = false) (isSuccessful : Bool) :
    registration.step t (.completed call isSuccessful) =
      some { t with calls := t.calls.erase call } := by
  simp [registration, callingActivity, hmem, hcall]

theorem step_heard {call : OutstandingCall} (hmem : call ∈ t.calls)
    (hcall : call.listening = true) (isSuccessful : Bool) :
    registration.step t (.completed call isSuccessful) = some { t with
      activity := t.activity.onComplete isSuccessful
      finishing := t.finishing || isSuccessful
      calls := t.calls.erase call } := by
  simp [registration, callingActivity, hmem, hcall]

/-- The completions that a stop has cut off from their listeners. -/
theorem runFrom_unheard (waiting : List (ℕ × Option Account)) {calls : List OutstandingCall}
    (h : t.calls.Perm (calls ++ waiting.map fun call => ⟨call.1, false⟩)) :
    ∃ left, left.Perm calls ∧
      registration.runFrom t
        (waiting.map fun call => .completed ⟨call.1, false⟩ call.2.isSome) =
          some { t with calls := left } := by
  induction waiting generalizing t with
  | nil => exact ⟨t.calls, by simpa using h, rfl⟩
  | cons call waiting ih =>
    have hmem : ⟨call.1, false⟩ ∈ t.calls := h.mem_iff.mpr (by simp)
    have hrest : (t.calls.erase ⟨call.1, false⟩).Perm
        (calls ++ waiting.map fun call => ⟨call.1, false⟩) := by
      refine List.Perm.cons_inv ((List.perm_cons_erase hmem).symm.trans (h.trans ?_))
      rw [List.map_cons]
      exact List.perm_middle
    obtain ⟨left, hleft, hrun⟩ := ih (t := { t with calls := t.calls.erase ⟨call.1, false⟩ }) hrest
    exact ⟨left, hleft, by rw [List.map_cons, runFrom_cons, step_unheard hmem rfl]; exact hrun⟩

/-- What a listener of `accountCreation` hears, its call hears in `registration`. -/
theorem inStep_listener (h : InStep s waiting t) {account : Option Account} {s' : AccountState}
    (hmem : account ∈ s.listeners) (hactivity : s'.activity = s.activity.onComplete account.isSome)
    (hfinishing : s'.finishing = (s.finishing || account.isSome))
    (hsame : s'.started = s.started ∧ s'.made = s.made ∧ s'.calls = s.calls)
    (hlisteners : s'.listeners = s.listeners.erase account) :
    ∃ fs waiting' t', registration.runFrom t fs = some t' ∧ InStep s' waiting' t' ∧
      fs.filterMap CallingEvent.pressed = [] := by
  obtain ⟨⟨id, outcome⟩, hwaiting, houtcome⟩ := List.mem_map.mp (h.listeners.mem_iff.mpr hmem)
  obtain rfl : outcome = account := houtcome
  have hout : ⟨id, true⟩ ∈ t.calls :=
    h.calls.mem_iff.mpr (List.mem_append_right _ (List.mem_map.mpr ⟨_, hwaiting, rfl⟩))
  have hrest := List.perm_cons_erase hwaiting
  refine ⟨[.completed ⟨id, true⟩ outcome.isSome], waiting.erase (id, outcome), _,
    by rw [runFrom_cons, step_heard hout rfl]; rfl, ?_, rfl⟩
  obtain ⟨hstarted, hmade, hcalls⟩ := hsame
  constructor
  · rw [hactivity, h.activity]
  · rw [hstarted]
    exact h.started
  · rw [hfinishing, h.finishing]
  · rw [hmade]
    exact h.made
  · rw [hlisteners]
    refine List.Perm.cons_inv (a := outcome) ?_
    exact ((hrest.map Prod.snd).symm.trans h.listeners).trans (List.perm_cons_erase hmem)
  · rw [hcalls]
    refine List.Perm.cons_inv (a := ⟨id, true⟩) ?_
    refine ((List.perm_cons_erase hout).symm.trans h.calls).trans ?_
    refine ((hrest.map _).append_left _).trans ?_
    exact List.perm_middle

/-- A completion moves its call to the listeners, if it has one. -/
theorem completed_fields {s' : AccountState} {call : CreateCall} {uid : Option String}
    (h : accountCreation.step s (.completed call uid) = some s') :
    call ∈ s.calls ∧ s'.calls = s.calls.erase call ∧
      s'.listeners = s.listeners ++
        (if call.listening then [uid.map fun uid => ⟨uid, call.form⟩] else []) ∧
      s'.activity = s.activity ∧ s'.started = s.started ∧ s'.finishing = s.finishing ∧
      s'.made = s.made := by
  cases uid with
  | none =>
    simp only [accountCreation, Option.ite_none_right_eq_some, Option.some.injEq] at h
    obtain ⟨hmem, rfl⟩ := h
    exact ⟨hmem, rfl, rfl, rfl, rfl, rfl, rfl⟩
  | some uid =>
    simp only [accountCreation, Option.ite_none_right_eq_some, Option.some.injEq] at h
    obtain ⟨⟨hmem, -⟩, rfl⟩ := h
    exact ⟨hmem, rfl, rfl, rfl, rfl, rfl, rfl⟩

theorem inStep_completed (h : InStep s waiting t) {s' : AccountState} {call : CreateCall}
    {uid : Option String} (hmem : call ∈ s.calls) (hcalls : s'.calls = s.calls.erase call)
    (hlisteners : s'.listeners = s.listeners ++
      (if call.listening then [uid.map fun uid => (⟨uid, call.form⟩ : Account)] else []))
    (hsame : s'.activity = s.activity ∧ s'.started = s.started ∧ s'.finishing = s.finishing ∧
      s'.made = s.made) :
    ∃ fs waiting' t', registration.runFrom t fs = some t' ∧ InStep s' waiting' t' ∧
      fs.filterMap CallingEvent.pressed = [] := by
  obtain ⟨hactivity, hstarted, hfinishing, hmade⟩ := hsame
  have hrest := (List.perm_cons_erase hmem).map CreateCall.outstanding
  by_cases hcall : call.listening = true
  · -- the call stays outstanding until its listener runs
    refine ⟨[], waiting ++ [(call.id, uid.map fun uid => ⟨uid, call.form⟩)], t, rfl, ?_, rfl⟩
    have hout : call.outstanding = ⟨call.id, true⟩ := by rw [CreateCall.outstanding, hcall]
    refine ⟨by rw [hactivity, h.activity], by rw [hstarted, h.started],
      by rw [hfinishing, h.finishing], by rw [hmade, h.made], ?_, ?_⟩
    · rw [hlisteners, if_pos hcall, List.map_append]
      exact h.listeners.append_right _
    · rw [hcalls, List.map_append, ← List.append_assoc]
      refine (h.calls.trans (hrest.append_right _)).trans ?_
      rw [List.map_cons, hout]
      exact (List.perm_append_singleton _ _).symm
  · rw [Bool.not_eq_true] at hcall
    have hout : call.outstanding ∈ t.calls :=
      h.calls.mem_iff.mpr (List.mem_append_left _ (List.mem_map_of_mem hmem))
    refine ⟨[.completed call.outstanding uid.isSome], waiting,
      { t with calls := t.calls.erase call.outstanding }, ?_, ?_, rfl⟩
    · rw [runFrom_cons, step_unheard hout hcall]
      rfl
    · refine ⟨by rw [hactivity, ← h.activity], by rw [hstarted, ← h.started],
        by rw [hfinishing, ← h.finishing], by rw [hmade, ← h.made], ?_, ?_⟩
      · rw [hlisteners, if_neg (by simp [hcall]), List.append_nil]
        exact h.listeners
      · rw [hcalls]
        refine List.Perm.cons_inv (a := call.outstanding) ?_
        exact ((List.perm_cons_erase hout).symm.trans h.calls).trans (hrest.append_right _)

/-- A stop completes what waits to be heard there, since nobody will hear it. -/
theorem inStep_stop (h : InStep s waiting t) (hstarted : s.started = true) :
    ∃ fs waiting' t', registration.runFrom t fs = some t' ∧
      InStep { s with
        started := false
        calls := s.calls.map fun call => { call with listening := false }
        listeners := [] } waiting' t' ∧
      fs.filterMap CallingEvent.pressed = [] := by
  have hstop : registration.step t .stop = some { t with
      started := false
      calls := t.calls.map fun call => { call with listening := false } } := by
    simp [registration, callingActivity, h.started, hstarted]
  have hcalls : (t.calls.map fun call => { call with listening := false }).Perm
      ((s.calls.map fun call => { call with listening := false }).map CreateCall.outstanding ++
        waiting.map fun call => ⟨call.1, false⟩) := by
    have hmapped := h.calls.map fun call => { call with listening := false }
    simpa [CreateCall.outstanding, Function.comp_def] using hmapped
  obtain ⟨left, hleft, hrun⟩ := runFrom_unheard (t := { t with
    started := false
    calls := t.calls.map fun call => { call with listening := false } }) waiting hcalls
  refine ⟨_ :: _, [], _, by rw [runFrom_cons, hstop]; exact hrun, ?_, ?_⟩
  · exact ⟨h.activity, rfl, h.finishing, h.made, List.Perm.refl _, by simpa using hleft⟩
  · rw [List.filterMap_eq_nil_iff]
    intro e he
    rcases List.mem_cons.mp he with rfl | hcompleted
    · rfl
    · obtain ⟨call, -, rfl⟩ := List.mem_map.mp hcompleted
      rfl

theorem inStep_step {s' : AccountState} {e : AccountEvent} (h : InStep s waiting t)
    (hstep : accountCreation.step s e = some s') :
    ∃ fs waiting' t', registration.runFrom t fs = some t' ∧ InStep s' waiting' t' ∧
      fs.filterMap CallingEvent.pressed = e.pressed.toList := by
  cases e with
  | press form =>
    simp only [accountCreation, Option.ite_none_right_eq_some, Option.some.injEq] at hstep
    obtain ⟨hstarted, rfl⟩ := hstep
    obtain ⟨t', ht', hinStep⟩ := inStep_press h hstarted form
    exact ⟨[.press form], waiting, t', by simp [ht'], hinStep, rfl⟩
  | completed call uid =>
    obtain ⟨hmem, hcalls, hlisteners, hsame⟩ := completed_fields hstep
    exact inStep_completed h hmem hcalls hlisteners hsame
  | listener account =>
    cases account with
    | none =>
      simp only [accountCreation, Option.ite_none_right_eq_some, Option.some.injEq] at hstep
      obtain ⟨hmem, rfl⟩ := hstep
      exact inStep_listener h hmem rfl (Bool.or_false _).symm ⟨rfl, rfl, rfl⟩ rfl
    | some account =>
      simp only [accountCreation, Option.ite_none_right_eq_some, Option.map_eq_some_iff] at hstep
      obtain ⟨hmem, currentuser, -, rfl⟩ := hstep
      exact inStep_listener h hmem rfl (Bool.or_true _).symm ⟨rfl, rfl, rfl⟩ rfl
  | stop =>
    simp only [accountCreation, Option.ite_none_right_eq_some, Option.some.injEq] at hstep
    obtain ⟨hstarted, rfl⟩ := hstep
    exact inStep_stop h hstarted
  | restart =>
    simp only [accountCreation, Option.ite_none_right_eq_some, Option.some.injEq] at hstep
    obtain ⟨hstopped, rfl⟩ := hstep
    have hrestart : registration.step t .restart = some { t with started := true } := by
      simpa [registration, callingActivity, h.started, h.finishing] using hstopped
    exact ⟨[.restart], waiting, { t with started := true }, by rw [runFrom_cons, hrestart]; rfl,
      ⟨h.activity, rfl, h.finishing, h.made, h.listeners, h.calls⟩, rfl⟩
  | written profile | writeFailed profile =>
    simp only [accountCreation, Option.ite_none_right_eq_some, Option.some.injEq] at hstep
    obtain ⟨-, rfl⟩ := hstep
    exact ⟨[], waiting, t, rfl,
      ⟨h.activity, h.started, h.finishing, h.made, h.listeners, h.calls⟩, rfl⟩

end InStep

/-- Every run of `accountCreation` is one of `registration` with the same presses: the activity
is the same, and its calls are those of `accountCreation` and those whose listeners wait
there. -/
theorem registration_of_accountCreation {es : List AccountEvent} {s : AccountState}
    (h : accountCreation.run es = some s) :
    ∃ fs waiting t, registration.run fs = some t ∧ InStep s waiting t ∧
      fs.filterMap CallingEvent.pressed = es.filterMap AccountEvent.pressed := by
  refine run_induction (S := accountCreation) (I := fun es s =>
    ∃ fs waiting t, registration.run fs = some t ∧ InStep s waiting t ∧
      fs.filterMap CallingEvent.pressed = es.filterMap AccountEvent.pressed)
    ⟨[], [], _, rfl, ⟨rfl, rfl, rfl, rfl, List.Perm.refl _, List.Perm.refl _⟩, rfl⟩ ?_ h
  rintro es s e s' - ⟨fs, waiting, t, ht, hinStep, hpressed⟩ hstep
  obtain ⟨fs', waiting', t', ht', hinStep', hpressed'⟩ := inStep_step hinStep hstep
  refine ⟨fs ++ fs', waiting', t', ?_, hinStep', ?_⟩
  · rw [run, runFrom_append]
    exact Option.bind_eq_some_iff.mpr ⟨t, ht, ht'⟩
  · rw [List.filterMap_append, List.filterMap_append, hpressed, hpressed']
    cases hlast : e.pressed <;> simp [hlast]

end SewaConnect.Android
