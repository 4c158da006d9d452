import SewaConnect.Runs.Refinement
import SewaConnect.Android.BackStack
import SewaConnect.Android.ProgressIndicator

/-! The app with the sign-ins and account creations of its screens under way: `navigation`
with the screens of `login` and `registration` in its task. Each step moves the task in one
of a few ways (`taskMove_step`), which keep the fragments of every `MainActivity` in order and
the screens of the task apart. -/

namespace SewaConnect.Android

open Runs Runs.System MainActivity

/-! ### The task -/

/-- An activity of the task, a screen of nobody with the number of its instance. -/
inductive ActivityRecord where
  | main (a : MainActivity)
  | help
  | login (id : ℕ)
  | register (id : ℕ)
  deriving DecidableEq

namespace ActivityRecord

def activity : ActivityRecord → Activity
  | main a => .main a
  | help => .help
  | login _ => .login
  | register _ => .register

def id? : ActivityRecord → Option ℕ
  | main _ | help => none
  | login id | register id => some id

def isMain (record : ActivityRecord) : Bool := record.activity.isMain

/-- What the activity in front leaves: itself, where it leaves a screen of its own kind, and
new instances of others. -/
def leaves (front : ActivityRecord) (new : ℕ) : Activity → ActivityRecord
  | .main a => main a
  | .help => help
  | .login =>
    match front with
    | login id => login id
    | _ => login new
  | .register =>
    match front with
    | register id => register id
    | _ => register new

@[simp] theorem activity_leaves (front : ActivityRecord) (new : ℕ) (a : Activity) :
    (front.leaves new a).activity = a := by
  cases a <;> cases front <;> rfl

theorem map_activity_leaves (front : ActivityRecord) (new : ℕ) (activities : List Activity) :
    (activities.map (front.leaves new)).map activity = activities := by
  simp [Function.comp_def]

end ActivityRecord

/-- `FLAG_ACTIVITY_CLEAR_TOP`, as `clearTop`. -/
def clearTopRecords (task : List ActivityRecord) : List ActivityRecord :=
  if task.any ActivityRecord.isMain then (task.dropWhile (!·.isMain)).tail else task

structure SigningState where
  task : List ActivityRecord := [.main {}]
  /-- The login screens by their numbers, also those that have left the task. -/
  logins : ℕ → CallingState LoginActivity := fun _ => login.init
  registers : ℕ → CallingState RegisterActivity := fun _ => registration.init
  /-- The number of the next screen. -/
  next : ℕ := 0
  currentUser : Option String
  notification : Bool := false

inductive SigningEvent where
  /-- On the activity in front, from the launcher or from a notification. -/
  | nav (e : NavEvent)
  /-- A press of the button of the login screen, or of the registration, in front. -/
  | signIn (form : LoginForm)
  | createAccount (form : RegisterForm)
  /-- A call of this screen completes, for this user or with a failure. -/
  | signedIn (id : ℕ) (call : OutstandingCall) (user : Option String)
  | accountCreated (id : ℕ) (call : OutstandingCall) (user : Option String)
  /-- The screen is covered, or the app is in the background. -/
  | loginStopped (id : ℕ)
  | registerStopped (id : ℕ)
  /-- The app is back in the foreground. -/
  | returned

namespace SigningState

def onLogin (s : SigningState) (id : ℕ) (e : CallingEvent LoginForm) : Option SigningState :=
  (login.step (s.logins id) e).map fun a => { s with logins := Function.update s.logins id a }

def onRegister (s : SigningState) (id : ℕ) (e : CallingEvent RegisterForm) : Option SigningState :=
  (registration.step (s.registers id) e).map fun a =>
    { s with registers := Function.update s.registers id a }

def restarted (s : SigningState) : Option SigningState :=
  match s.task with
  | .login id :: _ => s.onLogin id .restart
  | .register id :: _ => s.onRegister id .restart
  | _ => none

/-- The activity in front is restarted, if it has stopped. -/
def resumed (s : SigningState) : SigningState := s.restarted.getD s

/-- The app is in the foreground. -/
def foreground (s : SigningState) : Bool :=
  match s.task with
  | .login id :: _ => (s.logins id).started
  | .register id :: _ => (s.registers id).started
  | _ => true

/-- The screen shows a dialog, which is modal and cannot be cancelled. -/
def hasDialog (s : SigningState) : ActivityRecord → Bool
  | .login id => (s.logins id).activity.showing ≠ []
  | _ => false

/-- What is done on the activity in front, from the launcher and with the notifications. The
activity that comes to the front is restarted if it has stopped. -/
def navigate (s : SigningState) : NavEvent → Option SigningState
  | .launch => if s.task = [] then some { s with task := [.main {}] } else none
  | .messageReceived => some { s with notification := true }
  | .notificationTap =>
    if s.notification then some { s with
      task := .main {} :: clearTopRecords s.task
      notification := false }
    else none
  | .signedIn _ | .accountCreated _ | .unheardSuccess _ => none
  | e =>
    match s.task with
    | [] => none
    | front :: rest =>
      if ¬ s.foreground then none
      else if e = .back ∧ s.hasDialog front then some s
      else (front.activity.handle e).map fun activities => resumed { s with
        task := activities.map (front.leaves s.next) ++ rest
        next := s.next + 1 }

end SigningState

/-- The app from its first start on. A success makes its user the current one, whether or not
anything still listens; where the screen does, it starts the activity of the user, or a new
login screen, on top of the task, and finishes. -/
def signing (currentUser : Option String) : System SigningState SigningEvent where
  init := { currentUser }
  step s
    | .nav e => s.navigate e
    | .signIn form =>
      match s.task with
      | .login id :: _ => s.onLogin id (.press form)
      | _ => none
    | .createAccount form =>
      match s.task with
      | .register id :: _ => s.onRegister id (.press form)
      | _ => none
    | .signedIn id call user =>
      (s.onLogin id (.completed call user.isSome)).map fun t =>
        if call.listening ∧ user.isSome then { t with
          task := .main {} :: s.task.erase (.login id)
          currentUser := user.or s.currentUser }
        else { t with currentUser := user.or s.currentUser }
    | .accountCreated id call user =>
      (s.onRegister id (.completed call user.isSome)).map fun t =>
        if call.listening ∧ user.isSome then { t with
          task := .login s.next :: s.task.erase (.register id)
          next := s.next + 1
          currentUser := user.or s.currentUser }
        else { t with currentUser := user.or s.currentUser }
    | .loginStopped id => if id < s.next then s.onLogin id .stop else none
    | .registerStopped id => if id < s.next then s.onRegister id .stop else none
    | .returned => s.restarted

/-! ### What an activity leaves in its place -/

inductive Leaves (new : ℕ) : ActivityRecord → List ActivityRecord → Prop
  | nothing (front : ActivityRecord) : Leaves new front []
  | main (front : ActivityRecord) (m : MainActivity) (hm : m.Grounded) : Leaves new front [.main m]
  | help (front : ActivityRecord) : Leaves new front [.help]
  | login (front : ActivityRecord) : Leaves new front [.login new]
  | register (id : ℕ) : Leaves new (.login id) [.register new, .login id]

theorem leaves_handle {front : ActivityRecord} {e : NavEvent} {activities : List Activity}
    (new : ℕ) (hfront : ∀ a, front = .main a → a.Grounded)
    (hsignedIn : ∀ user, e ≠ .signedIn user) (hcreated : ∀ user, e ≠ .accountCreated user)
    (h : front.activity.handle e = some activities) :
    Leaves new front (activities.map (front.leaves new)) := by
  cases front with
  | main a =>
    cases mainLeaves_handle (hfront a rfl) h with
    | nothing => exact .nothing _
    | help => exact .help _
    | login => exact .login _
    | main m hm => exact .main _ m hm
  | help =>
    cases e with
    | back =>
      cases h
      exact .main _ {} grounded_new
    | _ => cases h
  | login id =>
    cases e with
    | signUp =>
      cases h
      exact .register id
    | back =>
      cases h
      exact .nothing _
    | signedIn user => exact absurd rfl (hsignedIn user)
    | _ => cases h
  | register id =>
    cases e with
    | goBackToLogin | back =>
      cases h
      exact .login _
    | accountCreated user => exact absurd rfl (hcreated user)
    | _ => cases h

/-! ### Single steps -/

/-- A success that reaches its screen. -/
def SigningEvent.heard : SigningEvent → Bool
  | .signedIn _ call user | .accountCreated _ call user => call.listening && user.isSome
  | _ => false

/-- What a step does to the task and to the number of the next screen. -/
inductive TaskMove (s : SigningState) : SigningEvent → List ActivityRecord → ℕ → Prop
  | same (e : SigningEvent) (he : e.heard = false) : TaskMove s e s.task s.next
  | launched (hs : s.task = []) : TaskMove s (.nav .launch) [.main {}] s.next
  | tapped : TaskMove s (.nav .notificationTap) (.main {} :: clearTopRecords s.task) s.next
  | left (e : NavEvent) {front : ActivityRecord} {rest activities : List ActivityRecord}
      (hs : s.task = front :: rest) (hleaves : Leaves s.next front activities) :
      TaskMove s (.nav e) (activities ++ rest) (s.next + 1)
  | signedIn (id : ℕ) (call : OutstandingCall) (user : String) (hcall : call.listening = true) :
      TaskMove s (.signedIn id call (some user)) (.main {} :: s.task.erase (.login id)) s.next
  | accountCreated (id : ℕ) (call : OutstandingCall) (user : String)
      (hcall : call.listening = true) :
      TaskMove s (.accountCreated id call (some user))
        (.login s.next :: s.task.erase (.register id)) (s.next + 1)

namespace SigningState

variable {s t : SigningState}

theorem onLogin_eq {id : ℕ} {f : CallingEvent LoginForm} (h : s.onLogin id f = some t) :
    ∃ a, login.step (s.logins id) f = some a ∧
      t = { s with logins := Function.update s.logins id a } := by
  obtain ⟨a, ha, rfl⟩ := Option.map_eq_some_iff.mp h
  exact ⟨a, ha, rfl⟩

theorem onRegister_eq {id : ℕ} {f : CallingEvent RegisterForm} (h : s.onRegister id f = some t) :
    ∃ a, registration.step (s.registers id) f = some a ∧
      t = { s with registers := Function.update s.registers id a } := by
  obtain ⟨a, ha, rfl⟩ := Option.map_eq_some_iff.mp h
  exact ⟨a, ha, rfl⟩

/-- A restart touches one screen only, the one in front. -/
theorem restarted_eq (h : s.restarted = some t) :
    (∃ id rest a, s.task = .login id :: rest ∧ login.step (s.logins id) .restart = some a ∧
      t = { s with logins := Function.update s.logins id a }) ∨
    ∃ id rest a, s.task = .register id :: rest ∧
      registration.step (s.registers id) .restart = some a ∧
      t = { s with registers := Function.update s.registers id a } := by
  unfold restarted at h
  split at h
  · obtain ⟨a, ha, rfl⟩ := onLogin_eq h
    exact .inl ⟨_, _, a, ‹_›, ha, rfl⟩
  · obtain ⟨a, ha, rfl⟩ := onRegister_eq h
    exact .inr ⟨_, _, a, ‹_›, ha, rfl⟩
  · cases h

theorem resumed_eq (s : SigningState) : s.resumed = s ∨ s.restarted = some s.resumed := by
  unfold resumed
  cases s.restarted with
  | none => exact .inl rfl
  | some t => exact .inr rfl

theorem restarted_fields (h : s.restarted = some t) : t.task = s.task ∧ t.next = s.next ∧
    t.currentUser = s.currentUser ∧ t.notification = s.notification := by
  obtain ⟨id, rest, a, -, -, rfl⟩ | ⟨id, rest, a, -, -, rfl⟩ := restarted_eq h <;>
  exact ⟨rfl, rfl, rfl, rfl⟩

theorem resumed_fields (s : SigningState) : s.resumed.task = s.task ∧ s.resumed.next = s.next ∧
    s.resumed.currentUser = s.currentUser ∧ s.resumed.notification = s.notification := by
  rcases s.resumed_eq with hsame | hrestarted
  · rw [hsame]
    exact ⟨rfl, rfl, rfl, rfl⟩
  · exact restarted_fields hrestarted

/-- What is done on the activity in front: nothing, when a dialog swallows Back, and else what
that activity leaves in its place. -/
theorem navigate_handled {e : NavEvent} (he : e.IsHandled) (h : s.navigate e = some t) :
    ∃ front rest, s.task = front :: rest ∧ s.foreground = true ∧
      (∀ user, e ≠ .signedIn user) ∧ (∀ user, e ≠ .accountCreated user) ∧
      ((e = .back ∧ s.hasDialog front = true ∧ t = s) ∨
        ¬ (e = .back ∧ s.hasDialog front = true) ∧
          ∃ activities, front.activity.handle e = some activities ∧
            t = resumed { s with
              task := activities.map (front.leaves s.next) ++ rest
              next := s.next + 1 }) := by
  obtain ⟨hlaunch, hreceived, htap, hunheard⟩ := he
  have hsignedIn (user : Option String) : e ≠ .signedIn user := by
    rintro rfl
    cases h
  have hcreated (user : Option String) : e ≠ .accountCreated user := by
    rintro rfl
    cases h
  cases hs : s.task with
  | nil => cases e <;> simp_all [navigate]
  | cons front rest =>
    have hstep : s.navigate e = if ¬ s.foreground then none
        else if e = .back ∧ s.hasDialog front then some s
        else (front.activity.handle e).map fun activities => resumed { s with
          task := activities.map (front.leaves s.next) ++ rest
          next := s.next + 1 } := by
      cases e <;> simp_all [navigate]
    rw [hstep, Option.ite_none_left_eq_some, not_not] at h
    obtain ⟨hforeground, h⟩ := h
    refine ⟨front, rest, rfl, hforeground, hsignedIn, hcreated, ?_⟩
    by_cases hdialog : e = .back ∧ s.hasDialog front = true
    · rw [if_pos hdialog, Option.some.injEq] at h
      exact .inl ⟨hdialog.1, hdialog.2, h.symm⟩
    · rw [if_neg hdialog, Option.map_eq_some_iff] at h
      obtain ⟨activities, hactivities, rfl⟩ := h
      exact .inr ⟨hdialog, activities, hactivities, rfl⟩

end SigningState

section Steps

variable {currentUser : Option String} {s t : SigningState} {e : SigningEvent}

/-- The fragments of every `MainActivity` of the task are in order. -/
def SigningState.Grounded (s : SigningState) : Prop := ∀ a, .main a ∈ s.task → a.Grounded

theorem taskMove_navigate {e : NavEvent} (hs : s.Grounded) (h : s.navigate e = some t) :
    TaskMove s (.nav e) t.task t.next := by
  by_cases he : e.IsHandled
  · obtain ⟨front, rest, htask, -, hsignedIn, hcreated, hmove⟩ := SigningState.navigate_handled he h
    rcases hmove with ⟨-, -, rfl⟩ | ⟨-, activities, hactivities, rfl⟩
    · exact .same _ rfl
    · obtain ⟨htask', hnext', -, -⟩ := SigningState.resumed_fields { s with
        task := activities.map (front.leaves s.next) ++ rest
        next := s.next + 1 }
      rw [htask', hnext']
      refine .left e htask
        (leaves_handle s.next (fun a ha => hs a ?_) hsignedIn hcreated hactivities)
      rw [htask, ha]
      exact List.mem_cons_self
  · cases e with
    | launch =>
      simp only [SigningState.navigate, Option.ite_none_right_eq_some, Option.some.injEq] at h
      obtain ⟨hnil, rfl⟩ := h
      exact .launched hnil
    | messageReceived =>
      obtain rfl := Option.some.inj h
      exact .same _ rfl
    | notificationTap =>
      simp only [SigningState.navigate, Option.ite_none_right_eq_some, Option.some.injEq] at h
      obtain ⟨-, rfl⟩ := h
      exact .tapped
    | unheardSuccess user => cases h
    | _ => exact absurd (by simp [NavEvent.IsHandled]) he

theorem taskMove_onLogin {id : ℕ} {f : CallingEvent LoginForm} (h : s.onLogin id f = some t)
    (he : e.heard = false) : TaskMove s e t.task t.next := by
  obtain ⟨a, -, rfl⟩ := SigningState.onLogin_eq h
  exact .same e he

theorem taskMove_onRegister {id : ℕ} {f : CallingEvent RegisterForm}
    (h : s.onRegister id f = some t) (he : e.heard = false) : TaskMove s e t.task t.next := by
  obtain ⟨a, -, rfl⟩ := SigningState.onRegister_eq h
  exact .same e he

theorem taskMove_step (hs : s.Grounded) (h : (signing currentUser).step s e = some t) :
    TaskMove s e t.task t.next := by
  cases e with
  | nav e => exact taskMove_navigate hs h
  | signIn form =>
    simp only [signing] at h
    split at h
    · exact taskMove_onLogin h rfl
    · cases h
  | createAccount form =>
    simp only [signing] at h
    split at h
    · exact taskMove_onRegister h rfl
    · cases h
  | signedIn id call user =>
    obtain ⟨r, hr, rfl⟩ := Option.map_eq_some_iff.mp h
    obtain ⟨a, -, rfl⟩ := SigningState.onLogin_eq hr
    by_cases hheard : call.listening = true ∧ user.isSome = true
    · obtain ⟨user, rfl⟩ := Option.isSome_iff_exists.mp hheard.2
      rw [if_pos hheard]
      exact .signedIn id call user hheard.1
    · rw [if_neg hheard]
      exact .same _ (by simpa [SigningEvent.heard] using hheard)
  | accountCreated id call user =>
    obtain ⟨r, hr, rfl⟩ := Option.map_eq_some_iff.mp h
    obtain ⟨a, -, rfl⟩ := SigningState.onRegister_eq hr
    by_cases hheard : call.listening = true ∧ user.isSome = true
    · obtain ⟨user, rfl⟩ := Option.isSome_iff_exists.mp hheard.2
      rw [if_pos hheard]
      exact .accountCreated id call user hheard.1
    · rw [if_neg hheard]
      exact .same _ (by simpa [SigningEvent.heard] using hheard)
  | loginStopped id =>
    simp only [signing, Option.ite_none_right_eq_some] at h
    exact taskMove_onLogin h.2 rfl
  | registerStopped id =>
    simp only [signing, Option.ite_none_right_eq_some] at h
    exact taskMove_onRegister h.2 rfl
  | returned =>
    obtain ⟨htask, hnext, -, -⟩ := SigningState.restarted_fields h
    rw [htask, hnext]
    exact .same _ rfl

end Steps

/-! ### The fragments -/

theorem clearTopRecords_suffix (task : List ActivityRecord) : clearTopRecords task <:+ task := by
  unfold clearTopRecords
  split
  · exact (List.tail_suffix _).trans (List.dropWhile_suffix _)
  · exact List.suffix_refl _

theorem grounded_taskMove {s t : SigningState} {e : SigningEvent} (hs : s.Grounded)
    (h : TaskMove s e t.task t.next) : t.Grounded := by
  intro a ha
  generalize t.task = task at h ha
  generalize t.next = next at h
  have hnew {rest : List ActivityRecord} (hrest : ∀ record ∈ rest, record ∈ s.task)
      (hmem : .main a ∈ ActivityRecord.main {} :: rest) : a.Grounded := by
    rcases List.mem_cons.mp hmem with hnew | hold
    · obtain rfl := ActivityRecord.main.inj hnew
      exact grounded_new
    · exact hs a (hrest _ hold)
  cases h with
  | same => exact hs a ha
  | launched => exact hnew (by simp) ha
  | tapped => exact hnew (fun _ hmem => (clearTopRecords_suffix s.task).subset hmem) ha
  | left e htask hleaves =>
    rcases List.mem_append.mp ha with hleft | hrest
    · cases hleaves with
      | main front m hm =>
        obtain rfl := ActivityRecord.main.inj (List.mem_singleton.mp hleft)
        exact hm
      | _ => simp at hleft
    · exact hs a (htask ▸ List.mem_cons_of_mem _ hrest)
  | signedIn => exact hnew (fun _ hmem => List.mem_of_mem_erase hmem) ha
  | accountCreated =>
    rcases List.mem_cons.mp ha with hnew | hold
    · cases hnew
    · exact hs a (List.mem_of_mem_erase hold)

theorem grounded_run {currentUser : Option String} {es : List SigningEvent} {s : SigningState}
    (h : (signing currentUser).run es = some s) : s.Grounded := by
  refine run_invariant (S := signing currentUser) (I := SigningState.Grounded) ?_
    (fun _ _ _ hs ht => grounded_taskMove hs (taskMove_step hs ht)) h
  intro a ha
  obtain rfl := ActivityRecord.main.inj (List.mem_singleton.mp ha)
  exact grounded_new

/-! ### The screens of the task -/

/-- The numbers of the screens, the one in front first. -/
def ids (task : List ActivityRecord) : List ℕ := task.filterMap ActivityRecord.id?

/-- A step puts one new number on those that it keeps, or none. -/
theorem ids_taskMove {s t : SigningState} {e : SigningEvent} (h : TaskMove s e t.task t.next) :
    (ids t.task).Sublist (ids s.task) ∧ s.next ≤ t.next ∨
      ∃ kept, ids t.task = s.next :: kept ∧ kept.Sublist (ids s.task) ∧ t.next = s.next + 1 := by
  generalize t.task = task at h ⊢
  generalize t.next = next at h ⊢
  cases h with
  | same => exact .inl ⟨List.Sublist.refl _, le_rfl⟩
  | launched => exact .inl ⟨List.nil_sublist _, le_rfl⟩
  | tapped =>
    have hkept := (clearTopRecords_suffix s.task).sublist.filterMap ActivityRecord.id?
    exact .inl ⟨hkept, le_rfl⟩
  | @left e front rest activities htask hleaves =>
    have hrest : (ids rest).Sublist (ids s.task) := by
      rw [htask]
      exact (List.sublist_cons_self front rest).filterMap ActivityRecord.id?
    cases hleaves with
    | nothing | main | help => exact .inl ⟨hrest, Nat.le_succ _⟩
    | login => exact .inr ⟨ids rest, rfl, hrest, rfl⟩
    | register id => exact .inr ⟨ids (.login id :: rest), rfl, htask ▸ List.Sublist.refl _, rfl⟩
  | signedIn => exact .inl ⟨List.erase_sublist.filterMap ActivityRecord.id?, le_rfl⟩
  | accountCreated =>
    exact .inr ⟨_, rfl, List.erase_sublist.filterMap ActivityRecord.id?, rfl⟩

/-- No two screens of the task have one number, and the next one is new. -/
structure SigningState.Numbered (s : SigningState) : Prop where
  nodup : (ids s.task).Nodup
  old : ∀ id ∈ ids s.task, id < s.next

theorem numbered_taskMove {s t : SigningState} {e : SigningEvent} (hs : s.Numbered)
    (h : TaskMove s e t.task t.next) : t.Numbered := by
  rcases ids_taskMove h with ⟨hsub, hnext⟩ | ⟨kept, hids, hsub, hnext⟩
  · exact ⟨hs.nodup.sublist hsub, fun id hid => (hs.old id (hsub.subset hid)).trans_le hnext⟩
  · constructor
    · rw [hids, List.nodup_cons]
      exact ⟨fun hmem => Nat.lt_irrefl _ (hs.old _ (hsub.subset hmem)), hs.nodup.sublist hsub⟩
    · rw [hids, hnext]
      intro id hid
      rcases List.mem_cons.mp hid with rfl | hkept
      · exact Nat.lt_succ_self _
      · exact Nat.lt_succ_of_lt (hs.old id (hsub.subset hkept))

theorem numbered_run {currentUser : Option String} {es : List SigningEvent} {s : SigningState}
    (h : (signing currentUser).run es = some s) : s.Numbered := by
  refine run_induction (S := signing currentUser) (I := fun _ s => s.Numbered)
    ⟨List.nodup_nil, by simp [signing, ids, ActivityRecord.id?]⟩ ?_ h
  intro es s e t hrun hs ht
  exact numbered_taskMove hs (taskMove_step (grounded_run hrun) ht)

end SewaConnect.Android
