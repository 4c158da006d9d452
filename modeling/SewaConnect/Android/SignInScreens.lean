import SewaConnect.Android.SignIns

/-! The screens of the app with their calls. Each login screen runs as `login` and each
registration as `registration`, also once it has left the task (`screens_run`); and as long
as every success is heard by the screen in front, the app runs as in `navigation`
(`navigation_of_inTime`). -/

namespace SewaConnect.Android

open Runs Runs.System

/-! ### The screens and their calls -/

/-- A completion that finishes its screen. -/
def CallingEvent.finishes {φ : Type*} : CallingEvent φ → Bool
  | .completed call isSuccessful => call.listening && isSuccessful
  | _ => false

theorem finishing_step {α φ : Type*} {a : CallingActivity α φ} {s t : CallingState α}
    {e : CallingEvent φ} (h : (callingActivity a).step s e = some t) :
    t.finishing = (s.finishing || e.finishes) := by
  cases e with
  | press form =>
    simp only [callingActivity, Option.ite_none_right_eq_some] at h
    obtain ⟨-, h⟩ := h
    split at h <;>
    · obtain rfl := Option.some.inj h
      exact (Bool.or_false _).symm
  | completed call isSuccessful =>
    simp only [callingActivity, Option.ite_none_right_eq_some] at h
    obtain ⟨-, h⟩ := h
    split at h <;>
    · obtain rfl := Option.some.inj h
      simp_all [CallingEvent.finishes]
  | stop | restart =>
    simp only [callingActivity, Option.ite_none_right_eq_some, Option.some.injEq] at h
    obtain ⟨-, rfl⟩ := h
    exact (Bool.or_false _).symm

/-- A restart leaves the screen started, unless it is finishing. -/
theorem started_restart {α φ : Type*} {a : CallingActivity α φ} (s : CallingState α)
    (hfinishing : s.finishing = false) :
    (((callingActivity a).step s .restart).getD s).started = true := by
  by_cases hstarted : s.started <;> simp [callingActivity, hstarted, hfinishing]

/-- Nothing happens to a new screen but a press and a stop. -/
theorem step_init {α φ : Type*} {a : CallingActivity α φ} {e : CallingEvent φ}
    {t : CallingState α} (h : (callingActivity a).step (callingActivity a).init e = some t) :
    (∃ form, e = .press form) ∨ e = .stop := by
  cases e with
  | press form => exact .inl ⟨form, rfl⟩
  | completed call isSuccessful => simp [callingActivity] at h
  | stop => exact .inr rfl
  | restart => simp [callingActivity] at h

/-- What happens to the login screen `id` in a step. -/
def loginEvents (id : ℕ) (s : SigningState) : SigningEvent → List (CallingEvent LoginForm)
  | .nav e =>
    if (s.navigate e).any fun t => (t.logins id).started != (s.logins id).started then [.restart]
    else []
  | .signIn form => if s.task.head? = some (.login id) then [.press form] else []
  | .signedIn id' call user => if id' = id then [.completed call user.isSome] else []
  | .loginStopped id' => if id' = id then [.stop] else []
  | .returned => if s.task.head? = some (.login id) then [.restart] else []
  | .createAccount _ | .accountCreated _ _ _ | .registerStopped _ => []

def registerEvents (id : ℕ) (s : SigningState) : SigningEvent → List (CallingEvent RegisterForm)
  | .nav e =>
    if (s.navigate e).any fun t => (t.registers id).started != (s.registers id).started then
      [.restart]
    else []
  | .createAccount form => if s.task.head? = some (.register id) then [.press form] else []
  | .accountCreated id' call user => if id' = id then [.completed call user.isSome] else []
  | .registerStopped id' => if id' = id then [.stop] else []
  | .returned => if s.task.head? = some (.register id) then [.restart] else []
  | .signIn _ | .signedIn _ _ _ | .loginStopped _ => []

/-- A step of one instance, seen from any. -/
theorem runFrom_update {σ ε : Type*} {S : System σ ε} {states : ℕ → σ} {id : ℕ} {e : ε} {x : σ}
    (h : S.step (states id) e = some x) (id' : ℕ) :
    S.runFrom (states id') (if id = id' then [e] else []) =
      some (Function.update states id x id') := by
  by_cases hid : id = id'
  · subst hid
    simp [h]
  · rw [if_neg hid, Function.update_of_ne fun heq => hid heq.symm]
    rfl

/-- A restart shows in `started`. -/
theorem runFrom_restart {α φ : Type*} {a : CallingActivity α φ} {s t : CallingState α}
    (h : t = s ∨ (callingActivity a).step s .restart = some t) :
    (callingActivity a).runFrom s (if t.started != s.started then [.restart] else []) =
      some t := by
  rcases h with rfl | hrestart
  · simp
  · have hstarted : s.started = false ∧ t.started = true := by
      simp only [callingActivity, Option.ite_none_right_eq_some, Option.some.injEq] at hrestart
      obtain ⟨⟨hstopped, -⟩, rfl⟩ := hrestart
      exact ⟨by simpa using hstopped, rfl⟩
    simp [hstarted, hrestart]

namespace SigningState

variable {s t : SigningState}

theorem restarted_logins (h : s.restarted = some t) (id : ℕ) :
    login.runFrom (s.logins id)
      (if s.task.head? = some (.login id) then [.restart] else []) = some (t.logins id) := by
  obtain ⟨id', rest, a, hs, ha, rfl⟩ | ⟨id', rest, a, hs, ha, rfl⟩ := restarted_eq h
  · have hupdate := runFrom_update ha id
    simpa [hs] using hupdate
  · simp [hs]

theorem restarted_registers (h : s.restarted = some t) (id : ℕ) :
    registration.runFrom (s.registers id)
      (if s.task.head? = some (.register id) then [.restart] else []) = some (t.registers id) := by
  obtain ⟨id', rest, a, hs, ha, rfl⟩ | ⟨id', rest, a, hs, ha, rfl⟩ := restarted_eq h
  · simp [hs]
  · have hupdate := runFrom_update ha id
    simpa [hs] using hupdate

/-- What is done on the activity in front restarts a screen or leaves it alone. -/
theorem navigate_screens {e : NavEvent} (h : s.navigate e = some t) (id : ℕ) :
    (t.logins id = s.logins id ∨ login.step (s.logins id) .restart = some (t.logins id)) ∧
      (t.registers id = s.registers id ∨
        registration.step (s.registers id) .restart = some (t.registers id)) := by
  have hsame :
      (s.logins id = s.logins id ∨ login.step (s.logins id) .restart = some (s.logins id)) ∧
      (s.registers id = s.registers id ∨
        registration.step (s.registers id) .restart = some (s.registers id)) := ⟨.inl rfl, .inl rfl⟩
  by_cases he : e.IsHandled
  · obtain ⟨front, rest, -, -, -, -, hmove⟩ := navigate_handled he h
    rcases hmove with ⟨-, -, rfl⟩ | ⟨-, activities, -, rfl⟩
    · exact hsame
    · rcases resumed_eq { s with
          task := activities.map (front.leaves s.next) ++ rest
          next := s.next + 1 } with hresumed | hresumed
      · rw [hresumed]
        exact hsame
      · have hlogin := restarted_logins hresumed id
        have hregister := restarted_registers hresumed id
        constructor
        · split at hlogin
          · exact .inr (by simpa using hlogin)
          · exact .inl (by simpa using hlogin.symm)
        · split at hregister
          · exact .inr (by simpa using hregister)
          · exact .inl (by simpa using hregister.symm)
  · cases e with
    | launch | notificationTap =>
      simp only [navigate, Option.ite_none_right_eq_some, Option.some.injEq] at h
      obtain ⟨-, rfl⟩ := h
      exact hsame
    | messageReceived =>
      obtain rfl := Option.some.inj h
      exact hsame
    | unheardSuccess user => cases h
    | _ => exact absurd (by simp [NavEvent.IsHandled]) he

end SigningState

section Screens

variable {currentUser : Option String} {s t : SigningState} {e : SigningEvent}

/-- Each login screen runs as `login`. -/
theorem login_step (h : (signing currentUser).step s e = some t) (id : ℕ) :
    login.runFrom (s.logins id) (loginEvents id s e) = some (t.logins id) := by
  cases e with
  | nav e =>
    have hnavigate : s.navigate e = some t := h
    rw [loginEvents, hnavigate, Option.any_some]
    exact runFrom_restart (SigningState.navigate_screens hnavigate id).1
  | signIn form =>
    simp only [signing] at h
    split at h
    case h_2 => cases h
    case h_1 id' rest hs =>
      obtain ⟨a, ha, rfl⟩ := SigningState.onLogin_eq h
      have hupdate := runFrom_update ha id
      simpa [loginEvents, hs] using hupdate
  | signedIn id' call user =>
    obtain ⟨r, hr, rfl⟩ := Option.map_eq_some_iff.mp h
    obtain ⟨a, ha, rfl⟩ := SigningState.onLogin_eq hr
    rw [loginEvents, runFrom_update ha id]
    split <;> rfl
  | loginStopped id' =>
    simp only [signing, Option.ite_none_right_eq_some] at h
    obtain ⟨a, ha, rfl⟩ := SigningState.onLogin_eq h.2
    exact runFrom_update ha id
  | returned => exact SigningState.restarted_logins h id
  | createAccount form =>
    simp only [signing] at h
    split at h
    case h_2 => cases h
    case h_1 =>
      obtain ⟨a, -, rfl⟩ := SigningState.onRegister_eq h
      rfl
  | accountCreated id' call user =>
    obtain ⟨r, hr, rfl⟩ := Option.map_eq_some_iff.mp h
    obtain ⟨a, -, rfl⟩ := SigningState.onRegister_eq hr
    split <;> rfl
  | registerStopped id' =>
    simp only [signing, Option.ite_none_right_eq_some] at h
    obtain ⟨a, -, rfl⟩ := SigningState.onRegister_eq h.2
    rfl

/-- Each registration runs as `registration`. -/
theorem register_step (h : (signing currentUser).step s e = some t) (id : ℕ) :
    registration.runFrom (s.registers id) (registerEvents id s e) = some (t.registers id) := by
  cases e with
  | nav e =>
    have hnavigate : s.navigate e = some t := h
    rw [registerEvents, hnavigate, Option.any_some]
    exact runFrom_restart (SigningState.navigate_screens hnavigate id).2
  | createAccount form =>
    simp only [signing] at h
    split at h
    case h_2 => cases h
    case h_1 id' rest hs =>
      obtain ⟨a, ha, rfl⟩ := SigningState.onRegister_eq h
      have hupdate := runFrom_update ha id
      simpa [registerEvents, hs] using hupdate
  | accountCreated id' call user =>
    obtain ⟨r, hr, rfl⟩ := Option.map_eq_some_iff.mp h
    obtain ⟨a, ha, rfl⟩ := SigningState.onRegister_eq hr
    rw [registerEvents, runFrom_update ha id]
    split <;> rfl
  | registerStopped id' =>
    simp only [signing, Option.ite_none_right_eq_some] at h
    obtain ⟨a, ha, rfl⟩ := SigningState.onRegister_eq h.2
    exact runFrom_update ha id
  | returned => exact SigningState.restarted_registers h id
  | signIn form =>
    simp only [signing] at h
    split at h
    case h_2 => cases h
    case h_1 =>
      obtain ⟨a, -, rfl⟩ := SigningState.onLogin_eq h
      rfl
  | signedIn id' call user =>
    obtain ⟨r, hr, rfl⟩ := Option.map_eq_some_iff.mp h
    obtain ⟨a, -, rfl⟩ := SigningState.onLogin_eq hr
    split <;> rfl
  | loginStopped id' =>
    simp only [signing, Option.ite_none_right_eq_some] at h
    obtain ⟨a, -, rfl⟩ := SigningState.onLogin_eq h.2
    rfl

end Screens

/-- Each login screen of a run has had a run of `login`, and each registration one of
`registration`. -/
theorem screens_run {currentUser : Option String} {es : List SigningEvent} {s : SigningState}
    (h : (signing currentUser).run es = some s) (id : ℕ) :
    login.run ((signing currentUser).emitted (loginEvents id) es) = some (s.logins id) ∧
      registration.run ((signing currentUser).emitted (registerEvents id) es) =
        some (s.registers id) :=
  ⟨run_component (fun s : SigningState => s.logins id) (loginEvents id) rfl
      (fun _ _ _ ht => login_step ht id) h,
    run_component (fun s : SigningState => s.registers id) (registerEvents id) rfl
      (fun _ _ _ ht => register_step ht id) h⟩

/-! ### The screens of the task can be restarted -/

section Calling

variable {α φ : Type*} {a : CallingActivity α φ} {s t : CallingState α} {es : List (CallingEvent φ)}

theorem runFrom_init (hes : ∀ e ∈ es, (∀ form, e ≠ .press form) ∧ e ≠ .stop)
    (h : (callingActivity a).runFrom (callingActivity a).init es = some t) :
    t = (callingActivity a).init := by
  cases es with
  | nil => exact (Option.some.inj h).symm
  | cons e es =>
    obtain ⟨x, hx, -⟩ := Option.bind_eq_some_iff.mp h
    obtain ⟨hpress, hstop⟩ := hes e List.mem_cons_self
    rcases step_init hx with ⟨form, rfl⟩ | rfl
    · exact absurd rfl (hpress form)
    · exact absurd rfl hstop

theorem finishing_runFrom (hes : ∀ e ∈ es, e.finishes = false) (hs : s.finishing = false)
    (h : (callingActivity a).runFrom s es = some t) : t.finishing = false := by
  refine runFrom_invariant (S := callingActivity a) (I := fun s => s.finishing = false)
    (C := fun e => e.finishes = false) ?_ hes hs h
  intro s e t he hs ht
  rw [finishing_step ht, hs, he]
  rfl

end Calling

/-- The screens still to be started are new, and those of the task are not finishing. -/
structure SigningState.Restartable (s : SigningState) : Prop where
  newLogin : ∀ id, s.next ≤ id → s.logins id = login.init
  newRegister : ∀ id, s.next ≤ id → s.registers id = registration.init
  login : ∀ id, .login id ∈ s.task → (s.logins id).finishing = false
  register : ∀ id, .register id ∈ s.task → (s.registers id).finishing = false

theorem mem_ids {task : List ActivityRecord} {record : ActivityRecord} {id : ℕ}
    (hmem : record ∈ task) (hid : record.id? = some id) : id ∈ ids task :=
  List.mem_filterMap.mpr ⟨record, hmem, hid⟩

/-- A screen with a number of its own is gone once it is taken from the task. -/
theorem not_mem_erase {task : List ActivityRecord} {record : ActivityRecord} {id : ℕ}
    (h : (ids task).Nodup) (hid : record.id? = some id) : record ∉ task.erase record := by
  by_cases hmem : record ∈ task
  · have hperm := (List.perm_cons_erase hmem).filterMap ActivityRecord.id?
    have hnodup := hperm.nodup_iff.mp h
    rw [List.filterMap_cons_some hid, List.nodup_cons] at hnodup
    exact fun hrest => hnodup.1 (mem_ids hrest hid)
  · exact fun hrest => hmem (List.mem_of_mem_erase hrest)

/-- A screen of the task was there before, or is the new one. -/
theorem mem_taskMove {s t : SigningState} {e : SigningEvent} (h : TaskMove s e t.task t.next)
    {record : ActivityRecord} {id : ℕ} (hmem : record ∈ t.task) (hid : record.id? = some id) :
    record ∈ s.task ∨ id = s.next := by
  have hne (a : MainActivity) : record ≠ .main a := by
    rintro rfl
    cases hid
  generalize t.task = task at h hmem
  generalize t.next = next at h
  cases h with
  | same => exact .inl hmem
  | launched => exact absurd (List.mem_singleton.mp hmem) (hne _)
  | tapped =>
    refine .inl ((clearTopRecords_suffix s.task).subset ?_)
    exact (List.mem_cons.mp hmem).resolve_left (hne _)
  | left e htask hleaves =>
    rw [htask]
    rcases List.mem_append.mp hmem with hleft | hrest
    · cases hleaves with
      | nothing => cases hleft
      | main front m hm => exact absurd (List.mem_singleton.mp hleft) (hne _)
      | help =>
        obtain rfl := List.mem_singleton.mp hleft
        cases hid
      | login =>
        obtain rfl := List.mem_singleton.mp hleft
        exact .inr (Option.some.inj hid).symm
      | register front =>
        rcases List.mem_cons.mp hleft with rfl | hsame
        · exact .inr (Option.some.inj hid).symm
        · exact .inl (List.mem_singleton.mp hsame ▸ List.mem_cons_self)
    · exact .inl (List.mem_cons_of_mem _ hrest)
  | signedIn =>
    exact .inl (List.mem_of_mem_erase ((List.mem_cons.mp hmem).resolve_left (hne _)))
  | accountCreated =>
    rcases List.mem_cons.mp hmem with rfl | hold
    · exact .inr (Option.some.inj hid).symm
    · exact .inl (List.mem_of_mem_erase hold)

section Restartable

variable {currentUser : Option String} {s t : SigningState} {e : SigningEvent} {id : ℕ}

/-- Neither a press nor a stop comes to a screen that is still to be started. -/
theorem loginEvents_new (hs : s.Numbered) (h : (signing currentUser).step s e = some t)
    (hid : s.next ≤ id) :
    ∀ f ∈ loginEvents id s e, (∀ form, f ≠ .press form) ∧ f ≠ .stop := by
  intro f hf
  cases e with
  | nav | returned =>
    obtain ⟨-, hf⟩ := List.mem_ite_nil_right.mp hf
    obtain rfl := List.mem_singleton.mp hf
    simp
  | signIn form =>
    obtain ⟨hfront, -⟩ := List.mem_ite_nil_right.mp hf
    have hlt := hs.old id (mem_ids (List.mem_of_mem_head? hfront) rfl)
    omega
  | signedIn =>
    obtain ⟨-, hf⟩ := List.mem_ite_nil_right.mp hf
    obtain rfl := List.mem_singleton.mp hf
    simp
  | loginStopped id' =>
    obtain ⟨rfl, -⟩ := List.mem_ite_nil_right.mp hf
    simp only [signing, Option.ite_none_right_eq_some] at h
    omega
  | _ => cases hf

theorem registerEvents_new (hs : s.Numbered) (h : (signing currentUser).step s e = some t)
    (hid : s.next ≤ id) :
    ∀ f ∈ registerEvents id s e, (∀ form, f ≠ .press form) ∧ f ≠ .stop := by
  intro f hf
  cases e with
  | nav | returned =>
    obtain ⟨-, hf⟩ := List.mem_ite_nil_right.mp hf
    obtain rfl := List.mem_singleton.mp hf
    simp
  | createAccount form =>
    obtain ⟨hfront, -⟩ := List.mem_ite_nil_right.mp hf
    have hlt := hs.old id (mem_ids (List.mem_of_mem_head? hfront) rfl)
    omega
  | accountCreated =>
    obtain ⟨-, hf⟩ := List.mem_ite_nil_right.mp hf
    obtain rfl := List.mem_singleton.mp hf
    simp
  | registerStopped id' =>
    obtain ⟨rfl, -⟩ := List.mem_ite_nil_right.mp hf
    simp only [signing, Option.ite_none_right_eq_some] at h
    omega
  | _ => cases hf

/-- A success that finishes a screen takes it from the task. -/
theorem loginEvents_kept (hs : s.Numbered) (h : TaskMove s e t.task t.next)
    (hmem : .login id ∈ t.task) : ∀ f ∈ loginEvents id s e, f.finishes = false := by
  intro f hf
  cases e with
  | signedIn id' call user =>
    obtain ⟨rfl, hcompleted⟩ := List.mem_ite_nil_right.mp hf
    obtain rfl := List.mem_singleton.mp hcompleted
    generalize t.task = task at h hmem
    generalize t.next = next at h
    cases h with
    | same _ he => exact he
    | signedIn =>
      have herase := (List.mem_cons.mp hmem).resolve_left (by simp)
      exact absurd herase (not_mem_erase hs.nodup rfl)
  | nav | signIn | loginStopped | returned =>
    obtain ⟨-, hf⟩ := List.mem_ite_nil_right.mp hf
    obtain rfl := List.mem_singleton.mp hf
    rfl
  | _ => cases hf

theorem registerEvents_kept (hs : s.Numbered) (h : TaskMove s e t.task t.next)
    (hmem : .register id ∈ t.task) : ∀ f ∈ registerEvents id s e, f.finishes = false := by
  intro f hf
  cases e with
  | accountCreated id' call user =>
    obtain ⟨rfl, hcompleted⟩ := List.mem_ite_nil_right.mp hf
    obtain rfl := List.mem_singleton.mp hcompleted
    generalize t.task = task at h hmem
    generalize t.next = next at h
    cases h with
    | same _ he => exact he
    | accountCreated =>
      have herase := (List.mem_cons.mp hmem).resolve_left (by simp)
      exact absurd herase (not_mem_erase hs.nodup rfl)
  | nav | createAccount | registerStopped | returned =>
    obtain ⟨-, hf⟩ := List.mem_ite_nil_right.mp hf
    obtain rfl := List.mem_singleton.mp hf
    rfl
  | _ => cases hf

theorem restartable_step (hs : s.Restartable) (hnumbered : s.Numbered)
    (hmove : TaskMove s e t.task t.next) (h : (signing currentUser).step s e = some t) :
    t.Restartable := by
  have hnext : s.next ≤ t.next := by
    rcases ids_taskMove hmove with ⟨-, hnext⟩ | ⟨-, -, -, hnext⟩ <;> omega
  have hlogin (id : ℕ) (hid : s.next ≤ id) : t.logins id = login.init := by
    have hrun := login_step h id
    rw [hs.newLogin id hid] at hrun
    exact runFrom_init (loginEvents_new hnumbered h hid) hrun
  have hregister (id : ℕ) (hid : s.next ≤ id) : t.registers id = registration.init := by
    have hrun := register_step h id
    rw [hs.newRegister id hid] at hrun
    exact runFrom_init (registerEvents_new hnumbered h hid) hrun
  refine ⟨fun id hid => hlogin id (hnext.trans hid), fun id hid => hregister id (hnext.trans hid),
    fun id hmem => ?_, fun id hmem => ?_⟩
  · rcases mem_taskMove hmove hmem rfl with hold | rfl
    · exact finishing_runFrom (loginEvents_kept hnumbered hmove hmem) (hs.login id hold)
        (login_step h id)
    · rw [hlogin s.next le_rfl]
      rfl
  · rcases mem_taskMove hmove hmem rfl with hold | rfl
    · exact finishing_runFrom (registerEvents_kept hnumbered hmove hmem) (hs.register id hold)
        (register_step h id)
    · rw [hregister s.next le_rfl]
      rfl

theorem restartable_run {es : List SigningEvent} (h : (signing currentUser).run es = some s) :
    s.Restartable := by
  refine run_induction (S := signing currentUser) (I := fun _ s => s.Restartable) ?_ ?_ h
  · constructor <;> simp [signing]
  · intro es s e t hrun hs ht
    exact restartable_step hs (numbered_run hrun) (taskMove_step (grounded_run hrun) ht) ht

end Restartable

/-! ### The app without its calls -/

/-- The app as `navigation` sees it. -/
def SigningState.app (s : SigningState) : AppState where
  task := s.task.map ActivityRecord.activity
  currentUser := s.currentUser
  notification := s.notification

/-- What a step is to `navigation`, to which a Back that is swallowed is nothing. -/
def navEvents (s : SigningState) : SigningEvent → List NavEvent
  | .nav e => if e = .back ∧ s.task.head?.any s.hasDialog then [] else [e]
  | .signedIn _ call (some user) =>
    if call.listening then [.signedIn (some user)] else [.unheardSuccess user]
  | .accountCreated _ call (some user) =>
    if call.listening then [.accountCreated (some user)] else [.unheardSuccess user]
  | _ => []

/-- A success that is heard is heard by the screen in front. -/
def InTime (_ : List SigningEvent) (s : SigningState) : SigningEvent → Prop
  | .signedIn id call user =>
    call.listening = true → user.isSome = true → s.task.head? = some (.login id)
  | .accountCreated id call user =>
    call.listening = true → user.isSome = true → s.task.head? = some (.register id)
  | _ => True

theorem clearTop_map (task : List ActivityRecord) :
    clearTop (task.map ActivityRecord.activity) =
      (clearTopRecords task).map ActivityRecord.activity := by
  have hany : (task.map ActivityRecord.activity).any Activity.isMain =
      task.any ActivityRecord.isMain := by
    rw [List.any_map]
    rfl
  have hdrop : (task.map ActivityRecord.activity).dropWhile (!·.isMain) =
      (task.dropWhile (!·.isMain)).map ActivityRecord.activity := by
    rw [List.dropWhile_map]
    rfl
  rw [clearTop, clearTopRecords, hany, hdrop, ← List.map_tail]
  split <;> rfl

section Navigating

variable {currentUser : Option String} {s t : SigningState}

theorem app_navigate {e : NavEvent} (h : s.navigate e = some t) :
    (navigation currentUser).runFrom s.app (navEvents s (.nav e)) = some t.app := by
  by_cases he : e.IsHandled
  · obtain ⟨front, rest, hs, -, hsignedIn, hcreated, hmove⟩ := SigningState.navigate_handled he h
    rcases hmove with ⟨rfl, hdialog, rfl⟩ | ⟨hdialog, activities, hactivities, rfl⟩
    · rw [navEvents, if_pos ⟨rfl, by simpa [hs] using hdialog⟩, runFrom_nil]
    · have huser : e.user = none := by
        cases e with
        | signedIn user => exact absurd rfl (hsignedIn user)
        | accountCreated user => exact absurd rfl (hcreated user)
        | unheardSuccess user => exact absurd rfl (he.2.2.2 user)
        | _ => rfl
      have happ : s.app.task = front.activity :: rest.map ActivityRecord.activity := by
        rw [SigningState.app, hs, List.map_cons]
      obtain ⟨htask, -, huser', hnotification⟩ := SigningState.resumed_fields { s with
        task := activities.map (front.leaves s.next) ++ rest
        next := s.next + 1 }
      rw [navEvents, if_neg (by simpa [hs] using hdialog), runFrom_cons,
        navigation_step he happ, hactivities]
      simp [SigningState.app, htask, huser', hnotification, huser, Function.comp_def]
  · cases e with
    | launch =>
      simp only [SigningState.navigate, Option.ite_none_right_eq_some, Option.some.injEq] at h
      obtain ⟨hnil, rfl⟩ := h
      simp [navEvents, navigation, SigningState.app, hnil, ActivityRecord.activity]
    | messageReceived =>
      obtain rfl := Option.some.inj h
      simp [navEvents, navigation, SigningState.app]
    | notificationTap =>
      simp only [SigningState.navigate, Option.ite_none_right_eq_some, Option.some.injEq] at h
      obtain ⟨hnotification, rfl⟩ := h
      simp [navEvents, navigation, SigningState.app, hnotification, clearTop_map,
        ActivityRecord.activity]
    | unheardSuccess user => cases h
    | _ => exact absurd (by simp [NavEvent.IsHandled]) he

theorem app_onLogin {id : ℕ} {f : CallingEvent LoginForm} (h : s.onLogin id f = some t) :
    t.app = s.app := by
  obtain ⟨a, -, rfl⟩ := SigningState.onLogin_eq h
  rfl

theorem app_onRegister {id : ℕ} {f : CallingEvent RegisterForm} (h : s.onRegister id f = some t) :
    t.app = s.app := by
  obtain ⟨a, -, rfl⟩ := SigningState.onRegister_eq h
  rfl

theorem app_signedIn {id : ℕ} {call : OutstandingCall} {user : Option String}
    {es : List SigningEvent} (hC : InTime es s (.signedIn id call user))
    (h : (signing currentUser).step s (.signedIn id call user) = some t) :
    (navigation currentUser).runFrom s.app (navEvents s (.signedIn id call user)) =
      some t.app := by
  obtain ⟨r, hr, rfl⟩ := Option.map_eq_some_iff.mp h
  obtain ⟨a, -, rfl⟩ := SigningState.onLogin_eq hr
  cases user with
  | none => simp [navEvents, SigningState.app]
  | some user =>
    by_cases hcall : call.listening = true
    · obtain ⟨rest, hs⟩ := List.head?_eq_some_iff.mp (hC hcall rfl)
      simp [navEvents, hcall, SigningState.app, hs, navigation, ActivityRecord.activity,
        Activity.handle, LoginActivity.handle, NavEvent.user]
    · simp [navEvents, hcall, SigningState.app, navigation]

theorem app_accountCreated {id : ℕ} {call : OutstandingCall} {user : Option String}
    {es : List SigningEvent} (hC : InTime es s (.accountCreated id call user))
    (h : (signing currentUser).step s (.accountCreated id call user) = some t) :
    (navigation currentUser).runFrom s.app (navEvents s (.accountCreated id call user)) =
      some t.app := by
  obtain ⟨r, hr, rfl⟩ := Option.map_eq_some_iff.mp h
  obtain ⟨a, -, rfl⟩ := SigningState.onRegister_eq hr
  cases user with
  | none => simp [navEvents, SigningState.app]
  | some user =>
    by_cases hcall : call.listening = true
    · obtain ⟨rest, hs⟩ := List.head?_eq_some_iff.mp (hC hcall rfl)
      simp [navEvents, hcall, SigningState.app, hs, navigation, ActivityRecord.activity,
        Activity.handle, RegisterActivity.handle, NavEvent.user]
    · simp [navEvents, hcall, SigningState.app, navigation]

theorem app_step {es : List SigningEvent} {e : SigningEvent} (hC : InTime es s e)
    (h : (signing currentUser).step s e = some t) :
    (navigation currentUser).runFrom s.app (navEvents s e) = some t.app := by
  have hsame (hnone : navEvents s e = []) (happ : t.app = s.app) :
      (navigation currentUser).runFrom s.app (navEvents s e) = some t.app := by
    rw [hnone, happ]
    rfl
  cases e with
  | nav e => exact app_navigate h
  | signIn form =>
    simp only [signing] at h
    split at h
    · exact hsame rfl (app_onLogin h)
    · cases h
  | createAccount form =>
    simp only [signing] at h
    split at h
    · exact hsame rfl (app_onRegister h)
    · cases h
  | signedIn id call user => exact app_signedIn hC h
  | accountCreated id call user => exact app_accountCreated hC h
  | loginStopped id =>
    simp only [signing, Option.ite_none_right_eq_some] at h
    exact hsame rfl (app_onLogin h.2)
  | registerStopped id =>
    simp only [signing, Option.ite_none_right_eq_some] at h
    exact hsame rfl (app_onRegister h.2)
  | returned =>
    obtain ⟨htask, -, huser, hnotification⟩ := SigningState.restarted_fields h
    refine hsame rfl ?_
    rw [SigningState.app, htask, huser, hnotification]
    rfl

end Navigating

/-- As long as every success that is heard is heard by the screen in front, the app runs as in
`navigation`. -/
theorem navigation_of_inTime {currentUser : Option String} {es : List SigningEvent}
    {s : SigningState} (hC : (signing currentUser).EachStep InTime es)
    (h : (signing currentUser).run es = some s) :
    (navigation currentUser).run ((signing currentUser).emitted navEvents es) = some s.app := by
  refine run_induction_of_eachStep (S := signing currentUser)
    (I := fun es s =>
      (navigation currentUser).run ((signing currentUser).emitted navEvents es) = some s.app)
    rfl ?_ hC h
  intro es s e t hrun hs hstep ht
  rw [emitted_snoc navEvents hrun ht, run, runFrom_append]
  exact Option.bind_eq_some_iff.mpr ⟨s.app, hs, app_step hstep ht⟩

end SewaConnect.Android
