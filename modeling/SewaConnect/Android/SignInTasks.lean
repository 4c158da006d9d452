import SewaConnect.Android.SignInScreens

/-! What the calls under way do to the task. A success that is heard by a screen which is
covered or finishing starts one more activity over the others (`taskShape_iff`), and a
login screen swallows Back while one of its dialogs is showing (`leavesUnlessDialog`). -/

namespace SewaConnect.Android

open Runs Runs.System MainActivity

/-! ### The shape of the task -/

/-- Only the activity in front can be a `MainActivity`. -/
def MainInFront (_ : List SigningEvent) (s : SigningState) : Prop :=
  ∀ record ∈ s.task.tail, record.isMain = false

/-- A success that is heard finds no `MainActivity` in front. -/
def NotOverMain (_ : List SigningEvent) (s : SigningState) (e : SigningEvent) : Prop :=
  e.heard = true → ∀ a, s.task.head? ≠ some (.main a)

/-- Every registration stands directly on a login screen. -/
def RegistersStand (_ : List SigningEvent) (s : SigningState) : Prop :=
  ∀ above id below, s.task = above ++ .register id :: below →
    ∃ login, below.head? = some (.login login)

/-- No login screen on which a registration stands hears of a success, unless it stands on
another login screen itself. -/
def NotUnderRegister (_ : List SigningEvent) (s : SigningState) : SigningEvent → Prop
  | .signedIn id call user => call.listening = true → user.isSome = true →
    ∀ above register below, s.task = above ++ .register register :: .login id :: below →
      ∃ login, below.head? = some (.login login)
  | _ => True

theorem isMain_clearTopRecords {task : List ActivityRecord}
    (h : ∀ record ∈ task.tail, record.isMain = false) :
    ∀ record ∈ clearTopRecords task, record.isMain = false := by
  cases task with
  | nil => simp [clearTopRecords]
  | cons front rest =>
    by_cases hfront : front.isMain
    · have hclear : clearTopRecords (front :: rest) = rest := by simp [clearTopRecords, hfront]
      rw [hclear]
      exact h
    · have hnone : ∀ record ∈ front :: rest, record.isMain = false :=
        List.forall_mem_cons.mpr ⟨by simpa using hfront, h⟩
      rw [clearTopRecords, if_neg (by simpa using hnone)]
      exact hnone

/-- A screen that leaves the task leaves no `MainActivity` behind just when none is in
front. -/
theorem isMain_erase_iff {task : List ActivityRecord} {screen : ActivityRecord}
    (h : ∀ record ∈ task.tail, record.isMain = false) (hscreen : screen.isMain = false) :
    (∀ record ∈ task.erase screen, record.isMain = false) ↔
      ∀ a, task.head? ≠ some (.main a) := by
  constructor
  · intro hnone a hhead
    have hmem : .main a ∈ task.erase screen := by
      rw [List.mem_erase_of_ne]
      · exact List.mem_of_mem_head? hhead
      · rintro rfl
        cases hscreen
    have hmain := hnone _ hmem
    cases hmain
  · intro hhead record hmem
    cases task with
    | nil => cases hmem
    | cons front rest =>
      rcases List.mem_cons.mp (List.mem_of_mem_erase hmem) with rfl | hrest
      · cases record with
        | main a => exact absurd rfl (hhead a)
        | _ => rfl
      · exact h record hrest

theorem mainInFront_step {s t : SigningState} {e : SigningEvent} (es : List SigningEvent)
    (hs : MainInFront es s) (h : TaskMove s e t.task t.next) :
    MainInFront (es ++ [e]) t ↔ NotOverMain es s e := by
  unfold MainInFront NotOverMain
  generalize t.task = task at h ⊢
  generalize t.next = next at h
  cases h with
  | same e he => exact iff_of_true hs (by simp [he])
  | launched => simp [SigningEvent.heard]
  | tapped => exact iff_of_true (isMain_clearTopRecords hs) (by simp [SigningEvent.heard])
  | left e htask hleaves =>
    refine iff_of_true ?_ (by simp [SigningEvent.heard])
    rw [MainInFront, htask] at hs
    cases hleaves with
    | nothing => exact fun record hmem => hs record (List.mem_of_mem_tail hmem)
    | register id => exact List.forall_mem_cons.mpr ⟨rfl, hs⟩
    | _ => exact hs
  | signedIn id call user hcall =>
    rw [List.tail_cons, isMain_erase_iff hs rfl]
    simp [SigningEvent.heard, hcall]
  | accountCreated id call user hcall =>
    rw [List.tail_cons, isMain_erase_iff hs rfl]
    simp [SigningEvent.heard, hcall]

/-- `RegistersStand` by recursion on the task. -/
def Standing : List ActivityRecord → Prop
  | [] => True
  | record :: rest =>
    (∀ id, record = .register id → ∃ login, rest.head? = some (.login login)) ∧ Standing rest

theorem standing_iff {task : List ActivityRecord} :
    Standing task ↔ ∀ above id below, task = above ++ .register id :: below →
      ∃ login, below.head? = some (.login login) := by
  induction task with
  | nil => simp [Standing]
  | cons record rest ih =>
    rw [Standing, ih]
    constructor
    · rintro ⟨hrecord, hrest⟩ above id below htask
      cases above with
      | nil =>
        obtain ⟨rfl, rfl⟩ := List.cons.inj htask
        exact hrecord id rfl
      | cons a above => exact hrest above id below (List.cons.inj htask).2
    · intro h
      refine ⟨fun id hid => h [] id rest (by rw [hid, List.nil_append]), ?_⟩
      exact fun above id below hrest => h (record :: above) id below (by rw [hrest]; rfl)

theorem standing_of_suffix {task below : List ActivityRecord} (h : Standing task)
    (hbelow : below <:+ task) : Standing below := by
  obtain ⟨above, rfl⟩ := hbelow
  rw [standing_iff] at h ⊢
  intro above' id below' heq
  exact h (above ++ above') id below' (by rw [heq, List.append_assoc])

/-- A registration that leaves the task has none on it. -/
theorem standing_erase_register {task : List ActivityRecord} (h : Standing task) (id : ℕ) :
    Standing (task.erase (.register id)) := by
  induction task with
  | nil => trivial
  | cons record rest ih =>
    obtain ⟨hrecord, hrest⟩ := h
    by_cases hsame : record = .register id
    · rw [hsame, List.erase_cons_head]
      exact hrest
    · rw [List.erase_cons_tail (by simpa using hsame)]
      refine ⟨fun id' hid' => ?_, ih hrest⟩
      obtain ⟨login, hlogin⟩ := hrecord id' hid'
      obtain ⟨below, rfl⟩ := List.head?_eq_some_iff.mp hlogin
      rw [List.erase_cons_tail (by simp)]
      exact ⟨login, rfl⟩

theorem standing_erase_login {task : List ActivityRecord} {id : ℕ} (h : Standing task)
    (hbelow : ∀ above register below, task = above ++ .register register :: .login id :: below →
      ∃ login, below.head? = some (.login login)) : Standing (task.erase (.login id)) := by
  induction task with
  | nil => trivial
  | cons record rest ih =>
    obtain ⟨hrecord, hrest⟩ := h
    by_cases hsame : record = .login id
    · rw [hsame, List.erase_cons_head]
      exact hrest
    · rw [List.erase_cons_tail (by simpa using hsame)]
      refine ⟨fun register hregister => ?_, ih hrest fun above register below heq =>
        hbelow (record :: above) register below (by rw [heq]; rfl)⟩
      obtain ⟨login, hlogin⟩ := hrecord register hregister
      obtain ⟨below, rfl⟩ := List.head?_eq_some_iff.mp hlogin
      by_cases hid : login = id
      · subst hid
        rw [List.erase_cons_head]
        exact hbelow [] register below (by rw [hregister]; rfl)
      · rw [List.erase_cons_tail (by simpa using hid)]
        exact ⟨login, rfl⟩

theorem erase_login {above below : List ActivityRecord} {register id : ℕ}
    (h : (ids (above ++ .register register :: .login id :: below)).Nodup) :
    (above ++ .register register :: .login id :: below).erase (.login id) =
      above ++ .register register :: below := by
  have hnew : .login id ∉ above := by
    intro hmem
    have hid : id ∈ above.filterMap ActivityRecord.id? := List.mem_filterMap.mpr ⟨_, hmem, rfl⟩
    rw [ids, List.filterMap_append, List.nodup_append] at h
    exact h.2.2 id hid id (by simp [ActivityRecord.id?]) rfl
  rw [List.erase_append_right _ hnew, List.erase_cons_tail (by simp), List.erase_cons_head]

theorem registersStand_step {s t : SigningState} {e : SigningEvent} (es : List SigningEvent)
    (hnumbered : s.Numbered) (hs : RegistersStand es s) (h : TaskMove s e t.task t.next) :
    RegistersStand (es ++ [e]) t ↔ NotUnderRegister es s e := by
  have hstanding : Standing s.task := standing_iff.mpr hs
  rw [RegistersStand, ← standing_iff]
  generalize t.task = task at h ⊢
  generalize t.next = next at h
  cases h with
  | same e he =>
    refine iff_of_true hstanding ?_
    cases e with
    | signedIn id call user =>
      intro hcall huser
      simp [SigningEvent.heard, hcall, huser] at he
    | _ => trivial
  | launched => exact iff_of_true ⟨by simp, trivial⟩ trivial
  | tapped =>
    have hcleared := standing_of_suffix hstanding (clearTopRecords_suffix s.task)
    exact iff_of_true ⟨by simp, hcleared⟩ trivial
  | left e htask hleaves =>
    refine iff_of_true ?_ trivial
    rw [htask] at hstanding
    cases hleaves with
    | nothing => exact hstanding.2
    | register id => exact ⟨fun _ _ => ⟨id, rfl⟩, hstanding⟩
    | _ => exact ⟨by simp, hstanding.2⟩
  | signedIn id call user hcall =>
    constructor
    · intro ht _ _ above register below htask
      have hnodup := hnumbered.nodup
      rw [htask] at ht hnodup
      rw [erase_login hnodup, standing_iff] at ht
      exact ht (.main {} :: above) register below rfl
    · intro hbelow
      exact ⟨by simp, standing_erase_login hstanding (hbelow hcall rfl)⟩
  | accountCreated id call user hcall =>
    exact iff_of_true ⟨by simp, standing_erase_register hstanding id⟩ trivial

section Runs

variable {currentUser : Option String} {es : List SigningEvent} {s : SigningState}

theorem eachState_mainInFront_iff (h : (signing currentUser).run es = some s) :
    (signing currentUser).EachState MainInFront es ↔
      (signing currentUser).EachStep NotOverMain es := by
  refine eachState_iff_eachStep (by simp [MainInFront, signing]) ?_ h
  intro es s e t hrun _ hs ht
  exact mainInFront_step es hs (taskMove_step (grounded_run hrun) ht)

theorem eachState_registersStand_iff (h : (signing currentUser).run es = some s) :
    (signing currentUser).EachState RegistersStand es ↔
      (signing currentUser).EachStep NotUnderRegister es := by
  have hinit : Standing [.main {}] := ⟨by simp, trivial⟩
  refine eachState_iff_eachStep (standing_iff.mp hinit) ?_ h
  intro es s e t hrun _ hs ht
  exact registersStand_step es (numbered_run hrun) hs (taskMove_step (grounded_run hrun) ht)

theorem notOverMain_of_inTime {e : SigningEvent} (h : InTime es s e) :
    NotOverMain es s e := by
  intro hheard a ha
  cases e with
  | signedIn id call user | accountCreated id call user =>
    obtain ⟨hcall, huser⟩ := Bool.and_eq_true_iff.mp hheard
    rw [h hcall huser] at ha
    cases ha
  | _ => cases hheard

theorem notUnderRegister_of_inTime {e : SigningEvent} (hs : s.Numbered) (h : InTime es s e) :
    NotUnderRegister es s e := by
  cases e with
  | signedIn id call user =>
    intro hcall huser above register below htask
    have hfront := h hcall huser
    have hnodup := hs.nodup
    rw [htask] at hfront hnodup
    cases above with
    | nil => cases hfront
    | cons front above =>
      obtain rfl := Option.some.inj hfront
      have hfirst : ActivityRecord.id? (.login id) = some id := rfl
      rw [ids, List.cons_append, List.filterMap_cons_some hfirst, List.nodup_cons] at hnodup
      exact absurd (mem_ids (by simp) hfirst) hnodup.1
  | _ => trivial

/-- As long as every success that is heard is heard by the screen in front, only that one can
be a `MainActivity`, and every registration stands on a login screen. -/
theorem shape_of_inTime (hC : (signing currentUser).EachStep InTime es)
    (h : (signing currentUser).run es = some s) :
    (signing currentUser).EachState MainInFront es ∧
      (signing currentUser).EachState RegistersStand es := by
  constructor
  · refine (eachState_mainInFront_iff h).mpr (hC.mono fun es s e _ => notOverMain_of_inTime)
  · refine (eachState_registersStand_iff h).mpr (hC.mono fun es s e hrun => ?_)
    exact notUnderRegister_of_inTime (numbered_run hrun)

end Runs

/-- In every run only the activity in front can be a `MainActivity`, at each moment, just when
no success comes to a screen that a `MainActivity` covers; every registration stands on a login
screen just when none is taken from under one; and in any case every `MainActivity` of the task
holds distinct fragments, the lowest of them a Home. -/
theorem taskShape_iff {currentUser : Option String} {es : List SigningEvent} {s : SigningState}
    (h : (signing currentUser).run es = some s) :
    ((signing currentUser).EachState MainInFront es ↔
        (signing currentUser).EachStep NotOverMain es) ∧
      ((signing currentUser).EachState RegistersStand es ↔
        (signing currentUser).EachStep NotUnderRegister es) ∧
      ∀ a, .main a ∈ s.task → (a.fragmentContainer.map Fragment.id).Nodup ∧
        a.fragmentContainer.getLast?.map Fragment.class = some .home := by
  refine ⟨eachState_mainInFront_iff h, eachState_registersStand_iff h, fun a ha => ?_⟩
  have hgrounded := grounded_run h a ha
  exact ⟨nodup_of_grounded hgrounded, hgrounded.home⟩

/-- An account is created from the login screen, and its user signs in, each while the screen
is in front. -/
def createdAndSignedIn : List SigningEvent :=
  [.nav .openDrawer, .nav (.navItem .signout), .nav .signUp, .createAccount asha,
    .accountCreated 2 ⟨0, true⟩ (some "asha"), .signIn ⟨"asha@mail", "secret"⟩,
    .signedIn 3 ⟨0, true⟩ (some "asha")]

theorem createdAndSignedIn_inTime : (signing none).EachStep InTime createdAndSignedIn :=
  EachStepFrom.eachStep ⟨trivial, trivial, trivial, trivial, fun _ _ => rfl, trivial,
    fun _ _ => rfl, trivial⟩

/-- Two sign-ins are outstanding at once, and both succeed before the screen stops. -/
def signedInTwice : List SigningEvent :=
  [.nav .openDrawer, .nav (.navItem .signout), .signIn ⟨"asha@mail", "secret"⟩,
    .signIn ⟨"asha@mail", "secret"⟩, .signedIn 1 ⟨0, true⟩ (some "asha"),
    .signedIn 1 ⟨1, true⟩ (some "asha")]

theorem taskShape_iff_createdAndSignedIn :
    (∃ s, (signing none).run createdAndSignedIn = some s ∧ s.task = [.main {}, .login 1] ∧
      (signing none).EachState MainInFront createdAndSignedIn ∧
      (signing none).EachState RegistersStand createdAndSignedIn) ∧
    ∃ s, (signing none).run signedInTwice = some s ∧ s.task = [.main {}, .main {}] ∧
      ¬ (signing none).EachStep NotOverMain signedInTwice := by
  constructor
  · obtain ⟨s, hs⟩ : ∃ s, (signing none).run createdAndSignedIn = some s := ⟨_, rfl⟩
    obtain ⟨hmain, hregisters, -⟩ := taskShape_iff hs
    have hfront := hmain.mpr (createdAndSignedIn_inTime.mono fun es s e _ => notOverMain_of_inTime)
    have hstand := hregisters.mpr (createdAndSignedIn_inTime.mono fun es s e hrun =>
      notUnderRegister_of_inTime (numbered_run hrun))
    obtain rfl := Option.some.inj hs
    exact ⟨_, rfl, rfl, hfront, hstand⟩
  · obtain ⟨s, hs⟩ : ∃ s, (signing none).run signedInTwice = some s := ⟨_, rfl⟩
    have htask : s.task = [.main {}, .main {}] := by
      obtain rfl := Option.some.inj hs
      rfl
    refine ⟨s, hs, htask, ?_⟩
    rw [← (taskShape_iff hs).1]
    intro hfront
    have hlast := hfront signedInTwice [] s (by simp) hs (.main {})
    rw [htask] at hlast
    exact absurd (hlast (by simp)) (by decide)

/-! ### Leaving the app -/

namespace SigningState

/-- The presses of Back that are answered before a dialog comes to the front. -/
def answered (s : SigningState) : ℕ :=
  backs ((s.task.takeWhile (!s.hasDialog ·)).map ActivityRecord.activity)

/-- The task from the first screen with a dialog on. -/
def held (s : SigningState) : List ActivityRecord := s.task.dropWhile (!s.hasDialog ·)

variable {s : SigningState}

theorem task_eq (s : SigningState) : s.task = s.task.takeWhile (!s.hasDialog ·) ++ s.held :=
  List.takeWhile_append_dropWhile.symm

theorem answered_eq_zero : s.answered = 0 ↔ s.task = s.held := by
  rw [answered, backs_eq_zero, List.map_eq_nil_iff]
  constructor
  · intro hnone
    have htask := s.task_eq
    rwa [hnone, List.nil_append] at htask
  · intro htask
    have hsplit := s.task_eq
    rw [← htask] at hsplit
    exact List.append_left_eq_self.mp hsplit.symm

theorem held_eq_nil : s.held = [] ↔ ∀ record ∈ s.task, s.hasDialog record = false := by
  rw [held, List.dropWhile_eq_nil_iff]
  simp

/-- A restart shows no dialog and takes none away. -/
theorem resumed_hasDialog (s : SigningState) (record : ActivityRecord) :
    s.resumed.hasDialog record = s.hasDialog record := by
  rcases s.resumed_eq with hsame | hrestarted
  · rw [hsame]
  · obtain ⟨id, rest, a, -, ha, heq⟩ | ⟨id, rest, a, -, -, heq⟩ := restarted_eq hrestarted
    · obtain ⟨hactivity, -, -⟩ := callingActivity_step ha
      rw [heq]
      cases record with
      | login id' =>
        by_cases hid : id' = id
        · subst hid
          simp only [hasDialog, Function.update_self, hactivity]
          rfl
        · simp only [hasDialog, Function.update_of_ne hid]
      | _ => rfl
    · rw [heq]
      cases record <;> rfl

/-- The activity in front has been restarted. -/
theorem foreground_resumed
    (hlogin : ∀ id, .login id ∈ s.task → (s.logins id).finishing = false)
    (hregister : ∀ id, .register id ∈ s.task → (s.registers id).finishing = false) :
    s.resumed.foreground = true := by
  cases hs : s.task with
  | nil => simp [resumed, restarted, foreground, hs]
  | cons front rest =>
    cases front with
    | main a => simp [resumed, restarted, foreground, hs]
    | help => simp [resumed, restarted, foreground, hs]
    | login id =>
      have hstarted : ((login.step (s.logins id) .restart).getD (s.logins id)).started = true :=
        started_restart _ (hlogin id (hs ▸ List.mem_cons_self))
      cases hstep : login.step (s.logins id) .restart with
      | none =>
        rw [hstep] at hstarted
        simpa [resumed, restarted, foreground, hs, onLogin, hstep] using hstarted
      | some x =>
        rw [hstep] at hstarted
        simpa [resumed, restarted, foreground, hs, onLogin, hstep] using hstarted
    | register id =>
      have hstarted :
          ((registration.step (s.registers id) .restart).getD (s.registers id)).started = true :=
        started_restart _ (hregister id (hs ▸ List.mem_cons_self))
      cases hstep : registration.step (s.registers id) .restart with
      | none =>
        rw [hstep] at hstarted
        simpa [resumed, restarted, foreground, hs, onRegister, hstep] using hstarted
      | some x =>
        rw [hstep] at hstarted
        simpa [resumed, restarted, foreground, hs, onRegister, hstep] using hstarted

end SigningState

/-- What Back leaves of an activity is an activity that has no dialog. -/
theorem hasDialog_back {s : SigningState} {front : ActivityRecord} {activities : List Activity}
    (hs : s.Restartable) (h : front.activity.handle .back = some activities) :
    ∀ record ∈ activities.map (front.leaves s.next), s.hasDialog record = false := by
  have hnew : s.hasDialog (.login s.next) = false := by
    simp [SigningState.hasDialog, hs.newLogin s.next le_rfl, login, callingActivity]
  intro record hmem
  cases front with
  | main a =>
    obtain rfl : a.onBackPressed = activities := Option.some.inj h
    unfold onBackPressed at hmem
    split_ifs at hmem
    · obtain rfl := List.mem_singleton.mp hmem
      rfl
    · obtain rfl := List.mem_singleton.mp hmem
      rfl
    · cases hmem
  | help =>
    cases h
    obtain rfl := List.mem_singleton.mp hmem
    rfl
  | login id =>
    cases h
    cases hmem
  | register id =>
    cases h
    obtain rfl := List.mem_singleton.mp hmem
    exact hnew

/-- The activity that comes to the front is restarted. -/
theorem foreground_left {s left : SigningState} {e : SigningEvent} (hs : s.Restartable)
    (hlogins : left.logins = s.logins) (hregisters : left.registers = s.registers)
    (hmove : TaskMove s e left.task left.next) : left.resumed.foreground = true := by
  apply SigningState.foreground_resumed
  · intro id hmem
    rw [hlogins]
    rcases mem_taskMove hmove hmem rfl with hold | rfl
    · exact hs.login id hold
    · rw [hs.newLogin s.next le_rfl]
      rfl
  · intro id hmem
    rw [hregisters]
    rcases mem_taskMove hmove hmem rfl with hold | rfl
    · exact hs.register id hold
    · rw [hs.newRegister s.next le_rfl]
      rfl

/-- An activity without a dialog gives way to what Back leaves of it. -/
theorem answered_left {s t : SigningState} {front : ActivityRecord} {rest : List ActivityRecord}
    {activities : List Activity} (hs : s.task = front :: rest)
    (ht : t.task = activities.map (front.leaves s.next) ++ rest)
    (hfront : s.hasDialog front = false)
    (hnone : ∀ record ∈ activities.map (front.leaves s.next), s.hasDialog record = false)
    (hsame : ∀ record, t.hasDialog record = s.hasDialog record) :
    t.answered + front.activity.backs = s.answered + backs activities ∧ t.held = s.held := by
  have hnone' : ∀ record ∈ activities.map (front.leaves s.next), (!s.hasDialog record) = true := by
    intro record hmem
    rw [hnone record hmem]
    rfl
  simp only [SigningState.answered, SigningState.held, hsame, hs, ht]
  rw [List.takeWhile_append_of_pos hnone', List.dropWhile_append_of_pos hnone',
    List.takeWhile_cons_of_pos (by simp [hfront]), List.dropWhile_cons_of_pos (by simp [hfront]),
    List.map_append, front.map_activity_leaves, backs_append, List.map_cons, backs_cons]
  exact ⟨by omega, rfl⟩

/-- A press of Back is swallowed by a dialog in front, or uses up one of the presses that are
answered. -/
theorem back_step {currentUser : Option String} {es : List SigningEvent} {s : SigningState}
    (h : (signing currentUser).run es = some s) (hforeground : s.foreground = true) :
    (s.task = [] ∧ (signing currentUser).step s (.nav .back) = none) ∨
    (s.answered = 0 ∧ s.held ≠ [] ∧ (signing currentUser).step s (.nav .back) = some s) ∨
    ∃ t, (signing currentUser).step s (.nav .back) = some t ∧ t.foreground = true ∧
      t.answered + 1 = s.answered ∧ t.held = s.held ∧ t.currentUser = s.currentUser := by
  cases hs : s.task with
  | nil => exact .inl ⟨rfl, by simp [signing, SigningState.navigate, hs]⟩
  | cons front rest =>
    by_cases hdialog : s.hasDialog front = true
    · refine .inr (.inl ⟨?_, ?_, ?_⟩)
      · rw [SigningState.answered_eq_zero, SigningState.held, hs, List.dropWhile_cons_of_neg]
        simp [hdialog]
      · rw [SigningState.held, hs, List.dropWhile_cons_of_neg (by simp [hdialog])]
        simp
      · simp [signing, SigningState.navigate, hs, hforeground, hdialog]
    · obtain ⟨activities, hactivities, hbacks⟩ := handle_back front.activity
      have hstep : (signing currentUser).step s (.nav .back) = some (SigningState.resumed { s with
          task := activities.map (front.leaves s.next) ++ rest
          next := s.next + 1 }) := by
        simp [signing, SigningState.navigate, hs, hforeground, hdialog, hactivities]
      have hrestartable := restartable_run h
      have hmove := taskMove_step (grounded_run h) hstep
      obtain ⟨htask, hnext, huser, -⟩ := SigningState.resumed_fields { s with
        task := activities.map (front.leaves s.next) ++ rest
        next := s.next + 1 }
      obtain ⟨hanswered, hheld⟩ := answered_left hs htask (by simpa using hdialog)
        (hasDialog_back hrestartable hactivities) (SigningState.resumed_hasDialog _)
      rw [htask, hnext] at hmove
      refine .inr (.inr ⟨_, hstep, foreground_left hrestartable rfl rfl hmove, ?_, hheld, huser⟩)
      omega

/-- Any number of presses of Back. -/
theorem runFrom_navBack {currentUser : Option String} {es : List SigningEvent} {s : SigningState}
    (h : (signing currentUser).run es = some s) (hforeground : s.foreground = true) (n : ℕ) :
    ((signing currentUser).runFrom s (List.replicate n (.nav .back))).map
        (fun t => (t.answered, t.held, t.currentUser)) =
      if n ≤ s.answered then some (s.answered - n, s.held, s.currentUser)
      else if s.held = [] then none
      else some (0, s.held, s.currentUser) := by
  induction n generalizing es s with
  | zero => simp
  | succ n ih =>
    rw [List.replicate_succ, runFrom_cons]
    rcases back_step h hforeground with ⟨htask, hstep⟩ | ⟨hzero, hheld, hstep⟩ |
        ⟨t, hstep, hforeground', hanswered, hheld, huser⟩
    · have hempty : s.answered = 0 ∧ s.held = [] := by
        simp [SigningState.answered, SigningState.held, htask]
      rw [hstep, hempty.1, if_neg (by omega), if_pos hempty.2]
      rfl
    · rw [hstep, Option.bind_some, ih h hforeground, hzero, if_neg (by omega : ¬ n + 1 ≤ 0)]
      by_cases hn : n ≤ 0
      · rw [if_pos hn, if_neg hheld, Nat.zero_sub]
      · rw [if_neg hn]
    · rw [hstep, Option.bind_some, ih (run_snoc.mpr ⟨s, h, hstep⟩) hforeground', ← hanswered,
        hheld, huser]
      by_cases hn : n ≤ t.answered
      · have hn' : n + 1 ≤ t.answered + 1 := by omega
        have hsub : t.answered + 1 - (n + 1) = t.answered - n := by omega
        rw [if_pos hn, if_pos hn', hsub]
      · have hn' : ¬ n + 1 ≤ t.answered + 1 := by omega
        rw [if_neg hn, if_neg hn']

/-- The screens with a dialog are those on which a sign-in was overlapped or has not been
heard of. -/
theorem held_eq_nil_iff {currentUser : Option String} {es : List SigningEvent} {s : SigningState}
    (h : (signing currentUser).run es = some s) :
    s.held = [] ↔ ∀ id, .login id ∈ s.task →
      awaitsDelivery ((signing currentUser).emitted (loginEvents id) es) = false ∧
        NoOverlap ((signing currentUser).emitted (loginEvents id) es) := by
  have hshowing (id : ℕ) : s.hasDialog (.login id) = false ↔
      awaitsDelivery ((signing currentUser).emitted (loginEvents id) es) = false ∧
        NoOverlap ((signing currentUser).emitted (loginEvents id) es) := by
    obtain ⟨lost, hinv⟩ := dialogInv_run (screens_run h id).1
    rw [← showing_eq_nil_iff hinv]
    simp [SigningState.hasDialog]
  rw [SigningState.held_eq_nil]
  constructor
  · exact fun hnone id hmem => (hshowing id).mp (hnone _ hmem)
  · intro hdelivered record hmem
    cases record with
    | login id => exact (hshowing id).mpr (hdelivered id hmem)
    | _ => rfl

/-- At any moment of a run with the app in the foreground: `answered` presses of Back are
answered, each by the activity in front. Those leave the app, and there is no further one, if
no dialog is showing on a login screen of the task; otherwise they lead to the first of
these screens, and its dialog swallows every further one. No press signs anybody in or out. -/
theorem leavesUnlessDialog {currentUser : Option String} {es : List SigningEvent}
    {s : SigningState} (h : (signing currentUser).run es = some s)
    (hforeground : s.foreground = true) (n : ℕ) :
    (((signing currentUser).runFrom s (List.replicate n (.nav .back))).isSome ↔
        n ≤ s.answered ∨ s.held ≠ []) ∧
      (((signing currentUser).runFrom s (List.replicate n (.nav .back))).map SigningState.task =
        some s.held ↔ n = s.answered ∨ s.answered < n ∧ s.held ≠ []) ∧
      (s.held = [] ↔ ∀ id, .login id ∈ s.task →
        awaitsDelivery ((signing currentUser).emitted (loginEvents id) es) = false ∧
          NoOverlap ((signing currentUser).emitted (loginEvents id) es)) ∧
      ∀ t, (signing currentUser).runFrom s (List.replicate n (.nav .back)) = some t →
        t.currentUser = s.currentUser := by
  have hrun := runFrom_navBack h hforeground n
  cases hafter : (signing currentUser).runFrom s (List.replicate n (.nav .back)) with
  | none =>
    rw [hafter, Option.map_none] at hrun
    have hover : ¬ n ≤ s.answered := by
      intro hn
      simp [hn] at hrun
    have hheld : s.held = [] := by
      by_contra hheld
      simp [hover, hheld] at hrun
    refine ⟨by simp [hover, hheld], ?_, held_eq_nil_iff h, by simp⟩
    simp only [Option.map_none, reduceCtorEq, hheld, ne_eq, not_true, and_false, or_false,
      false_iff]
    omega
  | some t =>
    rw [hafter, Option.map_some] at hrun
    have hreached : t.held = s.held ∧ t.currentUser = s.currentUser ∧
        (n ≤ s.answered ∧ t.answered = s.answered - n ∨
          s.answered < n ∧ s.held ≠ [] ∧ t.answered = 0) := by
      by_cases hn : n ≤ s.answered
      · rw [if_pos hn, Option.some.injEq, Prod.mk.injEq, Prod.mk.injEq] at hrun
        exact ⟨hrun.2.1, hrun.2.2, .inl ⟨hn, hrun.1⟩⟩
      · rw [if_neg hn] at hrun
        split at hrun
        case isTrue => cases hrun
        case isFalse hheld =>
          rw [Option.some.injEq, Prod.mk.injEq, Prod.mk.injEq] at hrun
          exact ⟨hrun.2.1, hrun.2.2, .inr ⟨by omega, hheld, hrun.1⟩⟩
    obtain ⟨hheld, huser, hanswered⟩ := hreached
    refine ⟨?_, ?_, held_eq_nil_iff h, ?_⟩
    · simp only [Option.isSome_some, true_iff]
      tauto
    · rw [Option.map_some, Option.some.injEq, ← hheld, ← SigningState.answered_eq_zero, hheld]
      by_cases hnone : s.held = []
      · simp only [hnone, ne_eq, not_true, and_false, or_false, false_and] at hanswered ⊢
        omega
      · simp only [hnone, ne_eq, not_false_eq_true, and_true, true_and] at hanswered ⊢
        omega
    · rintro _ ⟨⟩
      exact huser

/-- A notification is tapped while a sign-in is under way. -/
def tapOverSignIn : List SigningEvent :=
  [.nav .openDrawer, .nav (.navItem .signout), .signIn ⟨"asha@mail", "secret"⟩,
    .nav .messageReceived, .nav .notificationTap]

/-- The first Back leaves the new `MainActivity`, and the login screen below stays. -/
theorem leavesUnlessDialog_tapOverSignIn :
    ∃ s, (signing none).run tapOverSignIn = some s ∧ s.answered = 1 ∧ s.held = [.login 1] ∧
      ((signing none).runFrom s (List.replicate 3 (.nav .back))).map SigningState.task =
        some s.held := by
  obtain ⟨s, hs⟩ : ∃ s, (signing none).run tapOverSignIn = some s := ⟨_, rfl⟩
  have hback (hforeground : s.foreground = true) := (leavesUnlessDialog hs hforeground 3).2.1
  obtain rfl := Option.some.inj hs
  exact ⟨_, rfl, rfl, rfl, (hback rfl).mpr (.inr ⟨by decide, by decide⟩)⟩

end SewaConnect.Android
