import SewaConnect.Android.Navigation

/-! The back stacks over every run of `navigation`, whether or not its Back presses are alive:
how many presses an activity answers, which shape the task keeps, and which presses within
a `MainActivity` change anything (`backsUncover`). -/

namespace SewaConnect.Android

open Runs Runs.System MainActivity

/-! ### The presses that an activity answers -/

/-- The Back presses that an activity answers until nothing of it is left. -/
def Activity.backs : Activity → ℕ
  | .main a => (if a.drawerOpen then 1 else 0) + a.backStack.length + 1
  | .help => 2
  | .login => 1
  | .register => 2

def backs : List Activity → ℕ
  | [] => 0
  | a :: rest => a.backs + backs rest

@[simp] theorem backs_nil : backs [] = 0 := rfl

@[simp] theorem backs_cons (a : Activity) (rest : List Activity) :
    backs (a :: rest) = a.backs + backs rest := rfl

theorem backs_append (activities rest : List Activity) :
    backs (activities ++ rest) = backs activities + backs rest := by
  induction activities with
  | nil => simp
  | cons a activities ih =>
    rw [List.cons_append, backs_cons, backs_cons, ih]
    omega

theorem Activity.backs_pos (a : Activity) : 0 < a.backs := by
  cases a <;> simp [Activity.backs]

theorem backs_eq_zero {task : List Activity} : backs task = 0 ↔ task = [] := by
  cases task with
  | nil => simp
  | cons a rest =>
    have hpos := a.backs_pos
    simp only [backs_cons, List.cons_ne_nil, iff_false]
    omega

/-- A press of Back uses up one of the presses that an activity answers. -/
theorem handle_back (a : Activity) :
    ∃ activities, a.handle .back = some activities ∧ backs activities + 1 = a.backs := by
  cases a with
  | main a =>
    refine ⟨a.onBackPressed, rfl, ?_⟩
    unfold onBackPressed
    by_cases hdrawer : a.drawerOpen
    · simp [hdrawer, Activity.backs]
      omega
    · cases hback : a.backStack with
      | nil => simp [hdrawer, Activity.backs, hback]
      | cons id rest => simp [hdrawer, Activity.backs, hback, popBackStack]
  | help => exact ⟨_, rfl, rfl⟩
  | login => exact ⟨_, rfl, rfl⟩
  | register => exact ⟨_, rfl, rfl⟩

theorem step_back {currentUser : Option String} (s : AppState) {front : Activity}
    {rest : List Activity} (hs : s.task = front :: rest) :
    (navigation currentUser).step s .back =
      (front.handle .back).map fun activities => { s with task := activities ++ rest } := by
  simp [navigation, hs, NavEvent.user]

/-! ### The fragments of a `MainActivity` -/

namespace MainActivity

/-- The additions whose fragments are still in the container. -/
def shown (a : MainActivity) : ℕ := a.fragmentContainer.length - 1

/-- The container holds the fragments of the latest additions over a Home fragment that no
entry of the back stack refers to. -/
structure Grounded (a : MainActivity) : Prop where
  ids : ∃ base, a.fragmentContainer.map Fragment.id = a.backStack.take a.shown ++ [base] ∧
    base ∉ a.backStack ∧ base < a.nextFragment
  nodup : a.backStack.Nodup
  fresh : ∀ id ∈ a.backStack, id < a.nextFragment
  home : a.fragmentContainer.getLast?.map Fragment.class = some .home

theorem grounded_new : Grounded {} where
  ids := ⟨0, rfl, by simp, Nat.zero_lt_one⟩
  nodup := List.nodup_nil
  fresh := by simp
  home := rfl

theorem length_of_grounded {a : MainActivity} (h : a.Grounded) :
    a.fragmentContainer.length = a.shown + 1 ∧ a.shown ≤ a.backStack.length := by
  obtain ⟨base, hids, -, -⟩ := h.ids
  have hlength := congrArg List.length hids
  rw [List.length_map, List.length_append, List.length_take, List.length_singleton] at hlength
  unfold shown at hlength ⊢
  omega

theorem grounded_add {a : MainActivity} (h : a.Grounded) (c : FragmentClass) :
    (a.add c).Grounded := by
  obtain ⟨base, hids, hbase, hlt⟩ := h.ids
  obtain ⟨hlength, -⟩ := length_of_grounded h
  have hshown : (a.add c).shown = a.shown + 1 := by simp [shown, add] at hlength ⊢; omega
  have hnew : a.nextFragment ∉ a.backStack := fun hmem => Nat.lt_irrefl _ (h.fresh _ hmem)
  refine ⟨⟨base, ?_, ?_, Nat.lt_succ_of_lt hlt⟩, ?_, ?_, ?_⟩
  · rw [hshown]
    simp only [add, List.map_cons, hids, List.take_succ_cons, List.cons_append]
  · simp only [add, List.mem_cons, not_or]
    exact ⟨by omega, hbase⟩
  · simp only [add, List.nodup_cons]
    exact ⟨hnew, h.nodup⟩
  · simp only [add, List.mem_cons]
    rintro id (rfl | hid)
    · exact Nat.lt_succ_self _
    · exact Nat.lt_succ_of_lt (h.fresh id hid)
  · have hne : a.fragmentContainer ≠ [] := List.ne_nil_of_length_pos (by omega)
    simp only [add]
    rw [List.getLast?_cons_of_ne_nil hne]
    exact h.home

theorem grounded_replace {a : MainActivity} (h : a.Grounded) : (a.replace .home).Grounded where
  ids := ⟨a.nextFragment, rfl, fun hmem => Nat.lt_irrefl _ (h.fresh _ hmem), Nat.lt_succ_self _⟩
  nodup := h.nodup
  fresh := fun id hid => Nat.lt_succ_of_lt (h.fresh id hid)
  home := rfl

theorem grounded_drawer {a : MainActivity} (h : a.Grounded) (drawerOpen : Bool) :
    { a with drawerOpen }.Grounded :=
  ⟨h.ids, h.nodup, h.fresh, h.home⟩

theorem filter_of_not_mem {fragments : List Fragment} {id : ℕ}
    (h : id ∉ fragments.map Fragment.id) : fragments.filter (·.id != id) = fragments := by
  rw [List.filter_eq_self]
  intro f hf
  have hne : f.id ≠ id := fun heq => h (heq ▸ List.mem_map_of_mem hf)
  simpa using hne

/-- A pop takes the topmost addition, if there is one left in the container. -/
theorem popBackStack_of_grounded {a : MainActivity} (h : a.Grounded) {id : ℕ} {rest : List ℕ}
    (hback : a.backStack = id :: rest) :
    a.popBackStack = { a with
      fragmentContainer := a.fragmentContainer.drop (min 1 a.shown)
      backStack := rest } := by
  obtain ⟨base, hids, hbase, -⟩ := h.ids
  have hnodup := h.nodup
  rw [hback, List.nodup_cons] at hnodup
  rw [hback, List.mem_cons, not_or] at hbase
  have hpop : a.popBackStack = { a with
      fragmentContainer := a.fragmentContainer.filter (·.id != id)
      backStack := rest } := by
    rw [popBackStack, hback]
  rw [hpop]
  congr 1
  cases hshown : a.shown with
  | zero =>
    rw [hshown, List.take_zero, List.nil_append] at hids
    refine filter_of_not_mem ?_
    rw [hids, List.mem_singleton]
    exact fun heq => hbase.1 heq.symm
  | succ shown =>
    rw [hshown, hback, List.take_succ_cons, List.cons_append] at hids
    obtain ⟨f, below, hcontainer, rfl, hbelow⟩ := List.map_eq_cons_iff.mp hids
    have hgone : f.id ∉ below.map Fragment.id := by
      rw [hbelow, List.mem_append, List.mem_singleton]
      rintro (hmem | heq)
      · exact hnodup.1 (List.mem_of_mem_take hmem)
      · exact hbase.1 heq.symm
    have hone : min 1 (shown + 1) = 1 := by omega
    rw [hcontainer, List.filter_cons_of_neg (by simp), filter_of_not_mem hgone, hone]
    rfl

theorem shown_drop (a : MainActivity) (k : ℕ) (backStack : List ℕ) :
    { a with fragmentContainer := a.fragmentContainer.drop k, backStack }.shown = a.shown - k := by
  simp only [shown, List.length_drop]
  omega

theorem grounded_popBackStack {a : MainActivity} (h : a.Grounded) : a.popBackStack.Grounded := by
  cases hback : a.backStack with
  | nil =>
    have hsame : a.popBackStack = a := by rw [popBackStack, hback]
    rwa [hsame]
  | cons id rest =>
    obtain ⟨hlength, -⟩ := length_of_grounded h
    obtain ⟨base, hids, hbase, hlt⟩ := h.ids
    have hnodup := h.nodup
    rw [popBackStack_of_grounded h hback]
    rw [hback, List.nodup_cons] at hnodup
    rw [hback, List.mem_cons, not_or] at hbase
    refine ⟨⟨base, ?_, hbase.2, hlt⟩, hnodup.2, ?_, ?_⟩
    · rw [shown_drop]
      cases hshown : a.shown with
      | zero =>
        rw [hshown] at hids
        exact hids
      | succ k =>
        have hone : min 1 (k + 1) = 1 := by omega
        rw [hone, List.map_drop, hids, hshown, hback]
        rfl
    · exact fun i hi => h.fresh i (hback ▸ List.mem_cons_of_mem id hi)
    · have hleft : ¬ a.fragmentContainer.length ≤ min 1 a.shown := by omega
      rw [List.getLast?_drop, if_neg hleft]
      exact h.home

end MainActivity

/-! ### The shape of the task -/

/-- A registration stands on its login screen, and only the activity in front can be a
`MainActivity`. -/
def Shaped : List Activity → Prop
  | [] => True
  | a :: rest =>
    (a = .register → rest.head? = some .login) ∧ (∀ b ∈ rest, b.isMain = false) ∧ Shaped rest

structure TaskShape (task : List Activity) : Prop where
  shaped : Shaped task
  grounded : ∀ a, task.head? = some (.main a) → a.Grounded

section Replacing

variable {front : Activity} {rest : List Activity}

/-- The activity in front is left, or replaced by one that is no registration. -/
theorem taskShape_rest (h : TaskShape (front :: rest)) : TaskShape rest where
  shaped := h.shaped.2.2
  grounded := by
    intro a ha
    have hmain := h.shaped.2.1 (.main a) (List.mem_of_mem_head? ha)
    simp [Activity.isMain] at hmain

theorem taskShape_replace (h : TaskShape (front :: rest)) {a : Activity} (hregister : a ≠ .register)
    (hgrounded : ∀ m, a = .main m → m.Grounded) : TaskShape (a :: rest) where
  shaped := ⟨fun heq => absurd heq hregister, h.shaped.2.1, h.shaped.2.2⟩
  grounded := by
    rintro m ⟨⟩
    exact hgrounded m rfl

theorem taskShape_main (h : TaskShape (front :: rest)) {m : MainActivity} (hm : m.Grounded) :
    TaskShape (.main m :: rest) := by
  refine taskShape_replace h (by simp) ?_
  rintro _ ⟨⟩
  exact hm

theorem taskShape_other (h : TaskShape (front :: rest)) {a : Activity}
    (ha : a = .help ∨ a = .login) : TaskShape (a :: rest) := by
  rcases ha with rfl | rfl <;> exact taskShape_replace h (by simp) (by simp)

end Replacing

/-- A new `MainActivity` takes the place of one in the task, and of what is above it. -/
theorem taskShape_clearTop {task : List Activity} (h : TaskShape task) :
    TaskShape (.main {} :: clearTop task) := by
  have hnew {rest : List Activity} (hrest : Shaped rest) (hnone : ∀ b ∈ rest, b.isMain = false) :
      TaskShape (.main {} :: rest) := by
    refine ⟨⟨by simp, hnone, hrest⟩, ?_⟩
    rintro _ ⟨⟩
    exact grounded_new
  cases task with
  | nil => exact hnew trivial (by simp [clearTop])
  | cons a rest =>
    obtain ⟨-, hnone, hrest⟩ := h.shaped
    by_cases hmain : a.isMain
    · have hclear : clearTop (a :: rest) = rest := by simp [clearTop, hmain]
      rw [hclear]
      exact hnew hrest hnone
    · have hall : ∀ b ∈ a :: rest, b.isMain = false :=
        List.forall_mem_cons.mpr ⟨by simpa using hmain, hnone⟩
      rw [clearTop, if_neg (by simpa using hall)]
      exact hnew h.shaped hall

/-- What a `MainActivity` can leave in its place. -/
inductive MainLeaves : List Activity → Prop
  | nothing : MainLeaves []
  | help : MainLeaves [.help]
  | login : MainLeaves [.login]
  | main (m : MainActivity) (hm : m.Grounded) : MainLeaves [.main m]

theorem mainLeaves_handle {a : MainActivity} (h : a.Grounded) {e : NavEvent}
    {activities : List Activity} (hactivities : a.handle e = some activities) :
    MainLeaves activities := by
  cases e with
  | openDrawer =>
    simp only [MainActivity.handle, Option.ite_none_left_eq_some, Option.some.injEq] at hactivities
    obtain ⟨-, rfl⟩ := hactivities
    exact .main _ (grounded_drawer h true)
  | closeDrawer =>
    simp only [MainActivity.handle, Option.ite_none_right_eq_some, Option.some.injEq] at hactivities
    obtain ⟨-, rfl⟩ := hactivities
    exact .main _ (grounded_drawer h false)
  | navItem item =>
    simp only [MainActivity.handle, Option.ite_none_right_eq_some, Option.some.injEq] at hactivities
    obtain ⟨-, rfl⟩ := hactivities
    cases item with
    | home => exact .main _ (grounded_drawer (grounded_replace h) false)
    | volunteers => exact .main _ h
    | signout => exact .login
    | _ => exact .main _ (grounded_drawer h false)
  | iconProfile =>
    simp only [MainActivity.handle, Option.ite_none_left_eq_some, Option.some.injEq] at hactivities
    obtain ⟨-, rfl⟩ := hactivities
    exact .main _ (grounded_add h .myRequests)
  | tile tile =>
    simp only [MainActivity.handle, Option.ite_none_right_eq_some, Option.some.injEq] at hactivities
    obtain ⟨-, rfl⟩ := hactivities
    cases tile with
    | layout1 => exact .help
    | layout2 => exact .main _ (grounded_add h .lookingForHelp)
    | layout3 => exact .main _ h
  | back =>
    obtain rfl : a.onBackPressed = activities := Option.some.inj hactivities
    unfold onBackPressed
    split_ifs
    · exact .main _ (grounded_drawer h false)
    · exact .main _ (grounded_popBackStack h)
    · exact .nothing
  | _ => simp [MainActivity.handle] at hactivities

/-- What an activity leaves in its place keeps the shape. -/
theorem taskShape_handle {front : Activity} {rest activities : List Activity} {e : NavEvent}
    (h : TaskShape (front :: rest)) (hactivities : front.handle e = some activities) :
    TaskShape (activities ++ rest) := by
  cases front with
  | main a =>
    cases mainLeaves_handle (h.grounded a rfl) hactivities with
    | nothing => exact taskShape_rest h
    | help => exact taskShape_other h (.inl rfl)
    | login => exact taskShape_other h (.inr rfl)
    | main m hm => exact taskShape_main h hm
  | help =>
    cases e with
    | back =>
      cases hactivities
      exact taskShape_main h grounded_new
    | _ => cases hactivities
  | login =>
    cases e with
    | signUp =>
      cases hactivities
      refine ⟨⟨fun _ => rfl, ?_, h.shaped⟩, by simp⟩
      exact List.forall_mem_cons.mpr ⟨rfl, h.shaped.2.1⟩
    | signedIn user =>
      cases user with
      | some user =>
        cases hactivities
        exact taskShape_main h grounded_new
      | none =>
        cases hactivities
        exact h
    | back =>
      cases hactivities
      exact taskShape_rest h
    | _ => cases hactivities
  | register =>
    have hlogin : TaskShape ([.login] ++ rest) := taskShape_other h (.inr rfl)
    cases e with
    | goBackToLogin =>
      cases hactivities
      exact hlogin
    | accountCreated user =>
      cases user with
      | some user =>
        cases hactivities
        exact hlogin
      | none =>
        cases hactivities
        exact h
    | back =>
      cases hactivities
      exact hlogin
    | _ => cases hactivities

theorem taskShape_launched : TaskShape [.main {}] := by
  have hempty : TaskShape [] := ⟨trivial, by simp⟩
  exact taskShape_clearTop hempty

theorem taskShape_step {currentUser : Option String} {s t : AppState} {e : NavEvent}
    (h : TaskShape s.task) (ht : (navigation currentUser).step s e = some t) :
    TaskShape t.task := by
  by_cases he : e.IsHandled
  · obtain ⟨front, rest, activities, hs, hactivities, htask, -⟩ := navigation_handled he ht
    rw [htask]
    exact taskShape_handle (hs ▸ h) hactivities
  · cases e with
    | launch =>
      simp only [navigation, Option.ite_none_right_eq_some, Option.some.injEq] at ht
      obtain ⟨hnil, rfl⟩ := ht
      exact taskShape_launched
    | messageReceived =>
      simp only [navigation, Option.some.injEq] at ht
      exact ht ▸ h
    | notificationTap =>
      simp only [navigation, Option.ite_none_right_eq_some, Option.some.injEq] at ht
      obtain ⟨-, rfl⟩ := ht
      exact taskShape_clearTop h
    | unheardSuccess user =>
      simp only [navigation, Option.some.injEq] at ht
      exact ht ▸ h
    | _ => exact absurd (by simp [NavEvent.IsHandled]) he

theorem taskShape_run {currentUser : Option String} {es : List NavEvent} {s : AppState}
    (h : (navigation currentUser).run es = some s) : TaskShape s.task := by
  exact run_invariant (S := navigation currentUser) (I := fun s => TaskShape s.task)
    taskShape_launched (fun _ _ _ hs ht => taskShape_step hs ht) h

theorem nodup_of_grounded {a : MainActivity} (h : a.Grounded) :
    (a.fragmentContainer.map Fragment.id).Nodup := by
  obtain ⟨base, hids, hbase, -⟩ := h.ids
  rw [hids, List.nodup_append]
  refine ⟨h.nodup.sublist (List.take_sublist _ _), by simp, ?_⟩
  rintro id hid id' hid' rfl
  rw [List.mem_singleton] at hid'
  exact hbase (hid' ▸ List.mem_of_mem_take hid)

/-! ### Back within a `MainActivity` -/

theorem runFrom_back_main {currentUser : Option String} {s : AppState} {a : MainActivity}
    {rest : List Activity} {n : ℕ} (hs : s.task = .main a :: rest) (h : a.Grounded)
    (hclosed : a.drawerOpen = false) (hn : n ≤ a.backStack.length) :
    (navigation currentUser).runFrom s (List.replicate n .back) = some { s with
      task := .main { a with
        fragmentContainer := a.fragmentContainer.drop (min n a.shown)
        backStack := a.backStack.drop n } :: rest } := by
  induction n generalizing s a with
  | zero =>
    rw [Nat.zero_min, List.drop_zero, List.drop_zero, ← hs]
    rfl
  | succ n ih =>
    cases hback : a.backStack with
    | nil => simp [hback] at hn
    | cons id rest' =>
      have hpop := popBackStack_of_grounded h hback
      have hstep : (navigation currentUser).step s .back = some { s with
          task := .main a.popBackStack :: rest } := by
        rw [step_back s hs]
        simp [Activity.handle, MainActivity.handle, onBackPressed, hclosed, hback]
      have hlength : n ≤ a.popBackStack.backStack.length := by
        rw [hpop]
        simpa [hback] using hn
      have hrun := ih (s := { s with task := .main a.popBackStack :: rest }) rfl
        (grounded_popBackStack h) (by rw [hpop]; exact hclosed) hlength
      rw [List.replicate_succ, runFrom_cons, hstep, Option.bind_some, hrun]
      have hfragments : min 1 a.shown + min n (a.shown - min 1 a.shown) = min (n + 1) a.shown := by
        omega
      rw [hpop, shown_drop]
      simp only [List.drop_drop, hfragments, List.drop_succ_cons]

/-- In a `MainActivity` with its drawer closed, at any moment of a run: of the Back
presses that its back stack answers, exactly the first `shown` ones take a fragment, each
the topmost, down to a single Home fragment; the others change nothing to be seen. -/
theorem backsUncover {currentUser : Option String} {es : List NavEvent} {s : AppState}
    {a : MainActivity} {rest : List Activity} {n : ℕ}
    (h : (navigation currentUser).run es = some s) (hs : s.task = .main a :: rest)
    (hclosed : a.drawerOpen = false) (hn : n ≤ a.backStack.length) :
    a.shown ≤ a.backStack.length ∧
      (navigation currentUser).runFrom s (List.replicate n .back) = some { s with
        task := .main { a with
          fragmentContainer := a.fragmentContainer.drop (min n a.shown)
          backStack := a.backStack.drop n } :: rest } ∧
      (a.fragmentContainer.drop a.shown).map Fragment.class = [.home] := by
  have hgrounded := (taskShape_run h).grounded a (by rw [hs]; rfl)
  obtain ⟨hlength, hshown⟩ := length_of_grounded hgrounded
  refine ⟨hshown, runFrom_back_main hs hgrounded hclosed hn, ?_⟩
  obtain ⟨f, hlast, hhome⟩ := Option.map_eq_some_iff.mp hgrounded.home
  obtain ⟨additions, hcontainer⟩ := List.getLast?_eq_some_iff.mp hlast
  have hcount : additions.length = a.shown := by
    rw [hcontainer, List.length_append, List.length_singleton] at hlength
    omega
  rw [hcontainer, ← hcount, List.drop_left, List.map_singleton, hhome]

/-- My Requests is opened, Home chosen in the drawer, and My Requests opened again. -/
def requestsOverHome : List NavEvent :=
  [.iconProfile, .openDrawer, .navItem .home, .iconProfile]

theorem backsUncover_requestsOverHome :
    ∃ s a, (navigation none).run requestsOverHome = some s ∧ s.task = [.main a] ∧
      a.backStack.length = 2 ∧ a.shown = 1 ∧
      (a.fragmentContainer.drop a.shown).map Fragment.class = [.home] :=
  ⟨_, _, rfl, rfl, rfl, rfl,
    (@backsUncover none requestsOverHome _ _ [] 2 rfl rfl rfl (by decide)).2.2⟩

end SewaConnect.Android
