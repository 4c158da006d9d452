import Mathlib.Data.List.Chain
import SewaConnect.Android.Navigation

/-! Whether a Back press does anything to be seen. It is dead when what it uncovers is of
the class it covered, or when the fragment it would remove is already gone. Such states
come from My Requests opened over itself, from the drawer's Home while additions are
on the fragment back stack, and from a login screen put over another one
(`backAlive_iff`). -/

namespace SewaConnect.Android

open Runs Runs.System MainActivity

/-! ### The visible screen -/

/-- The class of an activity and, for `MainActivity`, of its topmost fragment. -/
inductive Screen where
  | main (fragment : Option FragmentClass)
  | help
  | login
  | register
  deriving DecidableEq

def Activity.screen : Activity → Screen
  | .main a => .main a.screen
  | .help => .help
  | .login => .login
  | .register => .register

/-- `none` once the app has been left. -/
def AppState.screen (s : AppState) : Option Screen := s.task.head?.map Activity.screen

def AppState.DrawerClosed (s : AppState) : Prop :=
  ∀ a, s.task.head? = some (.main a) → a.drawerOpen = false

/-- With the drawer closed, Back leaves the app or changes the screen. -/
def BackAlive (currentUser : Option String) (_ : List NavEvent) (s : AppState) : Prop :=
  s.DrawerClosed → ∀ t, (navigation currentUser).step s .back = some t →
    t.task = [] ∨ t.screen ≠ s.screen

/-- My Requests is not opened over itself, nor Home chosen while additions are on the back
stack, nobody signs out of a `MainActivity` that stands on a login screen, and the
registration screen is never left for the login screen. -/
def KeepsBackAlive (_ : List NavEvent) (s : AppState) : NavEvent → Prop
  | .iconProfile => s.screen ≠ some (.main (some .myRequests))
  | .navItem .home => ∀ a, s.task.head? = some (.main a) → a.backStack = []
  | .navItem .signout => s.task[1]? ≠ some .login
  | .back | .goBackToLogin | .accountCreated (some _) => s.task.head? ≠ some .register
  | _ => True

/-! ### Fragments -/

namespace MainActivity

/-- The container holds the additions of the back stack over a first fragment, and no
fragment on one of its own class. -/
structure Layered (a : MainActivity) : Prop where
  ids : ∃ base, a.fragmentContainer.map Fragment.id = a.backStack ++ [base]
  nodup : (a.fragmentContainer.map Fragment.id).Nodup
  fresh : ∀ id ∈ a.fragmentContainer.map Fragment.id, id < a.nextFragment
  distinct : (a.fragmentContainer.map Fragment.class).IsChain (· ≠ ·)

theorem layered_new : Layered {} where
  ids := ⟨0, rfl⟩
  nodup := by decide
  fresh := by decide
  distinct := by simp

theorem layered_add {a : MainActivity} {c : FragmentClass} (h : a.Layered)
    (hscreen : a.screen ≠ some c) : (a.add c).Layered := by
  obtain ⟨base, hids⟩ := h.ids
  refine ⟨⟨base, ?_⟩, ?_, ?_, ?_⟩
  · simp [add, hids]
  · simp only [add, List.map_cons, List.nodup_cons]
    exact ⟨fun hmem => (h.fresh _ hmem).ne rfl, h.nodup⟩
  · simp only [add, List.map_cons, List.mem_cons]
    rintro id (rfl | hid)
    · exact Nat.lt_succ_self _
    · exact Nat.lt_succ_of_lt (h.fresh id hid)
  · simp only [add, List.map_cons]
    refine h.distinct.cons fun d hd hcd => hscreen ?_
    rw [List.head?_map] at hd
    rw [screen, hcd]
    exact hd

theorem layered_replace {a : MainActivity} {c : FragmentClass} (hback : a.backStack = []) :
    (a.replace c).Layered where
  ids := ⟨a.nextFragment, by simp [replace, hback]⟩
  nodup := by simp [replace]
  fresh := by simp [replace]
  distinct := by simp [replace]

theorem layered_drawer {a : MainActivity} (h : a.Layered) (drawerOpen : Bool) :
    { a with drawerOpen }.Layered :=
  ⟨h.ids, h.nodup, h.fresh, h.distinct⟩

theorem onBackPressed_of_nil {a : MainActivity} (hclosed : a.drawerOpen = false)
    (hback : a.backStack = []) : a.onBackPressed = [] := by
  simp [onBackPressed, hclosed, hback]

theorem onBackPressed_of_ne_nil {a : MainActivity} (hclosed : a.drawerOpen = false)
    (hback : a.backStack ≠ []) : a.onBackPressed = [.main a.popBackStack] := by
  simp [onBackPressed, hclosed, hback]

theorem popBackStack_of_cons {a : MainActivity} {id : ℕ} {rest : List ℕ}
    (hback : a.backStack = id :: rest) :
    a.popBackStack = { a with
      fragmentContainer := a.fragmentContainer.filter (·.id != id)
      backStack := rest } := by
  rw [popBackStack, hback]

/-- A pop takes the topmost fragment, and no other. -/
theorem fragmentContainer_of_layered {a : MainActivity} (h : a.Layered) {id : ℕ} {rest : List ℕ}
    (hback : a.backStack = id :: rest) : ∃ f below, a.fragmentContainer = f :: below ∧
      below ≠ [] ∧
        a.popBackStack = { a with fragmentContainer := below, backStack := rest } := by
  obtain ⟨base, hids⟩ := h.ids
  have hnodup := h.nodup
  rw [hback, List.cons_append] at hids
  obtain ⟨f, below, hcontainer, rfl, hbelow⟩ := List.map_eq_cons_iff.mp hids
  refine ⟨f, below, hcontainer, ?_, ?_⟩
  · rintro rfl
    simp at hbelow
  · rw [hcontainer, List.map_cons, List.nodup_cons] at hnodup
    have hkept : below.filter (·.id != f.id) = below := by
      rw [List.filter_eq_self]
      intro g hg
      have hne : g.id ≠ f.id := fun heq => hnodup.1 (heq ▸ List.mem_map_of_mem hg)
      simpa using hne
    rw [popBackStack_of_cons hback, hcontainer, List.filter_cons_of_neg (by simp), hkept]

theorem layered_popBackStack {a : MainActivity} (h : a.Layered) : a.popBackStack.Layered := by
  cases hback : a.backStack with
  | nil =>
    have hsame : a.popBackStack = a := by rw [popBackStack, hback]
    rwa [hsame]
  | cons id rest =>
    obtain ⟨f, below, hcontainer, -, hpop⟩ := fragmentContainer_of_layered h hback
    obtain ⟨⟨base, hids⟩, hnodup, hfresh, hdistinct⟩ := h
    rw [hcontainer, List.map_cons] at hids hnodup hfresh hdistinct
    rw [hback, List.cons_append] at hids
    rw [hpop]
    constructor
    · exact ⟨base, (List.cons.inj hids).2⟩
    · exact (List.nodup_cons.mp hnodup).2
    · intro id hid
      exact hfresh id (List.mem_cons_of_mem _ hid)
    · exact hdistinct.tail

/-- What a pop uncovers is of another class. -/
theorem screen_popBackStack_ne {a : MainActivity} (h : a.Layered) (hback : a.backStack ≠ []) :
    a.popBackStack.screen ≠ a.screen := by
  obtain ⟨id, rest, hcons⟩ := List.exists_cons_of_ne_nil hback
  obtain ⟨f, below, hcontainer, hbelow, hpop⟩ := fragmentContainer_of_layered h hcons
  obtain ⟨g, lower, rfl⟩ := List.exists_cons_of_ne_nil hbelow
  have hdistinct := h.distinct
  rw [hcontainer, List.map_cons, List.map_cons, List.isChain_cons_cons] at hdistinct
  rw [hpop, screen, screen, hcontainer]
  simpa using hdistinct.1.symm

/-- An addition is undone by the next pop. -/
theorem screen_popBackStack_add {a : MainActivity} (c : FragmentClass) (h : a.Layered) :
    (a.add c).popBackStack.screen = a.screen := by
  have hkept : a.fragmentContainer.filter (·.id != a.nextFragment) = a.fragmentContainer := by
    rw [List.filter_eq_self]
    intro f hf
    simpa using (h.fresh f.id (List.mem_map_of_mem hf)).ne
  have hundone : (a.add c).fragmentContainer.filter (·.id != a.nextFragment) =
      a.fragmentContainer := by
    rw [add, List.filter_cons_of_neg (by simp), hkept]
  have hback : (a.add c).backStack = a.nextFragment :: a.backStack := rfl
  rw [popBackStack_of_cons hback, screen, screen, hundone]

/-- After a replacement the pops of the older additions change nothing. -/
theorem screen_popBackStack_replace {a : MainActivity} (c : FragmentClass) (h : a.Layered) :
    (a.replace c).popBackStack.screen = (a.replace c).screen := by
  cases hback : a.backStack with
  | nil => rw [popBackStack, replace, hback]
  | cons id rest =>
    obtain ⟨base, hids⟩ := h.ids
    have hid : id < a.nextFragment := h.fresh id (by simp [hids, hback])
    have hback' : (a.replace c).backStack = id :: rest := hback
    rw [popBackStack_of_cons hback', screen, screen, replace]
    simp [hid.ne']

end MainActivity

/-! ### Activities -/

/-- What may lie directly below an activity: below a registration its login screen, below
a login screen no other, and below nothing a `MainActivity`. -/
structure Activity.StandsOn (a : Activity) (below : Option Activity) : Prop where
  register : a = .register → below = some .login
  login : a = .login → below ≠ some .login
  not_main : ∀ m, below ≠ some (.main m)

def Stacked : List Activity → Prop
  | [] => True
  | a :: rest => a.StandsOn rest.head? ∧ Stacked rest

structure TaskInv (task : List Activity) : Prop where
  stacked : Stacked task
  layered : ∀ a, task.head? = some (.main a) → a.Layered

theorem isMain_of_stacked {a : Activity} {rest : List Activity} (h : Stacked (a :: rest)) :
    ∀ b ∈ rest, b.isMain = false := by
  induction rest generalizing a with
  | nil => simp
  | cons b rest ih =>
    obtain ⟨hstands, hrest⟩ := h
    intro c hc
    rcases List.mem_cons.mp hc with rfl | hc
    · cases c with
      | main m => exact absurd rfl (hstands.not_main m)
      | _ => rfl
    · exact ih hrest c hc

/-- No `MainActivity` is left, and the rest is stacked as before. -/
theorem stacked_clearTop {task : List Activity} (h : Stacked task) :
    Stacked (clearTop task) ∧ ∀ b ∈ clearTop task, b.isMain = false := by
  cases task with
  | nil => exact ⟨trivial, by simp [clearTop]⟩
  | cons a rest =>
    have hrest := isMain_of_stacked h
    by_cases hmain : a.isMain
    · have hclear : clearTop (a :: rest) = rest := by simp [clearTop, hmain]
      rw [hclear]
      exact ⟨h.2, hrest⟩
    · have hnone : ∀ b ∈ a :: rest, b.isMain = false :=
        List.forall_mem_cons.mpr ⟨by simpa using hmain, hrest⟩
      rw [clearTop, if_neg (by simpa using hnone)]
      exact ⟨h, hnone⟩

theorem main_standsOn {m : MainActivity} {rest : List Activity}
    (h : ∀ b ∈ rest, b.isMain = false) : (Activity.main m).StandsOn rest.head? where
  register := by simp
  login := by simp
  not_main := by
    intro n hn
    have hmain := h (.main n) (List.mem_of_mem_head? hn)
    simp [Activity.isMain] at hmain

/-- A new front, with its task below. -/
theorem taskInv_cons {a : Activity} {rest : List Activity} (hstands : a.StandsOn rest.head?)
    (hrest : Stacked rest) (hlayered : ∀ m, a = .main m → m.Layered) : TaskInv (a :: rest) where
  stacked := ⟨hstands, hrest⟩
  layered := by
    rintro m ⟨⟩
    exact hlayered m rfl

section Replacing

variable {front : Activity} {rest : List Activity}

/-- The activity in front is left. -/
theorem taskInv_rest (h : TaskInv (front :: rest)) : TaskInv rest where
  stacked := h.stacked.2
  layered := fun m hm => absurd hm (h.stacked.1.not_main m)

/-- Its place is taken by a `MainActivity`. -/
theorem taskInv_main (h : TaskInv (front :: rest)) {a : MainActivity} (ha : a.Layered) :
    TaskInv (.main a :: rest) := by
  refine taskInv_cons ⟨by simp, by simp, h.stacked.1.not_main⟩ h.stacked.2 ?_
  rintro _ ⟨⟩
  exact ha

theorem taskInv_help (h : TaskInv (front :: rest)) : TaskInv (.help :: rest) :=
  taskInv_cons ⟨by simp, by simp, h.stacked.1.not_main⟩ h.stacked.2 (by simp)

theorem taskInv_login (h : TaskInv (front :: rest)) (hrest : rest.head? ≠ some .login) :
    TaskInv (.login :: rest) :=
  taskInv_cons ⟨by simp, fun _ => hrest, h.stacked.1.not_main⟩ h.stacked.2 (by simp)

/-- The registration is put on top of the login screen. -/
theorem taskInv_register (h : TaskInv (.login :: rest)) : TaskInv (.register :: .login :: rest) :=
  taskInv_cons ⟨fun _ => rfl, by simp, by simp⟩ h.stacked (by simp)

end Replacing

/-- A new `MainActivity` over a task without any. -/
theorem taskInv_new {rest : List Activity} (hrest : Stacked rest)
    (hnone : ∀ b ∈ rest, b.isMain = false) : TaskInv (.main {} :: rest) := by
  refine taskInv_cons (main_standsOn hnone) hrest ?_
  rintro _ ⟨⟩
  exact layered_new

theorem taskInv_init : TaskInv [.main {}] := taskInv_new (show Stacked [] from trivial) (by simp)

/-! ### When a state is alive -/

theorem backAlive_iff_handle {currentUser : Option String} {es : List NavEvent} {s : AppState}
    {front : Activity} {rest : List Activity} (hs : s.task = front :: rest) :
    BackAlive currentUser es s ↔ (s.DrawerClosed → ∀ activities,
      front.handle .back = some activities →
        (activities ++ rest).head?.map Activity.screen ≠ some front.screen) := by
  have hstep : (navigation currentUser).step s .back = (front.handle .back).map fun activities =>
      { s with task := activities ++ rest } := by
    simp [navigation, hs, NavEvent.user]
  have hscreen : s.screen = some front.screen := by rw [AppState.screen, hs]; rfl
  refine forall_congr' fun _ => ?_
  rw [hstep, hscreen]
  constructor
  · intro h activities hactivities hsame
    rcases h _ (by rw [hactivities]; rfl) with hleft | hchanged
    · simp only at hleft
      rw [hleft] at hsame
      simp at hsame
    · exact hchanged hsame
  · intro h t ht
    obtain ⟨activities, hactivities, rfl⟩ := Option.map_eq_some_iff.mp ht
    exact .inr (h activities hactivities)

section Alive

variable {currentUser : Option String} {es : List NavEvent} {s : AppState}

theorem backAlive_of_taskInv (h : TaskInv s.task) : BackAlive currentUser es s := by
  cases hs : s.task with
  | nil =>
    intro _ t ht
    simp [navigation, hs] at ht
  | cons front rest =>
    rw [hs] at h
    obtain ⟨⟨hstands, hrest⟩, hlayered⟩ := h
    rw [backAlive_iff_handle hs]
    intro hclosed activities hactivities
    cases front with
    | main a =>
      have hdrawer : a.drawerOpen = false := hclosed a (by rw [hs]; rfl)
      obtain rfl : a.onBackPressed = activities := Option.some.inj hactivities
      by_cases hback : a.backStack = []
      · rw [onBackPressed_of_nil hdrawer hback]
        cases rest with
        | nil => simp
        | cons b rest =>
          cases b with
          | main m => exact absurd rfl (hstands.not_main m)
          | _ => simp [Activity.screen]
      · rw [onBackPressed_of_ne_nil hdrawer hback]
        have hlayered := screen_popBackStack_ne (hlayered a rfl) hback
        simpa [Activity.screen] using hlayered
    | help =>
      cases hactivities
      simp [Activity.screen]
    | login =>
      cases hactivities
      cases rest with
      | nil => simp
      | cons b rest =>
        cases b with
        | login => exact absurd rfl (hstands.login rfl)
        | _ => simp [Activity.screen]
    | register =>
      cases hactivities
      simp [Activity.screen]

/-- A state whose Back uncovers the class in front is dead. -/
theorem not_backAlive {front : Activity} {rest activities : List Activity}
    (hs : s.task = front :: rest) (hclosed : s.DrawerClosed)
    (hactivities : front.handle .back = some activities)
    (hsame : (activities ++ rest).head?.map Activity.screen = some front.screen) :
    ¬ BackAlive currentUser es s := by
  rw [backAlive_iff_handle hs]
  exact fun h => h hclosed activities hactivities hsame

theorem not_backAlive_login {rest : List Activity} (hs : s.task = .login :: .login :: rest) :
    ¬ BackAlive currentUser es s :=
  not_backAlive hs (by simp [AppState.DrawerClosed, hs]) rfl rfl

theorem not_backAlive_main {a : MainActivity} {rest : List Activity} (hs : s.task = .main a :: rest)
    (hclosed : a.drawerOpen = false) (hback : a.backStack ≠ [])
    (hsame : a.popBackStack.screen = a.screen) : ¬ BackAlive currentUser es s := by
  refine not_backAlive hs ?_ (congrArg some (onBackPressed_of_ne_nil hclosed hback)) ?_
  · intro b hb
    rw [hs] at hb
    cases hb
    exact hclosed
  · simp [Activity.screen, hsame]

end Alive

/-! ### Steps -/

section Steps

variable {currentUser : Option String} {es : List NavEvent} {s t : AppState}
  {rest activities : List Activity} {e : NavEvent}

/-- What a step leaves is in order, or else dead, just as the condition says. -/
def Decides (currentUser : Option String) (es : List NavEvent) (s : AppState) (e : NavEvent)
    (t : AppState) : Prop :=
  (KeepsBackAlive es s e ∧ TaskInv t.task) ∨
    (¬ KeepsBackAlive es s e ∧ ¬ BackAlive currentUser (es ++ [e]) t)

theorem decides_of_keeps (hkeeps : KeepsBackAlive es s e) (ht : t.task = activities ++ rest)
    (hinv : TaskInv (activities ++ rest)) : Decides currentUser es s e t := by
  refine .inl ⟨hkeeps, ?_⟩
  rw [ht]
  exact hinv

theorem decides_main {a : MainActivity} (hs : s.task = .main a :: rest)
    (hinv : TaskInv (.main a :: rest)) (hactivities : a.handle e = some activities)
    (ht : t.task = activities ++ rest) : Decides currentUser es s e t := by
  have ha : a.Layered := hinv.layered a rfl
  cases e with
  | openDrawer =>
    simp only [MainActivity.handle, Option.ite_none_left_eq_some, Option.some.injEq] at hactivities
    obtain ⟨-, rfl⟩ := hactivities
    exact decides_of_keeps trivial ht (taskInv_main hinv (layered_drawer ha true))
  | closeDrawer =>
    simp only [MainActivity.handle, Option.ite_none_right_eq_some, Option.some.injEq] at hactivities
    obtain ⟨-, rfl⟩ := hactivities
    exact decides_of_keeps trivial ht (taskInv_main hinv (layered_drawer ha false))
  | navItem item =>
    simp only [MainActivity.handle, Option.ite_none_right_eq_some, Option.some.injEq] at hactivities
    obtain ⟨-, rfl⟩ := hactivities
    cases item with
    | home =>
      have hclosed : { a with drawerOpen := false }.Layered := layered_drawer ha false
      by_cases hback : a.backStack = []
      · refine decides_of_keeps (by simp [KeepsBackAlive, hs, hback]) ht ?_
        exact taskInv_main hinv (layered_drawer (layered_replace hback) false)
      · refine .inr ⟨by simp [KeepsBackAlive, hs, hback], ?_⟩
        exact not_backAlive_main ht rfl hback (screen_popBackStack_replace .home hclosed)
    | signout =>
      by_cases hlogin : rest.head? = some .login
      · obtain ⟨below, rfl⟩ := List.head?_eq_some_iff.mp hlogin
        exact .inr ⟨by simp [KeepsBackAlive, hs], not_backAlive_login ht⟩
      · have hkeeps : KeepsBackAlive es s (.navItem .signout) := by
          simpa [KeepsBackAlive, hs, ← List.head?_eq_getElem?] using hlogin
        exact decides_of_keeps hkeeps ht (taskInv_login hinv hlogin)
    | volunteers => exact decides_of_keeps trivial ht (taskInv_main hinv ha)
    | _ => exact decides_of_keeps trivial ht (taskInv_main hinv (layered_drawer ha false))
  | iconProfile =>
    simp only [MainActivity.handle, Option.ite_none_left_eq_some, Option.some.injEq] at hactivities
    obtain ⟨hclosed, rfl⟩ := hactivities
    have hscreen : s.screen = some (.main a.screen) := by rw [AppState.screen, hs]; rfl
    by_cases hrequests : a.screen = some .myRequests
    · refine .inr ⟨by simp [KeepsBackAlive, hscreen, hrequests], ?_⟩
      refine not_backAlive_main ht (by simpa [add] using hclosed) (by simp [add]) ?_
      rw [screen_popBackStack_add .myRequests ha, hrequests]
      rfl
    · refine decides_of_keeps (by simpa [KeepsBackAlive, hscreen] using hrequests) ht ?_
      exact taskInv_main hinv (layered_add ha hrequests)
  | tile tile =>
    simp only [MainActivity.handle, Option.ite_none_right_eq_some, Option.some.injEq] at hactivities
    obtain ⟨⟨-, hhome⟩, rfl⟩ := hactivities
    refine decides_of_keeps trivial ht ?_
    cases tile with
    | layout1 => exact taskInv_help hinv
    | layout2 => exact taskInv_main hinv (layered_add ha (by simp [hhome]))
    | layout3 => exact taskInv_main hinv ha
  | back =>
    obtain rfl : a.onBackPressed = activities := Option.some.inj hactivities
    refine decides_of_keeps (by simp [KeepsBackAlive, hs]) ht ?_
    by_cases hdrawer : a.drawerOpen
    · rw [onBackPressed, if_pos hdrawer]
      exact taskInv_main hinv (layered_drawer ha false)
    · rw [Bool.not_eq_true] at hdrawer
      by_cases hback : a.backStack = []
      · rw [onBackPressed_of_nil hdrawer hback]
        exact taskInv_rest hinv
      · rw [onBackPressed_of_ne_nil hdrawer hback]
        exact taskInv_main hinv (layered_popBackStack ha)
  | _ => simp [MainActivity.handle] at hactivities

theorem decides_help (hs : s.task = .help :: rest) (hinv : TaskInv (.help :: rest))
    (hactivities : HelpActivity.handle e = some activities) (ht : t.task = activities ++ rest) :
    Decides currentUser es s e t := by
  cases e with
  | back =>
    cases hactivities
    refine decides_of_keeps (by simp [KeepsBackAlive, hs]) ht ?_
    exact taskInv_main hinv layered_new
  | _ => cases hactivities

theorem decides_login (hs : s.task = .login :: rest) (hinv : TaskInv (.login :: rest))
    (hactivities : LoginActivity.handle e = some activities) (ht : t.task = activities ++ rest) :
    Decides currentUser es s e t := by
  cases e with
  | signUp =>
    cases hactivities
    exact decides_of_keeps trivial ht (taskInv_register hinv)
  | signedIn user =>
    refine decides_of_keeps trivial ht ?_
    cases user with
    | some user =>
      cases hactivities
      exact taskInv_main hinv layered_new
    | none =>
      cases hactivities
      exact hinv
  | back =>
    cases hactivities
    refine decides_of_keeps (by simp [KeepsBackAlive, hs]) ht ?_
    exact taskInv_rest hinv
  | _ => cases hactivities

/-- Whatever leaves the registration puts a login screen on the one below it. -/
theorem decides_register (hs : s.task = .register :: rest) (hinv : TaskInv (.register :: rest))
    (hactivities : RegisterActivity.handle e = some activities) (ht : t.task = activities ++ rest) :
    Decides currentUser es s e t := by
  obtain ⟨below, rfl⟩ := List.head?_eq_some_iff.mp (hinv.stacked.1.register rfl)
  cases e with
  | goBackToLogin =>
    cases hactivities
    exact .inr ⟨by simp [KeepsBackAlive, hs], not_backAlive_login ht⟩
  | accountCreated user =>
    cases user with
    | some user =>
      cases hactivities
      exact .inr ⟨by simp [KeepsBackAlive, hs], not_backAlive_login ht⟩
    | none =>
      cases hactivities
      exact decides_of_keeps trivial ht hinv
  | back =>
    cases hactivities
    exact .inr ⟨by simp [KeepsBackAlive, hs], not_backAlive_login ht⟩
  | _ => cases hactivities

theorem decides_step (es : List NavEvent) (hinv : TaskInv s.task)
    (ht : (navigation currentUser).step s e = some t) : Decides currentUser es s e t := by
  by_cases he : e.IsHandled
  · obtain ⟨front, rest, activities, hs, hactivities, htask, -⟩ := navigation_handled he ht
    rw [hs] at hinv
    cases front with
    | main a => exact decides_main hs hinv hactivities htask
    | help => exact decides_help hs hinv hactivities htask
    | login => exact decides_login hs hinv hactivities htask
    | register => exact decides_register hs hinv hactivities htask
  · cases e with
    | launch =>
      simp only [navigation, Option.ite_none_right_eq_some, Option.some.injEq] at ht
      obtain ⟨-, rfl⟩ := ht
      exact .inl ⟨trivial, taskInv_init⟩
    | messageReceived =>
      simp only [navigation, Option.some.injEq] at ht
      subst t
      exact .inl ⟨trivial, hinv⟩
    | notificationTap =>
      simp only [navigation, Option.ite_none_right_eq_some, Option.some.injEq] at ht
      obtain ⟨-, rfl⟩ := ht
      obtain ⟨hcleared, hnone⟩ := stacked_clearTop hinv.stacked
      exact .inl ⟨trivial, taskInv_new hcleared hnone⟩
    | unheardSuccess user =>
      simp only [navigation, Option.some.injEq] at ht
      subst t
      exact .inl ⟨trivial, hinv⟩
    | _ => exact absurd (by simp [NavEvent.IsHandled]) he

end Steps

/-! ### Runs -/

/-- In a run that keeps to the condition the task is always in order. -/
theorem taskInv_run {currentUser : Option String} {es : List NavEvent} {s : AppState}
    (hC : (navigation currentUser).EachStep KeepsBackAlive es)
    (h : (navigation currentUser).run es = some s) : TaskInv s.task := by
  refine run_induction_of_eachStep (I := fun _ s => TaskInv s.task)
    taskInv_init ?_ hC h
  intro es s e t _ hs hstep ht
  rcases decides_step es hs ht with ⟨-, hinv⟩ | ⟨hbreaks, -⟩
  · exact hinv
  · exact absurd hstep hbreaks

/-- In every run of the app, no Back press is dead at any moment exactly when all steps keep
to `KeepsBackAlive`. -/
theorem backAlive_iff {currentUser : Option String} {es : List NavEvent} {s : AppState}
    (h : (navigation currentUser).run es = some s) :
    (navigation currentUser).EachState (BackAlive currentUser) es ↔
      (navigation currentUser).EachStep KeepsBackAlive es := by
  refine eachState_iff_eachStep ?_ ?_ h
  · exact backAlive_of_taskInv taskInv_init
  · intro es s e t hs hC _ ht
    rcases decides_step es (taskInv_run hC hs) ht with ⟨hkeeps, hinv⟩ | ⟨hbreaks, hdead⟩
    · exact iff_of_true (backAlive_of_taskInv hinv) hkeeps
    · exact iff_of_false hdead hbreaks

/-- The requests are opened, Home is chosen in the drawer, and Back is pressed. -/
def homeOverRequests : List NavEvent := [.iconProfile, .openDrawer, .navItem .home]

/-- The form and the requests are opened and left again, and Home chosen then. -/
def homeAfterRequests : List NavEvent :=
  [.tile .layout2, .iconProfile, .back, .back, .openDrawer, .navItem .home]

theorem homeAfterRequests_keepsBackAlive :
    (navigation none).EachStep KeepsBackAlive homeAfterRequests :=
  EachStepFrom.eachStep ⟨trivial, nofun, nofun, nofun, trivial, by (rintro a ⟨⟩; rfl), trivial⟩

theorem backAlive_iff_homeOverRequests :
    (((navigation none).run homeAfterRequests).isSome ∧
      (navigation none).EachState (BackAlive none) homeAfterRequests) ∧
    ((navigation none).run homeOverRequests).isSome ∧
      ((navigation none).EachState (BackAlive none) homeOverRequests ↔
        (navigation none).EachStep KeepsBackAlive homeOverRequests) :=
  ⟨⟨rfl, (backAlive_iff rfl).mpr homeAfterRequests_keepsBackAlive⟩, rfl, backAlive_iff rfl⟩

/-- The drawer is closed and Home in front, and Back leaves it there. -/
theorem homeOverRequests_not_backAlive :
    ∃ s, (navigation none).run homeOverRequests = some s ∧
      ¬ BackAlive none homeOverRequests s := by
  refine ⟨_, rfl, fun h => ?_⟩
  have hback := h (by rintro _ ⟨⟩; rfl) _ rfl
  exact absurd hback (by decide)

end SewaConnect.Android
