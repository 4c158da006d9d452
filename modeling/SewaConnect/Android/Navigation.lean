import SewaConnect.Runs.System

/-! The screens of the Android app: the back stack of activities, with the fragments
and the drawer of each `MainActivity`. An activity answers an event by what it leaves
in its own place of the stack, so that `startActivity` puts an activity on top and
`finish` takes the caller out from under it. -/

namespace SewaConnect.Android

open Runs Runs.System

/-! ### `MainActivity` -/

inductive FragmentClass where
  | home
  | lookingForHelp
  | myRequests
  deriving DecidableEq

structure Fragment where
  id : ℕ
  «class» : FragmentClass
  deriving DecidableEq

inductive NavItem where
  | home
  | messages
  | requests
  | volunteers
  | settings
  | about
  | signout
  deriving DecidableEq

/-- The three tiles of `FragmentHome`. -/
inductive Tile where
  | layout1
  | layout2
  | layout3
  deriving DecidableEq

/-- `onCreate` adds a first `FragmentHome`, which is not on the fragment back stack. -/
structure MainActivity where
  /-- The fragments of `R.id.fragment_container`, the topmost first. -/
  fragmentContainer : List Fragment := [⟨0, .home⟩]
  /-- The fragments whose additions are on the back stack, the latest first. -/
  backStack : List ℕ := []
  /-- The id of the next new fragment. -/
  nextFragment : ℕ := 1
  drawerOpen : Bool := false
  deriving DecidableEq

inductive Activity where
  | main (a : MainActivity)
  | help
  | login
  | register
  deriving DecidableEq

inductive NavEvent where
  | openDrawer
  | closeDrawer
  | navItem (item : NavItem)
  | iconProfile
  | tile (tile : Tile)
  | back
  /-- The link of the login screen. -/
  | signUp
  /-- The link of the registration screen. -/
  | goBackToLogin
  /-- The outcome of a sign-in, or of an account creation, reaches its screen. -/
  | signedIn (user : Option String)
  | accountCreated (user : Option String)
  /-- A sign-in or an account creation succeeds whose screen has stopped, so that its
  listener has been removed. -/
  | unheardSuccess (user : String)
  /-- The app is started from the launcher, its task being empty. -/
  | launch
  | messageReceived
  | notificationTap
  deriving DecidableEq

namespace MainActivity

/-- `add(..).addToBackStack(null)`. -/
def add (a : MainActivity) (c : FragmentClass) : MainActivity := { a with
  fragmentContainer := ⟨a.nextFragment, c⟩ :: a.fragmentContainer
  backStack := a.nextFragment :: a.backStack
  nextFragment := a.nextFragment + 1 }

/-- `replace(..)`, which is not on the back stack. -/
def replace (a : MainActivity) (c : FragmentClass) : MainActivity := { a with
  fragmentContainer := [⟨a.nextFragment, c⟩]
  nextFragment := a.nextFragment + 1 }

/-- Undoes the latest addition: its fragment goes if it is still there. -/
def popBackStack (a : MainActivity) : MainActivity :=
  match a.backStack with
  | [] => a
  | id :: rest => { a with
      fragmentContainer := a.fragmentContainer.filter (·.id != id)
      backStack := rest }

def onBackPressed (a : MainActivity) : List Activity :=
  if a.drawerOpen then [.main { a with drawerOpen := false }]
  else if a.backStack ≠ [] then [.main a.popBackStack]
  else []

/-- The item "Sign Out" leaves the Firebase session alone. -/
def onNavigationItemSelected (a : MainActivity) : NavItem → List Activity
  | .home => [.main { a.replace .home with drawerOpen := false }]
  | .volunteers => [.main a]
  | .signout => [.login]
  | .messages | .requests | .settings | .about => [.main { a with drawerOpen := false }]

/-- The click listeners of `FragmentHome`. -/
def onTile (a : MainActivity) : Tile → List Activity
  | .layout1 => [.help]
  | .layout2 => [.main (a.add .lookingForHelp)]
  | .layout3 => [.main a]

/-- The class of the topmost fragment. -/
def screen (a : MainActivity) : Option FragmentClass := a.fragmentContainer.head?.map Fragment.class

/-- An open drawer covers everything but its items. -/
def handle (a : MainActivity) : NavEvent → Option (List Activity)
  | .openDrawer => if a.drawerOpen then none else some [.main { a with drawerOpen := true }]
  | .closeDrawer => if a.drawerOpen then some [.main { a with drawerOpen := false }] else none
  | .navItem item => if a.drawerOpen then some (a.onNavigationItemSelected item) else none
  | .iconProfile => if a.drawerOpen then none else some [.main (a.add .myRequests)]
  | .tile tile =>
    if ¬ a.drawerOpen ∧ a.screen = some .home then some (a.onTile tile) else none
  | .back => some a.onBackPressed
  | _ => none

end MainActivity

/-! ### The other activities -/

def LoginActivity.handle : NavEvent → Option (List Activity)
  | .signUp => some [.register, .login]
  | .signedIn (some _) => some [.main {}]
  | .signedIn none => some [.login]
  | .back => some []
  | _ => none

def RegisterActivity.handle : NavEvent → Option (List Activity)
  | .goBackToLogin => some [.login]
  | .accountCreated (some _) => some [.login]
  | .accountCreated none => some [.register]
  | .back => some [.login]
  | _ => none

/-- `onBackPressed` finishes the activity and starts a new `MainActivity`. -/
def HelpActivity.handle : NavEvent → Option (List Activity)
  | .back => some [.main {}]
  | _ => none

def Activity.handle : Activity → NavEvent → Option (List Activity)
  | .main a => a.handle
  | .help => HelpActivity.handle
  | .login => LoginActivity.handle
  | .register => RegisterActivity.handle

/-! ### The app -/

/-- The screens that belong to a signed-in user. -/
def Activity.SignedIn : Activity → Prop
  | .main _ | .help => True
  | .login | .register => False

instance : DecidablePred Activity.SignedIn
  | .main _ | .help => inferInstanceAs (Decidable True)
  | .login | .register => inferInstanceAs (Decidable False)

def Activity.isMain : Activity → Bool
  | .main _ => true
  | _ => false

structure AppState where
  /-- The back stack, the activity in front first. -/
  task : List Activity
  /-- The user of the Firebase session. -/
  currentUser : Option String
  /-- The notification of `sendNotification` is shown; there is one at most, since all
  have the same id. -/
  notification : Bool := false

/-- `FLAG_ACTIVITY_CLEAR_TOP`: an instance of `MainActivity` and what is above it go. -/
def clearTop (task : List Activity) : List Activity :=
  if task.any Activity.isMain then (task.dropWhile (!·.isMain)).tail else task

/-- The user that an event makes the current one. -/
def NavEvent.user : NavEvent → Option String
  | .signedIn user => user
  | .accountCreated user => user
  | .unheardSuccess user => some user
  | _ => none

/-- The app from its first start on, with the user that an earlier use left signed in. -/
def navigation (currentUser : Option String) : System AppState NavEvent where
  init := { task := [.main {}], currentUser }
  step s
    | .launch => if s.task = [] then some { s with task := [.main {}] } else none
    | .messageReceived => some { s with notification := true }
    | .notificationTap =>
      if s.notification then some { s with
        task := .main {} :: clearTop s.task
        notification := false }
      else none
    | .unheardSuccess user => some { s with currentUser := some user }
    | e =>
      match s.task with
      | [] => none
      | front :: rest => (front.handle e).map fun activities => { s with
          task := activities ++ rest
          currentUser := e.user.or s.currentUser }

/-- The events that an activity handles. -/
def NavEvent.IsHandled (e : NavEvent) : Prop :=
  e ≠ .launch ∧ e ≠ .messageReceived ∧ e ≠ .notificationTap ∧ ∀ user, e ≠ .unheardSuccess user

theorem navigation_step {currentUser : Option String} {s : AppState} {e : NavEvent}
    (he : e.IsHandled) {front : Activity} {rest : List Activity} (hs : s.task = front :: rest) :
    (navigation currentUser).step s e = (front.handle e).map fun activities =>
      { s with task := activities ++ rest, currentUser := e.user.or s.currentUser } := by
  obtain ⟨hlaunch, hreceived, htap, hunheard⟩ := he
  cases e <;> simp_all [navigation]

/-- What a handled event does, whatever the activity in front. -/
theorem navigation_handled {currentUser : Option String} {s t : AppState} {e : NavEvent}
    (he : e.IsHandled) (h : (navigation currentUser).step s e = some t) :
    ∃ front rest activities, s.task = front :: rest ∧ front.handle e = some activities ∧
      t.task = activities ++ rest ∧ t.currentUser = e.user.or s.currentUser := by
  cases hs : s.task with
  | nil =>
    obtain ⟨hlaunch, hreceived, htap, hunheard⟩ := he
    cases e <;> simp_all [navigation]
  | cons front rest =>
    rw [navigation_step he hs, Option.map_eq_some_iff] at h
    obtain ⟨activities, hactivities, rfl⟩ := h
    exact ⟨front, rest, activities, rfl, hactivities, rfl, rfl⟩

end SewaConnect.Android
