import SewaConnect.Android.Navigation

/-! What "Sign Out" is worth. It neither ends the Firebase session nor empties the back
stack, and the launcher and the notifications open `MainActivity` whoever is signed in.
`signOutEffective_iff` says in which runs the signed-out app stays on the screens of
nobody. -/

namespace SewaConnect.Android

open Runs Runs.System

/-- Sign Out has been chosen, and no sign-in or account creation has succeeded since. -/
def signedOut (es : List NavEvent) : Bool :=
  es.foldl (fun out e => e == .navItem .signout || out && e.user.isNone) false

/-- While signed out, there is no current user and no screen of a user in front. -/
def SignOutEffective (es : List NavEvent) (s : AppState) : Prop :=
  signedOut es → s.currentUser = none ∧ ∀ front ∈ s.task.head?, ¬ front.SignedIn

/-- Sign Out is chosen only when nobody is signed in, and in the signed-out app there is
no launch, no tap on a notification, and no Back from a login screen that stands on the
screen of a user. -/
def KeepsSignedOut (es : List NavEvent) (s : AppState) : NavEvent → Prop
  | .navItem .signout => s.currentUser = none
  | .launch | .notificationTap => ¬ signedOut es
  | .back => signedOut es → ∀ below ∈ s.task[1]?, s.task.head? = some .login → ¬ below.SignedIn
  | _ => True

theorem signedOut_snoc (es : List NavEvent) (e : NavEvent) :
    signedOut (es ++ [e]) = (e == .navItem .signout || signedOut es && e.user.isNone) := by
  simp only [signedOut, List.foldl_append, List.foldl_cons, List.foldl_nil]

/-! ### Steps of the signed-out app -/

/-- Apart from Back, what a screen of nobody leaves behind has a screen of nobody in
front, unless somebody has signed in. -/
theorem handle_not_signedIn {front : Activity} {e : NavEvent} {activities : List Activity}
    (hfront : ¬ front.SignedIn) (hback : e ≠ .back) (huser : e.user = none)
    (h : front.handle e = some activities) :
    ∃ a rest, activities = a :: rest ∧ ¬ a.SignedIn := by
  cases front with
  | main a => exact absurd trivial hfront
  | help => exact absurd trivial hfront
  | login =>
    cases e with
    | signUp =>
      cases h
      exact ⟨.register, [.login], rfl, id⟩
    | signedIn user =>
      obtain rfl : user = none := huser
      cases h
      exact ⟨.login, [], rfl, id⟩
    | back => exact absurd rfl hback
    | _ => cases h
  | register =>
    cases e with
    | goBackToLogin =>
      cases h
      exact ⟨.login, [], rfl, id⟩
    | accountCreated user =>
      obtain rfl : user = none := huser
      cases h
      exact ⟨.register, [], rfl, id⟩
    | back => exact absurd rfl hback
    | _ => cases h

/-- Back keeps a screen of nobody in front just when none of a user is uncovered. -/
theorem back_not_signedIn_iff {front : Activity} {activities : List Activity}
    (rest : List Activity) (hfront : ¬ front.SignedIn) (h : front.handle .back = some activities) :
    (∀ a ∈ (activities ++ rest).head?, ¬ a.SignedIn) ↔
      ∀ below ∈ rest.head?, front = .login → ¬ below.SignedIn := by
  cases front with
  | main a => exact absurd trivial hfront
  | help => exact absurd trivial hfront
  | login =>
    cases h
    simp
  | register =>
    cases h
    simp [Activity.SignedIn]

section Steps

variable {currentUser : Option String} {es : List NavEvent} {s t : AppState}

/-- A handled event other than Sign Out and Back does no harm. -/
theorem signOutEffective_of_handled {e : NavEvent} (hP : SignOutEffective es s)
    (he : e.IsHandled) (hsignout : e ≠ .navItem .signout) (hback : e ≠ .back)
    (ht : (navigation currentUser).step s e = some t) : SignOutEffective (es ++ [e]) t := by
  intro hout
  rw [signedOut_snoc, beq_false_of_ne hsignout, Bool.false_or, Bool.and_eq_true,
    Option.isNone_iff_eq_none] at hout
  obtain ⟨hout, huser⟩ := hout
  obtain ⟨hnone, hfront⟩ := hP hout
  obtain ⟨front, rest, activities, htask, hactivities, htask', huser'⟩ := navigation_handled he ht
  have hfront : ¬ front.SignedIn := hfront front (by rw [htask]; rfl)
  obtain ⟨a, as, rfl, ha⟩ := handle_not_signedIn hfront hback huser hactivities
  refine ⟨by rw [huser', huser, hnone]; rfl, ?_⟩
  rw [htask']
  rintro b ⟨⟩
  exact ha

theorem signOutEffective_signout
    (ht : (navigation currentUser).step s (.navItem .signout) = some t) :
    SignOutEffective (es ++ [.navItem .signout]) t ↔ s.currentUser = none := by
  obtain ⟨front, rest, activities, htask, hactivities, htask', huser'⟩ :=
    navigation_handled (by simp [NavEvent.IsHandled]) ht
  have hlogin : activities = [.login] := by
    cases front with
    | main a =>
      simp only [Activity.handle, MainActivity.handle, Option.ite_none_right_eq_some,
        Option.some.injEq] at hactivities
      exact hactivities.2.symm
    | _ => cases hactivities
  have huser'' : t.currentUser = s.currentUser := huser'
  simp [SignOutEffective, signedOut_snoc, htask', hlogin, huser'', Activity.SignedIn]

theorem signOutEffective_back (hP : SignOutEffective es s)
    (ht : (navigation currentUser).step s .back = some t) :
    SignOutEffective (es ++ [.back]) t ↔ KeepsSignedOut es s .back := by
  obtain ⟨front, rest, activities, htask, hactivities, htask', huser'⟩ :=
    navigation_handled (by simp [NavEvent.IsHandled]) ht
  have huser'' : t.currentUser = s.currentUser := huser'
  have hout : signedOut (es ++ [.back]) = signedOut es := by
    simp [signedOut_snoc, NavEvent.user]
  rw [SignOutEffective, KeepsSignedOut, hout]
  refine forall_congr' fun hsignedOut => ?_
  obtain ⟨hnone, hfront⟩ := hP hsignedOut
  have hfront : ¬ front.SignedIn := hfront front (by rw [htask]; rfl)
  have hiff := back_not_signedIn_iff rest hfront hactivities
  rw [htask', hiff, huser'', htask]
  simp [hnone, ← List.head?_eq_getElem?]

theorem signOutEffective_step {e : NavEvent} (hP : SignOutEffective es s)
    (ht : (navigation currentUser).step s e = some t) :
    SignOutEffective (es ++ [e]) t ↔ KeepsSignedOut es s e := by
  cases e with
  | launch =>
    simp only [navigation, Option.ite_none_right_eq_some, Option.some.injEq] at ht
    obtain ⟨-, rfl⟩ := ht
    simp [SignOutEffective, KeepsSignedOut, signedOut_snoc, NavEvent.user, Activity.SignedIn]
  | notificationTap =>
    simp only [navigation, Option.ite_none_right_eq_some, Option.some.injEq] at ht
    obtain ⟨-, rfl⟩ := ht
    simp [SignOutEffective, KeepsSignedOut, signedOut_snoc, NavEvent.user, Activity.SignedIn]
  | messageReceived =>
    simp only [navigation, Option.some.injEq] at ht
    subst t
    simpa [SignOutEffective, KeepsSignedOut, signedOut_snoc, NavEvent.user] using hP
  | unheardSuccess user => simp [SignOutEffective, KeepsSignedOut, signedOut_snoc, NavEvent.user]
  | back => exact signOutEffective_back hP ht
  | navItem item =>
    by_cases hitem : item = .signout
    · subst item
      exact signOutEffective_signout ht
    · have hkeeps : KeepsSignedOut es s (.navItem item) := by
        cases item <;> simp_all [KeepsSignedOut]
      refine iff_of_true ?_ hkeeps
      exact signOutEffective_of_handled hP (by simp [NavEvent.IsHandled]) (by simpa) (by simp) ht
  | _ =>
    refine iff_of_true ?_ trivial
    exact signOutEffective_of_handled hP (by simp [NavEvent.IsHandled]) (by simp) (by simp) ht

end Steps

/-- In every run of the app, sign-out is effective at each moment exactly when all steps
keep to `KeepsSignedOut`. -/
theorem signOutEffective_iff {currentUser : Option String} {es : List NavEvent} {s : AppState}
    (h : (navigation currentUser).run es = some s) :
    (navigation currentUser).EachState SignOutEffective es ↔
      (navigation currentUser).EachStep KeepsSignedOut es := by
  refine eachState_iff_eachStep ?_ ?_ h
  · intro hout
    cases hout
  · intro es s e t _ _ hP ht
    exact signOutEffective_step hP ht

/-- Sign Out, Back and a restart from the launcher. -/
def restart : List NavEvent := [.openDrawer, .navItem .signout, .back, .launch]

/-- Nobody is signed in; Sign Out leads to the login screen, the registration and back, and
then Asha signs in. -/
def signedOutByNobody : List NavEvent :=
  [.openDrawer, .navItem .signout, .signUp, .back, .signedIn (some "asha")]

theorem signedOutByNobody_keepsSignedOut :
    (navigation none).EachStep KeepsSignedOut signedOutByNobody :=
  EachStepFrom.eachStep ⟨trivial, rfl, trivial, fun _ _ _ => nofun, trivial, trivial⟩

theorem signOutEffective_iff_restart :
    (((navigation none).run signedOutByNobody).isSome ∧
      (navigation none).EachState SignOutEffective signedOutByNobody) ∧
    ((navigation (some "asha")).run restart).isSome ∧
      ((navigation (some "asha")).EachState SignOutEffective restart ↔
        (navigation (some "asha")).EachStep KeepsSignedOut restart) :=
  ⟨⟨rfl, (signOutEffective_iff rfl).mpr signedOutByNobody_keepsSignedOut⟩, rfl,
    signOutEffective_iff rfl⟩

/-- The session lives on behind the login screen, and the launcher opens the screen of
the user. -/
theorem restart_not_signOutEffective : ((navigation (some "asha")).run restart).isSome ∧
    ¬ (navigation (some "asha")).EachState SignOutEffective restart := by
  refine ⟨rfl, fun h => ?_⟩
  have hlast := h restart [] _ rfl rfl rfl
  exact absurd hlast.1 (by decide)

end SewaConnect.Android
