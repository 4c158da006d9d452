import Mathlib.Data.List.ReduceOption
import SewaConnect.Runs.System
import SewaConnect.Android.Credentials

/-! Overlapping registrations in one `RegisterActivity`. The profile document is written
by the completion listener of `createUserWithEmailAndPassword`, from the activity's
fields, which every press overwrites, and from the current user, which every new
account replaces; the listener is dropped when the activity stops, and a failed
write is only logged. `hasProfiles_of_keepsProfiles` shows that nothing else can cost
an account its profile. -/

namespace SewaConnect.Android

open Values Runs Runs.System

/-- A document of the collection "users". -/
structure Profile where
  email : String
  userId : String
  username : String
  deriving DecidableEq

/-- A created account, with the form that was pressed to create it. -/
structure Account where
  uid : String
  form : RegisterForm
  deriving DecidableEq

/-- The profile an account is to have. -/
def Account.profile (a : Account) : Profile := ⟨trim a.form.email, a.uid, trim a.form.username⟩

/-- `addUserToFirestoreDB`: the document added for the current user. -/
def RegisterActivity.newUser (a : RegisterActivity) (currentuser : String) : Profile :=
  ⟨a.email, currentuser, a.username⟩

/-- The completion listener: a success starts the login screen, a failure restores
the button. -/
def RegisterActivity.onComplete (a : RegisterActivity) (isSuccessful : Bool) : RegisterActivity :=
  if isSuccessful then a
  else { a with createAccount := "Create New Account", progressBarVisible := false }

/-- A call of `createUserWithEmailAndPassword` that has not completed. -/
structure CreateCall where
  id : ℕ
  form : RegisterForm
  /-- The activity has not stopped since the call. -/
  listening : Bool
  deriving DecidableEq

inductive AccountEvent where
  | press (form : RegisterForm)
  /-- A call completes: with a new account of this uid, or with a failure. -/
  | completed (call : CreateCall) (uid : Option String)
  /-- The listener of a completed call runs on the main thread. -/
  | listener (account : Option Account)
  | stop
  | restart
  | written (profile : Profile)
  | writeFailed (profile : Profile)

structure AccountState where
  activity : RegisterActivity := {}
  started : Bool := true
  finishing : Bool := false
  calls : List CreateCall := []
  /-- The number of calls made so far. -/
  made : ℕ := 0
  /-- The outcomes whose listeners wait on the main thread. -/
  listeners : List (Option Account) := []
  currentUser : Option String := none
  accounts : List Account := []
  /-- The documents being added. -/
  writes : List Profile := []
  users : List Profile := []

def AccountState.press (s : AccountState) (form : RegisterForm) : AccountState :=
  let pressed := { s.activity with form }.signUp
  match pressed.2 with
  | .createUserWithEmailAndPassword _ _ => { s with
      activity := pressed.1
      calls := s.calls ++ [⟨s.made, form, true⟩]
      made := s.made + 1 }
  | _ => { s with activity := pressed.1 }

/-- A success makes the new account the current user, whether or not anything still
listens. A stop drops the listeners, also those that wait to run. -/
def accountCreation : System AccountState AccountEvent where
  init := {}
  step s
    | .press form => if s.started then some (s.press form) else none
    | .completed call none =>
      if call ∈ s.calls then some { s with
        calls := s.calls.erase call
        listeners := s.listeners ++ (if call.listening then [none] else []) }
      else none
    | .completed call (some uid) =>
      if call ∈ s.calls ∧ uid ∉ s.accounts.map Account.uid then some { s with
        calls := s.calls.erase call
        listeners := s.listeners ++ (if call.listening then [some ⟨uid, call.form⟩] else [])
        currentUser := some uid
        accounts := s.accounts ++ [⟨uid, call.form⟩] }
      else none
    | .listener none =>
      if none ∈ s.listeners then some { s with
        listeners := s.listeners.erase none
        activity := s.activity.onComplete false }
      else none
    | .listener (some account) =>
      if some account ∈ s.listeners then s.currentUser.map fun currentuser => { s with
        listeners := s.listeners.erase (some account)
        activity := s.activity.onComplete true
        finishing := true
        writes := s.writes ++ [s.activity.newUser currentuser] }
      else none
    | .stop =>
      if s.started then some { s with
        started := false
        calls := s.calls.map fun call => { call with listening := false }
        listeners := [] }
      else none
    | .restart =>
      if ¬ s.started ∧ ¬ s.finishing then some { s with started := true } else none
    | .written profile =>
      if profile ∈ s.writes then some { s with
        writes := s.writes.erase profile
        users := s.users ++ [profile] }
      else none
    | .writeFailed profile =>
      if profile ∈ s.writes then some { s with writes := s.writes.erase profile } else none

/-! ### The condition -/

/-- The form of a press, valid or not. -/
def AccountEvent.pressed : AccountEvent → Option RegisterForm
  | .press form => some form
  | _ => none

/-- The account that an event creates. -/
def AccountEvent.created : AccountEvent → Option Account
  | .completed call uid => uid.map fun uid => ⟨uid, call.form⟩
  | _ => none

def lastPressed (es : List AccountEvent) : Option RegisterForm :=
  es.foldl (fun last e => e.pressed.or last) none

def lastCreated (es : List AccountEvent) : Option Account :=
  es.foldl (fun last e => e.created.or last) none

/-- No success is dropped by a stop; when the listener of an account runs, no other
account has been created since and no press with another trimmed email or username
has been made; and no write fails. -/
def KeepsProfiles (es : List AccountEvent) (s : AccountState) : AccountEvent → Prop
  | .completed call (some _) => call.listening
  | .listener (some account) =>
      (lastCreated es).map Account.uid = some account.uid ∧
        ∃ form, lastPressed es = some form ∧
          trim form.email = trim account.form.email ∧
          trim form.username = trim account.form.username
  | .stop => ∀ account, some account ∉ s.listeners
  | .writeFailed _ => False
  | _ => True

/-- Once nothing is outstanding, each created account has exactly one document in
"users", with the email and the username of its press. -/
def HasProfiles (s : AccountState) : Prop :=
  s.calls = [] → s.listeners = [] → s.writes = [] →
    ∀ a ∈ s.accounts, s.users.filter (fun p => p.userId = a.uid) = [a.profile]

/-! ### Single steps -/

theorem lastPressed_snoc (es : List AccountEvent) (e : AccountEvent) :
    lastPressed (es ++ [e]) = e.pressed.or (lastPressed es) := by
  simp only [lastPressed, List.foldl_append, List.foldl_cons, List.foldl_nil]

theorem lastCreated_snoc (es : List AccountEvent) (e : AccountEvent) :
    lastCreated (es ++ [e]) = e.created.or (lastCreated es) := by
  simp only [lastCreated, List.foldl_append, List.foldl_cons, List.foldl_nil]

/-- Every press, valid or not, overwrites the two fields. -/
theorem signUp_fields (a : RegisterActivity) :
    a.signUp.1.email = trim a.form.email ∧ a.signUp.1.username = trim a.form.username := by
  by_cases h : RegisterActivity.Rejects a.form
  · rw [RegisterActivity.signUp_of_rejects h]
    exact ⟨rfl, rfl⟩
  · rw [RegisterActivity.signUp_of_not_rejects h]
    exact ⟨rfl, rfl⟩

theorem press_of_rejects (s : AccountState) {form : RegisterForm}
    (h : RegisterActivity.Rejects form) :
    s.press form = { s with activity := ({ s.activity with form }.signUp).1 } := by
  have hsignUp := RegisterActivity.signUp_of_rejects (a := { s.activity with form }) h
  simp only [AccountState.press, hsignUp]

theorem press_of_not_rejects (s : AccountState) {form : RegisterForm}
    (h : ¬ RegisterActivity.Rejects form) :
    s.press form = { s with
      activity := ({ s.activity with form }.signUp).1
      calls := s.calls ++ [⟨s.made, form, true⟩]
      made := s.made + 1 } := by
  have hsignUp := RegisterActivity.signUp_of_not_rejects (a := { s.activity with form }) h
  simp only [AccountState.press, hsignUp]

/-- A press touches the activity and the calls only. -/
theorem press_eq (s : AccountState) (form : RegisterForm) : ∃ calls made,
    s.press form =
      { s with activity := ({ s.activity with form }.signUp).1, calls, made } := by
  unfold AccountState.press
  simp only
  split
  · exact ⟨_, _, rfl⟩
  · exact ⟨s.calls, s.made, rfl⟩

/-- What a step does to the fields, to the current user and to the accounts. -/
structure AccountFrame (s t : AccountState) (e : AccountEvent) : Prop where
  email : t.activity.email = (e.pressed.map fun f => trim f.email).getD s.activity.email
  username : t.activity.username =
    (e.pressed.map fun f => trim f.username).getD s.activity.username
  currentUser : t.currentUser = (e.created.map Account.uid).or s.currentUser
  accounts : t.accounts = s.accounts ++ e.created.toList
  fresh : ∀ a ∈ e.created, a.uid ∉ s.accounts.map Account.uid

/-- A step that neither presses nor creates keeps to the frame by changing nothing of it. -/
theorem accountFrame_of_eq {s t : AccountState} {e : AccountEvent} (hpressed : e.pressed = none)
    (hcreated : e.created = none) (hemail : t.activity.email = s.activity.email)
    (husername : t.activity.username = s.activity.username)
    (hcurrentUser : t.currentUser = s.currentUser) (haccounts : t.accounts = s.accounts) :
    AccountFrame s t e := by
  constructor
  · rw [hpressed, hemail, Option.map_none, Option.getD_none]
  · rw [hpressed, husername, Option.map_none, Option.getD_none]
  · rw [hcreated, hcurrentUser, Option.map_none, Option.none_or]
  · rw [hcreated, haccounts, Option.toList_none, List.append_nil]
  · rw [hcreated]
    rintro a ⟨⟩

theorem accountFrame_step {s t : AccountState} {e : AccountEvent}
    (h : accountCreation.step s e = some t) : AccountFrame s t e := by
  cases e with
  | press form =>
    simp only [accountCreation, Option.ite_none_right_eq_some, Option.some.injEq] at h
    obtain ⟨-, rfl⟩ := h
    obtain ⟨calls, made, heq⟩ := press_eq s form
    obtain ⟨hemail, husername⟩ := signUp_fields { s.activity with form }
    rw [heq]
    constructor
    · rw [AccountEvent.pressed, Option.map_some, Option.getD_some, hemail]
    · rw [AccountEvent.pressed, Option.map_some, Option.getD_some, husername]
    · simp [AccountEvent.created]
    · simp [AccountEvent.created]
    · simp [AccountEvent.created]
  | completed call uid =>
    cases uid with
    | none =>
      simp only [accountCreation, Option.ite_none_right_eq_some, Option.some.injEq] at h
      obtain ⟨-, rfl⟩ := h
      exact accountFrame_of_eq rfl rfl rfl rfl rfl rfl
    | some uid =>
      simp only [accountCreation, Option.ite_none_right_eq_some, Option.some.injEq] at h
      obtain ⟨⟨-, hfresh⟩, rfl⟩ := h
      refine ⟨rfl, rfl, rfl, rfl, ?_⟩
      rintro a ⟨⟩
      exact hfresh
  | listener account =>
    cases account with
    | none =>
      simp only [accountCreation, Option.ite_none_right_eq_some, Option.some.injEq] at h
      obtain ⟨-, rfl⟩ := h
      exact accountFrame_of_eq rfl rfl rfl rfl rfl rfl
    | some account =>
      simp only [accountCreation, Option.ite_none_right_eq_some, Option.map_eq_some_iff] at h
      obtain ⟨-, currentuser, -, rfl⟩ := h
      exact accountFrame_of_eq rfl rfl rfl rfl rfl rfl
  | _ =>
    simp only [accountCreation, Option.ite_none_right_eq_some, Option.some.injEq] at h
    obtain ⟨-, rfl⟩ := h
    exact accountFrame_of_eq rfl rfl rfl rfl rfl rfl

/-! ### Invariants of every run -/

/-- The fields are those of the last press, the current user is the account created
last, and no two accounts share a uid. -/
structure AccountInv (es : List AccountEvent) (s : AccountState) : Prop where
  email : ∀ form ∈ lastPressed es, s.activity.email = trim form.email
  username : ∀ form ∈ lastPressed es, s.activity.username = trim form.username
  current : s.currentUser = (lastCreated es).map Account.uid
  uids : (s.accounts.map Account.uid).Nodup

theorem accountInv_run {es : List AccountEvent} {s : AccountState}
    (h : accountCreation.run es = some s) : AccountInv es s := by
  refine run_induction (S := accountCreation) (I := AccountInv)
    ⟨by simp [lastPressed], by simp [lastPressed], rfl, List.nodup_nil⟩ ?_ h
  intro es s e t _ hs ht
  have hframe := accountFrame_step ht
  constructor
  · intro form hform
    rw [hframe.email]
    rw [lastPressed_snoc] at hform
    cases hpressed : e.pressed <;> simp_all [hs.email]
  · intro form hform
    rw [hframe.username]
    rw [lastPressed_snoc] at hform
    cases hpressed : e.pressed <;> simp_all [hs.username]
  · rw [hframe.currentUser, lastCreated_snoc, hs.current]
    cases e.created <;> rfl
  · rw [hframe.accounts]
    cases hcreated : e.created with
    | none => simpa using hs.uids
    | some a =>
      have hfresh := hframe.fresh a hcreated
      simpa [List.nodup_append] using ⟨hs.uids, by simpa using hfresh⟩

/-! ### Runs that keep to the condition -/

/-- The profiles under way: those whose listeners wait, those being added, and those
in "users". -/
def AccountState.profiles (s : AccountState) : List Profile :=
  s.listeners.reduceOption.map Account.profile ++ (s.writes ++ s.users)

/-- A listener that meets the condition adds the profile of its own account. -/
theorem newUser_eq_profile {es : List AccountEvent} {s : AccountState} {account : Account}
    {currentuser : String} (hs : AccountInv es s)
    (hC : KeepsProfiles es s (.listener (some account)))
    (hcurrent : s.currentUser = some currentuser) :
    s.activity.newUser currentuser = account.profile := by
  obtain ⟨hcreated, form, hform, hemail, husername⟩ := hC
  rw [← hs.current, hcurrent, Option.some.injEq] at hcreated
  rw [RegisterActivity.newUser, Account.profile, hs.email form hform, hs.username form hform,
    hcreated, hemail, husername]

/-- A step that keeps to the condition loses no profile and changes none. -/
theorem profiles_step {es : List AccountEvent} {s t : AccountState} {e : AccountEvent}
    (hs : accountCreation.run es = some s) (hC : KeepsProfiles es s e)
    (ht : accountCreation.step s e = some t) :
    t.profiles.Perm (s.profiles ++ e.created.toList.map Account.profile) := by
  cases e with
  | press form =>
    simp only [accountCreation, Option.ite_none_right_eq_some, Option.some.injEq] at ht
    obtain ⟨-, rfl⟩ := ht
    obtain ⟨calls, made, heq⟩ := press_eq s form
    rw [heq]
    simp [AccountState.profiles, AccountEvent.created]
  | completed call uid =>
    cases uid with
    | none =>
      simp only [accountCreation, Option.ite_none_right_eq_some, Option.some.injEq] at ht
      obtain ⟨-, rfl⟩ := ht
      by_cases hlistening : call.listening <;>
        simp [AccountState.profiles, AccountEvent.created, List.reduceOption_append, hlistening]
    | some uid =>
      simp only [accountCreation, Option.ite_none_right_eq_some, Option.some.injEq] at ht
      obtain ⟨-, rfl⟩ := ht
      have hlistening : call.listening = true := hC
      simp only [AccountState.profiles, AccountEvent.created, hlistening, if_true, Option.map_some,
        Option.toList_some, List.reduceOption_append, List.reduceOption_singleton, List.map_append,
        List.append_assoc]
      refine List.Perm.append_left _ ?_
      rw [← List.append_assoc s.writes]
      exact List.perm_append_comm
  | listener account =>
    cases account with
    | none =>
      simp only [accountCreation, Option.ite_none_right_eq_some, Option.some.injEq] at ht
      obtain ⟨hmem, rfl⟩ := ht
      have hrest : (s.listeners.erase none).reduceOption.Perm s.listeners.reduceOption :=
        ((List.perm_cons_erase hmem).filterMap id).symm
      simpa [AccountState.profiles, AccountEvent.created] using
        (hrest.map Account.profile).append_right (s.writes ++ s.users)
    | some account =>
      simp only [accountCreation, Option.ite_none_right_eq_some, Option.map_eq_some_iff] at ht
      obtain ⟨hmem, currentuser, hcurrent, rfl⟩ := ht
      have hnew : s.activity.newUser currentuser = account.profile :=
        newUser_eq_profile (accountInv_run hs) hC hcurrent
      have hwaiting : (account :: (s.listeners.erase (some account)).reduceOption).Perm
          s.listeners.reduceOption := ((List.perm_cons_erase hmem).filterMap id).symm
      have hmoved := (hwaiting.map Account.profile).append_right (s.writes ++ s.users)
      simp only [AccountState.profiles, hnew, AccountEvent.created, Option.toList_none,
        List.map_nil, List.append_nil]
      refine List.Perm.trans ?_ hmoved
      simp only [List.map_cons, List.cons_append, List.append_assoc, List.nil_append]
      rw [← List.append_assoc, ← List.append_assoc]
      exact List.perm_middle
  | stop =>
    simp only [accountCreation, Option.ite_none_right_eq_some, Option.some.injEq] at ht
    obtain ⟨-, rfl⟩ := ht
    have hnone : s.listeners.reduceOption = [] :=
      List.eq_nil_iff_forall_not_mem.mpr fun account hmem =>
        hC account (List.reduceOption_mem_iff.mp hmem)
    simp [AccountState.profiles, AccountEvent.created, hnone]
  | restart =>
    simp only [accountCreation, Option.ite_none_right_eq_some, Option.some.injEq] at ht
    obtain ⟨-, rfl⟩ := ht
    simp [AccountState.profiles, AccountEvent.created]
  | written profile =>
    simp only [accountCreation, Option.ite_none_right_eq_some, Option.some.injEq] at ht
    obtain ⟨hmem, rfl⟩ := ht
    have hadded :
        (s.writes.erase profile ++ (s.users ++ [profile])).Perm (s.writes ++ s.users) := by
      rw [← List.append_assoc]
      exact (List.perm_append_singleton ..).trans ((List.perm_cons_erase hmem).symm.append_right _)
    simpa [AccountState.profiles, AccountEvent.created] using hadded.append_left _
  | writeFailed profile => exact hC.elim

/-- The profiles under way are those of the accounts. -/
theorem profiles_run {es : List AccountEvent} {s : AccountState}
    (hC : accountCreation.EachStep KeepsProfiles es) (h : accountCreation.run es = some s) :
    s.profiles.Perm (s.accounts.map Account.profile) := by
  refine run_induction_of_eachStep
    (I := fun _ s => s.profiles.Perm (s.accounts.map Account.profile)) (List.Perm.refl []) ?_ hC h
  intro es s e t hs hperm hstep ht
  rw [(accountFrame_step ht).accounts, List.map_append]
  exact (profiles_step hs hstep ht).trans (hperm.append_right _)

/-- Among the profiles of accounts with distinct uids, each uid finds its own. -/
theorem filter_profiles {accounts : List Account} (hnodup : (accounts.map Account.uid).Nodup)
    {a : Account} (ha : a ∈ accounts) :
    (accounts.map Account.profile).filter (fun p => p.userId = a.uid) = [a.profile] := by
  induction accounts with
  | nil => cases ha
  | cons b rest ih =>
    rw [List.map_cons, List.nodup_cons] at hnodup
    obtain ⟨hb, hrest⟩ := hnodup
    rw [List.map_cons]
    rcases List.mem_cons.mp ha with rfl | ha
    · have hothers : (rest.map Account.profile).filter (fun p => p.userId = a.uid) = [] := by
        simp only [List.filter_eq_nil_iff, List.mem_map, decide_eq_true_eq]
        rintro p ⟨c, hc, rfl⟩ huid
        exact hb (List.mem_map.mpr ⟨c, hc, huid⟩)
      rw [List.filter_cons_of_pos (by simp [Account.profile]), hothers]
    · have hne : b.uid ≠ a.uid := fun huid => hb (List.mem_map.mpr ⟨a, ha, huid.symm⟩)
      rw [List.filter_cons_of_neg (by simp [Account.profile, hne])]
      exact ih hrest ha

/-- In a run that keeps to the condition, every account ends up with its own profile. -/
theorem hasProfiles_of_keepsProfiles {es : List AccountEvent} {s : AccountState}
    (hC : accountCreation.EachStep KeepsProfiles es) (h : accountCreation.run es = some s) :
    HasProfiles s := by
  intro _ hlisteners hwrites a ha
  have hperm := profiles_run hC h
  rw [AccountState.profiles, hlisteners, hwrites] at hperm
  have hfilter := hperm.filter fun p => p.userId = a.uid
  rw [filter_profiles (accountInv_run h).uids ha] at hfilter
  exact List.perm_singleton.mp hfilter

def asha : RegisterForm := ⟨"asha@mail", "Asha ", "secret", "secret"⟩

def ravi : RegisterForm := ⟨"ravi@mail", "Ravi", "secret", "secret"⟩

/-- One registration, with a second press of the same form while it is under way. -/
def oneRegistration : List AccountEvent :=
  [.press asha, .press { asha with password := " " }, .completed ⟨0, asha, true⟩ (some "a"),
    .listener (some ⟨"a", asha⟩), .written ⟨"asha@mail", "a", "Asha"⟩]

theorem oneRegistration_keepsProfiles : accountCreation.EachStep KeepsProfiles oneRegistration :=
  EachStepFrom.eachStep ⟨trivial, trivial, rfl,
    ⟨rfl, { asha with password := " " }, rfl, rfl, rfl⟩, trivial, trivial⟩

theorem hasProfiles_of_keepsProfiles_oneRegistration :
    ∃ s, accountCreation.run oneRegistration = some s ∧ s.accounts = [⟨"a", asha⟩] ∧
      HasProfiles s :=
  ⟨_, rfl, rfl, hasProfiles_of_keepsProfiles oneRegistration_keepsProfiles rfl⟩

/-- Two presses before the first listener runs. -/
def twoRegistrations : List AccountEvent :=
  [.press asha, .press ravi, .completed ⟨0, asha, true⟩ (some "a"), .listener (some ⟨"a", asha⟩),
    .written ⟨"ravi@mail", "a", "Ravi"⟩, .completed ⟨1, ravi, true⟩ (some "b"),
    .listener (some ⟨"b", ravi⟩), .written ⟨"ravi@mail", "b", "Ravi"⟩]

/-- Asha's account gets the email and the username of Ravi. -/
theorem twoRegistrations_not_hasProfiles :
    ∃ s, accountCreation.run twoRegistrations = some s ∧ ¬ HasProfiles s := by
  refine ⟨_, rfl, fun h => ?_⟩
  have hasha := h rfl rfl rfl ⟨"a", asha⟩ (by decide)
  exact absurd hasha (by decide)

end SewaConnect.Android
