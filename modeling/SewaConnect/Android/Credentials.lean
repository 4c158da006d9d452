import SewaConnect.Values.Value

/-! Registration and login on Android (`RegisterActivity.java`,
`LoginActivity.java`): what the two buttons check and what they send.
`signUp` trims its texts, looks at neither the email nor the confirmation, and
`signIn` does not trim; `registersSoundly_iff` gives the forms for which this
does no harm. -/

namespace SewaConnect.Android

open Values

/-- The texts typed into the four fields of the registration form. -/
structure RegisterForm where
  email : String
  username : String
  password : String
  confirmPassword : String
  deriving DecidableEq

/-- What a press of a button does besides changing its activity. -/
inductive AuthCall where
  | toast (text : String)
  | createUserWithEmailAndPassword (email password : String)
  | signInWithEmailAndPassword (email password : String)
  deriving DecidableEq

def checkIfStringNull (string : String) : Bool := string == ""

/-! ### `RegisterActivity` -/

structure RegisterActivity where
  /-- The contents of the edit texts. -/
  form : RegisterForm := ⟨"", "", "", ""⟩
  email : String := ""
  username : String := ""
  password : String := ""
  /-- The label of the button `mCreateAccount`. -/
  createAccount : String := "Create New Account"
  progressBarVisible : Bool := false
  deriving DecidableEq

namespace RegisterActivity

def signUp (a : RegisterActivity) : RegisterActivity × AuthCall :=
  let b := { a with
    email := trim a.form.email
    username := trim a.form.username
    password := trim a.form.password }
  if checkIfStringNull b.username || checkIfStringNull b.password then
    (b, .toast "You must fill out all the fields")
  else
    ({ b with createAccount := "", progressBarVisible := true },
      .createUserWithEmailAndPassword b.email b.password)

/-- The press is turned down: the username or the password is blank. -/
def Rejects (form : RegisterForm) : Prop := trim form.username = "" ∨ trim form.password = ""

instance (form : RegisterForm) : Decidable (Rejects form) := inferInstanceAs (Decidable (_ ∨ _))

theorem signUp_of_rejects {a : RegisterActivity} (h : Rejects a.form) :
    a.signUp = ({ a with
      email := trim a.form.email
      username := trim a.form.username
      password := trim a.form.password }, .toast "You must fill out all the fields") := by
  rcases h with h | h <;> simp [signUp, checkIfStringNull, h]

theorem signUp_of_not_rejects {a : RegisterActivity} (h : ¬ Rejects a.form) :
    a.signUp = ({ a with
      email := trim a.form.email
      username := trim a.form.username
      password := trim a.form.password
      createAccount := ""
      progressBarVisible := true },
      .createUserWithEmailAndPassword (trim a.form.email) (trim a.form.password)) := by
  obtain ⟨husername, hpassword⟩ := not_or.mp h
  simp [signUp, checkIfStringNull, husername, hpassword]

end RegisterActivity

/-! ### `LoginActivity` -/

structure LoginActivity where
  userEditText : String := ""
  passwordEditText : String := ""
  /-- The progress dialogs created so far. -/
  dialogs : ℕ := 0
  /-- The dialog that `mAlertDialog` refers to. -/
  mAlertDialog : Option ℕ := none
  /-- The dialogs on screen. -/
  showing : List ℕ := []
  deriving DecidableEq

namespace LoginActivity

def setProgressDialog (a : LoginActivity) : LoginActivity :=
  { a with
    dialogs := a.dialogs + 1
    mAlertDialog := some a.dialogs
    showing := a.showing ++ [a.dialogs] }

def signIn (a : LoginActivity) : LoginActivity × AuthCall :=
  let username := a.userEditText
  let password := a.passwordEditText
  if checkIfStringNull username || checkIfStringNull password then
    (a, .toast "You must fill out all the fields")
  else
    (a.setProgressDialog, .signInWithEmailAndPassword username password)

theorem signIn_of_blank {a : LoginActivity}
    (h : a.userEditText = "" ∨ a.passwordEditText = "") :
    a.signIn = (a, .toast "You must fill out all the fields") := by
  rcases h with h | h <;> simp [signIn, checkIfStringNull, h]

theorem signIn_of_filled {a : LoginActivity}
    (h : ¬ (a.userEditText = "" ∨ a.passwordEditText = "")) :
    a.signIn =
      (a.setProgressDialog, .signInWithEmailAndPassword a.userEditText a.passwordEditText) := by
  obtain ⟨husername, hpassword⟩ := not_or.mp h
  simp [signIn, checkIfStringNull, husername, hpassword]

/-- A sign-in that is sent carries the texts as they were typed. -/
theorem signIn_sends_iff {a : LoginActivity} {email password : String} :
    a.signIn.2 = .signInWithEmailAndPassword email password ↔
      a.userEditText ≠ "" ∧ a.passwordEditText ≠ "" ∧
        a.userEditText = email ∧ a.passwordEditText = password := by
  by_cases h : a.userEditText = "" ∨ a.passwordEditText = ""
  · rw [signIn_of_blank h]
    rcases h with h | h <;> simp [h]
  · rw [signIn_of_filled h]
    obtain ⟨husername, hpassword⟩ := not_or.mp h
    simp [husername, hpassword]

end LoginActivity

/-! ### What registers also logs in -/

/-- All fields are filled out and the password is confirmed. -/
def RegisterForm.Complete (f : RegisterForm) : Prop :=
  trim f.email ≠ "" ∧ trim f.username ≠ "" ∧ trim f.password ≠ "" ∧
    f.password = f.confirmPassword

/-- What pressing Create Account with the texts `f`, and later Log in with the same
email and password, is to do. -/
structure RegistersSoundly (f : RegisterForm) : Prop where
  complete : ∀ (a : RegisterActivity) email password,
    { a with form := f }.signUp.2 = .createUserWithEmailAndPassword email password → f.Complete
  otherwise : ¬ f.Complete → ∀ a : RegisterActivity,
    (∃ text, { a with form := f }.signUp.2 = .toast text) ∧
      { a with form := f }.signUp.1.createAccount = a.createAccount ∧
      { a with form := f }.signUp.1.progressBarVisible = a.progressBarVisible
  logsIn : ∀ (a : RegisterActivity) email password,
    { a with form := f }.signUp.2 = .createUserWithEmailAndPassword email password →
    ∀ l : LoginActivity,
      { l with userEditText := f.email, passwordEditText := f.password }.signIn.2 =
        .signInWithEmailAndPassword email password

theorem registersSoundly_of_rejects {f : RegisterForm} (h : RegisterActivity.Rejects f) :
    RegistersSoundly f := by
  have hsignUp (a : RegisterActivity) :=
    RegisterActivity.signUp_of_rejects (a := { a with form := f }) h
  constructor
  · intro a email password hcall
    simp [hsignUp] at hcall
  · intro _ a
    rw [hsignUp]
    exact ⟨⟨_, rfl⟩, rfl, rfl⟩
  · intro a email password hcall
    simp [hsignUp] at hcall

theorem registersSoundly_iff_of_not_rejects {f : RegisterForm}
    (h : ¬ RegisterActivity.Rejects f) :
    RegistersSoundly f ↔ trim f.email ≠ "" ∧ f.password = f.confirmPassword ∧
      f.email = trim f.email ∧ f.password = trim f.password := by
  have hsignUp (a : RegisterActivity) :=
    RegisterActivity.signUp_of_not_rejects (a := { a with form := f }) h
  obtain ⟨husername, hpassword⟩ := not_or.mp h
  constructor
  · intro hsound
    have hcomplete : f.Complete := hsound.complete {} _ _ (by rw [hsignUp])
    have hlogin := hsound.logsIn {} _ _ (by rw [hsignUp]) {}
    obtain ⟨-, -, hemail, hpass⟩ := LoginActivity.signIn_sends_iff.mp hlogin
    exact ⟨hcomplete.1, hcomplete.2.2.2, hemail, hpass⟩
  · rintro ⟨hemail, hconfirm, htrimEmail, htrimPassword⟩
    have hcomplete : f.Complete := ⟨hemail, husername, hpassword, hconfirm⟩
    refine ⟨fun _ _ _ _ => hcomplete, fun hnot => absurd hcomplete hnot, ?_⟩
    intro a email password hcall l
    rw [hsignUp, AuthCall.createUserWithEmailAndPassword.injEq] at hcall
    obtain ⟨rfl, rfl⟩ := hcall
    refine LoginActivity.signIn_sends_iff.mpr ⟨?_, ?_, htrimEmail, htrimPassword⟩
    · exact htrimEmail ▸ hemail
    · exact htrimPassword ▸ hpassword

/-- Exactly these forms register soundly: those with a blank username or password,
which are turned down; and those with a confirmed password and a nonblank email,
neither with anything to trim. -/
theorem registersSoundly_iff (f : RegisterForm) : RegistersSoundly f ↔
    (trim f.username = "" ∨ trim f.password = "") ∨
      (trim f.email ≠ "" ∧ f.password = f.confirmPassword ∧
        f.email = trim f.email ∧ f.password = trim f.password) := by
  by_cases h : RegisterActivity.Rejects f
  · exact ⟨fun _ => .inl h, fun _ => registersSoundly_of_rejects h⟩
  · rw [registersSoundly_iff_of_not_rejects h]
    exact ⟨.inr, fun hor => hor.resolve_left h⟩

/-- A password with a space at its end creates an account that does not log in. -/
theorem trailingSpace_not_registersSoundly :
    ¬ RegistersSoundly ⟨"asha@mail", "asha", "secret ", "secret "⟩ := by
  have h : ¬ RegisterActivity.Rejects ⟨"asha@mail", "asha", "secret ", "secret "⟩ := by decide
  rw [registersSoundly_iff_of_not_rejects h]
  decide

end SewaConnect.Android
