import Mathlib.Data.Finset.Insert
import SewaConnect.Ios.RemoteDataProvider

/-! `InfoTableViewController.swift`: the form's fields, the selection of a table
row and the submission. The table is static, so the accessories of its cells
belong to the controller's state; `cellForRow` reaches a cell only while its row
is visible. -/

namespace SewaConnect.Ios

open Values

inductive SubmissionType where
  | requestHelp | volunteering
  deriving DecidableEq

structure IndexPath where
  row : ℕ
  «section» : ℕ
  deriving DecidableEq

/-- The labels of the section "Type of help?", as the storyboard lists them. -/
def helpRowLabels : List String := ["Family Services", "Disaster Recovery", "Tutoring"]

/-- `tableView(_:numberOfRowsInSection:)` -/
def numberOfRowsInSection (s : ℕ) : ℕ :=
  match s with
  | 0 => 3
  | _ => 6

/-- A row of one of the two sections. -/
def IndexPath.InTable (indexPath : IndexPath) : Prop :=
  indexPath.section < 2 ∧ indexPath.row < numberOfRowsInSection indexPath.section

instance (indexPath : IndexPath) : Decidable indexPath.InTable :=
  inferInstanceAs (Decidable (_ ∧ _))

/-- The help type a post carries. -/
def Post.helpType : Post → HelpType
  | .request r => r.requestingHelpType
  | .volunteer v => v.offeringHelpType

structure InfoTableViewController where
  selectedIndexPath : Option IndexPath := none
  submissionType : Option SubmissionType := none
  emailTextField : String := ""
  phoneTextField : String := ""
  nameTextField : String := ""
  additionaInfo : String := ""
  /-- The rows whose cells have the accessory `.checkmark`. -/
  checkmarks : Finset IndexPath := ∅
  deriving DecidableEq

namespace InfoTableViewController

/-- `tableView.cellForRow(at: indexPath)?.accessoryType = .none` -/
def clearAccessory (c : InfoTableViewController) (visible : Finset IndexPath)
    (indexPath : IndexPath) : InfoTableViewController :=
  if indexPath ∈ visible then { c with checkmarks := c.checkmarks.erase indexPath } else c

/-- `tableView.cellForRow(at: indexPath)?.accessoryType = .checkmark` -/
def setCheckmark (c : InfoTableViewController) (visible : Finset IndexPath)
    (indexPath : IndexPath) : InfoTableViewController :=
  if indexPath ∈ visible then { c with checkmarks := insert indexPath c.checkmarks } else c

/-- `tableView(_:didSelectRowAt:)` while the rows in `visible` are on screen. -/
def didSelectRowAt (c : InfoTableViewController) (visible : Finset IndexPath)
    (indexPath : IndexPath) : InfoTableViewController :=
  if indexPath = ⟨5, 1⟩ then c
  else
    let cleared := match c.selectedIndexPath with
      | some previouslySelectedIndexPath => c.clearAccessory visible previouslySelectedIndexPath
      | none => c
    { cleared.setCheckmark visible indexPath with selectedIndexPath := some indexPath }

/-- The second half of `submit(_:)`: what is posted for the chosen help type. -/
def post (c : InfoTableViewController) (helpType : HelpType) (identifierForVendor : String)
    (now : Double) : Post :=
  if c.submissionType = some .requestHelp then
    let requestor : Requestor := {
      userId := identifierForVendor, name := c.nameTextField, type := .helpSeeker,
      email := c.emailTextField, phone := c.phoneTextField, location := none }
    .request {
      requestingHelpType := helpType, requestor := .requestor requestor,
      additionInfo := some c.additionaInfo, createdAtUTC := now, lastModifiedAt := some now }
  else
    .volunteer {
      name := c.nameTextField, userId := identifierForVendor, type := .volunteer,
      email := c.emailTextField, phone := c.phoneTextField, location := none,
      offeringHelpType := helpType }

/-- `submit(_:)`: what is posted, if the guard passes. -/
def submit (c : InfoTableViewController) (identifierForVendor : String) (now : Double) :
    Option Post := do
  let index ← c.selectedIndexPath.map IndexPath.row
  let helpType ← ofRawValue index
  return c.post helpType identifierForVendor now

/-! ### Selecting a row -/

@[simp] theorem didSelectRowAt_submitRow (c : InfoTableViewController)
    (visible : Finset IndexPath) : c.didSelectRowAt visible ⟨5, 1⟩ = c := if_pos rfl

/-- The checkmarks left once the row selected before has been cleared. -/
def remainingCheckmarks (c : InfoTableViewController) (visible : Finset IndexPath) :
    Finset IndexPath :=
  match c.selectedIndexPath with
  | some previous => if previous ∈ visible then c.checkmarks.erase previous else c.checkmarks
  | none => c.checkmarks

/-- A tap on a visible row selects and marks it. The row selected before loses its
checkmark only while it is visible, and nothing else changes. -/
theorem didSelectRowAt_eq (c : InfoTableViewController) {visible : Finset IndexPath}
    {indexPath : IndexPath} (h : indexPath ≠ ⟨5, 1⟩) (hvisible : indexPath ∈ visible) :
    c.didSelectRowAt visible indexPath = { c with
      selectedIndexPath := some indexPath
      checkmarks := insert indexPath (c.remainingCheckmarks visible) } := by
  unfold didSelectRowAt remainingCheckmarks
  rw [if_neg h]
  cases hprevious : c.selectedIndexPath with
  | none => simp [setCheckmark, hvisible]
  | some previous =>
    by_cases hp : previous ∈ visible <;> simp [clearAccessory, setCheckmark, hvisible, hp]

/-! ### Submitting -/

theorem submit_eq_some {c : InfoTableViewController} {identifierForVendor : String}
    {now : Double} {p : Post} (h : c.submit identifierForVendor now = some p) :
    ∃ indexPath helpType, c.selectedIndexPath = some indexPath ∧
      ofRawValue (indexPath.row : ℤ) = some helpType ∧
      p = c.post helpType identifierForVendor now := by
  simp only [submit, Option.bind_eq_bind, Option.bind_eq_some_iff, Option.map_eq_some_iff,
    Option.pure_def, Option.some.injEq] at h
  obtain ⟨_, ⟨indexPath, hselected, rfl⟩, helpType, hhelp, rfl⟩ := h
  exact ⟨indexPath, helpType, hselected, hhelp, rfl⟩

theorem submit_of_selected {c : InfoTableViewController} {indexPath : IndexPath}
    {helpType : HelpType} (hselected : c.selectedIndexPath = some indexPath)
    (hhelp : ofRawValue (indexPath.row : ℤ) = some helpType) (identifierForVendor : String)
    (now : Double) :
    c.submit identifierForVendor now = some (c.post helpType identifierForVendor now) := by
  simp [submit, hselected, hhelp]

theorem submit_of_none {c : InfoTableViewController} (hselected : c.selectedIndexPath = none)
    (identifierForVendor : String) (now : Double) : c.submit identifierForVendor now = none := by
  simp [submit, hselected]

variable (c : InfoTableViewController) (helpType : HelpType) (identifierForVendor : String)
  (now : Double)

@[simp] theorem post_helpType :
    (c.post helpType identifierForVendor now).helpType = helpType := by
  unfold post
  split <;> rfl

@[simp] theorem post_email :
    (c.post helpType identifierForVendor now).user.email = c.emailTextField := by
  unfold post
  split <;> rfl

@[simp] theorem post_phone :
    (c.post helpType identifierForVendor now).user.phone = c.phoneTextField := by
  unfold post
  split <;> rfl

@[simp] theorem post_name :
    (c.post helpType identifierForVendor now).user.name = c.nameTextField := by
  unfold post
  split <;> rfl

end InfoTableViewController

end SewaConnect.Ios
