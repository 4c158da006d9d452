import SewaConnect.Runs.System
import SewaConnect.Ios.InfoTableViewController

/-! Choosing the help type by tapping rows, over every history of taps, scrolls and
submissions. Three things go wrong in the source: a tap in the section "Your
information" is selected and marked like one of a help type; a row that has
scrolled away keeps its checkmark when another one is tapped; and the storyboard
lists the first two help types in the other order than the raw values by which
`submit` decodes a row. `showsChosenHelpType_iff` says that there is no fourth. -/

namespace SewaConnect.Ios

open Values Runs Runs.System InfoTableViewController

inductive TableEvent where
  /-- Scrolling or layout: the rows that are on screen from now on. -/
  | scroll (visible : Finset IndexPath)
  | tap (indexPath : IndexPath)
  | submit (identifierForVendor : String) (now : Double)

structure TableState where
  controller : InfoTableViewController
  visible : Finset IndexPath := ∅

/-- Only a row of the table that is on screen can be tapped. -/
def table (submissionType : Option SubmissionType) : System TableState TableEvent where
  init := { controller := { submissionType } }
  step s
    | .scroll visible => some { s with visible }
    | .tap indexPath =>
      if indexPath.InTable ∧ indexPath ∈ s.visible then
        some { s with controller := s.controller.didSelectRowAt s.visible indexPath }
      else none
    | .submit _ _ => some s

variable {submissionType : Option SubmissionType}

/-- The row of "Type of help?" tapped last. -/
def lastHelpRow (es : List TableEvent) : Option ℕ :=
  es.foldl (fun last e =>
    match e with
    | .tap ⟨row, 0⟩ => some row
    | _ => last) none

/-- The checkmarks the form should show: one, in the row of the help type tapped last. -/
def chosenRow (last : Option ℕ) : Finset IndexPath :=
  match last with
  | some row => {⟨row, 0⟩}
  | none => ∅

/-- A submission posts just when a help type has been tapped, and then with the
help type that the checked row is labelled with. -/
def SubmitsChosenRow (last : Option ℕ) (c : InfoTableViewController)
    (identifierForVendor : String) (now : Double) : Prop :=
  ((c.submit identifierForVendor now).isSome ↔ last.isSome) ∧
    ∀ post row, c.submit identifierForVendor now = some post → ⟨row, 0⟩ ∈ c.checkmarks →
      helpRowLabels[row]? = some post.helpType.typeName

/-- What the form promises at each moment: the checkmark is on the help row tapped
last and nowhere else, and a submission just made carried that row's help type. -/
def ShowsChosenHelpType (es : List TableEvent) (s : TableState) : Prop :=
  s.controller.checkmarks = chosenRow (lastHelpRow es) ∧
    ∀ identifierForVendor now, es.getLast? = some (.submit identifierForVendor now) →
      SubmitsChosenRow (lastHelpRow es) s.controller identifierForVendor now

/-- Taps hit help rows, while the row chosen before is on screen, or the row of the
Submit button; and Submit is pressed only for the third help type, or for none. -/
def KeepsHelpType (es : List TableEvent) (s : TableState) : TableEvent → Prop
  | .scroll _ => True
  | .tap indexPath => indexPath = ⟨5, 1⟩ ∨
      indexPath.section = 0 ∧ ∀ row, lastHelpRow es = some row → ⟨row, 0⟩ ∈ s.visible
  | .submit _ _ => lastHelpRow es = none ∨ lastHelpRow es = some 2

/-! ### Single steps -/

@[simp] theorem lastHelpRow_nil : lastHelpRow [] = none := rfl

theorem lastHelpRow_snoc (es : List TableEvent) (e : TableEvent) :
    lastHelpRow (es ++ [e]) =
      match e with
      | .tap ⟨row, 0⟩ => some row
      | _ => lastHelpRow es := by
  simp only [lastHelpRow, List.foldl_append, List.foldl_cons, List.foldl_nil]

theorem table_tap {s t : TableState} {indexPath : IndexPath}
    (h : (table submissionType).step s (.tap indexPath) = some t) :
    indexPath.InTable ∧ indexPath ∈ s.visible ∧
      t = { s with controller := s.controller.didSelectRowAt s.visible indexPath } := by
  simp only [table, Option.ite_none_right_eq_some, Option.some.injEq] at h
  exact ⟨h.1.1, h.1.2, h.2.symm⟩

theorem mem_chosenRow {last : Option ℕ} {indexPath : IndexPath} :
    indexPath ∈ chosenRow last ↔ ∃ row, last = some row ∧ indexPath = ⟨row, 0⟩ := by
  cases last <;> simp [chosenRow]

/-- While the condition has been met, the selected row is the help row tapped last. -/
theorem selectedIndexPath_run {es : List TableEvent} {s : TableState}
    (hes : (table submissionType).EachStep KeepsHelpType es)
    (h : (table submissionType).run es = some s) :
    s.controller.selectedIndexPath = (lastHelpRow es).map fun row => ⟨row, 0⟩ := by
  refine run_induction_of_eachStep (S := table submissionType)
    (I := fun es s => s.controller.selectedIndexPath = (lastHelpRow es).map fun row => ⟨row, 0⟩)
    rfl ?_ hes h
  intro es s e t _ hs hC ht
  cases e with
  | scroll visible =>
    simp only [table, Option.some.injEq] at ht
    subst t
    simpa [lastHelpRow_snoc] using hs
  | submit identifierForVendor now =>
    simp only [table, Option.some.injEq] at ht
    subst t
    simpa [lastHelpRow_snoc] using hs
  | tap indexPath =>
    obtain ⟨-, hvisible, rfl⟩ := table_tap ht
    rcases hC with rfl | ⟨hsection, -⟩
    · simpa [lastHelpRow_snoc] using hs
    · obtain ⟨row, sec⟩ := indexPath
      obtain rfl : sec = 0 := hsection
      simp [lastHelpRow_snoc, didSelectRowAt_eq _ _ hvisible]

theorem lastHelpRow_lt {es : List TableEvent} {s : TableState}
    (h : (table submissionType).run es = some s) : ∀ row, lastHelpRow es = some row → row < 3 := by
  refine run_induction (S := table submissionType)
    (I := fun es _ => ∀ row, lastHelpRow es = some row → row < 3) (by simp) ?_ h
  intro es s e t _ hs ht row hrow
  rw [lastHelpRow_snoc] at hrow
  split at hrow
  · next row' =>
    obtain ⟨hrange, -, -⟩ := table_tap ht
    obtain rfl : row' = row := Option.some.inj hrow
    exact hrange.2
  · exact hs row hrow

/-- A tap keeps the one checkmark just when it meets the condition. -/
theorem checkmarks_tap_iff {c : InfoTableViewController} {visible : Finset IndexPath}
    {last : Option ℕ} {row : ℕ} (hselected : c.selectedIndexPath = last.map fun r => ⟨r, 0⟩)
    (hmarks : c.checkmarks = chosenRow last) (hvisible : ⟨row, 0⟩ ∈ visible) :
    (c.didSelectRowAt visible ⟨row, 0⟩).checkmarks = chosenRow (some row) ↔
      ∀ r, last = some r → ⟨r, 0⟩ ∈ visible := by
  rw [didSelectRowAt_eq c (by simp) hvisible]
  simp only [remainingCheckmarks, hselected, hmarks]
  cases last with
  | none => simp [chosenRow]
  | some r =>
    by_cases hr : (⟨r, 0⟩ : IndexPath) ∈ visible
    · simp [chosenRow, hr]
    · -- the row chosen before is off screen, so it is another row and stays checked
      have hne : row ≠ r := by
        rintro rfl
        exact hr hvisible
      simpa [chosenRow, hr, Finset.ext_iff] using hne.symm

/-- A tap in "Your information", other than on Submit, leaves a checkmark there. -/
theorem checkmarks_tap_information {c : InfoTableViewController} {visible : Finset IndexPath}
    {indexPath : IndexPath} (last : Option ℕ) (hsubmit : indexPath ≠ ⟨5, 1⟩)
    (hsection : indexPath.section ≠ 0) (hvisible : indexPath ∈ visible) :
    (c.didSelectRowAt visible indexPath).checkmarks ≠ chosenRow last := by
  rw [didSelectRowAt_eq c hsubmit hvisible]
  intro heq
  have hmem : indexPath ∈ chosenRow last := heq ▸ Finset.mem_insert_self _ _
  obtain ⟨row, -, rfl⟩ := mem_chosenRow.mp hmem
  exact hsection rfl

/-- The labels and the raw values agree in the third row only. -/
theorem submitsChosenRow_iff {c : InfoTableViewController} {last : Option ℕ}
    (hselected : c.selectedIndexPath = last.map fun r => ⟨r, 0⟩)
    (hmarks : c.checkmarks = chosenRow last) (hlast : ∀ row, last = some row → row < 3)
    (identifierForVendor : String) (now : Double) :
    SubmitsChosenRow last c identifierForVendor now ↔ last = none ∨ last = some 2 := by
  cases last with
  | none => simp [SubmitsChosenRow, submit_of_none hselected]
  | some row =>
    have hrow := hlast row rfl
    have hpost (helpType : HelpType) (hhelp : ofRawValue (row : ℤ) = some helpType) :
        SubmitsChosenRow (some row) c identifierForVendor now ↔
          helpRowLabels[row]? = some helpType.typeName := by
      simp [SubmitsChosenRow, submit_of_selected hselected hhelp, hmarks, chosenRow]
    match row, hrow with
    | 0, _ => simp [hpost .disasterRecovery rfl, helpRowLabels, HelpType.typeName]
    | 1, _ => simp [hpost .familyServices rfl, helpRowLabels, HelpType.typeName]
    | 2, _ => simp [hpost .tutoring rfl, helpRowLabels, HelpType.typeName]

/-! ### Runs -/

/-- In every run, the form shows and submits the help type tapped last at each moment
exactly when all steps keep to `KeepsHelpType`. -/
theorem showsChosenHelpType_iff {es : List TableEvent} {s : TableState}
    (h : (table submissionType).run es = some s) :
    (table submissionType).EachState ShowsChosenHelpType es ↔
      (table submissionType).EachStep KeepsHelpType es := by
  refine eachState_iff_eachStep ⟨rfl, by simp⟩ ?_ h
  intro es s e t hs hes hP ht
  have hselected := selectedIndexPath_run hes hs
  cases e with
  | scroll visible =>
    simp only [table, Option.some.injEq] at ht
    subst t
    simp [ShowsChosenHelpType, KeepsHelpType, lastHelpRow_snoc, hP.1]
  | submit identifierForVendor now =>
    simp only [table, Option.some.injEq] at ht
    subst t
    simp [ShowsChosenHelpType, KeepsHelpType, lastHelpRow_snoc, hP.1,
      submitsChosenRow_iff hselected hP.1 (lastHelpRow_lt hs)]
  | tap indexPath =>
    obtain ⟨-, hvisible, rfl⟩ := table_tap ht
    by_cases hsubmit : indexPath = ⟨5, 1⟩
    · subst hsubmit
      simp [ShowsChosenHelpType, KeepsHelpType, lastHelpRow_snoc, hP.1]
    · by_cases hsection : indexPath.section = 0
      · obtain ⟨row, sec⟩ := indexPath
        obtain rfl : sec = 0 := hsection
        simp [ShowsChosenHelpType, KeepsHelpType, lastHelpRow_snoc,
          checkmarks_tap_iff hselected hP.1 hvisible]
      · have hne := checkmarks_tap_information (c := s.controller)
          (lastHelpRow (es ++ [.tap indexPath])) hsubmit hsection hvisible
        simp [ShowsChosenHelpType, KeepsHelpType, hne, hsubmit, hsection]

/-- A tap on the first help row, labelled "Family Services", and Submit. -/
def familyServicesTaps : List TableEvent :=
  [.scroll {⟨0, 0⟩}, .tap ⟨0, 0⟩, .submit "device" 0]

/-- A tap on the first help row and, with that one in view, on the third; then Submit. -/
def tutoringTaps : List TableEvent :=
  [.scroll {⟨0, 0⟩, ⟨2, 0⟩}, .tap ⟨0, 0⟩, .tap ⟨2, 0⟩, .submit "device" 0]

theorem tutoringTaps_keepsHelpType :
    (table (some .requestHelp)).EachStep KeepsHelpType tutoringTaps :=
  EachStepFrom.eachStep ⟨trivial, .inr ⟨rfl, nofun⟩,
    .inr ⟨rfl, by rintro row ⟨⟩; decide⟩, .inr rfl, trivial⟩

theorem showsChosenHelpType_iff_familyServices :
    (((table (some .requestHelp)).run tutoringTaps).isSome ∧
      (table (some .requestHelp)).EachState ShowsChosenHelpType tutoringTaps) ∧
    ((table (some .requestHelp)).run familyServicesTaps).isSome ∧
      ((table (some .requestHelp)).EachState ShowsChosenHelpType familyServicesTaps ↔
        (table (some .requestHelp)).EachStep KeepsHelpType familyServicesTaps) :=
  ⟨⟨rfl, (showsChosenHelpType_iff rfl).mpr tutoringTaps_keepsHelpType⟩, rfl,
    showsChosenHelpType_iff rfl⟩

/-- The row shows "Family Services" and the request says "Disaster Recovery". -/
theorem familyServicesTaps_not_showsChosenHelpType :
    ((table (some .requestHelp)).run familyServicesTaps).isSome ∧
      ¬ (table (some .requestHelp)).EachState ShowsChosenHelpType familyServicesTaps := by
  refine ⟨rfl, fun h => ?_⟩
  obtain ⟨-, hsubmit⟩ := h familyServicesTaps [] _ rfl rfl
  obtain ⟨-, hlabel⟩ := hsubmit "device" 0 rfl
  have hlabels := hlabel _ 0 rfl (by decide)
  exact absurd hlabels (by decide)

end SewaConnect.Ios
