import Mathlib.Logic.Function.Basic
import SewaConnect.Runs.System

/-! The rows of the request list (`RequestsAdapter.java`, `requests_model.xml`). A row
holder is bound again and again, to any position. The texts and the image are set by
every bind, the colour of the status only by one to a completed request, and nothing
sets it back (`showsRequest_iff`). -/

namespace SewaConnect.Android

open Runs Runs.System

inductive StatusColour where
  | colorBlackFont
  | standardGreen
  deriving DecidableEq

/-- What a row displays, as the layout leaves it. -/
structure RequestsAdapter.ViewHolder where
  type : String := "Tutoring"
  status : String := "In Progress"
  message : String := "My son is looking for a math tutor"
  time : String := "created: Oct 31st, 2019"
  /-- The source the image view was last told to load. -/
  image : Option String := none
  statusColour : StatusColour := .colorBlackFont
  deriving DecidableEq

/-- One position of the five lists. -/
structure RequestRow where
  type : String
  status : String
  message : String
  time : String
  image : String
  deriving DecidableEq

structure RequestsAdapter where
  mType : List String
  mStatus : List String
  mMessage : List String
  mTime : List String
  mImage : List String
  type_length : mType.length = mMessage.length
  status_length : mStatus.length = mMessage.length
  time_length : mTime.length = mMessage.length
  image_length : mImage.length = mMessage.length

namespace RequestsAdapter

def getItemCount (a : RequestsAdapter) : ℕ := a.mMessage.length

/-- `none` is the exception of `ArrayList.get`. -/
def onBindViewHolder (a : RequestsAdapter) (holder : ViewHolder) (position : ℕ) :
    Option ViewHolder := do
  let checked ← a.mStatus[position]?
  let coloured :=
    if checked == "Completed" then { holder with statusColour := .standardGreen } else holder
  let type ← a.mType[position]?
  let status ← a.mStatus[position]?
  let message ← a.mMessage[position]?
  let time ← a.mTime[position]?
  let image ← a.mImage[position]?
  return { coloured with type, status, message, time, image := some image }

/-- The entry at a position. -/
def row (a : RequestsAdapter) (position : ℕ) : Option RequestRow := do
  let type ← a.mType[position]?
  let status ← a.mStatus[position]?
  let message ← a.mMessage[position]?
  let time ← a.mTime[position]?
  let image ← a.mImage[position]?
  return { type, status, message, time, image }

end RequestsAdapter

def RequestRow.Completed (row : RequestRow) : Prop := row.status = "Completed"

instance (row : RequestRow) : Decidable row.Completed := inferInstanceAs (Decidable (_ = _))

/-- What a holder is to display of an entry. -/
def RequestRow.shown (row : RequestRow) : RequestsAdapter.ViewHolder where
  type := row.type
  status := row.status
  message := row.message
  time := row.time
  image := some row.image
  statusColour := if row.Completed then .standardGreen else .colorBlackFont

/-! ### One bind -/

namespace RequestsAdapter

/-- Each position the recycler view can ask for has an entry. -/
theorem exists_row_iff (a : RequestsAdapter) (position : ℕ) :
    (∃ row, a.row position = some row) ↔ position < a.getItemCount := by
  have htype := a.type_length
  have hstatus := a.status_length
  have htime := a.time_length
  have himage := a.image_length
  constructor
  · rintro ⟨row, hrow⟩
    simp only [RequestsAdapter.row, Option.bind_eq_bind, Option.bind_eq_some_iff] at hrow
    obtain ⟨-, -, -, -, message, hmessage, -⟩ := hrow
    exact (List.getElem?_eq_some_iff.mp hmessage).1
  · intro hposition
    rw [getItemCount] at hposition
    simp [RequestsAdapter.row, htype, hstatus, htime, himage, hposition]

/-- A bind shows the entry, in green if it is completed and else in whatever colour
the holder had. -/
theorem onBindViewHolder_eq (a : RequestsAdapter) (holder : ViewHolder) (position : ℕ) :
    a.onBindViewHolder holder position = (a.row position).map fun row => { row.shown with
      statusColour := if row.Completed then .standardGreen else holder.statusColour } := by
  cases hstatus : a.mStatus[position]? with
  | none =>
    have hrow : a.row position = none := by
      cases htype : a.mType[position]? <;> simp [RequestsAdapter.row, hstatus, htype]
    simp [onBindViewHolder, hstatus, hrow]
  | some status =>
    by_cases hcompleted : status = "Completed"
    · simp [onBindViewHolder, RequestsAdapter.row, RequestRow.Completed, RequestRow.shown,
        hstatus, hcompleted, Option.map_bind]
    · simp [onBindViewHolder, RequestsAdapter.row, RequestRow.Completed, RequestRow.shown,
        hstatus, hcompleted, Option.map_bind]

end RequestsAdapter

/-! ### A pool of holders -/

/-- A call of `onBindViewHolder` with a holder of the pool `H`. -/
structure Bind (H : Type*) where
  holder : H
  position : ℕ

/-- The holders, and what each displays. -/
abbrev Pool (H : Type*) := H → RequestsAdapter.ViewHolder

variable {H : Type*}

/-- The holder bound last displays its entry, and nothing of what it displayed before. -/
def ShowsRequest (a : RequestsAdapter) (binds : List (Bind H)) (pool : Pool H) : Prop :=
  ∀ bind row, binds.getLast? = some bind → a.row bind.position = some row →
    pool bind.holder = row.shown

/-- The bind is to a completed request. -/
def Bind.Completes (a : RequestsAdapter) (bind : Bind H) : Prop :=
  ∃ row, a.row bind.position = some row ∧ row.Completed

/-- A holder that was ever bound to a completed request is bound to such requests only. -/
def StaysCompleted (a : RequestsAdapter) (binds : List (Bind H)) (_ : Pool H)
    (bind : Bind H) : Prop :=
  (∃ earlier ∈ binds, earlier.holder = bind.holder ∧ earlier.Completes a) → bind.Completes a

theorem showsRequest_snoc {a : RequestsAdapter} {binds : List (Bind H)} {pool : Pool H}
    {bind : Bind H} {row : RequestRow} (hrow : a.row bind.position = some row) :
    ShowsRequest a (binds ++ [bind]) pool ↔ pool bind.holder = row.shown := by
  constructor
  · intro h
    exact h bind row List.getLast?_concat hrow
  · intro h bind' row' hlast hrow'
    obtain rfl : bind = bind' := by simpa using hlast
    obtain rfl : row = row' := Option.some.inj (hrow.symm.trans hrow')
    exact h

/-- The colour a bind leaves is the right one unless it is an old green. -/
theorem coloured_eq_shown_iff (row : RequestRow) (old : StatusColour) :
    { row.shown with statusColour := if row.Completed then .standardGreen else old } =
      row.shown ↔ (old = .standardGreen → row.Completed) := by
  by_cases hcompleted : row.Completed
  · simp [RequestRow.shown, hcompleted]
  · cases old <;> simp [RequestRow.shown, hcompleted]

variable [DecidableEq H]

/-- Every holder starts as `onCreateViewHolder` inflates it. -/
def recycling (a : RequestsAdapter) : System (Pool H) (Bind H) where
  init := fun _ => {}
  step pool bind :=
    (a.onBindViewHolder (pool bind.holder) bind.position).map (Function.update pool bind.holder)

theorem recycling_step {a : RequestsAdapter} {pool pool' : Pool H} {bind : Bind H}
    (h : (recycling a).step pool bind = some pool') :
    ∃ row, a.row bind.position = some row ∧ pool' = Function.update pool bind.holder
      { row.shown with statusColour :=
          if row.Completed then .standardGreen else (pool bind.holder).statusColour } := by
  simp only [recycling, RequestsAdapter.onBindViewHolder_eq, Option.map_map,
    Option.map_eq_some_iff] at h
  obtain ⟨row, hrow, rfl⟩ := h
  exact ⟨row, hrow, rfl⟩

/-- The binds that throw no exception are those to the positions of `getItemCount`. -/
theorem recycling_runs_iff (a : RequestsAdapter) (binds : List (Bind H)) :
    (∃ pool, (recycling a).run binds = some pool) ↔
      ∀ bind ∈ binds, bind.position < a.getItemCount := by
  induction binds using List.reverseRecOn with
  | nil => simp
  | append_singleton binds bind ih =>
    have hstep (pool : Pool H) : (∃ pool', (recycling a).step pool bind = some pool') ↔
        bind.position < a.getItemCount := by
      rw [← a.exists_row_iff]
      simp [recycling, RequestsAdapter.onBindViewHolder_eq]
    simp only [run_snoc, List.forall_mem_append, List.forall_mem_singleton, ← ih]
    constructor
    · rintro ⟨pool', pool, hpool, hbind⟩
      exact ⟨⟨pool, hpool⟩, (hstep pool).mp ⟨pool', hbind⟩⟩
    · rintro ⟨⟨pool, hpool⟩, hposition⟩
      obtain ⟨pool', hbind⟩ := (hstep pool).mpr hposition
      exact ⟨pool', pool, hpool, hbind⟩

/-- A status is green just when its holder was ever bound to a completed request. -/
theorem green_iff {a : RequestsAdapter} {binds : List (Bind H)} {pool : Pool H}
    (h : (recycling a).run binds = some pool) (holder : H) :
    (pool holder).statusColour = .standardGreen ↔
      ∃ earlier ∈ binds, earlier.holder = holder ∧ earlier.Completes a := by
  refine run_induction (S := recycling a) (I := fun binds pool =>
    (pool holder).statusColour = .standardGreen ↔
      ∃ earlier ∈ binds, earlier.holder = holder ∧ earlier.Completes a) ?_ ?_ h
  · simp [recycling]
  · intro binds pool bind pool' _ ih hstep
    obtain ⟨row, hrow, rfl⟩ := recycling_step hstep
    have hcompletes : bind.Completes a ↔ row.Completed := by
      simp [Bind.Completes, hrow]
    simp only [List.mem_append, List.mem_singleton, or_and_right, exists_or, exists_eq_left,
      ← ih, hcompletes]
    by_cases hholder : bind.holder = holder
    · subst hholder
      by_cases hcompleted : row.Completed <;> simp [hcompleted]
    · rw [Function.update_of_ne (Ne.symm hholder)]
      simp [hholder]

/-- In every run over any pool, each bind shows just its request, green if and only if it is
completed, exactly when no holder goes from a completed request to another one. -/
theorem showsRequest_iff (a : RequestsAdapter) {binds : List (Bind H)} {pool : Pool H}
    (h : (recycling a).run binds = some pool) :
    (recycling a).EachState (ShowsRequest a) binds ↔
      (recycling a).EachStep (StaysCompleted a) binds := by
  refine eachState_iff_eachStep ?_ ?_ h
  · simp [ShowsRequest]
  · intro binds pool bind pool' hrun _ _ hstep
    obtain ⟨row, hrow, rfl⟩ := recycling_step hstep
    have hcompletes : bind.Completes a ↔ row.Completed := by
      simp [Bind.Completes, hrow]
    rw [showsRequest_snoc hrow, Function.update_self, coloured_eq_shown_iff, green_iff hrun,
      StaysCompleted, hcompletes]

/-- A completed request and one under way. -/
def twoRequests : RequestsAdapter where
  mType := ["Family Services", "Disaster Recovery"]
  mStatus := ["Completed", "In progress"]
  mMessage := ["test input 1", "I would like to partake in helping disaster victims"]
  mTime := ["Created Oct. 21st, 2019", "Created Oct. 24th, 2019"]
  mImage := ["https://i.imgur.com/h9gla36.jpg", "https://i.imgur.com/q3XVRYl.png"]
  type_length := rfl
  status_length := rfl
  time_length := rfl
  image_length := rfl

/-- One holder, bound to the request under way and then to the completed one. -/
def intoCompleted : List (Bind Unit) := [⟨(), 1⟩, ⟨(), 0⟩]

theorem showsRequest_iff_intoCompleted :
    ((recycling twoRequests).run intoCompleted).isSome ∧
      ((recycling twoRequests).EachState (ShowsRequest twoRequests) intoCompleted ↔
        (recycling twoRequests).EachStep (StaysCompleted twoRequests) intoCompleted) := by
  obtain ⟨pool, hpool⟩ : ∃ pool, (recycling twoRequests).run intoCompleted = some pool :=
    ⟨_, rfl⟩
  exact ⟨by rw [hpool]; rfl, showsRequest_iff twoRequests hpool⟩

/-- One holder, bound to the completed request and then to the other. -/
def outOfCompleted : List (Bind Unit) := [⟨(), 0⟩, ⟨(), 1⟩]

/-- The request under way is shown in green. -/
theorem outOfCompleted_not_showsRequest :
    ∃ pool, (recycling twoRequests).run outOfCompleted = some pool ∧
      ¬ ShowsRequest twoRequests outOfCompleted pool := by
  refine ⟨_, rfl, fun h => ?_⟩
  have hshown := h ⟨(), 1⟩ _ rfl rfl
  exact absurd hshown (by decide)

end SewaConnect.Android
