import Mathlib.Logic.Function.Iterate
import SewaConnect.Android.RequestsAdapter

/-! The requests of `FragmentMyRequests.java`. Every creation of the view appends the same
four to the lists of the fragment, which a new adapter reads. `myRequestsShown` says what a
row shows after any number of creations and any run of binds. -/

namespace SewaConnect.Android

open Runs Runs.System

structure FragmentMyRequests where
  mType : List String := []
  mStatus : List String := []
  mMessage : List String := []
  mTime : List String := []
  mImage : List String := []
  type_length : mType.length = mMessage.length := by rfl
  status_length : mStatus.length = mMessage.length := by rfl
  time_length : mTime.length = mMessage.length := by rfl
  image_length : mImage.length = mMessage.length := by rfl

namespace FragmentMyRequests

/-- One `add` to each list. -/
def add (f : FragmentMyRequests) (row : RequestRow) : FragmentMyRequests where
  mType := f.mType ++ [row.type]
  mStatus := f.mStatus ++ [row.status]
  mMessage := f.mMessage ++ [row.message]
  mTime := f.mTime ++ [row.time]
  mImage := f.mImage ++ [row.image]
  type_length := by simp [f.type_length]
  status_length := by simp [f.status_length]
  time_length := by simp [f.time_length]
  image_length := by simp [f.image_length]

/-- What `onCreateView` adds, in order. -/
def requests : List RequestRow :=
  [⟨"Family Services", "Completed", "test input 1", "Created Oct. 21st, 2019",
      "https://i.imgur.com/h9gla36.jpg"⟩,
    ⟨"Disaster Recovery", "In progress", "I would like to partake in helping disaster victims",
      "Created Oct. 24th, 2019", "https://i.imgur.com/q3XVRYl.png"⟩,
    ⟨"Volunteering", "In progress", "I am free to volunteer this weekend",
      "Created Oct. 23rd, 2019", "https://i.imgur.com/Sjwu8rw.jpg"⟩,
    ⟨"Sponser a child", "In progress", "Donating $10 to buy clean water for a child",
      "Created Oct. 22nd, 2019", "https://i.imgur.com/4hwzKcy.jpg"⟩]

def onCreateView (f : FragmentMyRequests) : FragmentMyRequests := requests.foldl add f

/-- `mRequestsAdapter`, which shares the lists. -/
def adapter (f : FragmentMyRequests) : RequestsAdapter where
  mType := f.mType
  mStatus := f.mStatus
  mMessage := f.mMessage
  mTime := f.mTime
  mImage := f.mImage
  type_length := f.type_length
  status_length := f.status_length
  time_length := f.time_length
  image_length := f.image_length

/-- A fragment whose view was created `n` times. -/
def created (n : ℕ) : FragmentMyRequests := onCreateView^[n] {}

/-! ### Rows -/

/-- The entries of the five lists are those of `rows`. -/
structure Lists (f : FragmentMyRequests) (rows : List RequestRow) : Prop where
  mType : f.mType = rows.map RequestRow.type
  mStatus : f.mStatus = rows.map RequestRow.status
  mMessage : f.mMessage = rows.map RequestRow.message
  mTime : f.mTime = rows.map RequestRow.time
  mImage : f.mImage = rows.map RequestRow.image

theorem Lists.row {f : FragmentMyRequests} {rows : List RequestRow} (h : Lists f rows)
    (position : ℕ) : f.adapter.row position = rows[position]? := by
  simp only [RequestsAdapter.row, adapter, h.mType, h.mStatus, h.mMessage, h.mTime, h.mImage,
    List.getElem?_map]
  cases rows[position]? <;> rfl

theorem Lists.add {f : FragmentMyRequests} {rows : List RequestRow} (h : Lists f rows)
    (row : RequestRow) : Lists (f.add row) (rows ++ [row]) where
  mType := by rw [List.map_append, ← h.mType]; rfl
  mStatus := by rw [List.map_append, ← h.mStatus]; rfl
  mMessage := by rw [List.map_append, ← h.mMessage]; rfl
  mTime := by rw [List.map_append, ← h.mTime]; rfl
  mImage := by rw [List.map_append, ← h.mImage]; rfl

theorem Lists.foldl_add {f : FragmentMyRequests} {rows : List RequestRow} (h : Lists f rows)
    (more : List RequestRow) : Lists (more.foldl FragmentMyRequests.add f) (rows ++ more) := by
  induction more generalizing f rows with
  | nil => exact (List.append_nil rows).symm ▸ h
  | cons row more ih =>
    have hmore := ih (h.add row)
    rwa [List.append_assoc, List.singleton_append] at hmore

theorem lists_created (n : ℕ) : Lists (created n) (List.replicate n requests).flatten := by
  induction n with
  | zero => exact ⟨rfl, rfl, rfl, rfl, rfl⟩
  | succ n ih =>
    have hcreated : created (n + 1) = (created n).onCreateView :=
      Function.iterate_succ_apply' onCreateView n {}
    have hrows : (List.replicate (n + 1) requests).flatten =
        (List.replicate n requests).flatten ++ requests := by
      simp [List.replicate_succ']
    rw [hcreated, hrows]
    exact ih.foldl_add requests

theorem getElem?_replicate_requests (n position : ℕ) :
    (List.replicate n requests).flatten[position]? =
      if position < 4 * n then requests[position % 4]? else none := by
  have hlength : requests.length = 4 := rfl
  induction n generalizing position with
  | zero => simp
  | succ n ih =>
    rw [List.replicate_succ, List.flatten_cons, List.getElem?_append, hlength]
    by_cases hfirst : position < 4
    · have hmod : position % 4 = position := Nat.mod_eq_of_lt hfirst
      have hlt : position < 4 * (n + 1) := by omega
      rw [if_pos hfirst, if_pos hlt, hmod]
    · have hmod : (position - 4) % 4 = position % 4 := by omega
      have hlt : position - 4 < 4 * n ↔ position < 4 * (n + 1) := by omega
      rw [if_neg hfirst, ih, hmod]
      simp only [hlt]

/-- The rows repeat with every creation of the view. -/
theorem row_created (n position : ℕ) : (created n).adapter.row position =
    if position < 4 * n then requests[position % 4]? else none := by
  rw [(lists_created n).row, getElem?_replicate_requests]

theorem getItemCount_created (n : ℕ) : (created n).adapter.getItemCount = 4 * n := by
  have hlength : requests.length = 4 := rfl
  show (created n).mMessage.length = 4 * n
  rw [(lists_created n).mMessage, List.length_map, List.length_flatten, List.map_replicate,
    List.sum_replicate_nat, hlength, Nat.mul_comm]

/-- Of the four only the first is completed. -/
theorem completed_requests_iff {k : ℕ} {row : RequestRow} (h : requests[k]? = some row) :
    row.Completed ↔ k = 0 := by
  match k with
  | 0 | 1 | 2 | 3 =>
    obtain rfl := Option.some.inj h
    decide
  | k + 4 => simp [requests] at h

theorem completes_created_iff {H : Type*} {n : ℕ} {bind : Bind H}
    (h : bind.position < 4 * n) :
    bind.Completes (created n).adapter ↔ bind.position % 4 = 0 := by
  rw [← getItemCount_created, ← RequestsAdapter.exists_row_iff] at h
  obtain ⟨row, hrow⟩ := h
  have hrequest := hrow
  rw [row_created, Option.ite_none_right_eq_some] at hrequest
  rw [← completed_requests_iff hrequest.2]
  simp [Bind.Completes, hrow]

end FragmentMyRequests

open FragmentMyRequests

variable {H : Type*} [DecidableEq H]

/-- After any number of creations of the view, in every run of binds over any pool: a bind
throws no exception just within the four rows of each creation; and the row bound last shows
the request of its place among the four, with its status in green just when its holder was
ever bound to the first of four. -/
theorem myRequestsShown (n : ℕ) (binds : List (Bind H)) (bind : Bind H) :
    ((∃ pool, (recycling (created n).adapter).run (binds ++ [bind]) = some pool) ↔
      ∀ earlier ∈ binds ++ [bind], earlier.position < 4 * n) ∧
    ∀ pool, (recycling (created n).adapter).run (binds ++ [bind]) = some pool →
      ∃ row, requests[bind.position % 4]? = some row ∧
        pool bind.holder = { row.shown with statusColour :=
          if ∃ earlier ∈ binds ++ [bind], earlier.holder = bind.holder ∧
            earlier.position % 4 = 0 then .standardGreen else .colorBlackFont } := by
  have hruns := recycling_runs_iff (created n).adapter (binds ++ [bind])
  rw [getItemCount_created] at hruns
  refine ⟨hruns, fun pool hpool => ?_⟩
  have hgreen := green_iff hpool bind.holder
  have hcompletes : (∃ earlier ∈ binds ++ [bind], earlier.holder = bind.holder ∧
        earlier.Completes (created n).adapter) ↔
      ∃ earlier ∈ binds ++ [bind], earlier.holder = bind.holder ∧ earlier.position % 4 = 0 := by
    refine exists_congr fun earlier => and_congr_right fun hmem => and_congr_right fun _ => ?_
    exact completes_created_iff (hruns.mp ⟨pool, hpool⟩ earlier hmem)
  rw [hcompletes] at hgreen
  obtain ⟨before, -, hstep⟩ := run_snoc.mp hpool
  obtain ⟨row, hrow, hlast⟩ := recycling_step hstep
  rw [row_created, Option.ite_none_right_eq_some] at hrow
  refine ⟨row, hrow.2, ?_⟩
  have hshown : pool bind.holder =
      { row.shown with statusColour := (pool bind.holder).statusColour } := by
    rw [hlast, Function.update_self]
  have hcolour : (pool bind.holder).statusColour =
      if ∃ earlier ∈ binds ++ [bind], earlier.holder = bind.holder ∧
        earlier.position % 4 = 0 then .standardGreen else .colorBlackFont := by
    split_ifs with hever
    · exact hgreen.mpr hever
    · cases hblack : (pool bind.holder).statusColour with
      | colorBlackFont => rfl
      | standardGreen => exact absurd (hgreen.mp hblack) hever
  rw [hshown, hcolour]

/-- After a second creation of the view one holder goes from the fifth row, which is the
first request again, to the second one. -/
theorem myRequestsShown_recreated :
    ∃ pool : Pool Unit, (recycling (created 2).adapter).run [⟨(), 4⟩, ⟨(), 1⟩] = some pool ∧
      (pool ()).status = "In progress" ∧ (pool ()).statusColour = .standardGreen := by
  obtain ⟨hruns, hshown⟩ := myRequestsShown 2 [⟨(), 4⟩] (⟨(), 1⟩ : Bind Unit)
  obtain ⟨pool, hpool⟩ := hruns.mpr (by decide)
  obtain ⟨row, hrow, hlast⟩ := hshown pool hpool
  obtain rfl := Option.some.inj hrow
  refine ⟨pool, hpool, ?_, ?_⟩
  · rw [hlast]
    rfl
  · rw [hlast]
    rfl

end SewaConnect.Android
