import SewaConnect.Runs.System

/-! Dialogues: questions are asked one after the other, and each is answered at most
once, at any later time or never. One list records both sides. Whatever the order of
the answers, the list holds every question in the order of asking, every answer in the
order of arrival, and each answer below its own question. -/

namespace SewaConnect.Runs

variable {Q A : Type*}

/-- A question, or an answer to the question of that number, counted from 0. -/
inductive Line (Q A : Type*) where
  | question (q : Q)
  | answer (k : ℕ) (a : A)

namespace Line

def question? : Line Q A → Option Q
  | question q => some q
  | answer _ _ => none

def answer? : Line Q A → Option (ℕ × A)
  | question _ => none
  | answer k a => some (k, a)

def questions (lines : List (Line Q A)) : List Q := lines.filterMap question?

def answers (lines : List (Line Q A)) : List (ℕ × A) := lines.filterMap answer?

@[simp] theorem questions_nil : questions ([] : List (Line Q A)) = [] := rfl

@[simp] theorem questions_append (l m : List (Line Q A)) :
    questions (l ++ m) = questions l ++ questions m := List.filterMap_append

@[simp] theorem questions_cons_question (q : Q) (l : List (Line Q A)) :
    questions (question q :: l) = q :: questions l := rfl

@[simp] theorem questions_cons_answer (k : ℕ) (a : A) (l : List (Line Q A)) :
    questions (answer k a :: l) = questions l := rfl

@[simp] theorem answers_nil : answers ([] : List (Line Q A)) = [] := rfl

@[simp] theorem answers_append (l m : List (Line Q A)) :
    answers (l ++ m) = answers l ++ answers m := List.filterMap_append

@[simp] theorem answers_cons_question (q : Q) (l : List (Line Q A)) :
    answers (question q :: l) = answers l := rfl

@[simp] theorem answers_cons_answer (k : ℕ) (a : A) (l : List (Line Q A)) :
    answers (answer k a :: l) = (k, a) :: answers l := rfl

/-- The question of a number stands somewhere, below as many questions as its number. -/
theorem exists_question {lines : List (Line Q A)} {k : ℕ} {q : Q}
    (h : (questions lines)[k]? = some q) :
    ∃ pre post, lines = pre ++ question q :: post ∧ (questions pre).length = k := by
  induction lines generalizing k with
  | nil => simp at h
  | cons line rest ih =>
    cases line with
    | question r =>
      cases k with
      | zero =>
        obtain rfl : r = q := by simpa using h
        exact ⟨[], rest, rfl, rfl⟩
      | succ k =>
        obtain ⟨pre, post, rfl, hlength⟩ := ih (k := k) (by simpa using h)
        exact ⟨question r :: pre, post, rfl, by simp [hlength]⟩
    | answer j a =>
      obtain ⟨pre, post, rfl, hlength⟩ := ih (k := k) (by simpa using h)
      exact ⟨answer j a :: pre, post, rfl, by simp [hlength]⟩

end Line

open Line

/-- What happens in a dialogue: a question is asked, or an open one is answered or
given up. -/
inductive Turn (Q A : Type*) where
  | ask (q : Q)
  | answer (k : ℕ) (a : A)
  | drop (k : ℕ)

/-- The line that a turn adds. -/
def Turn.line? : Turn Q A → Option (Line Q A)
  | ask q => some (.question q)
  | answer k a => some (.answer k a)
  | drop _ => none

structure Dialogue (Q A : Type*) where
  lines : List (Line Q A) := []
  /-- The numbers of the questions that may still be answered. -/
  pending : List ℕ := []

def dialogue (Q A : Type*) : System (Dialogue Q A) (Turn Q A) where
  init := {}
  step d
    | .ask q => some ⟨d.lines ++ [question q], d.pending ++ [(questions d.lines).length]⟩
    | .answer k a =>
      if k ∈ d.pending then some ⟨d.lines ++ [answer k a], d.pending.filter (· != k)⟩ else none
    | .drop k => if k ∈ d.pending then some ⟨d.lines, d.pending.filter (· != k)⟩ else none

/-- The open questions have been asked, every answer stands below its question, and no
question has two answers or is open after its answer. -/
structure Dialogue.Ordered (d : Dialogue Q A) : Prop where
  pending_lt : ∀ k ∈ d.pending, k < (questions d.lines).length
  answers_lt : ∀ pre k a post, d.lines = pre ++ answer k a :: post → k < (questions pre).length
  once : ((answers d.lines).map Prod.fst ++ d.pending).Nodup

namespace Dialogue

theorem Ordered.answered_lt {d : Dialogue Q A} (h : d.Ordered) {k : ℕ}
    (hk : k ∈ (answers d.lines).map Prod.fst) : k < (questions d.lines).length := by
  obtain ⟨⟨k, a⟩, ha, rfl⟩ := List.mem_map.mp hk
  obtain ⟨line, hline, hanswer⟩ := List.mem_filterMap.mp ha
  obtain ⟨pre, post, hlines⟩ := List.append_of_mem hline
  cases line with
  | question q => cases hanswer
  | answer j b =>
    cases hanswer
    have hlt := h.answers_lt pre k a post hlines
    rw [hlines, questions_append, List.length_append]
    omega

/-- An answer moves its number from the open ones to the answered ones. -/
theorem perm_answer {pending : List ℕ} {k : ℕ} (answered : List ℕ) (hk : k ∈ pending)
    (h : pending.Nodup) :
    (answered ++ [k] ++ pending.filter (· != k)).Perm (answered ++ pending) := by
  have hperm : pending.Perm (k :: pending.filter (· != k)) := by
    rw [← h.erase_eq_filter]
    exact List.perm_cons_erase hk
  rw [List.append_assoc]
  exact (hperm.append_left answered).symm

theorem ordered_step {d d' : Dialogue Q A} {e : Turn Q A} (h : d.Ordered)
    (hd : (dialogue Q A).step d e = some d') : d'.Ordered := by
  cases e with
  | ask q =>
    simp only [dialogue, Option.some.injEq] at hd
    subst d'
    constructor
    · intro k hk
      rw [questions_append, List.length_append]
      rcases List.mem_append.mp hk with hk | hk
      · have hlt := h.pending_lt k hk
        omega
      · obtain rfl := List.mem_singleton.mp hk
        exact Nat.lt_succ_self _
    · intro pre k a post hlines
      obtain ⟨mid, hmid, -⟩ | ⟨-, hlast, -⟩ := System.snoc_eq_append_cons hlines
      · exact h.answers_lt pre k a mid hmid
      · cases hlast
    · have hfresh : (questions d.lines).length ∉ (answers d.lines).map Prod.fst ++ d.pending := by
        intro hmem
        obtain hk | hk := List.mem_append.mp hmem
        · exact absurd (h.answered_lt hk) (Nat.lt_irrefl _)
        · exact absurd (h.pending_lt _ hk) (Nat.lt_irrefl _)
      rw [answers_append, answers_cons_question, answers_nil, List.append_nil, ← List.append_assoc]
      exact List.perm_append_comm.nodup_iff.mp (List.nodup_cons.mpr ⟨hfresh, h.once⟩)
  | answer k a =>
    simp only [dialogue, Option.ite_none_right_eq_some, Option.some.injEq] at hd
    obtain ⟨hk, rfl⟩ := hd
    constructor
    · intro j hj
      have hlt := h.pending_lt j (List.mem_filter.mp hj).1
      simpa using hlt
    · intro pre j b post hlines
      obtain ⟨mid, hmid, -⟩ | ⟨rfl, hlast, -⟩ := System.snoc_eq_append_cons hlines
      · exact h.answers_lt pre j b mid hmid
      · cases hlast
        exact h.pending_lt k hk
    · have hpending : d.pending.Nodup := (List.nodup_append.mp h.once).2.1
      have hperm := perm_answer ((answers d.lines).map Prod.fst) hk hpending
      simpa using hperm.nodup_iff.mpr h.once
  | drop k =>
    simp only [dialogue, Option.ite_none_right_eq_some, Option.some.injEq] at hd
    obtain ⟨-, rfl⟩ := hd
    constructor
    · exact fun j hj => h.pending_lt j (List.mem_filter.mp hj).1
    · exact h.answers_lt
    · exact h.once.sublist (List.filter_sublist.append_left _)

theorem ordered_run {es : List (Turn Q A)} {d : Dialogue Q A}
    (h : (dialogue Q A).run es = some d) : d.Ordered := by
  refine System.run_invariant ⟨?_, ?_, ?_⟩ (fun _ _ _ => ordered_step) h
  · intro k hk
    cases hk
  · intro pre k a post hlines
    simp [dialogue] at hlines
  · exact List.nodup_nil

theorem lines_step {d d' : Dialogue Q A} {e : Turn Q A}
    (h : (dialogue Q A).step d e = some d') : d'.lines = d.lines ++ e.line?.toList := by
  cases e with
  | ask q =>
    simp only [dialogue, Option.some.injEq] at h
    subst d'
    rfl
  | answer k a =>
    simp only [dialogue, Option.ite_none_right_eq_some, Option.some.injEq] at h
    obtain ⟨-, rfl⟩ := h
    rfl
  | drop k =>
    simp only [dialogue, Option.ite_none_right_eq_some, Option.some.injEq] at h
    obtain ⟨-, rfl⟩ := h
    exact (List.append_nil _).symm

/-- The lines are those of the turns, in order. -/
theorem lines_run {es : List (Turn Q A)} {d : Dialogue Q A}
    (h : (dialogue Q A).run es = some d) : d.lines = es.filterMap Turn.line? := by
  refine System.run_induction (S := dialogue Q A)
    (I := fun es d => d.lines = es.filterMap Turn.line?) rfl ?_ h
  intro es d e d' _ hd hstep
  rw [lines_step hstep, hd, List.filterMap_append]
  cases e <;> rfl

/-- Where no question is given up, the numbers answered or open are those of all questions. -/
theorem numbers_run {es : List (Turn Q A)} {d : Dialogue Q A}
    (hes : ∀ e ∈ es, ∀ k, e ≠ .drop k) (h : (dialogue Q A).run es = some d) :
    ((answers d.lines).map Prod.fst ++ d.pending).Perm
      (List.range (questions d.lines).length) := by
  refine System.run_induction (S := dialogue Q A)
    (I := fun es d => (∀ e ∈ es, ∀ k, e ≠ .drop k) →
      ((answers d.lines).map Prod.fst ++ d.pending).Perm (List.range (questions d.lines).length))
    (fun _ => List.Perm.refl []) ?_ h hes
  intro es d e d' hd hperm hstep hes
  have hperm := hperm fun f hf => hes f (List.mem_append_left _ hf)
  cases e with
  | ask q =>
    simp only [dialogue, Option.some.injEq] at hstep
    subst d'
    have hmore := hperm.append_right [(questions d.lines).length]
    simpa [List.range_succ] using hmore
  | answer k a =>
    simp only [dialogue, Option.ite_none_right_eq_some, Option.some.injEq] at hstep
    obtain ⟨hk, rfl⟩ := hstep
    have hpending : d.pending.Nodup := (List.nodup_append.mp (ordered_run hd).once).2.1
    have hmoved := perm_answer ((answers d.lines).map Prod.fst) hk hpending
    simpa using hmoved.trans hperm
  | drop k =>
    have hmem : .drop k ∈ es ++ [.drop k] := List.mem_append_right _ (List.mem_singleton_self _)
    exact absurd rfl (hes (.drop k) hmem k)

/-- All numbers below `n` stand in order exactly when each stands in its own place. -/
theorem pairwise_lt_iff_eq_range {numbers : List ℕ} {n : ℕ} (h : numbers.Perm (List.range n)) :
    numbers.Pairwise (· < ·) ↔ numbers = List.range n := by
  constructor
  · intro hsorted
    have hasymm : ∀ a b, a ∈ numbers → b ∈ List.range n → a < b → b < a → a = b := by
      intro a b _ _ hab hba
      omega
    exact List.Perm.eq_of_pairwise hasymm hsorted List.pairwise_lt_range h
  · rintro rfl
    exact List.pairwise_lt_range

/-- Each answer stands below the question it answers. -/
theorem answer_below_question {d : Dialogue Q A} (h : d.Ordered) {pre post : List (Line Q A)}
    {k : ℕ} {a : A} (hlines : d.lines = pre ++ answer k a :: post) :
    ∃ pre' q mid, pre = pre' ++ question q :: mid ∧ (questions pre').length = k := by
  have hk : k < (questions pre).length := h.answers_lt pre k a post hlines
  obtain ⟨pre', mid, hpre, hlength⟩ := exists_question (List.getElem?_eq_getElem hk)
  exact ⟨pre', _, mid, hpre, hlength⟩

end Dialogue

end SewaConnect.Runs
