import Mathlib.Data.List.Induction
import Mathlib.Data.Option.Basic

/-! Labelled transition systems with partial steps, their runs, and the rules
by which a property of every run is derived from single steps. A run is a list
of events; an event that is not enabled ends it with `none`. Properties speak
of the history of events together with the state it leads to, so that a claim
such as "the value of the last accepted write" needs no ghost field. -/

namespace SewaConnect.Runs

/-- One start state; an event either is enabled and leads to one state, or is not. -/
structure System (σ ε : Type*) where
  init : σ
  step : σ → ε → Option σ

namespace System

variable {σ ε : Type*} (S : System σ ε)

def runFrom : σ → List ε → Option σ
  | s, [] => some s
  | s, e :: es => (S.step s e).bind fun t => runFrom t es

def run (es : List ε) : Option σ := S.runFrom S.init es

@[simp] theorem runFrom_nil (s : σ) : S.runFrom s [] = some s := rfl

@[simp] theorem runFrom_cons (s : σ) (e : ε) (es : List ε) :
    S.runFrom s (e :: es) = (S.step s e).bind fun t => S.runFrom t es := rfl

@[simp] theorem run_nil : S.run [] = some S.init := rfl

theorem runFrom_append (s : σ) (es fs : List ε) :
    S.runFrom s (es ++ fs) = (S.runFrom s es).bind fun t => S.runFrom t fs := by
  induction es generalizing s with
  | nil => rfl
  | cons e es ih =>
    simp only [List.cons_append, runFrom_cons, Option.bind_assoc]
    congr 1
    funext t
    exact ih t

variable {S}

/-- The last step of a run, taken apart. -/
theorem run_snoc {es : List ε} {e : ε} {t : σ} :
    S.run (es ++ [e]) = some t ↔ ∃ s, S.run es = some s ∧ S.step s e = some t := by
  rw [run, runFrom_append]
  simp [run, Option.bind_eq_some_iff]

/-- Every initial part of a run is a run. -/
theorem run_take {pre post : List ε} {t : σ} (h : S.run (pre ++ post) = some t) :
    ∃ s, S.run pre = some s ∧ S.runFrom s post = some t := by
  rw [run, runFrom_append] at h
  exact Option.bind_eq_some_iff.mp h

/-! ### Invariants -/

/-- What holds at the start and is kept by each step holds after every run. -/
theorem run_induction {I : List ε → σ → Prop} (hinit : I [] S.init)
    (hstep : ∀ es s e t, S.run es = some s → I es s → S.step s e = some t → I (es ++ [e]) t)
    {es : List ε} {s : σ} (h : S.run es = some s) : I es s := by
  induction es using List.reverseRecOn generalizing s with
  | nil =>
    rw [run_nil, Option.some.injEq] at h
    exact h ▸ hinit
  | append_singleton es e ih =>
    obtain ⟨r, hr, he⟩ := run_snoc.mp h
    exact hstep es r e s hr (ih hr) he

/-- The rule for invariants that do not mention the history. -/
theorem run_invariant {I : σ → Prop} (hinit : I S.init)
    (hstep : ∀ s e t, I s → S.step s e = some t → I t)
    {es : List ε} {s : σ} (h : S.run es = some s) : I s :=
  run_induction (I := fun _ s => I s) hinit (fun _ s e t _ hi ht => hstep s e t hi ht) h

/-! ### Conditions on the steps of a run -/

/-- An event of a list that ends with `e` is one before it, or `e` itself. -/
theorem snoc_eq_append_cons {es pre post : List ε} {e f : ε} (h : es ++ [e] = pre ++ f :: post) :
    (∃ mid, es = pre ++ f :: mid ∧ post = mid ++ [e]) ∨ es = pre ∧ e = f ∧ post = [] := by
  rw [List.append_eq_append_iff] at h
  rcases h with ⟨more, hpre, hlast⟩ | ⟨more, hes, hrest⟩
  · rw [List.singleton_eq_append_iff] at hlast
    simp_all
  · cases more with
    | nil => simp_all
    | cons g mid =>
      obtain ⟨rfl, rfl⟩ := List.cons.inj hrest
      exact .inl ⟨mid, hes, rfl⟩

/-- Each step of the run meets `C`, a condition on the history and the state
before the step and on its event. -/
def EachStep (S : System σ ε) (C : List ε → σ → ε → Prop) (es : List ε) : Prop :=
  ∀ pre e post s, es = pre ++ e :: post → S.run pre = some s → C pre s e

/-- Each state of the run, with the history that led to it, meets `P`. -/
def EachState (S : System σ ε) (P : List ε → σ → Prop) (es : List ε) : Prop :=
  ∀ pre post s, es = pre ++ post → S.run pre = some s → P pre s

theorem eachStep_nil (C : List ε → σ → ε → Prop) : S.EachStep C [] := by
  intro pre e post s h
  simp at h

theorem eachStep_snoc {C : List ε → σ → ε → Prop} (es : List ε) (e : ε) :
    S.EachStep C (es ++ [e]) ↔ S.EachStep C es ∧ ∀ s, S.run es = some s → C es s e := by
  constructor
  · intro h
    refine ⟨fun pre f post s hes hs => ?_, fun s hs => h es e [] s rfl hs⟩
    exact h pre f (post ++ [e]) s (by rw [hes, List.append_assoc]; rfl) hs
  · rintro ⟨hes, he⟩ pre f post s heq hs
    obtain ⟨mid, hmid, -⟩ | ⟨rfl, rfl, -⟩ := snoc_eq_append_cons heq
    · exact hes pre f mid s hmid hs
    · exact he s hs

/-- All steps from a state on are enabled and meet `C`. -/
def EachStepFrom (S : System σ ε) (C : List ε → σ → ε → Prop) : List ε → σ → List ε → Prop
  | _, _, [] => True
  | pre, s, e :: es => C pre s e ∧
    match S.step s e with
    | some t => EachStepFrom S C (pre ++ [e]) t es
    | none => False

theorem eachStep_append {C : List ε → σ → ε → Prop} {pre es : List ε} {s : σ}
    (hs : S.run pre = some s) (hpre : S.EachStep C pre) (hes : S.EachStepFrom C pre s es) :
    S.EachStep C (pre ++ es) := by
  induction es generalizing pre s with
  | nil => rwa [List.append_nil]
  | cons e es ih =>
    obtain ⟨he, hes⟩ := hes
    have hsnoc : S.EachStep C (pre ++ [e]) := by
      refine (eachStep_snoc pre e).mpr ⟨hpre, fun r hr => ?_⟩
      obtain rfl := Option.some.inj (hs.symm.trans hr)
      exact he
    rw [← List.singleton_append, ← List.append_assoc]
    cases ht : S.step s e with
    | some t =>
      rw [ht] at hes
      exact ih (run_snoc.mpr ⟨s, hs, ht⟩) hsnoc hes
    | none =>
      rw [ht] at hes
      exact hes.elim

theorem EachStepFrom.eachStep {C : List ε → σ → ε → Prop} {es : List ε}
    (h : S.EachStepFrom C [] S.init es) : S.EachStep C es :=
  eachStep_append rfl (eachStep_nil C) h

theorem eachState_nil {P : List ε → σ → Prop} : S.EachState P [] ↔ P [] S.init := by
  constructor
  · intro h
    exact h [] [] S.init rfl rfl
  · intro h pre post s heq hs
    obtain ⟨rfl, -⟩ := List.append_eq_nil_iff.mp heq.symm
    rw [run_nil, Option.some.injEq] at hs
    exact hs ▸ h

theorem eachState_snoc {P : List ε → σ → Prop} {es : List ε} {e : ε} :
    S.EachState P (es ++ [e]) ↔
      S.EachState P es ∧ ∀ t, S.run (es ++ [e]) = some t → P (es ++ [e]) t := by
  constructor
  · intro h
    refine ⟨fun pre post s heq hs => ?_, fun t ht => h (es ++ [e]) [] t (by simp) ht⟩
    exact h pre (post ++ [e]) s (by rw [heq, List.append_assoc]) hs
  · rintro ⟨hes, he⟩ pre post s heq hs
    rcases List.eq_nil_or_concat post with rfl | ⟨post, g, rfl⟩
    · rw [List.append_nil] at heq
      subst heq
      exact he s hs
    · have heq' : es ++ [e] = (pre ++ post) ++ [g] := by simpa using heq
      obtain ⟨hpre, -⟩ := List.append_inj' heq' rfl
      exact hes pre post s hpre hs

theorem EachStep.mono {C D : List ε → σ → ε → Prop} {es : List ε} (h : S.EachStep C es)
    (hCD : ∀ es s e, S.run es = some s → C es s e → D es s e) : S.EachStep D es :=
  fun pre e post s heq hs => hCD pre s e hs (h pre e post s heq hs)

/-- Two conditions that agree on the enabled steps of runs agree on a run. -/
theorem eachStep_congr {C D : List ε → σ → ε → Prop}
    (hCD : ∀ es s e t, S.run es = some s → S.step s e = some t → (C es s e ↔ D es s e))
    {es : List ε} {s : σ} (h : S.run es = some s) : S.EachStep C es ↔ S.EachStep D es := by
  have hiff : ∀ pre e post r, es = pre ++ e :: post → S.run pre = some r →
      (C pre r e ↔ D pre r e) := by
    intro pre e post r heq hr
    have hrun : S.run ((pre ++ [e]) ++ post) = some s := by simpa [heq] using h
    obtain ⟨t, ht, -⟩ := run_take hrun
    obtain ⟨r', hr', he⟩ := run_snoc.mp ht
    obtain rfl : r = r' := Option.some.inj (hr.symm.trans hr')
    exact hCD pre r e t hr he
  constructor
  · intro hC pre e post r heq hr
    exact (hiff pre e post r heq hr).mp (hC pre e post r heq hr)
  · intro hD pre e post r heq hr
    exact (hiff pre e post r heq hr).mpr (hD pre e post r heq hr)

/-- Two properties that agree on the states of runs agree on every state of a run. -/
theorem eachState_congr {P Q : List ε → σ → Prop}
    (hPQ : ∀ es s, S.run es = some s → (P es s ↔ Q es s)) (es : List ε) :
    S.EachState P es ↔ S.EachState Q es := by
  constructor
  · intro hP pre post s heq hs
    exact (hPQ pre s hs).mp (hP pre post s heq hs)
  · intro hQ pre post s heq hs
    exact (hPQ pre s hs).mpr (hQ pre post s heq hs)

/-- In a run whose steps all meet `C`, what such steps keep holds at the end. -/
theorem run_induction_of_eachStep {C : List ε → σ → ε → Prop} {I : List ε → σ → Prop}
    (hinit : I [] S.init)
    (hstep : ∀ es s e t, S.run es = some s → I es s → C es s e → S.step s e = some t →
      I (es ++ [e]) t)
    {es : List ε} {s : σ} (hC : S.EachStep C es) (h : S.run es = some s) : I es s := by
  induction es using List.reverseRecOn generalizing s with
  | nil =>
    rw [run_nil, Option.some.injEq] at h
    exact h ▸ hinit
  | append_singleton es e ih =>
    obtain ⟨r, hr, he⟩ := run_snoc.mp h
    obtain ⟨hes, hlast⟩ := (eachStep_snoc es e).mp hC
    exact hstep es r e s hr (ih hes hr) (hlast r hr) he

/-- The exactness rule. If, in runs whose steps met `C` so far, a step from a good
state leads to a good state just when it meets `C`, then all states of a run are
good just when all its steps meet `C`. -/
theorem eachState_iff_eachStep {C : List ε → σ → ε → Prop} {P : List ε → σ → Prop}
    (hinit : P [] S.init)
    (hstep : ∀ es s e t, S.run es = some s → S.EachStep C es → P es s → S.step s e = some t →
      (P (es ++ [e]) t ↔ C es s e))
    {es : List ε} {s : σ} (h : S.run es = some s) : S.EachState P es ↔ S.EachStep C es := by
  induction es using List.reverseRecOn generalizing s with
  | nil => exact ⟨fun _ => eachStep_nil C, fun _ => eachState_nil.mpr hinit⟩
  | append_singleton es e ih =>
    obtain ⟨r, hr, he⟩ := run_snoc.mp h
    rw [eachState_snoc, eachStep_snoc, ih hr]
    refine and_congr_right fun hes => ?_
    have hgood : P es r := (ih hr).mpr hes es [] r (by simp) hr
    have hiff := hstep es r e s hr hes hgood he
    constructor
    · intro hlast t ht
      obtain rfl : r = t := Option.some.inj (hr.symm.trans ht)
      exact hiff.mp (hlast s h)
    · intro hlast t ht
      obtain rfl : s = t := Option.some.inj (h.symm.trans ht)
      exact hiff.mpr (hlast r hr)

/-! ### Refinement -/

/-- Forward simulation: a relation that holds at the start and is kept by every step
of `S` together with an enabled step of `A` on the event's image relates the states
of every run. -/
theorem run_simulation {τ α : Type*} {A : System τ α} {R : σ → τ → Prop} (f : ε → α)
    (hinit : R S.init A.init)
    (hstep : ∀ s a e t, R s a → S.step s e = some t → ∃ b, A.step a (f e) = some b ∧ R t b)
    {es : List ε} {s : σ} (h : S.run es = some s) : ∃ a, A.run (es.map f) = some a ∧ R s a := by
  refine run_induction (I := fun es s => ∃ a, A.run (es.map f) = some a ∧ R s a)
    ⟨_, rfl, hinit⟩ ?_ h
  rintro es s e t - ⟨a, ha, hR⟩ ht
  obtain ⟨b, hb, hR'⟩ := hstep s a e t hR ht
  refine ⟨b, ?_, hR'⟩
  rw [List.map_append]
  exact run_snoc.mpr ⟨a, ha, hb⟩

end System

end SewaConnect.Runs
