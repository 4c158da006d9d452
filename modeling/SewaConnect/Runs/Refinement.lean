import SewaConnect.Runs.System

/-! What a run emits, what the rest of it keeps, and refinement between systems whose
steps do not match one to one. `emitted` collects the output of each step in the state
it was taken from; when the outputs are events of another system, the collected list is
the run of the other system that the run stands for (`run_refinement`,
`run_component`). -/

namespace SewaConnect.Runs.System

variable {σ ε τ α β : Type*}

/-! ### Outputs of a run -/

/-- The outputs of the enabled steps from a state on, in order. -/
def emittedFrom (S : System σ ε) (out : σ → ε → List β) : σ → List ε → List β
  | _, [] => []
  | s, e :: es => ((S.step s e).map fun t => out s e ++ emittedFrom S out t es).getD []

def emitted (S : System σ ε) (out : σ → ε → List β) (es : List ε) : List β :=
  S.emittedFrom out S.init es

variable {S : System σ ε}

@[simp] theorem emitted_nil (out : σ → ε → List β) : S.emitted out [] = [] := rfl

theorem emittedFrom_snoc (out : σ → ε → List β) {r s t : σ} {es : List ε} {e : ε}
    (hs : S.runFrom r es = some s) (ht : S.step s e = some t) :
    S.emittedFrom out r (es ++ [e]) = S.emittedFrom out r es ++ out s e := by
  induction es generalizing r with
  | nil =>
    rw [runFrom_nil, Option.some.injEq] at hs
    subst hs
    simp [emittedFrom, ht]
  | cons f es ih =>
    obtain ⟨q, hq, hs⟩ := Option.bind_eq_some_iff.mp hs
    rw [List.cons_append, emittedFrom, emittedFrom, hq, Option.map_some, Option.map_some,
      Option.getD_some, Option.getD_some, ih hs, List.append_assoc]

theorem emitted_snoc (out : σ → ε → List β) {s t : σ} {es : List ε} {e : ε}
    (hs : S.run es = some s) (ht : S.step s e = some t) :
    S.emitted out (es ++ [e]) = S.emitted out es ++ out s e :=
  emittedFrom_snoc out hs ht

/-- Whatever a run has emitted came from one of its steps. -/
theorem mem_emitted {out : σ → ε → List β} {b : β} {es : List ε} {s : σ}
    (h : S.run es = some s) (hb : b ∈ S.emitted out es) :
    ∃ pre e post r, es = pre ++ e :: post ∧ S.run pre = some r ∧ b ∈ out r e := by
  refine run_induction (S := S) (I := fun es _ => b ∈ S.emitted out es →
    ∃ pre e post r, es = pre ++ e :: post ∧ S.run pre = some r ∧ b ∈ out r e) ?_ ?_ h hb
  · intro hnil
    simp at hnil
  · intro es s e t hs ih ht hmem
    rw [emitted_snoc out hs ht, List.mem_append] at hmem
    rcases hmem with hbefore | hlast
    · obtain ⟨pre, f, post, r, rfl, hr, hout⟩ := ih hbefore
      exact ⟨pre, f, post ++ [e], r, by simp, hr, hout⟩
    · exact ⟨es, e, [], s, rfl, hs, hlast⟩

/-- The accounting rule. If each step balances what it adds with what it takes away and
what is held before and after it, so does a run: what it has added is what it has taken
away and what is held. -/
theorem emitted_perm (held : σ → List β) (added : σ → ε → List β) (taken : ε → List β)
    (hinit : held S.init = [])
    (hstep : ∀ s e t, S.step s e = some t → (held s ++ added s e).Perm (taken e ++ held t))
    {es : List ε} {s : σ} (h : S.run es = some s) :
    (S.emitted added es).Perm (es.flatMap taken ++ held s) := by
  refine run_induction (S := S)
    (I := fun es s => (S.emitted added es).Perm (es.flatMap taken ++ held s)) ?_ ?_ h
  · simp [hinit]
  · intro es s e t hs ih ht
    have hlast : (es ++ [e]).flatMap taken = es.flatMap taken ++ taken e := by simp
    have hbefore := ih.append_right (added s e)
    rw [List.append_assoc] at hbefore
    rw [emitted_snoc added hs ht, hlast, List.append_assoc]
    exact hbefore.trans ((hstep s e t ht).append_left _)

/-! ### The rest of a run -/

/-- A run taken apart at one of its events. -/
theorem run_append_cons {pre post : List ε} {e : ε} {t : σ} :
    S.run (pre ++ e :: post) = some t ↔
      ∃ r s, S.run pre = some r ∧ S.step r e = some s ∧ S.runFrom s post = some t := by
  rw [run, runFrom_append]
  simp [run, Option.bind_eq_some_iff]

/-- What the steps on certain events keep holds on after any number of them. -/
theorem runFrom_invariant {I : σ → Prop} {C : ε → Prop}
    (hstep : ∀ s e t, C e → I s → S.step s e = some t → I t) {s t : σ} {es : List ε}
    (hes : ∀ e ∈ es, C e) (hs : I s) (h : S.runFrom s es = some t) : I t := by
  induction es generalizing s with
  | nil =>
    rw [runFrom_nil, Option.some.injEq] at h
    exact h ▸ hs
  | cons e es ih =>
    obtain ⟨r, hr, h⟩ := Option.bind_eq_some_iff.mp h
    have he : C e := hes e List.mem_cons_self
    exact ih (fun f hf => hes f (List.mem_cons_of_mem e hf)) (hstep s e r he hs hr) h

/-- What holds after an event, and is kept by each step from then on, holds at the end. -/
theorem run_induction_after {pre post : List ε} {e : ε} {r s : σ} {I : List ε → σ → Prop}
    (hr : S.run pre = some r) (hs : S.run (pre ++ e :: post) = some s)
    (hevent : ∀ t, S.step r e = some t → I [] t)
    (hstep : ∀ rest t f u, S.run (pre ++ e :: rest) = some t → S.runFrom r (e :: rest) = some t →
      I rest t → S.step t f = some u → I (rest ++ [f]) u) : I post s := by
  induction post using List.reverseRecOn generalizing s with
  | nil =>
    obtain ⟨r', hr', ht⟩ := run_snoc.mp hs
    obtain rfl := Option.some.inj (hr.symm.trans hr')
    exact hevent s ht
  | append_singleton rest f ih =>
    have hsplit : pre ++ e :: (rest ++ [f]) = (pre ++ e :: rest) ++ [f] := by simp
    rw [hsplit] at hs
    obtain ⟨t, ht, hu⟩ := run_snoc.mp hs
    obtain ⟨r', hr', hrest⟩ := run_take ht
    obtain rfl := Option.some.inj (hr.symm.trans hr')
    exact hstep rest t f s ht hrest (ih ht) hu

/-! ### Refinement -/

variable {A : System τ α}

/-- Forward simulation in which a step of `S` stands for none, one or several steps of
`A`, which may depend on the state. -/
theorem run_refinement {R : σ → τ → Prop} (image : σ → ε → List α) (hinit : R S.init A.init)
    (hstep : ∀ s a e t, R s a → S.step s e = some t →
      ∃ b, A.runFrom a (image s e) = some b ∧ R t b)
    {es : List ε} {s : σ} (h : S.run es = some s) :
    ∃ a, A.run (S.emitted image es) = some a ∧ R s a := by
  refine run_induction (S := S)
    (I := fun es s => ∃ a, A.run (S.emitted image es) = some a ∧ R s a) ⟨_, rfl, hinit⟩ ?_ h
  rintro es s e t hs ⟨a, ha, hR⟩ ht
  obtain ⟨b, hb, hR'⟩ := hstep s a e t hR ht
  refine ⟨b, ?_, hR'⟩
  rw [emitted_snoc image hs ht, run, runFrom_append]
  exact Option.bind_eq_some_iff.mpr ⟨a, ha, hb⟩

/-- A component of the states of `S` that each step moves by steps of `A` runs in `A`. -/
theorem run_component (π : σ → τ) (image : σ → ε → List α) (hinit : π S.init = A.init)
    (hstep : ∀ s e t, S.step s e = some t → A.runFrom (π s) (image s e) = some (π t))
    {es : List ε} {s : σ} (h : S.run es = some s) :
    A.run (S.emitted image es) = some (π s) := by
  obtain ⟨a, ha, rfl⟩ := run_refinement (A := A) (R := fun s a => π s = a) image hinit
    (fun s a e t hR ht => ⟨π t, hR ▸ hstep s e t ht, rfl⟩) h
  exact ha

end SewaConnect.Runs.System
