import Mathlib.Logic.Function.Basic
import SewaConnect.Runs.Refinement

/-! `SinkDisposer` of `Producer.swift`, the disposable behind every subscription to an
operator. One call of `setSinkAndSubscription` and any number of calls of `dispose` run on
any threads, each step of them at any time; two flags of one atomic integer decide which
call disposes of the sink and the subscription (`disposesOnce`). -/

namespace SewaConnect.Rx

open Runs Runs.System

namespace DisposeState

def disposed : Int32 := 1

def sinkAndSubscriptionSet : Int32 := 2

end DisposeState

/-- A thread before the step of this name. -/
inductive Call where
  | idle
  /-- `setSinkAndSubscription` -/
  | setSink
  | setSubscription
  | setFlag
  /-- `dispose` -/
  | disposeFlag
  | guardSink
  | guardSubscription
  /-- What both end with. -/
  | disposeSink
  | disposeSubscription
  | clearSink
  | clearSubscription
  | done
  /-- `rxFatalError` -/
  | fatalError
  deriving DecidableEq

structure SinkDisposer where
  state : Int32 := 0
  /-- `_sink` is not nil. -/
  sink : Bool := false
  /-- `_subscription` is not nil. -/
  subscription : Bool := false

open DisposeState in
/-- One step of a call; `fetchOr` reads and writes the flags at once. -/
def SinkDisposer.advance (d : SinkDisposer) : Call → SinkDisposer × Call
  | .setSink => ({ d with sink := true }, .setSubscription)
  | .setSubscription => ({ d with subscription := true }, .setFlag)
  | .setFlag =>
    ({ d with state := d.state ||| sinkAndSubscriptionSet },
      if d.state &&& sinkAndSubscriptionSet ≠ 0 then .fatalError
      else if d.state &&& disposed ≠ 0 then .disposeSink
      else .done)
  | .disposeFlag =>
    ({ d with state := d.state ||| disposed },
      if d.state &&& disposed ≠ 0 then .done
      else if d.state &&& sinkAndSubscriptionSet ≠ 0 then .guardSink
      else .done)
  | .guardSink => (d, if d.sink then .guardSubscription else .fatalError)
  | .guardSubscription => (d, if d.subscription then .disposeSink else .fatalError)
  | .disposeSink => (d, .disposeSubscription)
  | .disposeSubscription => (d, .clearSink)
  | .clearSink => ({ d with sink := false }, .clearSubscription)
  | .clearSubscription => ({ d with subscription := false }, .done)
  | call => (d, call)

open DisposeState in
theorem SinkDisposer.advance_setFlag_zero {d : SinkDisposer} (h : d.state = 0) :
    d.advance .setFlag = ({ d with state := 2 }, .done) := by
  simp [advance, h, disposed, sinkAndSubscriptionSet]

open DisposeState in
theorem SinkDisposer.advance_setFlag_one {d : SinkDisposer} (h : d.state = 1) :
    d.advance .setFlag = ({ d with state := 3 }, .disposeSink) := by
  simp [advance, h, disposed, sinkAndSubscriptionSet]
  decide

open DisposeState in
theorem SinkDisposer.advance_disposeFlag_zero {d : SinkDisposer} (h : d.state = 0) :
    d.advance .disposeFlag = ({ d with state := 1 }, .done) := by
  simp [advance, h, disposed, sinkAndSubscriptionSet]

open DisposeState in
theorem SinkDisposer.advance_disposeFlag_two {d : SinkDisposer} (h : d.state = 2) :
    d.advance .disposeFlag = ({ d with state := 3 }, .guardSink) := by
  simp [advance, h, disposed, sinkAndSubscriptionSet]
  decide

open DisposeState in
theorem SinkDisposer.advance_disposeFlag_disposed {d : SinkDisposer}
    (h : d.state = 1 ∨ d.state = 3) : d.advance .disposeFlag = (d, .done) := by
  have hset : d.state ||| disposed = d.state := by rcases h with h | h <;> rw [h] <;> decide
  have hflag : d.state &&& disposed ≠ 0 := by rcases h with h | h <;> rw [h] <;> decide
  rw [advance, hset, if_pos hflag]

/-! ### Threads -/

inductive DisposerEvent where
  /-- The thread calls `setSinkAndSubscription`. -/
  | set (thread : ℕ)
  /-- The thread calls `dispose`. -/
  | dispose (thread : ℕ)
  /-- The thread takes its next step. -/
  | advance (thread : ℕ)
  deriving DecidableEq

structure DisposerState where
  disposer : SinkDisposer := {}
  calls : ℕ → Call := fun _ => .idle
  /-- `subscribe` of `Producer` has called `setSinkAndSubscription`. -/
  setCalled : Bool := false

def DisposerState.advance (s : DisposerState) (thread : ℕ) : DisposerState :=
  { s with
    disposer := (s.disposer.advance (s.calls thread)).1
    calls := Function.update s.calls thread (s.disposer.advance (s.calls thread)).2 }

/-- `setSinkAndSubscription` is called once. -/
def disposing : System DisposerState DisposerEvent where
  init := {}
  step s
    | .set thread =>
      if s.calls thread = .idle ∧ s.setCalled = false then some { s with
        calls := Function.update s.calls thread .setSink
        setCalled := true }
      else none
    | .dispose thread =>
      if s.calls thread = .idle then some { s with
        calls := Function.update s.calls thread .disposeFlag }
      else none
    | .advance thread => some (s.advance thread)

inductive Resource where
  | sink
  | subscription
  deriving DecidableEq

/-- The resources that a step disposes of. -/
@[grind] def Call.disposals : Call → List Resource
  | .disposeSink => [.sink]
  | .disposeSubscription => [.subscription]
  | _ => []

def disposals (s : DisposerState) : DisposerEvent → List Resource
  | .advance thread => (s.calls thread).disposals
  | _ => []

/-! ### Phases -/

/-- The call has not set its flag yet. -/
@[grind] def Call.isSetting : Call → Bool
  | .setSink | .setSubscription | .setFlag => true
  | _ => false

/-- The call has taken it upon itself to dispose of the resources. -/
@[grind] def Call.isOwning : Call → Bool
  | .guardSink | .guardSubscription | .disposeSink | .disposeSubscription | .clearSink |
    .clearSubscription => true
  | _ => false

theorem Call.isOwning_of_isSetting {call : Call} (h : call.isSetting = true) :
    call.isOwning = false := by
  cases call with
  | setSink | setSubscription | setFlag => rfl
  | _ => cases h

theorem Call.disposals_of_not_owning {call : Call} (h : call.isOwning = false) :
    call.disposals = [] := by
  cases call with
  | disposeSink | disposeSubscription => cases h
  | _ => rfl

/-- What holds of the fields and of the disposals while a call owns the resources. -/
def Call.Owns (call : Call) (d : SinkDisposer) (disposed : List Resource) : Prop :=
  match call with
  | .guardSink | .guardSubscription | .disposeSink =>
    d.sink = true ∧ d.subscription = true ∧ disposed = []
  | .disposeSubscription => disposed = [.sink]
  | .clearSink | .clearSubscription => disposed = [.sink, .subscription]
  | _ => False

/-- The setting call, before its flag is set. -/
inductive Setter (s : DisposerState) : Prop
  | uncalled (hcalled : s.setCalled = false) (hnone : ∀ i, (s.calls i).isSetting = false)
  | setting (k : ℕ) (hcalled : s.setCalled = true) (hk : ∀ i, (s.calls i).isSetting = true ↔ i = k)
    (hsink : s.calls k ≠ .setSink → s.disposer.sink = true)
    (hsubscription : s.calls k = .setFlag → s.disposer.subscription = true)

/-- A thread that called `dispose` has not taken its first step. -/
def Undisposed (es : List DisposerEvent) (s : DisposerState) : Prop :=
  ∀ i, .dispose i ∈ es → s.calls i = .disposeFlag

inductive Phase (es : List DisposerEvent) (s : DisposerState) (disposed : List Resource) : Prop
  | unset (hstate : s.disposer.state = 0 ∧ Undisposed es s ∨ s.disposer.state = 1)
    (howning : ∀ i, (s.calls i).isOwning = false) (hsetter : Setter s) (hdisposed : disposed = [])
  | set (hstate : s.disposer.state = 2) (hundisposed : Undisposed es s)
    (hcalled : s.setCalled = true) (howning : ∀ i, (s.calls i).isOwning = false)
    (hsetting : ∀ i, (s.calls i).isSetting = false) (hsink : s.disposer.sink = true)
    (hsubscription : s.disposer.subscription = true) (hdisposed : disposed = [])
  | owned (k : ℕ) (hstate : s.disposer.state = 3) (hcalled : s.setCalled = true)
    (howning : ∀ i, (s.calls i).isOwning = true ↔ i = k)
    (hsetting : ∀ i, (s.calls i).isSetting = false) (howns : (s.calls k).Owns s.disposer disposed)
  | finished (hstate : s.disposer.state = 3) (hcalled : s.setCalled = true)
    (howning : ∀ i, (s.calls i).isOwning = false) (hsetting : ∀ i, (s.calls i).isSetting = false)
    (hdisposed : disposed = [.sink, .subscription])

structure DisposerInv (es : List DisposerEvent) (s : DisposerState) : Prop where
  phase : Phase es s (disposing.emitted disposals es)
  fatalError : ∀ i, s.calls i ≠ .fatalError
  setCalled : (∃ i, .set i ∈ es) → s.setCalled = true

variable {es : List DisposerEvent} {s t : DisposerState} {disposed : List Resource} {thread : ℕ}

/-- A step of one thread keeps `Undisposed` if it is no first step of `dispose`. -/
theorem Undisposed.snoc {e : DisposerEvent} {call : Call} (h : Undisposed es s)
    (hcalls : t.calls = Function.update s.calls thread call)
    (he : ∀ i, e = .dispose i → i = thread ∧ call = .disposeFlag)
    (hthread : s.calls thread ≠ .disposeFlag) : Undisposed (es ++ [e]) t := by
  intro i hi
  rw [hcalls, Function.update_apply]
  rcases List.mem_append.mp hi with hi | hi
  · have hcall := h i hi
    rw [if_neg fun heq : i = thread => hthread (heq ▸ hcall)]
    exact hcall
  · obtain ⟨heq, hflag⟩ := he i (List.mem_singleton.mp hi).symm
    rw [if_pos heq, hflag]

/-- What a phase says of the calls, after one of them has moved on. -/
theorem update_calls {p : Call → Bool} {o : ℕ → Bool} {call : Call}
    (h : ∀ i, i ≠ thread → p (s.calls i) = o i) (hcall : p call = o thread) (i : ℕ) :
    p (Function.update s.calls thread call i) = o i := by
  rw [Function.update_apply]
  split_ifs with heq
  · rw [hcall, heq]
  · exact h i heq

/-! ### One step -/

theorem phase_set (h : Phase es s disposed) (ht : disposing.step s (.set thread) = some t) :
    Phase (es ++ [.set thread]) t disposed := by
  simp only [disposing, Option.ite_none_right_eq_some, Option.some.injEq] at ht
  obtain ⟨⟨hidle, huncalled⟩, rfl⟩ := ht
  cases h with
  | unset hstate howning hsetter hdisposed =>
    cases hsetter with
    | uncalled _ hnone =>
      refine .unset ?_ ?_ (.setting thread rfl ?_ ?_ ?_) hdisposed
      · exact hstate.imp_left fun ⟨hzero, hundisposed⟩ =>
          ⟨hzero, hundisposed.snoc rfl (by simp) (by simp [hidle])⟩
      · exact update_calls (fun i _ => howning i) rfl
      · grind [Function.update_apply]
      · simp
      · simp
    | setting _ hcalled => exact absurd (huncalled.symm.trans hcalled) (by decide)
  | set _ _ hcalled => exact absurd (huncalled.symm.trans hcalled) (by decide)
  | owned _ _ hcalled => exact absurd (huncalled.symm.trans hcalled) (by decide)
  | finished _ hcalled => exact absurd (huncalled.symm.trans hcalled) (by decide)

/-- A call that neither sets the flag nor owns the resources moves on to another such. -/
theorem phase_bystander {e : DisposerEvent} {call : Call} (h : Phase es s disposed)
    (hundisposed : s.disposer.state = 0 ∨ s.disposer.state = 2 → Undisposed es s →
      Undisposed (es ++ [e]) { s with calls := Function.update s.calls thread call })
    (hthread : (s.calls thread).isSetting = false ∧ (s.calls thread).isOwning = false)
    (hcall : call.isSetting = false ∧ call.isOwning = false) :
    Phase (es ++ [e]) { s with calls := Function.update s.calls thread call } disposed := by
  cases h with
  | unset hstate howning hsetter hdisposed =>
    refine .unset ?_ (update_calls (fun i _ => howning i) hcall.2) ?_ hdisposed
    · exact hstate.imp_left fun ⟨hzero, hund⟩ => ⟨hzero, hundisposed (.inl hzero) hund⟩
    · cases hsetter with
      | uncalled hcalled hnone =>
        exact .uncalled hcalled (update_calls (fun i _ => hnone i) hcall.1)
      | setting k hcalled hk hsink hsubscription =>
        have hne : k ≠ thread := by grind
        refine .setting k hcalled ?_ ?_ ?_ <;> grind [Function.update_apply]
  | set hstate hund hcalled howning hsetting hsink hsubscription hdisposed =>
    exact .set hstate (hundisposed (.inr hstate) hund) hcalled
      (update_calls (fun i _ => howning i) hcall.2)
      (update_calls (fun i _ => hsetting i) hcall.1) hsink hsubscription hdisposed
  | owned k hstate hcalled howning hsetting howns =>
    have hne : k ≠ thread := by grind
    refine .owned k hstate hcalled ?_ (update_calls (fun i _ => hsetting i) hcall.1) ?_
    · grind [Function.update_apply]
    · show (Function.update s.calls thread call k).Owns s.disposer disposed
      rwa [Function.update_of_ne hne]
  | finished hstate hcalled howning hsetting hdisposed =>
    exact .finished hstate hcalled (update_calls (fun i _ => howning i) hcall.2)
      (update_calls (fun i _ => hsetting i) hcall.1) hdisposed

theorem phase_dispose (h : Phase es s disposed)
    (ht : disposing.step s (.dispose thread) = some t) :
    Phase (es ++ [.dispose thread]) t disposed := by
  simp only [disposing, Option.ite_none_right_eq_some, Option.some.injEq] at ht
  obtain ⟨hidle, rfl⟩ := ht
  apply phase_bystander h
  · intro _ hundisposed
    exact hundisposed.snoc rfl (by simp) (by simp [hidle])
  · simp [hidle, Call.isSetting, Call.isOwning]
  · exact ⟨rfl, rfl⟩

theorem DisposerState.advance_eq {d : SinkDisposer} {call next : Call}
    (hcall : s.calls thread = call) (h : s.disposer.advance call = (d, next)) :
    s.advance thread =
      { s with disposer := d, calls := Function.update s.calls thread next } := by
  rw [advance, hcall, h]

theorem phase_setting (h : Phase es s disposed) (hthread : (s.calls thread).isSetting = true) :
    Phase (es ++ [.advance thread]) (s.advance thread)
      (disposed ++ disposals s (.advance thread)) := by
  have hundisposed {u : DisposerState} {call : Call} (hund : Undisposed es s)
      (hu : u.calls = Function.update s.calls thread call) :
      Undisposed (es ++ [.advance thread]) u :=
    hund.snoc hu (by simp) (by grind)
  have hnone : disposals s (.advance thread) = [] := 
    Call.disposals_of_not_owning (Call.isOwning_of_isSetting hthread)
  rw [hnone, List.append_nil]
  cases h with
  | unset hstate howning hsetter hdisposed =>
    cases hsetter with
    | uncalled _ hnone => grind
    | setting k hcalled hk hsink hsubscription =>
      obtain rfl : thread = k := (hk thread).mp hthread
      cases hcall : s.calls thread with
      | setSink =>
        rw [DisposerState.advance_eq hcall rfl]
        refine .unset ?_ (update_calls (fun i _ => howning i) rfl)
          (.setting thread hcalled ?_ ?_ ?_) hdisposed
        · exact hstate.imp_left fun ⟨hzero, hund⟩ => ⟨hzero, hundisposed hund rfl⟩
        · grind [Function.update_apply]
        · simp
        · simp
      | setSubscription =>
        rw [DisposerState.advance_eq hcall rfl]
        refine .unset ?_ (update_calls (fun i _ => howning i) rfl)
          (.setting thread hcalled ?_ ?_ ?_) hdisposed
        · exact hstate.imp_left fun ⟨hzero, hund⟩ => ⟨hzero, hundisposed hund rfl⟩
        · grind [Function.update_apply]
        · exact fun _ => hsink (by simp [hcall])
        · simp
      | setFlag =>
        have hsink : s.disposer.sink = true := hsink (by simp [hcall])
        have hsetting : ∀ i, i ≠ thread → (s.calls i).isSetting = false := by grind
        rcases hstate with ⟨hzero, hund⟩ | hone
        · rw [DisposerState.advance_eq hcall (SinkDisposer.advance_setFlag_zero hzero)]
          exact .set rfl (hundisposed hund rfl) hcalled (update_calls (fun i _ => howning i) rfl)
            (update_calls hsetting rfl) hsink (hsubscription hcall) hdisposed
        · rw [DisposerState.advance_eq hcall (SinkDisposer.advance_setFlag_one hone)]
          refine .owned thread rfl hcalled ?_ (update_calls hsetting rfl) ?_
          · grind [Function.update_apply]
          · show Call.Owns (Function.update s.calls thread .disposeSink thread) _ disposed
            rw [Function.update_self]
            exact ⟨hsink, hsubscription hcall, hdisposed⟩
      | _ => grind
  | set _ _ _ _ hsetting => grind
  | owned _ _ _ _ hsetting => grind
  | finished _ _ _ hsetting => grind

theorem phase_disposeFlag (h : Phase es s disposed) (hcall : s.calls thread = .disposeFlag) :
    Phase (es ++ [.advance thread]) (s.advance thread)
      (disposed ++ disposals s (.advance thread)) := by
  have hnone : disposals s (.advance thread) = [] := Call.disposals_of_not_owning (by grind)
  rw [hnone, List.append_nil]
  have hagain (hstate : s.disposer.state = 1 ∨ s.disposer.state = 3) :
      Phase (es ++ [.advance thread]) (s.advance thread) disposed := by
    rw [DisposerState.advance_eq hcall (SinkDisposer.advance_disposeFlag_disposed hstate)]
    apply phase_bystander h
    · intro hopen
      rcases hopen with hopen | hopen <;> rcases hstate with hstate | hstate <;>
        exact absurd (hopen.symm.trans hstate) (by decide)
    · simp [hcall, Call.isSetting, Call.isOwning]
    · exact ⟨rfl, rfl⟩
  cases h with
  | unset hstate howning hsetter hdisposed =>
    rcases hstate with ⟨hzero, hund⟩ | hone
    · rw [DisposerState.advance_eq hcall (SinkDisposer.advance_disposeFlag_zero hzero)]
      refine .unset (.inr rfl) (update_calls (fun i _ => howning i) rfl) ?_ hdisposed
      cases hsetter with
      | uncalled hcalled hnone =>
        exact .uncalled hcalled (update_calls (fun i _ => hnone i) rfl)
      | setting k hcalled hk hsink hsubscription =>
        refine .setting k hcalled ?_ ?_ ?_ <;> grind [Function.update_apply]
    · exact hagain (.inl hone)
  | set hstate hund hcalled howning hsetting hsink hsubscription hdisposed =>
    rw [DisposerState.advance_eq hcall (SinkDisposer.advance_disposeFlag_two hstate)]
    refine .owned thread rfl hcalled ?_ (update_calls (fun i _ => hsetting i) rfl) ?_
    · grind [Function.update_apply]
    · show Call.Owns (Function.update s.calls thread .guardSink thread) _ disposed
      rw [Function.update_self]
      exact ⟨hsink, hsubscription, hdisposed⟩
  | owned _ hstate => exact hagain (.inr hstate)
  | finished hstate => exact hagain (.inr hstate)

/-- The owner of the resources disposes of each in its turn. -/
theorem Call.owns_advance {call : Call} {d : SinkDisposer} (howns : call.Owns d disposed)
    (hlast : call ≠ .clearSubscription) :
    (d.advance call).1.state = d.state ∧ (d.advance call).2.isOwning = true ∧
      (d.advance call).2.isSetting = false ∧
      (d.advance call).2.Owns (d.advance call).1 (disposed ++ call.disposals) := by
  cases call with
  | guardSink | guardSubscription =>
    obtain ⟨hsink, hsubscription, rfl⟩ := howns
    simp [SinkDisposer.advance, hsink, hsubscription, isOwning, isSetting, Owns, disposals]
  | disposeSink =>
    obtain ⟨-, -, rfl⟩ := howns
    exact ⟨rfl, rfl, rfl, rfl⟩
  | disposeSubscription =>
    obtain rfl : disposed = [.sink] := howns
    exact ⟨rfl, rfl, rfl, rfl⟩
  | clearSink =>
    obtain rfl : disposed = [.sink, .subscription] := howns
    exact ⟨rfl, rfl, rfl, rfl⟩
  | clearSubscription => exact absurd rfl hlast
  | _ => exact absurd howns (by simp [Owns])

theorem Call.Owns.isPrefix {call : Call} {d : SinkDisposer} (h : call.Owns d disposed) :
    disposed <+: [.sink, .subscription] := by
  cases call with
  | guardSink | guardSubscription | disposeSink => simp [h.2.2]
  | disposeSubscription =>
    obtain rfl : disposed = [.sink] := h
    exact ⟨[.subscription], rfl⟩
  | clearSink | clearSubscription =>
    obtain rfl : disposed = [.sink, .subscription] := h
    exact List.prefix_rfl
  | _ => exact absurd h (by simp [Owns])

theorem phase_owning (h : Phase es s disposed) (hthread : (s.calls thread).isOwning = true) :
    Phase (es ++ [.advance thread]) (s.advance thread)
      (disposed ++ disposals s (.advance thread)) := by
  cases h with
  | unset _ howning => grind
  | set _ _ _ howning => grind
  | owned k hstate hcalled howning hsetting howns =>
    obtain rfl : thread = k := (howning thread).mp hthread
    by_cases hlast : s.calls thread = .clearSubscription
    · rw [DisposerState.advance_eq hlast rfl]
      rw [hlast] at howns
      refine .finished hstate hcalled (update_calls ?_ rfl)
        (update_calls (fun i _ => hsetting i) rfl) ?_
      · grind
      · obtain rfl : disposed = [.sink, .subscription] := howns
        rw [disposals, hlast]
        rfl
    · obtain ⟨hsame, howner, hunset, hnext⟩ := Call.owns_advance howns hlast
      refine .owned thread (hsame.trans hstate) hcalled ?_
        (update_calls (fun i _ => hsetting i) hunset) ?_
      · intro i
        show (Function.update s.calls thread _ i).isOwning = true ↔ i = thread
        grind [Function.update_apply]
      · show Call.Owns (Function.update s.calls thread _ thread) _ _
        rwa [Function.update_self]
  | finished _ _ howning => grind

/-- Between the steps of two other calls, one at rest changes nothing. -/
theorem phase_resting (h : Phase es s disposed)
    (hthread : s.calls thread = .idle ∨ s.calls thread = .done ∨ s.calls thread = .fatalError) :
    Phase (es ++ [.advance thread]) (s.advance thread)
      (disposed ++ disposals s (.advance thread)) := by
  have hnone : disposals s (.advance thread) = [] := Call.disposals_of_not_owning (by grind)
  have hstay : s.disposer.advance (s.calls thread) = (s.disposer, s.calls thread) := by
    rcases hthread with hcall | hcall | hcall <;> rw [hcall] <;> rfl
  rw [hnone, List.append_nil, DisposerState.advance_eq rfl hstay]
  apply phase_bystander h
  · intro _ hundisposed
    apply hundisposed.snoc rfl (by simp)
    rcases hthread with hcall | hcall | hcall <;> simp [hcall]
  · rcases hthread with hcall | hcall | hcall <;> simp [hcall, Call.isSetting, Call.isOwning]
  · rcases hthread with hcall | hcall | hcall <;> simp [hcall, Call.isSetting, Call.isOwning]

theorem phase_advance (h : Phase es s disposed) :
    Phase (es ++ [.advance thread]) (s.advance thread)
      (disposed ++ disposals s (.advance thread)) := by
  cases hcall : s.calls thread with
  | idle => exact phase_resting h (.inl hcall)
  | done => exact phase_resting h (.inr (.inl hcall))
  | fatalError => exact phase_resting h (.inr (.inr hcall))
  | setSink | setSubscription | setFlag => exact phase_setting h (by rw [hcall]; rfl)
  | disposeFlag => exact phase_disposeFlag h hcall
  | _ => exact phase_owning h (by rw [hcall]; rfl)

/-! ### All interleavings -/

theorem advance_ne_fatalError (h : Phase es s disposed) (hcall : s.calls thread ≠ .fatalError) :
    (s.disposer.advance (s.calls thread)).2 ≠ .fatalError := by
  cases hthread : s.calls thread with
  | setFlag =>
    cases h with
    | unset hstate =>
      rcases hstate with ⟨hzero, -⟩ | hone
      · simp [SinkDisposer.advance_setFlag_zero hzero]
      · simp [SinkDisposer.advance_setFlag_one hone]
    | set _ _ _ _ hsetting => grind
    | owned _ _ _ _ hsetting => grind
    | finished _ _ _ hsetting => grind
  | guardSink | guardSubscription =>
    cases h with
    | unset _ howning => grind
    | set _ _ _ howning => grind
    | owned k _ _ howning _ howns =>
      obtain rfl : thread = k := by grind
      rw [hthread] at howns
      simp [SinkDisposer.advance, howns.1, howns.2.1]
    | finished _ _ howning => grind
  | disposeFlag =>
    rw [SinkDisposer.advance]
    dsimp only
    split_ifs <;> simp
  | fatalError => exact absurd hthread hcall
  | _ => simp [SinkDisposer.advance]

theorem setCalled_step {e : DisposerEvent} (ht : disposing.step s e = some t)
    (h : s.setCalled = true ∨ ∃ i, e = .set i) : t.setCalled = true := by
  cases e with
  | set i =>
    simp only [disposing, Option.ite_none_right_eq_some, Option.some.injEq] at ht
    obtain ⟨-, rfl⟩ := ht
    rfl
  | dispose i =>
    simp only [disposing, Option.ite_none_right_eq_some, Option.some.injEq] at ht
    obtain ⟨-, rfl⟩ := ht
    simpa using h
  | advance i =>
    simp only [disposing, Option.some.injEq] at ht
    subst ht
    simpa [DisposerState.advance] using h

theorem fatalError_step {e : DisposerEvent} (h : Phase es s disposed)
    (hfatal : ∀ i, s.calls i ≠ .fatalError) (ht : disposing.step s e = some t) (i : ℕ) :
    t.calls i ≠ .fatalError := by
  cases e with
  | set thread =>
    simp only [disposing, Option.ite_none_right_eq_some, Option.some.injEq] at ht
    obtain ⟨-, rfl⟩ := ht
    grind [Function.update_apply]
  | dispose thread =>
    simp only [disposing, Option.ite_none_right_eq_some, Option.some.injEq] at ht
    obtain ⟨-, rfl⟩ := ht
    grind [Function.update_apply]
  | advance thread =>
    simp only [disposing, Option.some.injEq] at ht
    subst ht
    have hnext := advance_ne_fatalError h (hfatal thread)
    show Function.update s.calls thread (s.disposer.advance (s.calls thread)).2 i ≠ .fatalError
    rw [Function.update_apply]
    split_ifs
    · exact hnext
    · exact hfatal i

theorem phase_step {e : DisposerEvent} (h : Phase es s disposed)
    (ht : disposing.step s e = some t) : Phase (es ++ [e]) t (disposed ++ disposals s e) := by
  cases e with
  | set thread => exact (List.append_nil disposed).symm ▸ phase_set h ht
  | dispose thread => exact (List.append_nil disposed).symm ▸ phase_dispose h ht
  | advance thread =>
    simp only [disposing, Option.some.injEq] at ht
    exact ht ▸ phase_advance h

theorem disposerInv_run (h : disposing.run es = some s) : DisposerInv es s := by
  apply run_induction (S := disposing) (I := DisposerInv) ?_ ?_ h
  · refine ⟨.unset (.inl ⟨rfl, ?_⟩) (fun _ => rfl) (.uncalled rfl fun _ => rfl) rfl, ?_, ?_⟩
    · intro i hi
      cases hi
    · intro i
      simp [disposing]
    · rintro ⟨i, hi⟩
      cases hi
  · intro es s e t hs hinv ht
    refine ⟨?_, fatalError_step hinv.phase hinv.fatalError ht, ?_⟩
    · rw [emitted_snoc disposals hs ht]
      exact phase_step hinv.phase ht
    · rintro ⟨i, hi⟩
      apply setCalled_step ht
      rcases List.mem_append.mp hi with hi | hi
      · exact .inl (hinv.setCalled ⟨i, hi⟩)
      · exact .inr ⟨i, (List.mem_singleton.mp hi).symm⟩

/-- The sink is disposed of before the subscription and neither twice, no call ends in
a fatal error, and both are disposed of as soon as `setSinkAndSubscription` and some
`dispose` were called and no call is under way. -/
theorem disposesOnce (h : disposing.run es = some s) :
    disposing.emitted disposals es <+: [.sink, .subscription] ∧
    (∀ i, s.calls i ≠ .fatalError) ∧
    ((∃ i, .set i ∈ es) → (∃ i, .dispose i ∈ es) →
      (∀ i, s.calls i = .idle ∨ s.calls i = .done) →
      disposing.emitted disposals es = [.sink, .subscription]) := by
  have hinv := disposerInv_run h
  refine ⟨?_, hinv.fatalError, ?_⟩
  · cases hinv.phase with
    | unset _ _ _ hdisposed => simp [hdisposed]
    | set _ _ _ _ _ _ _ hdisposed => simp [hdisposed]
    | owned _ _ _ _ _ howns => exact howns.isPrefix
    | finished _ _ _ _ hdisposed => exact hdisposed ▸ List.prefix_rfl
  · rintro ⟨i, hset⟩ ⟨j, hdispose⟩ hrest
    have hcalled := hinv.setCalled ⟨i, hset⟩
    cases hinv.phase with
    | unset _ _ hsetter hdisposed =>
      cases hsetter with
      | uncalled huncalled => grind
      | setting k _ hk => grind
    | set _ hundisposed => grind [Undisposed]
    | owned k _ _ howning => grind
    | finished _ _ _ _ hdisposed => exact hdisposed

/-- One thread calls `dispose` between two steps of `setSinkAndSubscription`, and a third
calls it again before the flag is set. -/
theorem disposesOnce_disposedWhileSetting :
    disposing.emitted disposals [.set 0, .advance 0, .dispose 1, .advance 1, .advance 0,
      .dispose 2, .advance 0, .advance 2, .advance 0, .advance 0, .advance 0, .advance 0] =
      [.sink, .subscription] := by
  have hrun := (rfl : disposing.run [.set 0, .advance 0, .dispose 1, .advance 1, .advance 0,
    .dispose 2, .advance 0, .advance 2, .advance 0, .advance 0, .advance 0, .advance 0] = some _)
  refine (disposesOnce hrun).2.2 ⟨0, by decide⟩ ⟨1, by decide⟩ fun i => ?_
  match i with
  | 0 => exact .inr rfl
  | 1 => exact .inr rfl
  | 2 => exact .inr rfl
  | i + 3 => exact .inl rfl

end SewaConnect.Rx
