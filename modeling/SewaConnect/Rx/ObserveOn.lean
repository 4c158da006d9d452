import SewaConnect.Runs.Refinement
import SewaConnect.Rx.BehaviorSubject

/-! The sink behind `observeOn(MainScheduler.asyncInstance)`. A source sends it events on
any threads; those let through by the flag of `ObserverBase` become blocks on the main
queue, which notifies the observer of one after the other until the subscription is
disposed of. `relaysInOrder` says what reaches the observer in every interleaving. -/

namespace SewaConnect.Rx

open Runs Runs.System

variable {α : Type*}

def Event.isStopEvent : Event α → Bool
  | next _ => false
  | error _ | completed => true

/-- What the main queue does next, within `cachedScheduleLambda`. -/
inductive Job (α : Type*) where
  /-- No block runs. -/
  | idle
  /-- `pair.sink.observer.on(pair.event)`, behind the guard -/
  | notify (event : Event α)
  /-- `dispose` after a stop event: `super.dispose()` -/
  | stop
  /-- `self.cancel.dispose()` -/
  | cancel

/-- The event that the observer is about to be notified of. -/
def Job.inHand : Job α → List (Event α)
  | notify event => [event]
  | idle | stop | cancel => []

structure ObserveOnSerialDispatchQueueSink (α : Type*) where
  /-- `_isStopped` -/
  isStopped : Bool := false
  /-- `cancel.isDisposed` -/
  isDisposed : Bool := false
  /-- The events for which a thread is about to call `onCore`. -/
  calls : ℕ → Option (Event α) := fun _ => none
  /-- The blocks on the main queue. -/
  queue : List (Event α) := []
  job : Job α := .idle

inductive RelayEvent (α : Type*) where
  /-- The thread calls `on`, which reads and sets the flag. -/
  | on (thread : ℕ) (event : Event α)
  /-- `onCore` -/
  | schedule (thread : ℕ)
  /-- The main queue takes its next step. -/
  | main
  /-- The subscription is disposed of. -/
  | dispose
  /-- Its disposal reaches the sink. -/
  | disposeSink

def relay (α : Type*) : System (ObserveOnSerialDispatchQueueSink α) (RelayEvent α) where
  init := {}
  step s
    | .on thread event =>
      match s.calls thread with
      | some _ => none
      | none => some { s with
          isStopped := s.isStopped || event.isStopEvent
          calls := Function.update s.calls thread (if s.isStopped then none else some event) }
    | .schedule thread =>
      match s.calls thread with
      | none => none
      | some event => some { s with
          calls := Function.update s.calls thread none
          queue := s.queue ++ [event] }
    | .main =>
      match s.job with
      | .idle =>
        match s.queue with
        | [] => none
        | event :: queue =>
          some { s with queue, job := if s.isDisposed then .idle else .notify event }
      | .notify event => some { s with job := if event.isStopEvent then .stop else .idle }
      | .stop => some { s with isStopped := true, job := .cancel }
      | .cancel => some { s with isDisposed := true, job := .idle }
    | .dispose => some { s with isDisposed := true }
    | .disposeSink => if s.isDisposed then some { s with isStopped := true } else none

/-- The event that a step puts on the main queue. -/
def scheduledBy (s : ObserveOnSerialDispatchQueueSink α) : RelayEvent α → List (Event α)
  | .schedule thread => (s.calls thread).toList
  | _ => []

/-- The event that a step notifies the observer of. -/
def notifiedBy (s : ObserveOnSerialDispatchQueueSink α) : RelayEvent α → List (Event α)
  | .main => s.job.inHand
  | _ => []

def scheduled (es : List (RelayEvent α)) : List (Event α) := (relay α).emitted scheduledBy es

def notified (es : List (RelayEvent α)) : List (Event α) := (relay α).emitted notifiedBy es

/-- The events up to the first stop event. -/
def upToStop : List (Event α) → List (Event α)
  | [] => []
  | event :: events => if event.isStopEvent then [event] else event :: upToStop events

/-! ### Up to the first stop event -/

/-- No event but the last is a stop event. -/
def Unstopped (events : List (Event α)) : Prop := ∀ event ∈ events, event.isStopEvent = false

theorem upToStop_append {pre : List (Event α)} (h : Unstopped pre) (post : List (Event α)) :
    upToStop (pre ++ post) = pre ++ upToStop post := by
  induction pre with
  | nil => rfl
  | cons event pre ih =>
    have hevent : event.isStopEvent = false := h event List.mem_cons_self
    have hpre : Unstopped pre := fun e he => h e (List.mem_cons_of_mem event he)
    rw [List.cons_append, upToStop, hevent, ih hpre]
    rfl

theorem upToStop_of_stop {pre post : List (Event α)} {event : Event α} (h : Unstopped pre)
    (hevent : event.isStopEvent = true) :
    upToStop (pre ++ [event] ++ post) = pre ++ [event] := by
  rw [List.append_assoc, upToStop_append h, List.singleton_append, upToStop, if_pos hevent]

theorem upToStop_of_unstopped {events : List (Event α)} (h : Unstopped events) :
    upToStop events = events := by
  have happend := upToStop_append h []
  rwa [List.append_nil, upToStop, List.append_nil] at happend

/-! ### One step -/

/-- What was notified ends with a stop event, and the sink is closing or closed. -/
structure Stopped (s : ObserveOnSerialDispatchQueueSink α) (notified : List (Event α)) : Prop where
  last : ∃ pre event, notified = pre ++ [event] ∧ Unstopped pre ∧ event.isStopEvent = true
  closing : s.job = .stop ∨ s.job = .cancel ∨ s.job = .idle ∧ s.isDisposed = true

structure Relayed (es : List (RelayEvent α)) (s : ObserveOnSerialDispatchQueueSink α)
    (scheduled notified : List (Event α)) : Prop where
  /-- What was scheduled was notified, is in hand, was dropped or waits. -/
  order : ∃ dropped, scheduled = notified ++ s.job.inHand ++ dropped ++ s.queue ∧
    (s.isDisposed = false ∨ s.job.inHand ≠ [] → dropped = [])
  stop : (Unstopped notified ∧ s.job ≠ .stop ∧ s.job ≠ .cancel) ∨ Stopped s notified
  disposed : s.isDisposed = true → .dispose ∈ es ∨ Stopped s notified

variable {es : List (RelayEvent α)} {s t : ObserveOnSerialDispatchQueueSink α}
  {sent seen : List (Event α)}

/-- A step that keeps the main queue and its job. -/
theorem Relayed.frame {e : RelayEvent α} (h : Relayed es s sent seen) (hqueue : t.queue = s.queue)
    (hjob : t.job = s.job) (hdisposed : t.isDisposed = s.isDisposed) :
    Relayed (es ++ [e]) t sent seen where
  order := by rw [hqueue, hjob, hdisposed]; exact h.order
  stop := by
    rw [hjob]
    refine h.stop.imp_right fun hstopped => ⟨hstopped.last, ?_⟩
    rw [hjob, hdisposed]
    exact hstopped.closing
  disposed hd := by
    rw [hdisposed] at hd
    rcases h.disposed hd with hmem | hstopped
    · exact .inl (List.mem_append_left _ hmem)
    · refine .inr ⟨hstopped.last, ?_⟩
      rw [hjob, hdisposed]
      exact hstopped.closing

theorem relayed_on {thread : ℕ} {event : Event α} (h : Relayed es s sent seen)
    (ht : (relay α).step s (.on thread event) = some t) :
    Relayed (es ++ [.on thread event]) t sent seen := by
  simp only [relay] at ht
  split at ht
  · simp at ht
  · rw [Option.some.injEq] at ht
    subst ht
    exact h.frame rfl rfl rfl

theorem relayed_schedule {thread : ℕ} (h : Relayed es s sent seen)
    (ht : (relay α).step s (.schedule thread) = some t) :
    Relayed (es ++ [.schedule thread]) t (sent ++ scheduledBy s (.schedule thread)) seen := by
  cases hcall : s.calls thread with
  | none => simp [relay, hcall] at ht
  | some event =>
    simp only [relay, hcall, Option.some.injEq] at ht
    subst ht
    have hscheduled : scheduledBy s (.schedule thread) = [event] := by
      rw [scheduledBy, hcall]
      rfl
    obtain ⟨dropped, horder, hdropped⟩ := h.order
    refine ⟨⟨dropped, ?_, hdropped⟩, h.stop.imp_right fun hs => ⟨hs.last, hs.closing⟩, ?_⟩
    · rw [hscheduled, horder]
      exact List.append_assoc _ _ _
    · intro hd
      rcases h.disposed hd with hmem | hstopped
      · exact .inl (List.mem_append_left _ hmem)
      · exact .inr ⟨hstopped.last, hstopped.closing⟩

theorem relayed_dispose (h : Relayed es s sent seen)
    (ht : (relay α).step s .dispose = some t) : Relayed (es ++ [.dispose]) t sent seen := by
  simp only [relay, Option.some.injEq] at ht
  subst ht
  obtain ⟨dropped, horder, hdropped⟩ := h.order
  refine ⟨⟨dropped, horder, ?_⟩, ?_, ?_⟩
  · rintro (hd | hhand)
    · simp at hd
    · exact hdropped (.inr hhand)
  · refine h.stop.imp_right fun hs => ⟨hs.last, ?_⟩
    rcases hs.closing with hjob | hjob | ⟨hjob, -⟩
    · exact .inl hjob
    · exact .inr (.inl hjob)
    · exact .inr (.inr ⟨hjob, rfl⟩)
  · intro _
    exact .inl (by simp)

theorem relayed_disposeSink (h : Relayed es s sent seen)
    (ht : (relay α).step s .disposeSink = some t) :
    Relayed (es ++ [.disposeSink]) t sent seen := by
  simp only [relay, Option.ite_none_right_eq_some, Option.some.injEq] at ht
  obtain ⟨-, rfl⟩ := ht
  exact h.frame rfl rfl rfl

/-- The steps of the main queue. -/
inductive MainStep (s t : ObserveOnSerialDispatchQueueSink α) : Prop
  | drop (event : Event α) (queue : List (Event α)) (hjob : s.job = .idle)
    (hqueue : s.queue = event :: queue) (hdisposed : s.isDisposed = true)
    (ht : t = { s with queue })
  | take (event : Event α) (queue : List (Event α)) (hjob : s.job = .idle)
    (hqueue : s.queue = event :: queue) (hdisposed : s.isDisposed = false)
    (ht : t = { s with queue, job := .notify event })
  | notify (event : Event α) (hjob : s.job = .notify event)
    (ht : t = { s with job := if event.isStopEvent then .stop else .idle })
  | stop (hjob : s.job = .stop) (ht : t = { s with isStopped := true, job := .cancel })
  | cancel (hjob : s.job = .cancel) (ht : t = { s with isDisposed := true, job := .idle })

theorem main_cases (ht : (relay α).step s .main = some t) : MainStep s t := by
  cases hjob : s.job with
  | idle =>
    cases hqueue : s.queue with
    | nil => simp [relay, hjob, hqueue] at ht
    | cons event queue =>
      simp only [relay, hjob, hqueue, Option.some.injEq] at ht
      cases hdisposed : s.isDisposed with
      | true =>
        refine .drop event queue hjob hqueue hdisposed ?_
        rw [← ht, hjob, if_pos hdisposed, hdisposed]
      | false =>
        refine .take event queue hjob hqueue hdisposed ?_
        rw [← ht, hdisposed]
        rfl
  | notify event =>
    simp only [relay, hjob, Option.some.injEq] at ht
    exact .notify event hjob ht.symm
  | stop =>
    simp only [relay, hjob, Option.some.injEq] at ht
    exact .stop hjob ht.symm
  | cancel =>
    simp only [relay, hjob, Option.some.injEq] at ht
    exact .cancel hjob ht.symm

/-- While the main queue relays, no stop event was notified. -/
theorem Relayed.running (h : Relayed es s sent seen)
    (hjob : ¬(s.job = .stop ∨ s.job = .cancel ∨ s.job = .idle ∧ s.isDisposed = true)) :
    Unstopped seen ∧ ¬ Stopped s seen :=
  have hnot : ¬ Stopped s seen := fun hs => hjob hs.closing
  ⟨(h.stop.resolve_right hnot).1, hnot⟩

theorem Relayed.drop {event : Event α} {queue : List (Event α)} (h : Relayed es s sent seen)
    (hjob : s.job = .idle) (hqueue : s.queue = event :: queue) (hdisposed : s.isDisposed = true) :
    Relayed (es ++ [.main]) { s with queue } sent seen := by
  obtain ⟨dropped, horder, -⟩ := h.order
  have hhand : s.job.inHand = [] := by
    rw [hjob]
    rfl
  have hstopped (hs : Stopped s seen) : Stopped { s with queue } seen :=
    ⟨hs.last, .inr (.inr ⟨hjob, hdisposed⟩)⟩
  rw [hhand, hqueue] at horder
  refine ⟨⟨dropped ++ [event], ?_, ?_⟩, h.stop.imp_right hstopped, ?_⟩
  · rw [horder]
    simp [hhand]
  · simp [hhand, hdisposed]
  · intro _
    exact (h.disposed hdisposed).imp (List.mem_append_left _) hstopped

theorem Relayed.take {event : Event α} {queue : List (Event α)} (h : Relayed es s sent seen)
    (hjob : s.job = .idle) (hqueue : s.queue = event :: queue) (hdisposed : s.isDisposed = false) :
    Relayed (es ++ [.main]) { s with queue, job := .notify event } sent seen := by
  obtain ⟨dropped, horder, hdropped⟩ := h.order
  obtain rfl := hdropped (.inl hdisposed)
  obtain ⟨hunstopped, -⟩ := h.running (by simp [hjob, hdisposed])
  rw [hqueue, hjob] at horder
  refine ⟨⟨[], ?_, fun _ => rfl⟩, .inl ⟨hunstopped, by simp, by simp⟩, ?_⟩
  · rw [horder]
    simp [Job.inHand]
  · intro hd
    exact absurd (hdisposed.symm.trans hd) (by decide)

theorem Relayed.notify {event : Event α} (h : Relayed es s sent seen)
    (hjob : s.job = .notify event) :
    Relayed (es ++ [.main]) { s with job := if event.isStopEvent then .stop else .idle } sent
      (seen ++ [event]) := by
  obtain ⟨dropped, horder, hdropped⟩ := h.order
  obtain rfl := hdropped (.inr (by simp [hjob, Job.inHand]))
  obtain ⟨hunstopped, hnot⟩ := h.running (by simp [hjob])
  rw [hjob] at horder
  cases hevent : event.isStopEvent with
  | true =>
    have hstopped : Stopped { s with job := .stop } (seen ++ [event]) :=
      ⟨⟨seen, event, rfl, hunstopped, hevent⟩, .inl rfl⟩
    refine ⟨⟨[], ?_, fun _ => rfl⟩, .inr hstopped, fun _ => .inr hstopped⟩
    rw [horder]
    simp [Job.inHand]
  | false =>
    refine ⟨⟨[], ?_, fun _ => rfl⟩, .inl ⟨?_, by simp, by simp⟩, ?_⟩
    · rw [horder]
      simp [Job.inHand]
    · intro e he
      rcases List.mem_append.mp he with he | he
      · exact hunstopped e he
      · exact (List.mem_singleton.mp he) ▸ hevent
    · intro hd
      exact .inl (List.mem_append_left _ ((h.disposed hd).resolve_right hnot))

/-- The two steps after a stop event, which touch neither the queue nor the observer. -/
theorem Relayed.close (h : Relayed es s sent seen) (hhand : s.job.inHand = [])
    (hqueue : t.queue = s.queue) (hempty : t.job.inHand = [])
    (hdisposed : t.isDisposed = false → s.isDisposed = false) (hstopped : Stopped t seen) :
    Relayed (es ++ [.main]) t sent seen := by
  obtain ⟨dropped, horder, hdropped⟩ := h.order
  refine ⟨⟨dropped, ?_, ?_⟩, .inr hstopped, fun _ => .inr hstopped⟩
  · rw [horder, hhand, hempty, hqueue]
  · rintro (hd | hhand)
    · exact hdropped (.inl (hdisposed hd))
    · exact absurd hempty hhand

theorem relayed_main (h : Relayed es s sent seen) (ht : (relay α).step s .main = some t) :
    Relayed (es ++ [.main]) t sent (seen ++ notifiedBy s .main) := by
  show Relayed (es ++ [.main]) t sent (seen ++ s.job.inHand)
  cases main_cases ht with
  | drop event queue hjob hqueue hdisposed ht =>
    rw [hjob, Job.inHand, List.append_nil]
    exact ht ▸ h.drop hjob hqueue hdisposed
  | take event queue hjob hqueue hdisposed ht =>
    rw [hjob, Job.inHand, List.append_nil]
    exact ht ▸ h.take hjob hqueue hdisposed
  | notify event hjob ht =>
    rw [hjob, Job.inHand]
    exact ht ▸ h.notify hjob
  | stop hjob ht =>
    subst ht
    have hs : Stopped s seen := h.stop.resolve_left fun hrunning => hrunning.2.1 hjob
    have hhand : s.job.inHand = [] := by rw [hjob]; rfl
    rw [hhand, List.append_nil]
    exact h.close hhand rfl rfl (fun hd => hd) ⟨hs.last, .inr (.inl rfl)⟩
  | cancel hjob ht =>
    subst ht
    have hs : Stopped s seen := h.stop.resolve_left fun hrunning => hrunning.2.2 hjob
    have hhand : s.job.inHand = [] := by rw [hjob]; rfl
    rw [hhand, List.append_nil]
    refine h.close hhand rfl rfl (fun hd => ?_) ⟨hs.last, .inr (.inr ⟨rfl, rfl⟩)⟩
    cases hd

theorem relayed_step {e : RelayEvent α} (h : Relayed es s sent seen)
    (ht : (relay α).step s e = some t) :
    Relayed (es ++ [e]) t (sent ++ scheduledBy s e) (seen ++ notifiedBy s e) := by
  have hsent : sent ++ [] = sent := List.append_nil sent
  have hseen : seen ++ [] = seen := List.append_nil seen
  cases e with
  | on thread event => exact hsent.symm ▸ hseen.symm ▸ relayed_on h ht
  | schedule thread => exact hseen.symm ▸ relayed_schedule h ht
  | main => exact hsent.symm ▸ relayed_main h ht
  | dispose => exact hsent.symm ▸ hseen.symm ▸ relayed_dispose h ht
  | disposeSink => exact hsent.symm ▸ hseen.symm ▸ relayed_disposeSink h ht

theorem relayed_run (h : (relay α).run es = some s) :
    Relayed es s (scheduled es) (notified es) := by
  apply run_induction (I := fun es s => Relayed es s (scheduled es) (notified es)) ?_ ?_ h
  · refine ⟨⟨[], rfl, fun _ => rfl⟩, .inl ⟨?_, by simp [relay], by simp [relay]⟩, ?_⟩
    · intro event hevent
      cases hevent
    · intro hd
      cases hd
  · intro es s e t hs hrelayed ht
    rw [scheduled, notified, emitted_snoc scheduledBy hs ht, emitted_snoc notifiedBy hs ht]
    exact relayed_step hrelayed ht

/-! ### The flag -/

theorem unstopped_snoc {events : List (Event α)} {event : Event α} :
    Unstopped (events ++ [event]) ↔ Unstopped events ∧ event.isStopEvent = false := by
  simp [Unstopped, or_imp, forall_and]

/-- At most one stop event is let through, and it is under way to the main queue or
already there. -/
structure Flagged (s : ObserveOnSerialDispatchQueueSink α) (scheduled : List (Event α)) : Prop where
  clear : s.isStopped = false →
    Unstopped scheduled ∧ ∀ i event, s.calls i = some event → event.isStopEvent = false
  calling : ∀ i event, s.calls i = some event → event.isStopEvent = true →
    Unstopped scheduled ∧
      ∀ j event', s.calls j = some event' → event'.isStopEvent = true → j = i
  once : (scheduled.filter Event.isStopEvent).length ≤ 1

/-- A step that keeps the calls, and the flag if it was set. -/
theorem Flagged.frame (h : Flagged s sent) (hcalls : t.calls = s.calls)
    (hstopped : t.isStopped = false → s.isStopped = false) : Flagged t sent where
  clear ht := by
    rw [hcalls]
    exact h.clear (hstopped ht)
  calling := by
    rw [hcalls]
    exact h.calling
  once := h.once

theorem flagged_on {thread : ℕ} {event : Event α} (h : Flagged s sent)
    (ht : (relay α).step s (.on thread event) = some t) : Flagged t sent := by
  cases hcall : s.calls thread with
  | some other => simp [relay, hcall] at ht
  | none =>
    simp only [relay, hcall, Option.some.injEq] at ht
    subst ht
    cases hstopped : s.isStopped with
    | true =>
      refine h.frame ?_ (by simp)
      show Function.update s.calls thread none = s.calls
      rw [← hcall, Function.update_eq_self]
    | false =>
      obtain ⟨hsent, hcalls⟩ := h.clear hstopped
      refine ⟨fun hevent => ⟨hsent, ?_⟩, ?_, h.once⟩
      · have hevent : event.isStopEvent = false := hevent
        grind [Function.update_apply]
      · intro i event' hi hevent'
        refine ⟨hsent, ?_⟩
        grind [Function.update_apply]

theorem flagged_schedule {thread : ℕ} (h : Flagged s sent)
    (ht : (relay α).step s (.schedule thread) = some t) :
    Flagged t (sent ++ scheduledBy s (.schedule thread)) := by
  cases hcall : s.calls thread with
  | none => simp [relay, hcall] at ht
  | some event =>
    simp only [relay, hcall, Option.some.injEq] at ht
    subst ht
    have hone : scheduledBy s (.schedule thread) = [event] := by
      rw [scheduledBy, hcall]
      rfl
    rw [hone]
    have hcalls (i : ℕ) (event' : Event α)
        (hi : Function.update s.calls thread none i = some event') :
        i ≠ thread ∧ s.calls i = some event' := by
      grind [Function.update_apply]
    cases hevent : event.isStopEvent with
    | true =>
      obtain ⟨hsent, honly⟩ := h.calling thread event hcall hevent
      refine ⟨fun hstopped => ?_, fun i event' hi hevent' => ?_, ?_⟩
      · have hclear := (h.clear hstopped).2 thread event hcall
        exact absurd (hclear.symm.trans hevent) (by decide)
      · obtain ⟨hne, hi⟩ := hcalls i event' hi
        exact absurd (honly i event' hi hevent') hne
      · have hnone : sent.filter Event.isStopEvent = [] := by
          simpa [Unstopped, List.filter_eq_nil_iff] using hsent
        simp [List.filter_append, hnone, hevent]
    | false =>
      refine ⟨fun hstopped => ?_, fun i event' hi hevent' => ?_, ?_⟩
      · obtain ⟨hsent, hclear⟩ := h.clear hstopped
        exact ⟨unstopped_snoc.mpr ⟨hsent, hevent⟩, fun i event' hi =>
          hclear i event' (hcalls i event' hi).2⟩
      · obtain ⟨hsent, honly⟩ := h.calling i event' (hcalls i event' hi).2 hevent'
        exact ⟨unstopped_snoc.mpr ⟨hsent, hevent⟩, fun j other hj =>
          honly j other (hcalls j other hj).2⟩
      · simpa [List.filter_append, hevent] using h.once

theorem flagged_step {e : RelayEvent α} (h : Flagged s sent)
    (ht : (relay α).step s e = some t) : Flagged t (sent ++ scheduledBy s e) := by
  have hsent : sent ++ [] = sent := List.append_nil sent
  cases e with
  | on thread event => exact hsent.symm ▸ flagged_on h ht
  | schedule thread => exact flagged_schedule h ht
  | main =>
    show Flagged t (sent ++ [])
    rw [hsent]
    cases main_cases ht with
    | drop _ _ _ _ _ ht => exact ht ▸ h.frame rfl id
    | take _ _ _ _ _ ht => exact ht ▸ h.frame rfl id
    | notify _ _ ht => exact ht ▸ h.frame rfl id
    | stop _ ht => exact ht ▸ h.frame rfl (by simp)
    | cancel _ ht => exact ht ▸ h.frame rfl id
  | dispose =>
    simp only [relay, Option.some.injEq] at ht
    show Flagged t (sent ++ [])
    rw [hsent, ← ht]
    exact h.frame rfl id
  | disposeSink =>
    simp only [relay, Option.ite_none_right_eq_some, Option.some.injEq] at ht
    show Flagged t (sent ++ [])
    rw [hsent, ← ht.2]
    exact h.frame rfl (by simp)

theorem flagged_run (h : (relay α).run es = some s) : Flagged s (scheduled es) := by
  apply run_induction (I := fun es s => Flagged s (scheduled es)) ?_ ?_ h
  · refine ⟨fun _ => ⟨?_, by simp [relay]⟩, by simp [relay], Nat.zero_le 1⟩
    intro event hevent
    cases hevent
  · intro es s e t hs hflagged ht
    rw [scheduled, emitted_snoc scheduledBy hs ht]
    exact flagged_step hflagged ht

/-! ### Runs -/

/-- A step after the disposal passes on what is in hand, or nothing. -/
theorem inHand_step {e : RelayEvent α} (hdisposed : s.isDisposed = true)
    (ht : (relay α).step s e = some t) :
    t.isDisposed = true ∧ notifiedBy s e ++ t.job.inHand <+: s.job.inHand := by
  cases e with
  | on thread event =>
    simp only [relay] at ht
    split at ht
    · simp at ht
    · rw [Option.some.injEq] at ht
      subst ht
      exact ⟨hdisposed, List.prefix_rfl⟩
  | schedule thread =>
    simp only [relay] at ht
    split at ht
    · simp at ht
    · rw [Option.some.injEq] at ht
      subst ht
      exact ⟨hdisposed, List.prefix_rfl⟩
  | main =>
    show t.isDisposed = true ∧ s.job.inHand ++ t.job.inHand <+: s.job.inHand
    cases main_cases ht with
    | drop event queue hjob _ _ ht =>
      subst ht
      exact ⟨hdisposed, by simp [hjob, Job.inHand]⟩
    | take event queue _ _ hopen => exact absurd (hopen.symm.trans hdisposed) (by decide)
    | notify event hjob ht =>
      subst ht
      refine ⟨hdisposed, ?_⟩
      cases hevent : event.isStopEvent <;> simp [Job.inHand]
    | stop hjob ht =>
      subst ht
      exact ⟨hdisposed, by simp [Job.inHand]⟩
    | cancel hjob ht =>
      subst ht
      exact ⟨rfl, by simp [Job.inHand]⟩
  | dispose =>
    simp only [relay, Option.some.injEq] at ht
    subst ht
    exact ⟨rfl, List.prefix_rfl⟩
  | disposeSink =>
    simp only [relay, Option.ite_none_right_eq_some, Option.some.injEq] at ht
    obtain ⟨-, rfl⟩ := ht
    exact ⟨hdisposed, List.prefix_rfl⟩

/-- Once the subscription is disposed of, at most the event in hand is notified. -/
theorem notified_after_dispose {pre post : List (RelayEvent α)}
    {r : ObserveOnSerialDispatchQueueSink α} (hr : (relay α).run pre = some r)
    (hs : (relay α).run (pre ++ .dispose :: post) = some s) :
    s.isDisposed = true ∧
      notified (pre ++ .dispose :: post) ++ s.job.inHand <+: notified pre ++ r.job.inHand := by
  refine run_induction_after (I := fun post s => s.isDisposed = true ∧
    notified (pre ++ .dispose :: post) ++ s.job.inHand <+: notified pre ++ r.job.inHand)
    hr hs ?_ ?_
  · intro t hstep
    have hnotified : notified (pre ++ [.dispose]) = notified pre ++ [] :=
      emitted_snoc notifiedBy hr hstep
    simp only [relay, Option.some.injEq] at hstep
    subst hstep
    rw [hnotified, List.append_nil]
    exact ⟨rfl, List.prefix_rfl⟩
  · rintro post t e u ht - ⟨hdisposed, hprefix⟩ hu
    obtain ⟨hdisposed', hhand⟩ := inHand_step hdisposed hu
    have hsplit : pre ++ .dispose :: (post ++ [e]) = (pre ++ .dispose :: post) ++ [e] := by simp
    refine ⟨hdisposed', ?_⟩
    rw [hsplit, notified, emitted_snoc notifiedBy ht hu, List.append_assoc]
    exact ((List.prefix_append_right_inj _).mpr hhand).trans hprefix

/-- Whatever is notified is what was scheduled, up to its first stop event. -/
theorem Relayed.isPrefix (h : Relayed es s sent seen) : seen <+: upToStop sent := by
  obtain ⟨dropped, horder, -⟩ := h.order
  rw [List.append_assoc, List.append_assoc] at horder
  rcases h.stop with ⟨hunstopped, -⟩ | hstopped
  · rw [horder, upToStop_append hunstopped]
    exact List.prefix_append _ _
  · obtain ⟨pre, event, rfl, hunstopped, hevent⟩ := hstopped.last
    exact horder ▸ (upToStop_of_stop hunstopped hevent).symm ▸ List.prefix_rfl

/-- All of it, once nothing is left to do. -/
theorem Relayed.eq_upToStop (h : Relayed es s sent seen) (hes : .dispose ∉ es)
    (hjob : s.job = .idle) (hqueue : s.queue = []) : seen = upToStop sent := by
  obtain ⟨dropped, horder, hdropped⟩ := h.order
  by_cases hstopped : Stopped s seen
  · obtain ⟨pre, event, rfl, hunstopped, hevent⟩ := hstopped.last
    rw [List.append_assoc, List.append_assoc] at horder
    rw [horder, upToStop_of_stop hunstopped hevent]
  · have hopen : s.isDisposed = false := by
      rw [← Bool.not_eq_true]
      intro hdisposed
      exact (h.disposed hdisposed).elim hes hstopped
    obtain rfl := hdropped (.inl hopen)
    have hsent : sent = seen := by simpa [hjob, hqueue, Job.inHand] using horder
    rw [hsent, upToStop_of_unstopped (h.stop.resolve_right hstopped).1]

/-- The observer is notified of what was scheduled, in that order, up to the first stop
event, of which there is at most one; of all of it, if the main queue runs empty and the
subscription is not disposed of; and of one event at most after a disposal, if the main
queue had already let it through. -/
theorem relaysInOrder (h : (relay α).run es = some s) :
    notified es <+: upToStop (scheduled es) ∧
    ((scheduled es).filter Event.isStopEvent).length ≤ 1 ∧
    (.dispose ∉ es → s.job = .idle → s.queue = [] → notified es = upToStop (scheduled es)) ∧
    (∀ pre post r, es = pre ++ .dispose :: post → (relay α).run pre = some r →
      notified es <+: notified pre ++ r.job.inHand) := by
  have hrelayed := relayed_run h
  refine ⟨hrelayed.isPrefix, (flagged_run h).once, hrelayed.eq_upToStop, ?_⟩
  rintro pre post r rfl hr
  obtain ⟨-, hprefix⟩ := notified_after_dispose hr h
  exact (List.prefix_append _ _).trans hprefix

/-- Two threads overtake each other: an element is let through before the stop event of
another thread, and scheduled after it. -/
def overtaken : List (RelayEvent String) :=
  [.on 0 (.next "a"), .schedule 0, .main, .on 1 (.next "b"), .on 0 .completed, .schedule 0,
    .main, .schedule 1, .main, .main, .main, .main, .main]

theorem relaysInOrder_overtaken :
    scheduled overtaken = [.next "a", .completed, .next "b"] ∧
      notified overtaken = [.next "a", .completed] := by
  obtain ⟨s, hs⟩ : ∃ s, (relay String).run overtaken = some s := ⟨_, rfl⟩
  have hidle : s.job = .idle ∧ s.queue = [] := by
    obtain rfl := Option.some.inj hs
    exact ⟨rfl, rfl⟩
  refine ⟨rfl, ?_⟩
  rw [(relaysInOrder hs).2.2.1 (by simp [overtaken]) hidle.1 hidle.2]
  rfl

end SewaConnect.Rx
