import SewaConnect.Ios.Offers
import SewaConnect.Rx.ObserveOn

/-! The subscription of a form to `currentUserObservable`, with the sink of `observeOn` in
place of the list of scheduled users. A user offered to the form is sent to the sink and
put on the main queue at once; a delivery is one block that passes its guard and notifies
the form. `deliveriesRelayed`: every run with an open form is a run of the sink. -/

namespace SewaConnect.Ios

open Values Runs Runs.System Rx

/-- The subject sends a user on the main thread, which is numbered 0. -/
def send (user : User) : List (RelayEvent User) := [.on 0 (.next user), .schedule 0]

/-- What a step of the app does to the sink of the form that is open. -/
def relayedBy (s : RoleState) : RoleEvent → List (RelayEvent User)
  | .form .save => (s.forms.mainQueue.head?.toList).flatMap send
  | .form (.deliver _) => [.main, .main]
  | _ => []

/-- What happens to the sink of a form that the first event loads. -/
def relayed (provider : UserProvider) (r : RoleState) (es : List RoleEvent) :
    List (RelayEvent User) :=
  r.forms.provider.currentUserSubject.toList.flatMap send ++
    (roleSelection provider).emittedFrom relayedBy r es

/-- The sink was sent `users`, and those in `waiting` are still in its queue. -/
structure Relays (es : List (RelayEvent User)) (users waiting : List User) : Prop where
  sink : ∃ s, (relay User).run es = some s ∧ s.isStopped = false ∧ s.isDisposed = false ∧
    s.calls 0 = none ∧ s.queue = waiting.map .next ∧ s.job = .idle
  scheduled : scheduled es = users.map .next
  notified : notified es ++ waiting.map .next = users.map .next

theorem relays_nil : Relays [] [] [] :=
  ⟨⟨(relay User).init, rfl, rfl, rfl, rfl, rfl, rfl⟩, rfl, rfl⟩

variable {es : List (RelayEvent User)} {users waiting : List User} {user : User}

theorem relays_send (h : Relays es users waiting) (user : User) :
    Relays (es ++ send user) (users ++ [user]) (waiting ++ [user]) := by
  obtain ⟨s, hs, hstopped, hdisposed, hcalls, hqueue, hjob⟩ := h.sink
  have hon : (relay User).step s (.on 0 (.next user)) =
      some { s with calls := Function.update s.calls 0 (some (.next user)) } := by
    simp [relay, hcalls, hstopped, Event.isStopEvent]
  have hs' := run_snoc.mpr ⟨s, hs, hon⟩
  have hschedule : (relay User).step
      { s with calls := Function.update s.calls 0 (some (.next user)) } (.schedule 0) =
      some { s with
        calls := Function.update (Function.update s.calls 0 (some (.next user))) 0 none
        queue := s.queue ++ [.next user] } := by
    simp [relay]
  have hsplit : es ++ send user = (es ++ [.on 0 (.next user)]) ++ [.schedule 0] := by simp [send]
  rw [hsplit]
  refine ⟨⟨_, run_snoc.mpr ⟨_, hs', hschedule⟩, hstopped, hdisposed, ?_, ?_, hjob⟩, ?_, ?_⟩
  · simp
  · simp [hqueue]
  · rw [scheduled, emitted_snoc scheduledBy hs' hschedule, emitted_snoc scheduledBy hs hon,
      ← scheduled, h.scheduled]
    simp [scheduledBy]
  · rw [notified, emitted_snoc notifiedBy hs' hschedule, emitted_snoc notifiedBy hs hon,
      ← notified, List.map_append, List.map_append, ← h.notified]
    simp [notifiedBy]

theorem relays_main (h : Relays es users (user :: waiting)) :
    Relays (es ++ [.main, .main]) users waiting := by
  obtain ⟨s, hs, hstopped, hdisposed, hcalls, hqueue, hjob⟩ := h.sink
  have htake : (relay User).step s .main =
      some { s with queue := waiting.map .next, job := .notify (.next user) } := by
    simp [relay, hjob, hqueue, hdisposed]
  have hs' := run_snoc.mpr ⟨s, hs, htake⟩
  have hnotify : (relay User).step
      { s with queue := waiting.map .next, job := .notify (.next user) } .main =
      some { s with queue := waiting.map .next, job := .idle } := by
    simp [relay, Event.isStopEvent]
  have hsplit : es ++ [.main, .main] = (es ++ [.main]) ++ [.main] := by simp
  rw [hsplit]
  refine ⟨⟨_, run_snoc.mpr ⟨_, hs', hnotify⟩, hstopped, hdisposed, hcalls, rfl, rfl⟩, ?_, ?_⟩
  · rw [scheduled, emitted_snoc scheduledBy hs' hnotify, emitted_snoc scheduledBy hs htake,
      ← scheduled, h.scheduled]
    simp [scheduledBy]
  · rw [notified, emitted_snoc notifiedBy hs' hnotify, emitted_snoc notifiedBy hs htake,
      ← notified, ← h.notified]
    simp [notifiedBy, hjob, Job.inHand]

/-! ### Runs -/

/-- The sink after a step of an open form. -/
theorem relays_step {provider : UserProvider} {s t : RoleState} {e : FormEvent} {form : OpenForm}
    (hform : s.forms.form = some form) (h : Relays es users form.scheduled)
    (ht : (roleSelection provider).step s (.form e) = some t) :
    ∃ form', t.forms.form = some form' ∧
      Relays (es ++ relayedBy s (.form e)) (users ++ userSaved s (.form e)) form'.scheduled := by
  simp only [roleSelection, Option.ite_none_left_eq_some, Option.map_eq_some_iff] at ht
  obtain ⟨hkeeps, forms', hforms, rfl⟩ := ht
  rw [Bool.not_eq_true] at hkeeps
  obtain ⟨form', hform', -, hscheduled⟩ := form_step hkeeps hforms hform
  refine ⟨form', hform', ?_⟩
  cases e with
  | deliver user =>
    have hscheduled : form.scheduled = user :: form'.scheduled := hscheduled
    rw [hscheduled] at h
    simpa [relayedBy, userSaved] using relays_main h
  | save =>
    obtain ⟨user, hhead, hscheduled⟩ := hscheduled
    rw [hscheduled, relayedBy, userSaved, hhead]
    simpa using relays_send h user
  | _ =>
    have hscheduled : form'.scheduled = form.scheduled := hscheduled
    rw [hscheduled]
    simpa [relayedBy, userSaved] using h

/-- The sink of a form that was just loaded. -/
theorem relays_load {provider : UserProvider} {r s : RoleState} {load : RoleEvent}
    (hs : (roleSelection provider).step r load = some s) (hload : load.loadsForm = true) :
    ∃ form, s.forms.form = some form ∧
      Relays (relayed provider r [load]) (offered provider r [load]) form.scheduled := by
  obtain ⟨form, hform, hscheduled, -⟩ := form_of_loadsForm hs hload
  have hnone : relayedBy r load = [] := by
    cases load with
    | form e => simp [RoleEvent.loadsForm] at hload
    | _ => rfl
  refine ⟨form, hform, ?_⟩
  rw [offered_load hs hload, relayed, emittedFrom, hs, hnone, hscheduled]
  cases r.forms.provider.currentUserSubject with
  | none => exact relays_nil
  | some user => exact relays_send relays_nil user

theorem relays_run {provider : UserProvider} {pre post : List RoleEvent} {load : RoleEvent}
    {r s : RoleState} (hr : (roleSelection provider).run pre = some r)
    (hs : (roleSelection provider).run (pre ++ load :: post) = some s)
    (hload : load.loadsForm = true) (hpost : ∀ e ∈ post, ∃ e', e = .form e') :
    ∃ form, s.forms.form = some form ∧
      Relays (relayed provider r (load :: post)) (offered provider r (load :: post))
        form.scheduled := by
  refine run_induction_after (S := roleSelection provider)
    (I := fun post s => (∀ e ∈ post, ∃ e', e = .form e') → ∃ form, s.forms.form = some form ∧
      Relays (relayed provider r (load :: post)) (offered provider r (load :: post))
        form.scheduled) hr hs ?_ ?_ hpost
  · intro t hstep _
    exact relays_load hstep hload
  · intro post t e u _ hrest ih hu hpost
    obtain ⟨form, hform, hrelays⟩ := ih fun e he => hpost e (List.mem_append_left _ he)
    obtain ⟨e', rfl⟩ := hpost e (List.mem_append_right _ (List.mem_singleton_self e))
    have hrelayed : relayed provider r (load :: (post ++ [.form e'])) =
        relayed provider r (load :: post) ++ relayedBy t (.form e') := by
      rw [relayed, ← List.cons_append, emittedFrom_snoc relayedBy hrest hu, ← List.append_assoc]
      rfl
    rw [hrelayed, offered_snoc hrest hu]
    exact relays_step hform hrelays hu

/-- While a form is open, its sink has been sent the users offered to the form, in order;
those that it has not notified the form of yet are the scheduled ones; and it is still
subscribed. -/
theorem deliveriesRelayed (provider : UserProvider) {pre post : List RoleEvent}
    {load : RoleEvent} {r s : RoleState} (hr : (roleSelection provider).run pre = some r)
    (hs : (roleSelection provider).run (pre ++ load :: post) = some s)
    (hload : load.loadsForm = true) (hpost : ∀ e ∈ post, ∃ e', e = .form e') :
    ∃ form sink, s.forms.form = some form ∧
      (relay User).run (relayed provider r (load :: post)) = some sink ∧
      sink.isDisposed = false ∧ sink.queue = form.scheduled.map .next ∧
      scheduled (relayed provider r (load :: post)) =
        (offered provider r (load :: post)).map .next ∧
      notified (relayed provider r (load :: post)) ++ sink.queue =
        scheduled (relayed provider r (load :: post)) := by
  obtain ⟨form, hform, hrelays⟩ := relays_run hr hs hload hpost
  obtain ⟨sink, hsink, -, hdisposed, -, hqueue, -⟩ := hrelays.sink
  refine ⟨form, sink, hform, hsink, hdisposed, hqueue, hrelays.scheduled, ?_⟩
  rw [hqueue, hrelays.notified, hrelays.scheduled]

/-- The stored help seeker is delivered to a form, and nothing else waits. -/
theorem deliveriesRelayed_seekerDelivered :
    ∃ r, (roleSelection seekerStored).run [.presentFTUE] = some r ∧
      notified (relayed seekerStored r (.press .requestHelp true :: seekerDelivered)) =
        [.next (.requestor firstSeeker)] := by
  obtain ⟨r, hr⟩ : ∃ r, (roleSelection seekerStored).run [.presentFTUE] = some r := ⟨_, rfl⟩
  obtain ⟨s, hs⟩ : ∃ s, (roleSelection seekerStored).run
      ([.presentFTUE] ++ .press .requestHelp true :: seekerDelivered) = some s := ⟨_, rfl⟩
  obtain ⟨form, sink, hform, -, -, hqueue, hscheduled, hnotified⟩ :=
    deliveriesRelayed seekerStored hr hs rfl (by simp [seekerDelivered])
  have hnone : form.scheduled = [] := by
    obtain rfl := Option.some.inj hs
    obtain rfl := Option.some.inj hform
    rfl
  refine ⟨r, hr, ?_⟩
  rw [hqueue, hnone, List.map_nil, List.append_nil, hscheduled] at hnotified
  rw [hnotified]
  obtain rfl := Option.some.inj hr
  rfl

end SewaConnect.Ios
