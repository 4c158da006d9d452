import Mathlib.Logic.Function.Basic
import SewaConnect.Rx.Bag

/-! `BehaviorSubject.swift` over the bag of its observers. An observer is named by a value
of a type `O`, and what it is sent is recorded. `Wire` is the subject as one observer
sees it; `subjectContract` shows that each observer is sent just that, whatever the other
observers do and in whatever order a dispatch visits them. -/

namespace SewaConnect.Rx

open Runs Runs.System

inductive RxError where
  | disposed
  | other (description : String)
  deriving DecidableEq

inductive Event (α : Type*) where
  | next (element : α)
  | error (error : RxError)
  | completed
  deriving DecidableEq

namespace Event

variable {α : Type*}

/-- The element held after the event. -/
def elementAfter (event : Event α) (element : α) : α :=
  match event with
  | next element => element
  | _ => element

/-- The event, if it is a stop event. -/
def stop? : Event α → Option (Event α)
  | next _ => none
  | event => some event

end Event

structure BehaviorSubject (α O : Type*) where
  isDisposed : Bool := false
  element : α
  observers : Bag O := {}
  stoppedEvent : Option (Event α) := none

namespace BehaviorSubject

variable {α O : Type*}

/-- `_synchronized_on`: the subject afterwards, and the observers to dispatch to. -/
def synchronizedOn (s : BehaviorSubject α O) (event : Event α) : BehaviorSubject α O × Bag O :=
  if s.stoppedEvent.isSome ∨ s.isDisposed then (s, {})
  else
    match event with
    | .next element => ({ s with element }, s.observers)
    | event => ({ s with stoppedEvent := some event }, s.observers)

/-- `_synchronized_subscribe`: the event that the observer is sent at once, and the key of
its subscription; without one the disposable does nothing. -/
def subscribe (s : BehaviorSubject α O) (observer : O) :
    BehaviorSubject α O × Event α × Option BagKey :=
  if s.isDisposed then (s, .error .disposed, none)
  else
    match s.stoppedEvent with
    | some stoppedEvent => (s, stoppedEvent, none)
    | none =>
      ({ s with observers := (s.observers.insert observer).1 }, .next s.element,
        some (s.observers.insert observer).2)

/-- `_synchronized_unsubscribe`, with the trap of the bag. -/
def unsubscribe (s : BehaviorSubject α O) (disposeKey : BagKey) :
    Option (BehaviorSubject α O) :=
  if s.isDisposed then some s
  else (s.observers.removeKey disposeKey).map fun removed => { s with observers := removed.1 }

def dispose (s : BehaviorSubject α O) : BehaviorSubject α O :=
  { s with isDisposed := true, observers := s.observers.removeAll, stoppedEvent := none }

/-- What ends the stream for later subscribers. -/
def ended (s : BehaviorSubject α O) : Option (Event α) :=
  if s.isDisposed then some (.error .disposed) else s.stoppedEvent

theorem synchronizedOn_of_ended {s : BehaviorSubject α O} {e : Event α} (h : s.ended = some e)
    (event : Event α) : s.synchronizedOn event = (s, {}) := by
  unfold synchronizedOn
  refine if_pos ?_
  unfold ended at h
  split at h
  · next hdisposed => exact .inr hdisposed
  · exact .inl (by simp [h])

theorem not_ended {s : BehaviorSubject α O} (h : s.ended = none) :
    s.isDisposed = false ∧ s.stoppedEvent = none := by
  unfold ended at h
  split at h
  · simp at h
  · next hdisposed => exact ⟨Bool.not_eq_true _ ▸ hdisposed, h⟩

/-- While nothing has ended it, the subject dispatches to its observers. -/
theorem synchronizedOn_of_running {s : BehaviorSubject α O} (h : s.ended = none)
    (event : Event α) :
    (s.synchronizedOn event).2 = s.observers ∧
      (s.synchronizedOn event).1.observers = s.observers ∧
      (s.synchronizedOn event).1.element = event.elementAfter s.element ∧
      (s.synchronizedOn event).1.isDisposed = false ∧
      (s.synchronizedOn event).1.ended = event.stop? := by
  obtain ⟨hdisposed, hstopped⟩ := not_ended h
  have hrunning : ¬ (s.stoppedEvent.isSome ∨ s.isDisposed) := by simp [hdisposed, hstopped]
  unfold synchronizedOn
  rw [if_neg hrunning]
  cases event <;> simp [ended, hdisposed, hstopped, Event.elementAfter, Event.stop?]

theorem subscribe_of_ended {s : BehaviorSubject α O} {e : Event α} (h : s.ended = some e)
    (observer : O) : s.subscribe observer = (s, e, none) := by
  unfold ended at h
  unfold subscribe
  split at h
  · next hdisposed => rw [if_pos hdisposed, ← Option.some.inj h]
  · next hdisposed => rw [if_neg hdisposed, h]

theorem subscribe_of_running {s : BehaviorSubject α O} (h : s.ended = none) (observer : O) :
    s.subscribe observer =
      ({ s with observers := (s.observers.insert observer).1 }, .next s.element,
        some (s.observers.insert observer).2) := by
  obtain ⟨hdisposed, hstopped⟩ := not_ended h
  unfold subscribe
  rw [if_neg (by simp [hdisposed]), hstopped]

end BehaviorSubject

/-! ### Observers and their subscriptions -/

inductive SubjectEvent (α O : Type*) where
  /-- The subject is sent an event, and the dictionary of its bag enumerates `values`. -/
  | on (event : Event α) (values : List O)
  | subscribe (observer : O)
  /-- The disposable of the observer's subscription is disposed of. -/
  | unsubscribe (observer : O)
  | dispose

/-- A subject, and the keys in the disposables that it handed out. -/
structure Subscribed (α O : Type*) where
  subject : BehaviorSubject α O
  keys : O → Option BagKey := fun _ => none

variable {α O : Type*}

/-- The observers that subscribe in a run. -/
def subscribers (es : List (SubjectEvent α O)) : List O :=
  es.filterMap fun
    | .subscribe observer => some observer
    | _ => none

theorem subscribers_snoc (es : List (SubjectEvent α O)) (e : SubjectEvent α O) :
    subscribers (es ++ [e]) = subscribers es ++ subscribers [e] := List.filterMap_append

theorem subscribers_subscribe (es : List (SubjectEvent α O)) (observer : O) :
    subscribers (es ++ [.subscribe observer]) = subscribers es ++ [observer] :=
  subscribers_snoc es _

theorem mem_values {r : Registry O} {o : O} :
    o ∈ r.live.entries.map Sigma.snd ↔ ∃ key, r.live.lookup key = some o := by
  rw [List.mem_map]
  constructor
  · rintro ⟨⟨key, _⟩, hentry, rfl⟩
    exact ⟨key, AList.mem_lookup_iff.mpr hentry⟩
  · rintro ⟨key, hkey⟩
    exact ⟨⟨key, o⟩, AList.mem_lookup_iff.mp hkey, rfl⟩

/-- The disposables handed out to `observers` hold the keys of their entries. -/
structure Keyed (keys : O → Option BagKey) (r : Registry O) (observers : List O) : Prop where
  live : ∀ key o, r.live.lookup key = some o → keys o = some key
  issued : ∀ o key, keys o = some key → o ∈ observers ∧ ∃ n < r.issued, key = .ofNat n
  injective : ∀ o o' key, keys o = some key → keys o' = some key → o = o'

/-- No observer is in the bag twice. -/
theorem Keyed.nodup_values {keys : O → Option BagKey} {r : Registry O} {observers : List O}
    (h : Keyed keys r observers) : (r.live.entries.map Sigma.snd).Nodup := by
  refine List.Nodup.map_on ?_ r.live.nodupKeys.nodup
  rintro ⟨key, o⟩ hentry ⟨key', o'⟩ hentry' heq
  obtain rfl : o = o' := heq
  have hkey := h.live key o (AList.mem_lookup_iff.mpr hentry)
  have hkey' := h.live key' o (AList.mem_lookup_iff.mpr hentry')
  obtain rfl : key = key' := Option.some.inj (hkey.symm.trans hkey')
  rfl

theorem Keyed.erase {keys : O → Option BagKey} {r : Registry O} {observers : List O}
    (h : Keyed keys r observers) (key : BagKey) :
    Keyed keys { r with live := r.live.erase key } observers where
  live k o ho := by
    by_cases hk : k = key
    · rw [hk, AList.lookup_erase] at ho
      simp at ho
    · rw [AList.lookup_erase_ne hk] at ho
      exact h.live k o ho
  issued := h.issued
  injective := h.injective

theorem Keyed.clear {keys : O → Option BagKey} {r : Registry O} {observers : List O}
    (h : Keyed keys r observers) : Keyed keys { r with live := ∅ } observers where
  live k o ho := by simp at ho
  issued := h.issued
  injective := h.injective

section

variable {keys : O → Option BagKey} {r : Registry O} {observers : List O} {observer : O}

/-- No disposable holds the next key yet. -/
theorem Keyed.ne_next (h : Keyed keys r observers) (hroom : r.issued < UInt64.size) {o : O}
    {key : BagKey} (ho : keys o = some key) : key ≠ .ofNat r.issued := by
  obtain ⟨-, n, hn, rfl⟩ := h.issued o key ho
  intro heq
  have hsame : n = r.issued := Bag.ofNat_injOn (by omega) hroom heq
  omega

/-- Who is in the bag after a removal. -/
theorem Keyed.lookup_erase (h : Keyed keys r observers) {key : BagKey}
    (hkey : keys observer = some key) (o : O) :
    (∃ k, (r.live.erase key).lookup k = some o) ↔
      observer ≠ o ∧ ∃ k, r.live.lookup k = some o := by
  constructor
  · rintro ⟨k, hlookup⟩
    by_cases heq : k = key
    · rw [heq, AList.lookup_erase] at hlookup
      simp at hlookup
    · rw [AList.lookup_erase_ne heq] at hlookup
      refine ⟨?_, k, hlookup⟩
      rintro rfl
      exact heq (Option.some.inj ((h.live k observer hlookup).symm.trans hkey))
  · rintro ⟨hne, k, hlookup⟩
    have hk : k ≠ key := by
      rintro rfl
      exact hne (h.injective observer o k hkey (h.live k o hlookup))
    exact ⟨k, (AList.lookup_erase_ne hk).trans hlookup⟩

/-- Who is in the bag after an insertion. -/
theorem Keyed.lookup_insert (h : Keyed keys r observers) (hroom : r.issued < UInt64.size) (o : O) :
    (∃ key, (r.live.insert (.ofNat r.issued) observer).lookup key = some o) ↔
      observer = o ∨ ∃ key, r.live.lookup key = some o := by
  constructor
  · rintro ⟨key, hlookup⟩
    by_cases heq : key = .ofNat r.issued
    · subst heq
      rw [AList.lookup_insert, Option.some.injEq] at hlookup
      exact .inl hlookup
    · exact .inr ⟨key, (AList.lookup_insert_ne heq).symm.trans hlookup⟩
  · rintro (rfl | ⟨key, hlookup⟩)
    · exact ⟨.ofNat r.issued, AList.lookup_insert _⟩
    · have hne := h.ne_next hroom (h.live key o hlookup)
      exact ⟨key, (AList.lookup_insert_ne hne).trans hlookup⟩

variable [DecidableEq O]

/-- A newcomer gets a disposable without a key. -/
theorem Keyed.update_none (h : Keyed keys r observers) (hnew : observer ∉ observers) :
    Keyed (Function.update keys observer none) r (observers ++ [observer]) := by
  have hkeys (o : O) (key : BagKey) (ho : Function.update keys observer none o = some key) :
      keys o = some key := by
    by_cases heq : o = observer
    · rw [heq, Function.update_self] at ho
      simp at ho
    · rwa [Function.update_of_ne heq] at ho
  constructor
  · intro key o ho
    have hne : o ≠ observer := fun heq => hnew (heq ▸ (h.issued o key (h.live key o ho)).1)
    rw [Function.update_of_ne hne]
    exact h.live key o ho
  · intro o key ho
    obtain ⟨hmem, hissued⟩ := h.issued o key (hkeys o key ho)
    exact ⟨List.mem_append_left _ hmem, hissued⟩
  · exact fun o o' key ho ho' => h.injective o o' key (hkeys o key ho) (hkeys o' key ho')

/-- A newcomer gets the next key. -/
theorem Keyed.update_insert (h : Keyed keys r observers) (hnew : observer ∉ observers)
    (hroom : r.issued < UInt64.size) :
    Keyed (Function.update keys observer (some (.ofNat r.issued)))
      { issued := r.issued + 1, live := r.live.insert (.ofNat r.issued) observer }
      (observers ++ [observer]) := by
  constructor
  · intro key o hlookup
    by_cases heq : key = .ofNat r.issued
    · subst heq
      rw [AList.lookup_insert, Option.some.injEq] at hlookup
      rw [← hlookup, Function.update_self]
    · rw [AList.lookup_insert_ne heq] at hlookup
      have hkey := h.live key o hlookup
      have hne : o ≠ observer := fun ho => hnew (ho ▸ (h.issued o key hkey).1)
      rw [Function.update_of_ne hne]
      exact hkey
  · intro o key ho
    by_cases heq : o = observer
    · rw [heq, Function.update_self, Option.some.injEq] at ho
      exact ⟨by simp [heq], r.issued, Nat.lt_succ_self _, ho.symm⟩
    · rw [Function.update_of_ne heq] at ho
      obtain ⟨hmem, n, hn, hkey⟩ := h.issued o key ho
      exact ⟨List.mem_append_left _ hmem, n, Nat.lt_succ_of_lt hn, hkey⟩
  · intro o o' key ho ho'
    by_cases heq : o = observer <;> by_cases heq' : o' = observer
    · rw [heq, heq']
    · rw [heq, Function.update_self, Option.some.injEq] at ho
      rw [Function.update_of_ne heq'] at ho'
      exact absurd ho.symm (h.ne_next hroom ho')
    · rw [heq', Function.update_self, Option.some.injEq] at ho'
      rw [Function.update_of_ne heq] at ho
      exact absurd ho'.symm (h.ne_next hroom ho)
    · rw [Function.update_of_ne heq] at ho
      rw [Function.update_of_ne heq'] at ho'
      exact h.injective o o' key ho ho'

end

variable [DecidableEq O]

def subject (element : α) : System (Subscribed α O) (SubjectEvent α O) where
  init := { subject := { element } }
  step s
    | .on event values =>
      if values.isPerm ((s.subject.synchronizedOn event).2.dictionaryEntries.map Sigma.snd) then
        some { s with subject := (s.subject.synchronizedOn event).1 }
      else none
    | .subscribe observer => some {
        subject := (s.subject.subscribe observer).1
        keys := Function.update s.keys observer (s.subject.subscribe observer).2.2 }
    | .unsubscribe observer =>
      match s.keys observer with
      | some key => (s.subject.unsubscribe key).map fun subject => { s with subject }
      | none => some s
    | .dispose => some { s with subject := s.subject.dispose }

/-- What the observers are sent in a step, in order. -/
def sentBy (s : Subscribed α O) : SubjectEvent α O → List (O × Event α)
  | .on event values =>
    ((s.subject.synchronizedOn event).2.dispatch values).map fun observer => (observer, event)
  | .subscribe observer => [(observer, (s.subject.subscribe observer).2.1)]
  | _ => []

/-- What one observer is sent in a run. -/
def received (element : α) (observer : O) (es : List (SubjectEvent α O)) : List (Event α) :=
  ((subject element).emitted sentBy es).filterMap fun sent =>
    if sent.1 = observer then some sent.2 else none

/-- A subject as one observer sees it. -/
structure Wire (α : Type*) where
  element : α
  /-- What ended the stream. -/
  ended : Option (Event α) := none
  connected : Bool := false
  received : List (Event α) := []

namespace Wire

def on (w : Wire α) (event : Event α) : Wire α :=
  match w.ended with
  | some _ => w
  | none => { w with
      element := event.elementAfter w.element
      ended := event.stop?
      received := w.received ++ if w.connected then [event] else [] }

def subscribe (w : Wire α) : Wire α :=
  match w.ended with
  | some event => { w with received := w.received ++ [event] }
  | none => { w with connected := true, received := w.received ++ [.next w.element] }

def next (observer : O) (w : Wire α) : SubjectEvent α O → Wire α
  | .on event _ => w.on event
  | .subscribe o => if o = observer then w.subscribe else w
  | .unsubscribe o => if o = observer then { w with connected := false } else w
  | .dispose => { w with ended := some (.error .disposed), connected := false }

end Wire

theorem Wire.on_of_ended {w : Wire α} {e : Event α} (h : w.ended = some e) (event : Event α) :
    w.on event = w := by
  simp only [Wire.on, h]

theorem Wire.on_of_running {w : Wire α} (h : w.ended = none) (event : Event α) :
    w.on event = { w with
      element := event.elementAfter w.element
      ended := event.stop?
      received := w.received ++ if w.connected then [event] else [] } := by
  simp only [Wire.on, h]

/-- The wire of one observer after a history. -/
def wire (element : α) (observer : O) (es : List (SubjectEvent α O)) : Wire α :=
  es.foldl (Wire.next observer) { element }

theorem wire_snoc (element : α) (observer : O) (es : List (SubjectEvent α O))
    (e : SubjectEvent α O) :
    wire element observer (es ++ [e]) = (wire element observer es).next observer e := by
  simp only [wire, List.foldl_append, List.foldl_cons, List.foldl_nil]

/-! ### The contract -/

/-- The registry is what the bag stores, each observer's own wire agrees with the subject,
and each observer has been sent what its wire carried. -/
structure Attached (initial : α) (es : List (SubjectEvent α O)) (s : Subscribed α O)
    (r : Registry O) : Prop where
  stores : Stores s.subject.observers r
  issued : r.issued ≤ (subscribers es).length
  element : ∀ o, (wire initial o es).element = s.subject.element
  ended : ∀ o, (wire initial o es).ended = s.subject.ended
  connected : ∀ o, (wire initial o es).connected = true ↔ ∃ key, r.live.lookup key = some o
  keyed : Keyed s.keys r (subscribers es)
  disposed : s.subject.isDisposed = true → r.live = ∅
  received : ∀ o, received initial o es = (wire initial o es).received

/-- What one observer gets of an event that is sent to a list of distinct observers. -/
theorem filterMap_sent {os : List O} (hos : os.Nodup) (o : O) (event : Event α) :
    ((os.map fun observer => (observer, event)).filterMap fun sent =>
      if sent.1 = o then some sent.2 else none) = if o ∈ os then [event] else [] := by
  induction os with
  | nil => rfl
  | cons p os ih =>
    obtain ⟨hp, hos⟩ := List.nodup_cons.mp hos
    by_cases ho : p = o
    · subst ho
      have hrest := ih hos
      rw [if_neg hp] at hrest
      simp [hrest]
    · have ho' : o ≠ p := fun heq => ho heq.symm
      simp [ho, ho', ih hos]

theorem received_snoc {initial : α} {es : List (SubjectEvent α O)} {s t : Subscribed α O}
    {e : SubjectEvent α O} (hs : (subject initial).run es = some s)
    (ht : (subject initial).step s e = some t) (o : O) :
    received initial o (es ++ [e]) = received initial o es ++ (sentBy s e).filterMap fun sent =>
      if sent.1 = o then some sent.2 else none := by
  rw [received, emitted_snoc sentBy hs ht, List.filterMap_append]
  rfl

/-- A running subject sends an event to the connected observers, each once. -/
theorem sentBy_on {initial : α} {es : List (SubjectEvent α O)} {s t : Subscribed α O}
    {r : Registry O} {event : Event α} {values : List O} (h : Attached initial es s r)
    (hended : s.subject.ended = none)
    (ht : (subject initial).step s (.on event values) = some t) :
    ∃ os : List O, sentBy s (.on event values) = os.map (fun observer => (observer, event)) ∧
      os.Nodup ∧ ∀ o, o ∈ os ↔ (wire initial o es).connected = true := by
  obtain ⟨hdispatched, -⟩ := BehaviorSubject.synchronizedOn_of_running hended event
  simp only [subject, Option.ite_none_right_eq_some, List.isPerm_iff, hdispatched] at ht
  have hperm := (Bag.dispatch_perm h.stores.wellFormed ht.1).trans
    (h.stores.entries.map Sigma.snd)
  refine ⟨s.subject.observers.dispatch values, ?_, ?_, fun o => ?_⟩
  · rw [sentBy, hdispatched]
  · exact hperm.nodup_iff.mpr h.keyed.nodup_values
  · rw [hperm.mem_iff, mem_values, h.connected]

theorem attached_on {initial : α} {es : List (SubjectEvent α O)} {s t : Subscribed α O}
    {r : Registry O} {event : Event α} {values : List O}
    (hs : (subject initial).run es = some s) (h : Attached initial es s r)
    (ht : (subject initial).step s (.on event values) = some t) :
    Attached initial (es ++ [.on event values]) t r := by
  have hsent := received_snoc hs ht
  have hsentBy := fun hended => sentBy_on h hended ht
  simp only [subject, Option.ite_none_right_eq_some, Option.some.injEq] at ht
  obtain ⟨-, rfl⟩ := ht
  have hsubscribers : subscribers (es ++ [.on event values]) = subscribers es := by
    rw [subscribers_snoc]
    exact List.append_nil _
  have hwire (o : O) : wire initial o (es ++ [.on event values]) =
      (wire initial o es).on event := wire_snoc initial o es _
  cases hended : s.subject.ended with
  | some e =>
    have hsame := BehaviorSubject.synchronizedOn_of_ended hended event
    have hstill (o : O) : wire initial o (es ++ [.on event values]) = wire initial o es := by
      rw [hwire, Wire.on_of_ended ((h.ended o).trans hended)]
    have hnothing : (s.subject.synchronizedOn event).2.dispatch values = [] := by
      rw [hsame]
      rfl
    constructor
    · rw [hsame]
      exact h.stores
    · rw [hsubscribers]
      exact h.issued
    · simpa only [hstill, hsame] using h.element
    · simpa only [hstill, hsame] using h.ended
    · simpa only [hstill] using h.connected
    · rw [hsubscribers]
      exact h.keyed
    · rw [hsame]
      exact h.disposed
    · intro o
      rw [hsent, hstill, sentBy, hnothing, h.received]
      exact List.append_nil _
  | none =>
    obtain ⟨os, hos, hnodup, hconnected⟩ := hsentBy hended
    obtain ⟨-, hobservers, helement, hdisposed, hend⟩ :=
      BehaviorSubject.synchronizedOn_of_running hended event
    have hon (o : O) : wire initial o (es ++ [.on event values]) = { wire initial o es with
        element := event.elementAfter (wire initial o es).element
        ended := event.stop?
        received := (wire initial o es).received ++
          if (wire initial o es).connected then [event] else [] } := by
      rw [hwire, Wire.on_of_running ((h.ended o).trans hended)]
    constructor
    · rw [hobservers]
      exact h.stores
    · rw [hsubscribers]
      exact h.issued
    · intro o
      rw [hon, helement, h.element]
    · intro o
      rw [hon, hend]
    · intro o
      rw [hon]
      exact h.connected o
    · rw [hsubscribers]
      exact h.keyed
    · exact fun h => absurd (hdisposed.symm.trans h) Bool.false_ne_true
    · intro o
      rw [hsent, hon, hos, h.received, filterMap_sent hnodup]
      simp only [hconnected]

/-- One observer subscribes, and gets one event at once; nobody else does. -/
theorem received_subscribe {initial : α} {es : List (SubjectEvent α O)} {s t : Subscribed α O}
    {observer : O} (hs : (subject initial).run es = some s)
    (ht : (subject initial).step s (.subscribe observer) = some t) (o : O) :
    received initial o (es ++ [.subscribe observer]) = received initial o es ++
      if observer = o then [(s.subject.subscribe observer).2.1] else [] := by
  rw [received_snoc hs ht, sentBy]
  by_cases ho : observer = o <;> simp [ho]

/-- A subscription to a subject that has ended. -/
theorem attached_subscribe_ended {initial : α} {es : List (SubjectEvent α O)}
    {s t : Subscribed α O} {r : Registry O} {observer : O} {e : Event α}
    (hs : (subject initial).run es = some s) (h : Attached initial es s r)
    (hnew : observer ∉ subscribers es) (hended : s.subject.ended = some e)
    (ht : (subject initial).step s (.subscribe observer) = some t) :
    Attached initial (es ++ [.subscribe observer]) t r := by
  have hsent := received_subscribe hs ht
  have hsame := BehaviorSubject.subscribe_of_ended hended observer
  simp only [subject, hsame, Option.some.injEq] at ht hsent
  subst ht
  have hwire (o : O) : wire initial o (es ++ [.subscribe observer]) =
      { wire initial o es with
        received := (wire initial o es).received ++ if observer = o then [e] else [] } := by
    have hnext : wire initial o (es ++ [.subscribe observer]) =
        if observer = o then (wire initial o es).subscribe else wire initial o es :=
      wire_snoc initial o es _
    rw [hnext]
    by_cases ho : observer = o
    · simp only [if_pos ho, Wire.subscribe, h.ended, hended]
    · simp only [if_neg ho, List.append_nil]
  constructor
  · exact h.stores
  · rw [subscribers_subscribe, List.length_append]
    exact Nat.le_add_right_of_le h.issued
  · exact fun o => by rw [hwire, h.element]
  · exact fun o => by rw [hwire, h.ended]
  · exact fun o => by rw [hwire, h.connected]
  · rw [subscribers_subscribe]
    exact h.keyed.update_none hnew
  · exact h.disposed
  · exact fun o => by rw [hsent, hwire, h.received]

/-- A subscription to a running subject: the observer joins the bag and is sent the
element held. -/
theorem attached_subscribe_running {initial : α} {es : List (SubjectEvent α O)}
    {s t : Subscribed α O} {r : Registry O} {observer : O}
    (hs : (subject initial).run es = some s) (h : Attached initial es s r)
    (hnew : observer ∉ subscribers es) (hroom : r.issued < UInt64.size)
    (hended : s.subject.ended = none)
    (ht : (subject initial).step s (.subscribe observer) = some t) :
    Attached initial (es ++ [.subscribe observer]) t
      { issued := r.issued + 1, live := r.live.insert (.ofNat r.issued) observer } := by
  have hsent := received_subscribe hs ht
  obtain ⟨hkey, -, hstores⟩ := stores_insert h.stores hroom observer
  have hrunning := BehaviorSubject.subscribe_of_running hended observer
  rw [hkey] at hrunning
  simp only [subject, hrunning, Option.some.injEq] at ht hsent
  subst ht
  have hwire (o : O) : wire initial o (es ++ [.subscribe observer]) =
      { wire initial o es with
        connected := (wire initial o es).connected || decide (observer = o)
        received := (wire initial o es).received ++
          if observer = o then [.next s.subject.element] else [] } := by
    have hnext : wire initial o (es ++ [.subscribe observer]) =
        if observer = o then (wire initial o es).subscribe else wire initial o es :=
      wire_snoc initial o es _
    rw [hnext]
    by_cases ho : observer = o
    · simp [ho, Wire.subscribe, h.ended, hended, h.element]
    · simp [ho]
  constructor
  · exact hstores
  · rw [subscribers_subscribe, List.length_append]
    exact Nat.add_le_add_right h.issued 1
  · exact fun o => by rw [hwire, h.element]
  · intro o
    rw [hwire]
    exact h.ended o
  · intro o
    rw [hwire, h.keyed.lookup_insert hroom, Bool.or_eq_true, h.connected, decide_eq_true_iff]
    exact or_comm
  · rw [subscribers_subscribe]
    exact h.keyed.update_insert hnew hroom
  · intro hdisposed
    rw [(BehaviorSubject.not_ended hended).1] at hdisposed
    exact absurd hdisposed Bool.false_ne_true
  · exact fun o => by rw [hsent, hwire, h.received]

/-- Leaving and disposing send nothing. -/
theorem received_quiet {initial : α} {es : List (SubjectEvent α O)} {s t : Subscribed α O}
    {e : SubjectEvent α O} (hs : (subject initial).run es = some s)
    (ht : (subject initial).step s e = some t) (hquiet : sentBy s e = []) (o : O) :
    received initial o (es ++ [e]) = received initial o es := by
  rw [received_snoc hs ht, hquiet]
  exact List.append_nil _

theorem wire_unsubscribe (initial : α) (o observer : O) (es : List (SubjectEvent α O)) :
    wire initial o (es ++ [.unsubscribe observer]) =
      { wire initial o es with
        connected := (wire initial o es).connected && decide (observer ≠ o) } := by
  have hnext : wire initial o (es ++ [.unsubscribe observer]) =
      if observer = o then { wire initial o es with connected := false }
        else wire initial o es := wire_snoc initial o es _
  rw [hnext]
  by_cases ho : observer = o <;> simp [ho]

/-- A disposable that removes nothing: its observer is not in the bag. -/
theorem attached_unsubscribe_absent {initial : α} {es : List (SubjectEvent α O)}
    {s : Subscribed α O} {r : Registry O} {observer : O}
    (hs : (subject initial).run es = some s) (h : Attached initial es s r)
    (ht : (subject initial).step s (.unsubscribe observer) = some s)
    (habsent : ∀ key, r.live.lookup key ≠ some observer) :
    Attached initial (es ++ [.unsubscribe observer]) s r := by
  have hsubscribers : subscribers (es ++ [.unsubscribe observer]) = subscribers es := by
    rw [subscribers_snoc]
    exact List.append_nil _
  have hwire := fun o => wire_unsubscribe initial o observer es
  constructor
  · exact h.stores
  · exact hsubscribers ▸ h.issued
  · exact fun o => by rw [hwire, h.element]
  · exact fun o => by rw [hwire, h.ended]
  · intro o
    rw [hwire, Bool.and_eq_true, h.connected, decide_eq_true_iff]
    constructor
    · exact And.left
    · rintro ⟨key, hkey⟩
      exact ⟨⟨key, hkey⟩, fun heq => habsent key (heq ▸ hkey)⟩
  · exact hsubscribers ▸ h.keyed
  · exact h.disposed
  · exact fun o => by rw [received_quiet hs ht rfl, hwire, h.received]

/-- A disposable that takes its observer's entry out of the bag. -/
theorem attached_unsubscribe_key {initial : α} {es : List (SubjectEvent α O)}
    {s : Subscribed α O} {r : Registry O} {observer : O} {key : BagKey}
    (hs : (subject initial).run es = some s) (h : Attached initial es s r)
    (hkey : s.keys observer = some key) (hdisposed : s.subject.isDisposed = false) :
    ∃ t, (subject initial).step s (.unsubscribe observer) = some t ∧
      Attached initial (es ++ [.unsubscribe observer]) t
        { r with live := r.live.erase key } := by
  obtain ⟨observers, hremove, hstores⟩ := stores_removeKey h.stores key
  have ht : (subject initial).step s (.unsubscribe observer) =
      some { s with subject := { s.subject with observers } } := by
    simp [subject, hkey, BehaviorSubject.unsubscribe, hdisposed, hremove]
  refine ⟨_, ht, ?_⟩
  have hsubscribers : subscribers (es ++ [.unsubscribe observer]) = subscribers es := by
    rw [subscribers_snoc]
    exact List.append_nil _
  have hwire := fun o => wire_unsubscribe initial o observer es
  constructor
  · exact hstores
  · exact hsubscribers ▸ h.issued
  · exact fun o => by rw [hwire, h.element]
  · intro o
    rw [hwire]
    exact h.ended o
  · intro o
    rw [hwire, h.keyed.lookup_erase hkey, Bool.and_eq_true, h.connected, decide_eq_true_iff]
    exact and_comm
  · exact hsubscribers ▸ h.keyed.erase key
  · intro h
    exact absurd (hdisposed.symm.trans h) Bool.false_ne_true
  · exact fun o => by rw [received_quiet hs ht rfl, hwire, h.received]

/-- Disposing of a subscription never traps. -/
theorem attached_unsubscribe {initial : α} {es : List (SubjectEvent α O)}
    {s : Subscribed α O} {r : Registry O} (hs : (subject initial).run es = some s)
    (h : Attached initial es s r) (observer : O) :
    ∃ t r', (subject initial).step s (.unsubscribe observer) = some t ∧
      Attached initial (es ++ [.unsubscribe observer]) t r' := by
  cases hkey : s.keys observer with
  | none =>
    have ht : (subject initial).step s (.unsubscribe observer) = some s := by
      simp [subject, hkey]
    refine ⟨s, r, ht, attached_unsubscribe_absent hs h ht fun key hlookup => ?_⟩
    have hheld := h.keyed.live key observer hlookup
    simp [hkey] at hheld
  | some key =>
    cases hdisposed : s.subject.isDisposed with
    | false =>
      obtain ⟨t, ht, hattached⟩ := attached_unsubscribe_key hs h hkey hdisposed
      exact ⟨t, { r with live := r.live.erase key }, ht, hattached⟩
    | true =>
      have ht : (subject initial).step s (.unsubscribe observer) = some s := by
        simp [subject, hkey, BehaviorSubject.unsubscribe, hdisposed]
      refine ⟨s, r, ht, attached_unsubscribe_absent hs h ht fun key hlookup => ?_⟩
      simp [h.disposed hdisposed] at hlookup

theorem attached_dispose {initial : α} {es : List (SubjectEvent α O)} {s t : Subscribed α O}
    {r : Registry O} (hs : (subject initial).run es = some s) (h : Attached initial es s r)
    (ht : (subject initial).step s .dispose = some t) :
    Attached initial (es ++ [.dispose]) t { r with live := ∅ } := by
  have hsubscribers : subscribers (es ++ [SubjectEvent.dispose]) = subscribers es := by
    rw [subscribers_snoc]
    exact List.append_nil _
  have hwire (o : O) : wire initial o (es ++ [.dispose]) =
      { wire initial o es with ended := some (.error .disposed), connected := false } :=
    wire_snoc initial o es _
  have hquiet := received_quiet hs ht rfl
  obtain rfl := Option.some.inj ht
  constructor
  · exact stores_removeAll h.stores
  · exact hsubscribers ▸ h.issued
  · exact fun o => by rw [hwire]; exact h.element o
  · exact fun o => by rw [hwire]; rfl
  · intro o
    rw [hwire]
    simp
  · exact hsubscribers ▸ h.keyed.clear
  · exact fun _ => rfl
  · exact fun o => by rw [hquiet, hwire, h.received]

theorem attached_init (initial : α) :
    Attached initial ([] : List (SubjectEvent α O)) (subject initial).init {} where
  stores := ⟨Bag.wellFormed_empty, List.Perm.refl []⟩
  issued := Nat.le_refl 0
  element _ := rfl
  ended _ := rfl
  connected o := by simp [wire]
  keyed :=
    { live := fun key o h => by simp at h
      issued := fun o key h => by simp [subject] at h
      injective := fun o o' key h => by simp [subject] at h }
  disposed _ := rfl
  received _ := rfl

/-- A run in which every observer subscribes once, and the counter of the bag does not
come round. -/
theorem exists_attached {initial : α} {es : List (SubjectEvent α O)} {s : Subscribed α O}
    (hs : (subject initial).run es = some s) (honce : (subscribers es).Nodup)
    (hroom : (subscribers es).length ≤ UInt64.size) : ∃ r, Attached initial es s r := by
  induction es using List.reverseRecOn generalizing s with
  | nil =>
    obtain rfl := Option.some.inj hs
    exact ⟨{}, attached_init initial⟩
  | append_singleton es e ih =>
    obtain ⟨s₀, hs₀, ht⟩ := run_snoc.mp hs
    rw [subscribers_snoc] at honce hroom
    have hlength : (subscribers es).length + (subscribers [e]).length ≤ UInt64.size := by
      rwa [List.length_append] at hroom
    obtain ⟨r, hr⟩ := ih hs₀ honce.of_append_left (by omega)
    cases e with
    | on event values => exact ⟨r, attached_on hs₀ hr ht⟩
    | subscribe observer =>
      have hnew : observer ∉ subscribers es := by
        intro hmem
        exact List.disjoint_of_nodup_append honce hmem (List.mem_singleton_self observer)
      cases hended : s₀.subject.ended with
      | some stop => exact ⟨r, attached_subscribe_ended hs₀ hr hnew hended ht⟩
      | none =>
        have hone : (subscribers ([.subscribe observer] : List (SubjectEvent α O))).length = 1 :=
          rfl
        have hissued := hr.issued
        exact ⟨_, attached_subscribe_running hs₀ hr hnew (by omega) hended ht⟩
    | unsubscribe observer =>
      obtain ⟨t, r', ht', hr'⟩ := attached_unsubscribe hs₀ hr observer
      obtain rfl := Option.some.inj (ht.symm.trans ht')
      exact ⟨r', hr'⟩
    | dispose => exact ⟨_, attached_dispose hs₀ hr ht⟩

/-- After any order of events, subscriptions, disposals of subscriptions and of the
subject, where each observer subscribes at most once and at most `UInt64.size` of them do,
each observer has been sent what its own wire carries, and no disposable traps. -/
theorem subjectContract {initial : α} {es : List (SubjectEvent α O)} {s : Subscribed α O}
    (hs : (subject initial).run es = some s) (honce : (subscribers es).Nodup)
    (hroom : (subscribers es).length ≤ UInt64.size) (observer : O) :
    received initial observer es = (wire initial observer es).received ∧
      ((subject initial).step s (.unsubscribe observer)).isSome := by
  obtain ⟨r, hr⟩ := exists_attached hs honce hroom
  obtain ⟨t, -, ht, -⟩ := attached_unsubscribe hs hr observer
  refine ⟨hr.received observer, ?_⟩
  rw [ht]
  rfl

/-- Observer 2 comes between two elements, and observer 1 goes after the first. -/
def comingAndGoing : List (SubjectEvent String ℕ) :=
  [.subscribe 1, .on (.next "b") [], .subscribe 2, .unsubscribe 1, .on (.next "c") [],
    .on .completed []]

theorem subjectContract_comingAndGoing :
    received "a" 2 comingAndGoing = [.next "b", .next "c", .completed] ∧
      ((subject "a").runFrom (subject "a").init (comingAndGoing ++ [.unsubscribe 2])).isSome := by
  obtain ⟨s, hs⟩ : ∃ s, (subject "a").run comingAndGoing = some s := ⟨_, rfl⟩
  obtain ⟨hreceived, hsome⟩ := subjectContract hs (by decide) (by decide) 2
  refine ⟨hreceived.trans rfl, ?_⟩
  have hrun : (subject "a").runFrom (subject "a").init comingAndGoing = some s := hs
  rw [runFrom_append, hrun, Option.bind_some, runFrom_cons]
  cases hstep : (subject "a").step s (.unsubscribe 2) with
  | none => simp [hstep] at hsome
  | some t => rfl

end SewaConnect.Rx
