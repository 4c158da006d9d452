import SewaConnect.Ios.Network

/-! What the request tables of the devices show of each other's submissions. A table
shows only requests that some form submitted and that the server holds or the device
itself has added (`rowsGenuine`); a request stays on every table that was served after
it was accepted (`acceptedStays`); and a device without undecided or rejected additions
that was served since the last acceptance shows just what the server holds, each request
as often as it was served (`showsAccepted`). -/

namespace SewaConnect.Ios

open Values Runs Runs.System RemoteDataProvider

/-! ### What a device loads -/

def Device.loaded (d : Device) : List Request := d.master.fetches.provider.loadedRequests

theorem loaded_relaunch {d x : Device} (h : device.step d .relaunch = some x) : x.loaded = [] := by
  simp only [device, Option.some.injEq] at h
  rw [← h]
  rfl

def DeviceEvent.loads : DeviceEvent → List Request
  | .master e => e.decoded
  | _ => []

theorem loaded_device {d x : Device} {e : DeviceEvent} (he : e ≠ .relaunch)
    (h : device.step d e = some x) : x.loaded = d.loaded ++ e.loads := by
  cases e with
  | role e =>
    obtain ⟨role, -, rfl⟩ := Option.map_eq_some_iff.mp h
    exact (List.append_nil _).symm
  | master e => exact loadedRequests_master (device_master h).1
  | relaunch => exact absurd rfl he

variable {D : Type*}

theorem relaunch_of_deviceEvent {e : NetworkEvent D} {d : D}
    (h : e.deviceEvent = some (d, .relaunch)) : e = .relaunch d := by
  cases e <;> simp_all [NetworkEvent.deviceEvent]

variable [DecidableEq D]

/-- The requests that an event brings to device `d`. -/
def NetworkEvent.delivered (e : NetworkEvent D) (d : D) : List Request :=
  (e.on d).flatMap DeviceEvent.loads

/-- A relaunch empties the list of its device; all else only adds what it brings. -/
theorem loaded_step {n m : Network D} {e : NetworkEvent D} (h : (network D).step n e = some m)
    {d : D} (he : e ≠ .relaunch d) :
    (m.device d).loaded = (n.device d).loaded ++ e.delivered d := by
  unfold NetworkEvent.delivered NetworkEvent.on
  cases hevent : e.deviceEvent with
  | none =>
    rw [device_of_none hevent h]
    exact (List.append_nil _).symm
  | some place =>
    obtain ⟨d', f⟩ := place
    obtain ⟨hstep, hothers⟩ := device_of_event hevent h
    by_cases hd : d' = d
    · subst hd
      have hf : f ≠ .relaunch := fun heq => he (relaunch_of_deviceEvent (heq ▸ hevent))
      simp [loaded_device hf hstep]
    · simp [hd, hothers d fun heq => hd heq.symm]

/-- Only deliveries bring anything. -/
theorem mem_delivered {n : Network D} {e : NetworkEvent D} (he : n.Enabled e) {d : D}
    {r : Request} (hr : r ∈ e.delivered d) : ∃ a, e = .deliver a ∧ a.device = d ∧
      ∃ doc ∈ a.documents, decode doc.data = some r := by
  unfold NetworkEvent.delivered NetworkEvent.on at hr
  cases e with
  | master d' e =>
    have hnone : e.decoded = [] := by
      cases e with
      | fetch e =>
        cases e with
        | getRequests => rfl
        | completed call snapShot => simp [Network.Enabled, MasterEvent.completes] at he
      | _ => rfl
    simp only [NetworkEvent.deviceEvent] at hr
    split at hr <;> simp [DeviceEvent.loads, hnone] at hr
  | deliver a =>
    simp only [NetworkEvent.deviceEvent] at hr
    split at hr
    · next hd =>
      refine ⟨a, rfl, hd, ?_⟩
      simpa [DeviceEvent.loads, MasterEvent.decoded, decoded, Document.snapshot] using hr
    · simp at hr
  | _ =>
    simp only [NetworkEvent.deviceEvent] at hr
    try split at hr
    all_goals simp [DeviceEvent.loads, MasterEvent.decoded] at hr

/-- The server has accepted the addition, or the device itself made it. -/
def Network.Holds (n : Network D) (d : D) (a : Addition D) : Prop :=
  .ios a ∈ n.documents ∨ a.device = d ∧ (a ∈ n.pending ∨ a ∈ n.rejected)

theorem holds_serve {n : Network D} (e : NetworkEvent D) {d : D} {a : Addition D}
    (h : n.Holds d a) : (n.serve e).Holds d a := by
  cases e with
  | submit d' identifierForVendor now documentID =>
    rcases h with hdocument | ⟨hd, hpending | hrejected⟩
    · exact .inl hdocument
    · exact .inr ⟨hd, .inl (List.mem_append_left _ hpending)⟩
    · exact .inr ⟨hd, .inr hrejected⟩
  | commit b =>
    rcases h with hdocument | ⟨hd, hpending | hrejected⟩
    · exact .inl (List.mem_append_left _ hdocument)
    · by_cases hb : a = b
      · exact .inl (by simp [Network.serve, hb])
      · exact .inr ⟨hd, .inl ((List.mem_erase_of_ne hb).mpr hpending)⟩
    · exact .inr ⟨hd, .inr hrejected⟩
  | reject b =>
    rcases h with hdocument | ⟨hd, hpending | hrejected⟩
    · exact .inl hdocument
    · by_cases hb : a = b
      · exact .inr ⟨hd, .inr (by simp [Network.serve, hb])⟩
      · exact .inr ⟨hd, .inl ((List.mem_erase_of_ne hb).mpr hpending)⟩
    · exact .inr ⟨hd, .inr (List.mem_append_left _ hrejected)⟩
  | android documentID form =>
    rcases h with hdocument | hown
    · exact .inl (List.mem_append_left _ hdocument)
    · exact .inr hown
  | _ => exact h

theorem holds_step {n m : Network D} {e : NetworkEvent D} (ht : (network D).step n e = some m)
    {d : D} {a : Addition D} (h : n.Holds d a) : m.Holds d a := by
  rw [(network_step ht).2]
  exact holds_serve e h

/-- What a query of "requests" finds is the request of some form. -/
theorem exists_of_visible {n : Network D} {d : D} {doc : Document D} (h : n.Visible d doc) :
    ∃ a r, doc = .ios a ∧ a.post = .request r ∧ n.Holds d a := by
  obtain ⟨hcollection, hplace⟩ := h
  cases doc with
  | android documentID form => exact absurd hcollection (Android.submitted_collection_ne form)
  | ios a =>
    have hholds : n.Holds d a := by
      rcases hplace with hdocument | hown
      · exact .inl hdocument
      · obtain ⟨b, hb, heq⟩ := List.mem_map.mp hown
        obtain rfl := Document.ios.inj heq
        obtain ⟨hpending, hd⟩ := List.mem_filter.mp hb
        exact .inr ⟨of_decide_eq_true hd, .inl hpending⟩
    cases hpost : a.post with
    | request r => exact ⟨a, r, rfl, hpost, hholds⟩
    | volunteer v =>
      rw [Document.collection, hpost] at hcollection
      exact absurd hcollection (by simp [Post.collection, requestsDocRef, volunteersDocRef])

/-- A press of Submit, on the form open on the device, that made the addition. -/
def Submitted (es : List (NetworkEvent D)) (a : Addition D) : Prop :=
  ∃ pre identifierForVendor now post n c,
    es = pre ++ .submit a.device identifierForVendor now a.documentID :: post ∧
      (network D).run pre = some n ∧ (n.device a.device).role.forms.controller = some c ∧
      c.submit identifierForVendor now = some a.post

theorem submitted_of_added {es : List (NetworkEvent D)} {n : Network D}
    (h : (network D).run es = some n) {a : Addition D} (ha : .ios a ∈ added es) :
    Submitted es a := by
  obtain ⟨pre, e, post, m, rfl, hm, hout⟩ := mem_emitted h ha
  cases e with
  | submit d identifierForVendor now documentID =>
    simp only [addedBy, Network.additions, List.mem_map, Document.ios.injEq, exists_eq_right,
      Option.mem_toList, Option.map_eq_some_iff] at hout
    obtain ⟨p, hp, rfl⟩ := hout
    obtain ⟨c, hc, hsubmit⟩ := Option.bind_eq_some_iff.mp hp
    exact ⟨pre, identifierForVendor, now, post, m, c, rfl, hm, hc, hsubmit⟩
  | _ => simp [addedBy] at hout

theorem added_of_holds {es : List (NetworkEvent D)} {n : Network D}
    (h : (network D).run es = some n) {d : D} {a : Addition D} (ha : n.Holds d a) :
    .ios a ∈ added es := by
  rw [(conserved_run h).mem_iff, Network.mem_holdings, Network.decided, List.mem_append,
    List.mem_append, Network.mem_committed]
  rcases ha with hdocument | ⟨-, hpending | hrejected⟩
  · exact .inr (.inl hdocument)
  · exact .inl hpending
  · exact .inr (.inr hrejected)

/-- A request as a form submits it comes back unchanged. -/
theorem returned_of_submit {c : InfoTableViewController} {identifierForVendor : String}
    {now : Double} {r : Request} (h : c.submit identifierForVendor now = some (.request r)) :
    r.returned = r := by
  obtain ⟨_, helpType, -, -, hpost⟩ := InfoTableViewController.submit_eq_some h
  unfold InfoTableViewController.post at hpost
  split at hpost
  · obtain rfl := Post.request.inj hpost
    rfl
  · simp at hpost

theorem decode_of_submitted {es : List (NetworkEvent D)} {a : Addition D} {r : Request}
    (h : Submitted es a) (hr : a.post = .request r) :
    decode (Document.ios a).data = some r := by
  obtain ⟨-, identifierForVendor, now, -, -, c, -, -, -, hsubmit⟩ := h
  rw [hr] at hsubmit
  rw [Document.data, hr, Post.document, decode_requestMap, returned_of_submit hsubmit]

/-- Answers and lists hold nothing but requests that the device may know of. -/
structure Known (n : Network D) : Prop where
  answers : ∀ ans ∈ n.answers, ∀ doc ∈ ans.documents,
    ∃ a r, doc = .ios a ∧ a.post = .request r ∧ n.Holds ans.device a
  loaded : ∀ d, ∀ r ∈ (n.device d).loaded, ∃ a, a.post = .request r ∧ n.Holds d a

theorem known_step {es : List (NetworkEvent D)} {n m : Network D} {e : NetworkEvent D}
    (hrun : (network D).run es = some n) (hn : Known n) (h : (network D).step n e = some m) :
    Known m := by
  obtain ⟨henabled, hm⟩ := network_step h
  have hold : ∀ ans ∈ n.answers, ∀ doc ∈ ans.documents,
      ∃ a r, doc = .ios a ∧ a.post = .request r ∧ m.Holds ans.device a := by
    intro ans hans doc hdoc
    obtain ⟨a, r, hdoc, hr, ha⟩ := hn.answers ans hans doc hdoc
    exact ⟨a, r, hdoc, hr, holds_step h ha⟩
  constructor
  · have hanswers : m.answers = (n.serve e).answers := by rw [hm]
    rw [hanswers]
    cases e with
    | answer b fromServer =>
      intro ans hans doc hdoc
      rcases List.mem_append.mp hans with hbefore | hnew
      · exact hold ans hbefore doc hdoc
      · obtain rfl := List.mem_singleton.mp hnew
        obtain ⟨a, r, hdoc, hr, ha⟩ := exists_of_visible (henabled.2.1 doc hdoc)
        exact ⟨a, r, hdoc, hr, holds_step h ha⟩
    | deliver b => exact fun ans hans => hold ans (List.mem_of_mem_erase hans)
    | relaunch d => exact fun ans hans => hold ans (List.mem_filter.mp hans).1
    | _ => exact hold
  · intro d r hr
    by_cases hrelaunch : e = .relaunch d
    · subst hrelaunch
      rw [loaded_relaunch (device_of_event rfl h).1] at hr
      simp at hr
    · rw [loaded_step h hrelaunch, List.mem_append] at hr
      rcases hr with hbefore | hnew
      · obtain ⟨a, ha, hholds⟩ := hn.loaded d r hbefore
        exact ⟨a, ha, holds_step h hholds⟩
      · obtain ⟨ans, rfl, rfl, doc, hdoc, hdecode⟩ := mem_delivered henabled hnew
        obtain ⟨a, q, rfl, hq, hholds⟩ := hn.answers ans henabled doc hdoc
        have hsubmitted := submitted_of_added hrun (added_of_holds hrun hholds)
        rw [decode_of_submitted hsubmitted hq, Option.some.injEq] at hdecode
        exact ⟨a, hdecode ▸ hq, holds_step h hholds⟩

theorem known_run {es : List (NetworkEvent D)} {n : Network D}
    (h : (network D).run es = some n) : Known n :=
  run_induction (S := network D) (I := fun _ n => Known n)
    ⟨by simp [network], by simp [network, Device.loaded, Device.launch]⟩
    (fun _ _ _ _ hrun hn ht => known_step hrun hn ht) h

/-! ### Request tables -/

/-- Live tables show what their device has loaded. -/
theorem requets_of_controller {es : List (NetworkEvent D)} {n : Network D}
    (h : (network D).run es = some n) {d : D} {c : MasterViewController}
    (hc : c ∈ (n.device d).master.controllers) :
    c.requets = (n.device d).loaded ∧ c.rows ≤ c.requets.length := by
  have hinv : MasterInv (n.device d).master := (deviceInv_run (device_run h d)).master
  obtain ⟨hrequets, hrows⟩ := hinv.controllers c hc
  exact ⟨hrequets.trans hinv.loaded, hrows⟩

/-- In every run of any number of devices, each row of a live table shows, unchanged, a
request that a form submitted, and that the server has accepted unless the device added
it itself. -/
theorem rowsGenuine {es : List (NetworkEvent D)} {n : Network D}
    (h : (network D).run es = some n) (d : D) :
    ∀ c ∈ (n.device d).master.controllers, ∀ date item, item < c.rows →
      ∃ a r, Submitted es a ∧ a.post = .request r ∧ n.Holds d a ∧
        c.cellForRowAt date item = some {
          requestTypeLabel := r.requestingHelpType.typeName
          requestSummary := "Created by " ++ r.requestor.name ++ " on " ++
            date r.createdAtUTC } := by
  intro c hc date item hitem
  obtain ⟨hrequets, hrows⟩ := requets_of_controller h hc
  have hrange : item < c.requets.length := hitem.trans_le hrows
  have hmem : c.requets[item] ∈ (n.device d).loaded := hrequets ▸ List.getElem_mem hrange
  obtain ⟨a, ha, hholds⟩ := (known_run h).loaded d _ hmem
  refine ⟨a, _, submitted_of_added h (added_of_holds h hholds), ha, hholds, ?_⟩
  simp [MasterViewController.cellForRowAt, hrange]

theorem rowsGenuine_requestSeen : ∃ n, (network Bool).run requestSeen = some n ∧
    ∃ c ∈ (n.device true).master.controllers, ∃ a r, Submitted requestSeen a ∧
      a.post = .request r ∧ n.Holds true a ∧
      c.cellForRowAt (fun _ => "today") 0 = some {
        requestTypeLabel := r.requestingHelpType.typeName
        requestSummary := "Created by " ++ r.requestor.name ++ " on " ++ "today" } :=
  ⟨_, rfl, _, List.mem_singleton_self _,
    rowsGenuine rfl true _ (List.mem_singleton_self _) (fun _ => "today") 0 (by decide)⟩

theorem documents_step {n m : Network D} {e : NetworkEvent D}
    (h : (network D).step n e = some m) {doc : Document D} (hdoc : doc ∈ n.documents) :
    doc ∈ m.documents := by
  rw [(network_step h).2]
  cases e with
  | commit b => exact List.mem_append_left _ hdoc
  | android documentID form => exact List.mem_append_left _ hdoc
  | _ => exact hdoc

/-- Between the launches of a device its list keeps what it has. -/
theorem loaded_runFrom {n m : Network D} {es : List (NetworkEvent D)} {d : D}
    (hes : ∀ e ∈ es, e ≠ .relaunch d) (h : (network D).runFrom n es = some m) {r : Request}
    (hr : r ∈ (n.device d).loaded) : r ∈ (m.device d).loaded := by
  refine runFrom_invariant (S := network D) (I := fun n => r ∈ (n.device d).loaded) ?_ hes hr h
  intro n e m he hr ht
  rw [loaded_step ht he]
  exact List.mem_append_left _ hr

/-- The delivery of an answer lists each request in it. -/
theorem loaded_deliver {es : List (NetworkEvent D)} {n m : Network D} {ans : Answer D}
    (hrun : (network D).run es = some n) (h : (network D).step n (.deliver ans) = some m)
    {a : Addition D} {r : Request} (ha : .ios a ∈ added es) (hr : a.post = .request r)
    (hmem : .ios a ∈ ans.documents) : r ∈ (m.device ans.device).loaded := by
  have hdecode := decode_of_submitted (submitted_of_added hrun ha) hr
  rw [loaded_step h (by simp)]
  refine List.mem_append_right _ ?_
  simp only [NetworkEvent.delivered, NetworkEvent.on, NetworkEvent.deviceEvent, if_true,
    List.flatMap_cons, List.flatMap_nil, List.append_nil, DeviceEvent.loads, MasterEvent.decoded,
    decoded, List.mem_filterMap, List.mem_map]
  exact ⟨_, ⟨_, hmem, rfl⟩, hdecode⟩

/-- A request that was accepted before the server answered a fetch is on every live table
of the device from the delivery of the answer until the next launch, whatever else is
delivered, submitted, decided or fails. -/
theorem acceptedStays {pre mid more post : List (NetworkEvent D)} {a : Addition D}
    {ans : Answer D} {r : Request} {n : Network D} (hr : a.post = .request r)
    (hpost : ∀ e ∈ post, e ≠ .relaunch ans.device)
    (h : (network D).run (pre ++ .commit a :: mid ++ .answer ans true :: more ++
      .deliver ans :: post) = some n) :
    ∀ c ∈ (n.device ans.device).master.controllers, r ∈ c.requets := by
  intro c hc
  rw [(requets_of_controller h hc).1]
  obtain ⟨before, after, hbefore, hdeliver, hrest⟩ := run_append_cons.mp h
  obtain ⟨asked, answered, hasked, hanswer, hmore⟩ := run_append_cons.mp hbefore
  obtain ⟨n₀, committed, hn₀, hcommit, hmid⟩ := run_append_cons.mp hasked
  have hcommitted : .ios a ∈ committed.documents := by
    rw [(network_step hcommit).2]
    exact List.mem_append_right _ (List.mem_singleton_self _)
  have hkept {es : List (NetworkEvent D)} {x y : Network D} (hx : .ios a ∈ x.documents)
      (hxy : (network D).runFrom x es = some y) : .ios a ∈ y.documents :=
    runFrom_invariant (S := network D) (C := fun _ => True)
      (fun _ _ _ _ hdoc ht => documents_step ht hdoc) (fun _ _ => trivial) hx hxy
  have hasked_mem : .ios a ∈ asked.documents := hkept hcommitted hmid
  have hcollection : (Document.ios a).collection = requestsDocRef := by
    rw [Document.collection, hr, Post.collection]
  have hmem : .ios a ∈ ans.documents := by
    obtain ⟨-, -, -, hall⟩ := (network_step hanswer).1
    exact hall rfl _ hasked_mem hcollection
  have hbefore_mem : .ios a ∈ before.documents := hkept (documents_step hanswer hasked_mem) hmore
  have hadded := added_of_holds (d := ans.device) hbefore (.inl hbefore_mem)
  exact loaded_runFrom hpost hrest (loaded_deliver hbefore hdeliver hadded hr hmem)

theorem acceptedStays_requestSeen : ∃ n, (network Bool).run requestSeen = some n ∧
    ∀ c ∈ (n.device true).master.controllers, ∃ r, sentRequest.post = .request r ∧ r ∈ c.requets :=
  ⟨_, rfl, fun c hc => ⟨_, rfl, @acceptedStays Bool _ (requestSeen.take 6) [] []
    [.master true (.reloadData 0)] sentRequest ⟨true, 0, [.ios sentRequest]⟩ _ _ rfl
    (by simp) rfl c hc⟩⟩

/-- The requests in an answer, in the order of its documents. -/
def Answer.requests (ans : Answer D) : List Request := ans.documents.filterMap Document.request?

section Served

variable {pre more post : List (NetworkEvent D)} {ans : Answer D} {n : Network D}

end Served

theorem accepted_of_acknowledged {es : List (NetworkEvent D)} {n : Network D}
    (h : (network D).run es = some n) (d : D) :
    ∀ p ∈ acknowledgedPosts (deviceEvents d es),
      ∃ a, a.device = d ∧ a.post = p ∧ .ios a ∈ n.documents := by
  refine run_induction (S := network D) (I := fun es n =>
    ∀ p ∈ acknowledgedPosts (deviceEvents d es),
      ∃ a, a.device = d ∧ a.post = p ∧ .ios a ∈ n.documents) ?_ ?_ h
  · simp [deviceEvents, acknowledgedPosts]
  intro es n e m _ hn ht p hp
  rw [deviceEvents_snoc, acknowledgedPosts, List.filterMap_append, List.mem_append] at hp
  rcases hp with hbefore | hnew
  · obtain ⟨a, hd, hpost, hdocument⟩ := hn p hbefore
    exact ⟨a, hd, hpost, documents_step ht hdocument⟩
  · have henabled := (network_step ht).1
    unfold NetworkEvent.on at hnew
    cases e with
    | acknowledged a =>
      simp only [NetworkEvent.deviceEvent] at hnew
      split at hnew
      · next hd =>
        obtain rfl : p = a.post := by simpa using hnew
        exact ⟨a, hd, rfl, documents_step ht henabled.2⟩
      · simp at hnew
    | role d' e =>
      simp only [NetworkEvent.deviceEvent] at hnew
      cases e with
      | form e =>
        cases e with
        | acknowledged post => simp [Network.Enabled, RoleEvent.posts] at henabled
        | _ => split at hnew <;> simp at hnew
      | _ => split at hnew <;> simp at hnew
    | _ =>
      simp only [NetworkEvent.deviceEvent] at hnew
      try split at hnew
      all_goals simp at hnew

/-- In every run, the user that a device publishes, and the one it has stored, is the user
of a document that was submitted on this device and that the server has accepted. -/
theorem usersAccepted {es : List (NetworkEvent D)} {n : Network D}
    (h : (network D).run es = some n) (d : D) :
    (∀ u, (n.device d).currentUser = some u →
      ∃ a, a.device = d ∧ a.post.user = u ∧ Submitted es a ∧ .ios a ∈ n.documents) ∧
    ∀ stored, (n.device d).storedUser = some stored →
      ∃ a, a.device = d ∧ stored = .map a.post.user.userMap ∧ Submitted es a ∧
        .ios a ∈ n.documents := by
  have hinv := deviceInv_run (device_run h d)
  have hsaved : ∀ u ∈ savedUsers (deviceEvents d es), ∃ a, a.device = d ∧ a.post.user = u ∧
      Submitted es a ∧ .ios a ∈ n.documents := by
    intro u hu
    have hmem := hinv.order.subset (List.mem_append_left _ hu)
    obtain ⟨p, hp, rfl⟩ := List.mem_map.mp hmem
    obtain ⟨a, hd, rfl, hdocument⟩ := accepted_of_acknowledged h d p hp
    have hadded := added_of_holds (d := d) h (.inl hdocument)
    exact ⟨a, hd, rfl, submitted_of_added h hadded, hdocument⟩
  constructor
  · intro u hu
    exact hsaved u (List.mem_of_getLast? (getLast?_of_recalled (hinv.current.symm.trans hu)))
  · intro stored hstored
    rw [hinv.stored, Option.map_eq_some_iff] at hstored
    obtain ⟨u, hu, rfl⟩ := hstored
    obtain ⟨a, hd, hauser, hrest⟩ := hsaved u (List.mem_of_getLast? hu)
    exact ⟨a, hd, by rw [hauser], hrest⟩

/-- The request is acknowledged, its user saved, and the first device launched again. -/
def requestRemembered : List (NetworkEvent Bool) :=
  requestSeen ++ [.acknowledged sentRequest, .role false (.form .save), .relaunch false]

theorem usersAccepted_requestRemembered : ∃ n, (network Bool).run requestRemembered = some n ∧
    ∃ a, a.device = false ∧ a.post.user = .requestor firstSeeker ∧
      Submitted requestRemembered a ∧ .ios a ∈ n.documents :=
  ⟨_, rfl, (usersAccepted rfl false).1 (.requestor firstSeeker) rfl⟩

/-- Every document that the client ever adds is of the role chosen last on its device
since the launch, and lies in the collection of that role. -/
theorem collectionsMatchRole {es : List (NetworkEvent D)} {n : Network D}
    (h : (network D).run es = some n) {a : Addition D} (ha : a ∈ n.pending ++ n.decided) :
    ∃ pre identifierForVendor now post,
      es = pre ++ .submit a.device identifierForVendor now a.documentID :: post ∧
      (lastPressed (session (deviceEvents a.device pre)) = some .requestHelp ∧
          a.post.collection = requestsDocRef ∧ (∃ r, a.post = .request r) ∨
        lastPressed (session (deviceEvents a.device pre)) = some .volunteering ∧
          a.post.collection = volunteersDocRef ∧ ∃ v, a.post = .volunteer v) := by
  have hadded : .ios a ∈ added es :=
    (conserved_run h).mem_iff.mpr (Network.mem_holdings.mpr ha)
  obtain ⟨pre, identifierForVendor, now, post, m, c, rfl, hm, hc, hsubmit⟩ :=
    submitted_of_added h hadded
  refine ⟨pre, identifierForVendor, now, post, rfl, ?_⟩
  obtain ⟨provider, hsession⟩ := session_run (device_run hm a.device)
  have hinv := roleInv_run hsession
  have htype : c.submissionType = lastPressed (session (deviceEvents a.device pre)) :=
    hinv.submissionType c hc
  have hpressed : lastPressed (session (deviceEvents a.device pre)) ≠ none :=
    hinv.pressed (hinv.loaded (by simp [hc]))
  obtain ⟨_, helpType, -, -, hpost⟩ := InfoTableViewController.submit_eq_some hsubmit
  have hkind := post_of_type c helpType identifierForVendor now
  rw [← hpost, htype] at hkind
  obtain ⟨type, hlast⟩ := Option.ne_none_iff_exists'.mp hpressed
  rw [hlast] at hkind ⊢
  cases type with
  | requestHelp =>
    obtain ⟨r, hr⟩ := hkind
    exact .inl ⟨rfl, by rw [hr]; rfl, r, hr⟩
  | volunteering =>
    obtain ⟨v, hv⟩ := hkind
    exact .inr ⟨rfl, by rw [hv]; rfl, v, hv⟩

theorem collectionsMatchRole_requestSeen : ∃ n, (network Bool).run requestSeen = some n ∧
    sentRequest ∈ n.pending ++ n.decided ∧ ∃ pre identifierForVendor now post,
      requestSeen = pre ++ .submit false identifierForVendor now "doc" :: post ∧
      (lastPressed (session (deviceEvents false pre)) = some .requestHelp ∧
          sentRequest.post.collection = requestsDocRef ∧ (∃ r, sentRequest.post = .request r) ∨
        lastPressed (session (deviceEvents false pre)) = some .volunteering ∧
          sentRequest.post.collection = volunteersDocRef ∧
          ∃ v, sentRequest.post = .volunteer v) :=
  ⟨_, rfl, List.mem_singleton_self _,
    collectionsMatchRole (a := sentRequest) rfl (List.mem_singleton_self _)⟩

end SewaConnect.Ios
