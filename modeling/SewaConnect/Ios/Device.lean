import SewaConnect.Runs.Refinement
import SewaConnect.Ios.MasterViewController
import SewaConnect.Ios.RoleSelection

/-! One installation of the iOS client: the screens of a running process, and the
defaults that outlive it. The process may end at any time, also between an
acknowledgement and the block that saves its user; what was under way is then lost.
Through all relaunches the defaults hold the user saved last, and the current user is
that one, except that a process that has saved nobody yet does not know a volunteer
(`deviceInv_run`). -/

namespace SewaConnect.Ios

open Values Runs Runs.System

structure Device where
  role : RoleState := {}
  master : MasterState := {}
  /-- The object under "storedUser" in the user defaults. -/
  storedUser : Option Value := none

inductive DeviceEvent where
  | role (e : RoleEvent)
  | master (e : MasterEvent)
  /-- The process ends, and the app is launched again. -/
  | relaunch

namespace Device

/-- A new process. `UserProvider` loads the stored user when it is created. -/
def launch (storedUser : Option Value) : Device where
  role := { forms := { provider := UserProvider.loadUser {} storedUser } }
  storedUser

/-- The next block of the main queue saves its user; nothing else writes the defaults. -/
def defaults (d : Device) : RoleEvent → Option Value
  | .form .save =>
    match d.role.forms.mainQueue with
    | user :: _ => some (d.role.forms.provider.save user).2
    | [] => d.storedUser
  | _ => d.storedUser

def currentUser (d : Device) : Option User := d.role.forms.provider.currentUserSubject

end Device

def device : System Device DeviceEvent where
  init := .launch none
  step d
    | .role e => ((roleSelection {}).step d.role e).map fun role =>
        { d with role, storedUser := d.defaults e }
    | .master e => (mastering.step d.master e).map fun master => { d with master }
    | .relaunch => some (.launch d.storedUser)

/-- The users saved in a run, through all relaunches. -/
def savedBy (d : Device) : DeviceEvent → List User
  | .role (.form .save) => d.role.forms.mainQueue.take 1
  | _ => []

def savedUsers (es : List DeviceEvent) : List User := device.emitted savedBy es

/-- The running process has saved a user. -/
def savedSinceLaunch (es : List DeviceEvent) : Bool :=
  es.foldl (fun saved e =>
    match e with
    | .role (.form .save) => true
    | .relaunch => false
    | _ => saved) false

/-- A launch reads back help seekers only. -/
def User.survives : User → Bool
  | .requestor _ => true
  | .volunteer _ => false

/-- The user that a device is to have: the one saved last, if it was saved since the
launch or survived it. -/
def recalled (es : List DeviceEvent) : Option User :=
  if savedSinceLaunch es then (savedUsers es).getLast?
  else (savedUsers es).getLast?.filter User.survives

/-- The posts whose success a process was told of. -/
def acknowledgedPosts : List DeviceEvent → List Post :=
  List.filterMap fun
    | .role (.form (.acknowledged post)) => some post
    | _ => none

theorem savedSinceLaunch_snoc (es : List DeviceEvent) (e : DeviceEvent) :
    savedSinceLaunch (es ++ [e]) =
      match e with
      | .role (.form .save) => true
      | .relaunch => false
      | _ => savedSinceLaunch es := by
  simp only [savedSinceLaunch, List.foldl_append, List.foldl_cons, List.foldl_nil]

/-- Nobody but the user saved last is recalled. -/
theorem getLast?_of_recalled {es : List DeviceEvent} {u : User} (h : recalled es = some u) :
    (savedUsers es).getLast? = some u := by
  unfold recalled at h
  split at h
  · exact h
  · exact (Option.filter_eq_some_iff.mp h).1

theorem acknowledgedPosts_snoc (es : List DeviceEvent) (e : DeviceEvent) :
    acknowledgedPosts (es ++ [e]) = acknowledgedPosts es ++ acknowledgedPosts [e] :=
  List.filterMap_append

/-! ### Posts, acknowledgements and saves -/

/-- The events that concern posts and their users. -/
def FormEvent.settles : FormEvent → Bool
  | .submit _ _ | .acknowledged _ | .failed _ | .save => true
  | _ => false

def RoleEvent.settles : RoleEvent → Bool
  | .form e => e.settles
  | _ => false

/-- Nothing is posted, decided or saved between two states. -/
structure FormState.Settled (s t : FormState) : Prop where
  posts : t.posts = s.posts
  mainQueue : t.mainQueue = s.mainQueue
  currentUser : t.provider.currentUserSubject = s.provider.currentUserSubject

theorem settled_of_form {s t : FormState} {e : FormEvent} (he : e.settles = false)
    (h : forms.step s e = some t) : s.Settled t := by
  cases e with
  | openForm type =>
    cases hform : s.form with
    | some form => simp [forms, hform] at h
    | none =>
      simp only [forms, hform, Option.some.injEq] at h
      subst t
      exact ⟨rfl, rfl, rfl⟩
  | deliver user =>
    simp only [forms] at h
    split at h
    · simp only [Option.ite_none_right_eq_some, Option.some.injEq] at h
      obtain ⟨-, rfl⟩ := h
      exact ⟨rfl, rfl, rfl⟩
    · simp at h
  | submit identifierForVendor now => simp [FormEvent.settles] at he
  | acknowledged post => simp [FormEvent.settles] at he
  | failed post => simp [FormEvent.settles] at he
  | save => simp [FormEvent.settles] at he
  | _ =>
    obtain ⟨form, -, rfl⟩ := Option.map_eq_some_iff.mp h
    exact ⟨rfl, rfl, rfl⟩

/-- Presenting, pressing, loading and leaving a screen settles nothing. -/
theorem settled_of_role {provider : UserProvider} {s t : RoleState} {e : RoleEvent}
    (he : e.settles = false) (h : (roleSelection provider).step s e = some t) :
    s.forms.Settled t.forms := by
  cases e with
  | presentFTUE =>
    simp only [roleSelection] at h
    split at h
    · rw [Option.some.injEq] at h
      subst h
      exact ⟨rfl, rfl, rfl⟩
    · simp at h
  | press type loads =>
    simp only [roleSelection] at h
    split at h
    · rw [Option.some.injEq] at h
      subst h
      rw [tap_forms]
      exact ⟨rfl, rfl, rfl⟩
    · simp at h
  | loadView =>
    simp only [roleSelection] at h
    split at h
    · rw [Option.some.injEq] at h
      subst h
      exact ⟨rfl, rfl, rfl⟩
    · simp at h
  | back =>
    simp only [roleSelection] at h
    split at h
    · rw [Option.some.injEq] at h
      subst h
      exact ⟨rfl, rfl, rfl⟩
    · simp at h
  | dismiss =>
    obtain ⟨presented, -, rfl⟩ := Option.map_eq_some_iff.mp h
    exact ⟨rfl, rfl, rfl⟩
  | form e =>
    simp only [roleSelection, Option.ite_none_left_eq_some, Option.map_eq_some_iff] at h
    obtain ⟨-, forms', hforms, rfl⟩ := h
    exact settled_of_form he hforms

section Step

variable {d x : Device}

/-- A step of the form's events inside a device. -/
theorem device_form {e : FormEvent} (h : device.step d (.role (.form e)) = some x) :
    forms.step d.role.forms e = some x.role.forms ∧ x.master = d.master ∧
      x.storedUser = d.defaults (.form e) := by
  simp only [device, roleSelection, Option.map_eq_some_iff, Option.ite_none_left_eq_some] at h
  obtain ⟨_, ⟨-, forms', hforms, rfl⟩, rfl⟩ := h
  exact ⟨hforms, rfl, rfl⟩

/-- Submit adds what the open form posts to the posts under way. -/
theorem device_submit {identifierForVendor : String} {now : Double}
    (h : device.step d (.role (.form (.submit identifierForVendor now))) = some x) :
    x.role.forms.posts = d.role.forms.posts ++
        (d.role.forms.controller.bind (·.submit identifierForVendor now)).toList ∧
      x.role.forms.mainQueue = d.role.forms.mainQueue ∧ x.currentUser = d.currentUser ∧
      x.master = d.master ∧ x.storedUser = d.storedUser := by
  obtain ⟨hforms, hmaster, hstored⟩ := device_form h
  obtain ⟨form, hform, heq⟩ := Option.map_eq_some_iff.mp hforms
  have hcontroller : d.role.forms.controller = some form.controller := by
    rw [FormState.controller, hform, Option.map_some]
  rw [hcontroller, Option.bind_some, Device.currentUser, ← heq]
  exact ⟨rfl, rfl, rfl, hmaster, hstored⟩

/-- An acknowledgement leaves its user to the main queue. -/
theorem device_acknowledged {post : Post}
    (h : device.step d (.role (.form (.acknowledged post))) = some x) :
    post ∈ d.role.forms.posts ∧ x.role.forms.posts = d.role.forms.posts.erase post ∧
      x.role.forms.mainQueue = d.role.forms.mainQueue ++ [post.user] ∧
      x.currentUser = d.currentUser ∧ x.master = d.master ∧ x.storedUser = d.storedUser := by
  obtain ⟨hforms, hmaster, hstored⟩ := device_form h
  simp only [forms, Option.ite_none_right_eq_some, Option.some.injEq] at hforms
  rw [Device.currentUser, ← hforms.2]
  exact ⟨hforms.1, rfl, rfl, rfl, hmaster, hstored⟩

theorem device_failed {post : Post}
    (h : device.step d (.role (.form (.failed post))) = some x) :
    x.role.forms.posts = d.role.forms.posts.erase post ∧
      x.role.forms.mainQueue = d.role.forms.mainQueue ∧
      x.currentUser = d.currentUser ∧ x.master = d.master ∧ x.storedUser = d.storedUser := by
  obtain ⟨hforms, hmaster, hstored⟩ := device_form h
  simp only [forms, Option.ite_none_right_eq_some, Option.some.injEq] at hforms
  rw [Device.currentUser, ← hforms.2]
  exact ⟨rfl, rfl, rfl, hmaster, hstored⟩

/-- A save takes the next user off the main queue, stores and publishes it. -/
theorem device_save (h : device.step d (.role (.form .save)) = some x) :
    ∃ user, d.role.forms.mainQueue = user :: x.role.forms.mainQueue ∧
      x.role.forms.posts = d.role.forms.posts ∧ x.currentUser = some user ∧
      x.master = d.master ∧ x.storedUser = some (.map user.userMap) := by
  obtain ⟨hforms, hmaster, hstored⟩ := device_form h
  cases hqueue : d.role.forms.mainQueue with
  | nil => simp [forms, hqueue] at hforms
  | cons user mainQueue =>
    simp only [forms, hqueue, Option.some.injEq] at hforms
    refine ⟨user, by rw [← hforms], by rw [← hforms], ?_, hmaster, ?_⟩
    · rw [Device.currentUser, ← hforms]
      rfl
    · rw [hstored, Device.defaults, hqueue]
      rfl

theorem device_role {e : RoleEvent} (he : e.settles = false)
    (h : device.step d (.role e) = some x) :
    d.role.forms.Settled x.role.forms ∧ x.master = d.master ∧ x.storedUser = d.storedUser := by
  simp only [device, Option.map_eq_some_iff] at h
  obtain ⟨role, hrole, rfl⟩ := h
  refine ⟨settled_of_role he hrole, rfl, ?_⟩
  cases e with
  | form e =>
    cases e with
    | save => simp [RoleEvent.settles, FormEvent.settles] at he
    | _ => rfl
  | _ => rfl

theorem device_master {e : MasterEvent} (h : device.step d (.master e) = some x) :
    mastering.step d.master e = some x.master ∧ x.role = d.role ∧ x.storedUser = d.storedUser := by
  obtain ⟨master, hmaster, rfl⟩ := Option.map_eq_some_iff.mp h
  exact ⟨hmaster, rfl, rfl⟩

end Step

/-- The events of a device, those that settle something one by one. -/
@[elab_as_elim]
theorem DeviceEvent.settling_cases {motive : DeviceEvent → Prop}
    (submit : ∀ identifierForVendor now,
      motive (.role (.form (.submit identifierForVendor now))))
    (acknowledged : ∀ post, motive (.role (.form (.acknowledged post))))
    (failed : ∀ post, motive (.role (.form (.failed post))))
    (save : motive (.role (.form .save)))
    (role : ∀ e, e.settles = false → motive (.role e))
    (master : ∀ e, motive (.master e)) (relaunch : motive .relaunch) (e : DeviceEvent) :
    motive e := by
  cases e with
  | master e => exact master e
  | relaunch => exact relaunch
  | role e =>
    cases e with
    | form e =>
      cases e with
      | submit identifierForVendor now => exact submit identifierForVendor now
      | acknowledged post => exact acknowledged post
      | failed post => exact failed post
      | save => exact save
      | _ => exact role _ rfl
    | _ => exact role _ rfl

theorem savedBy_of_not_settles (d : Device) {e : RoleEvent} (he : e.settles = false) :
    savedBy d (.role e) = [] := by
  cases e with
  | form e =>
    cases e with
    | save => simp [RoleEvent.settles, FormEvent.settles] at he
    | _ => rfl
  | _ => rfl

theorem savedSinceLaunch_of_not_settles (es : List DeviceEvent) {e : RoleEvent}
    (he : e.settles = false) :
    savedSinceLaunch (es ++ [.role e]) = savedSinceLaunch es := by
  rw [savedSinceLaunch_snoc]
  cases e with
  | form e =>
    cases e with
    | save => simp [RoleEvent.settles, FormEvent.settles] at he
    | _ => rfl
  | _ => rfl

/-- The events of the posts, which take part in the traffic with the server. -/
def RoleEvent.posts : RoleEvent → Bool
  | .form (.submit _ _) | .form (.acknowledged _) | .form (.failed _) => true
  | _ => false

/-- The posts under way after an event. -/
def DeviceEvent.postsAfter (d : Device) : DeviceEvent → List Post
  | .role (.form (.submit identifierForVendor now)) => d.role.forms.posts ++
      (d.role.forms.controller.bind (·.submit identifierForVendor now)).toList
  | .role (.form (.acknowledged post)) => d.role.forms.posts.erase post
  | .role (.form (.failed post)) => d.role.forms.posts.erase post
  | .relaunch => []
  | _ => d.role.forms.posts

theorem postsAfter_of_not_posts {d : Device} {e : RoleEvent} (he : e.posts = false) :
    DeviceEvent.postsAfter d (.role e) = d.role.forms.posts := by
  cases e with
  | form e =>
    cases e with
    | submit identifierForVendor now => simp [RoleEvent.posts] at he
    | acknowledged post => simp [RoleEvent.posts] at he
    | failed post => simp [RoleEvent.posts] at he
    | _ => rfl
  | _ => rfl

theorem posts_of_settles {e : RoleEvent} (he : e.settles = false) : e.posts = false := by
  cases e with
  | form e =>
    cases e with
    | submit identifierForVendor now => simp [RoleEvent.settles, FormEvent.settles] at he
    | acknowledged post => simp [RoleEvent.settles, FormEvent.settles] at he
    | failed post => simp [RoleEvent.settles, FormEvent.settles] at he
    | _ => rfl
  | _ => rfl

theorem posts_device {d x : Device} {e : DeviceEvent} (h : device.step d e = some x) :
    x.role.forms.posts = e.postsAfter d := by
  cases e using DeviceEvent.settling_cases with
  | submit identifierForVendor now => exact (device_submit h).1
  | acknowledged post => exact (device_acknowledged h).2.1
  | failed post => exact (device_failed h).1
  | save =>
    obtain ⟨-, -, hposts, -⟩ := device_save h
    exact hposts
  | role e he =>
    rw [postsAfter_of_not_posts (posts_of_settles he)]
    exact (device_role he h).1.posts
  | master e =>
    rw [(device_master h).2.1]
    rfl
  | relaunch =>
    simp only [device, Option.some.injEq] at h
    rw [← h]
    rfl

/-! ### Runs -/

structure DeviceInv (es : List DeviceEvent) (d : Device) : Prop where
  posts : ∀ p ∈ d.role.forms.posts, p.user.FromForm
  mainQueue : ∀ u ∈ d.role.forms.mainQueue, u.FromForm
  saved : ∀ u ∈ savedUsers es, u.FromForm
  stored : d.storedUser = (savedUsers es).getLast?.map fun u => .map u.userMap
  current : d.currentUser = recalled es
  /-- Saves follow the order of the acknowledgements; a relaunch may skip some. -/
  order : (savedUsers es ++ d.role.forms.mainQueue).Sublist
    ((acknowledgedPosts es).map Post.user)
  master : MasterInv d.master

/-- A process that starts from the defaults recalls the user saved last, unless it is a
volunteer. -/
theorem currentUser_launch {last : Option User} (hlast : ∀ u, last = some u → u.FromForm) :
    (Device.launch (last.map fun u => .map u.userMap)).currentUser =
      last.filter User.survives := by
  cases last with
  | none => rfl
  | some u =>
    have hback := UserProvider.userOf_fromForm (hlast u rfl)
    have hcurrent : (Device.launch (some (.map u.userMap))).currentUser =
        UserProvider.userOf u.userMap := by
      cases huser : UserProvider.userOf u.userMap <;>
        simp [Device.currentUser, Device.launch, UserProvider.loadUser, huser]
    rw [Option.map_some, hcurrent]
    cases u with
    | requestor r => exact hback.mpr (by simp)
    | volunteer v =>
      rw [UserProvider.userOf_userMap]
      exact if_pos (hlast (.volunteer v) rfl).1

theorem masterInv_init : MasterInv {} := ⟨rfl, by simp⟩

/-- Users that follow the acknowledged posts go on to do so. -/
theorem sublist_acknowledgedPosts {es : List DeviceEvent} {e : DeviceEvent} {users : List User}
    (h : users.Sublist ((acknowledgedPosts es).map Post.user)) :
    users.Sublist ((acknowledgedPosts (es ++ [e])).map Post.user) := by
  rw [acknowledgedPosts_snoc, List.map_append]
  exact h.trans (List.sublist_append_left _ _)

/-- What remains to be shown of a step that saves nothing and puts nobody on the main
queue. -/
theorem deviceInv_of_unsaved {es : List DeviceEvent} {e : DeviceEvent} {d x : Device}
    (hd : DeviceInv es d) (hsaved : savedUsers (es ++ [e]) = savedUsers es)
    (hsince : savedSinceLaunch (es ++ [e]) = savedSinceLaunch es)
    (hstored : x.storedUser = d.storedUser) (hcurrent : x.currentUser = d.currentUser)
    (hposts : ∀ p ∈ x.role.forms.posts, p.user.FromForm)
    (hqueue : x.role.forms.mainQueue = d.role.forms.mainQueue) (hmaster : MasterInv x.master) :
    DeviceInv (es ++ [e]) x where
  posts := hposts
  mainQueue := hqueue ▸ hd.mainQueue
  saved := hsaved ▸ hd.saved
  order := by
    rw [hsaved, hqueue]
    exact sublist_acknowledgedPosts hd.order
  stored := by rw [hsaved, hstored, hd.stored]
  current := by
    rw [recalled, hsaved, hsince, hcurrent]
    exact hd.current
  master := hmaster

theorem deviceInv_step {es : List DeviceEvent} {d x : Device} {e : DeviceEvent}
    (hrun : device.run es = some d) (hd : DeviceInv es d) (h : device.step d e = some x) :
    DeviceInv (es ++ [e]) x := by
  have hsaved : savedUsers (es ++ [e]) = savedUsers es ++ savedBy d e :=
    emitted_snoc savedBy hrun h
  have hsame (hnone : savedBy d e = []) : savedUsers (es ++ [e]) = savedUsers es := by
    rw [hsaved, hnone, List.append_nil]
  cases e using DeviceEvent.settling_cases with
  | submit identifierForVendor now =>
    obtain ⟨hposts, hqueue, hcurrent, hmaster, hstored⟩ := device_submit h
    refine deviceInv_of_unsaved hd (hsame rfl) (savedSinceLaunch_snoc es _) hstored hcurrent ?_
      hqueue (hmaster ▸ hd.master)
    rw [hposts]
    intro p hp
    rcases List.mem_append.mp hp with hold | hnew
    · exact hd.posts p hold
    · obtain ⟨c, -, hpost⟩ := Option.bind_eq_some_iff.mp (Option.mem_toList.mp hnew)
      exact InfoTableViewController.submit_fromForm hpost
  | acknowledged post =>
    obtain ⟨hpost, hposts, hqueue, hcurrent, hmaster, hstored⟩ := device_acknowledged h
    have hrecalled : recalled (es ++ [.role (.form (.acknowledged post))]) = recalled es := by
      rw [recalled, hsame rfl, savedSinceLaunch_snoc]
      rfl
    refine ⟨?_, ?_, hsame rfl ▸ hd.saved, by rw [hsame rfl, hstored, hd.stored],
      by rw [hrecalled, hcurrent, hd.current], ?_, hmaster ▸ hd.master⟩
    · rw [hposts]
      exact fun p hp => hd.posts p (List.mem_of_mem_erase hp)
    · rw [hqueue]
      intro u hu
      rcases List.mem_append.mp hu with hold | hnew
      · exact hd.mainQueue u hold
      · exact List.mem_singleton.mp hnew ▸ hd.posts post hpost
    · rw [hsame rfl, hqueue, ← List.append_assoc, acknowledgedPosts_snoc, List.map_append]
      exact hd.order.append (List.Sublist.refl [post.user])
  | failed post =>
    obtain ⟨hposts, hqueue, hcurrent, hmaster, hstored⟩ := device_failed h
    refine deviceInv_of_unsaved hd (hsame rfl) (savedSinceLaunch_snoc es _) hstored hcurrent ?_
      hqueue (hmaster ▸ hd.master)
    rw [hposts]
    exact fun p hp => hd.posts p (List.mem_of_mem_erase hp)
  | save =>
    obtain ⟨user, hqueue, hposts, hcurrent, hmaster, hstored⟩ := device_save h
    have hlast : savedBy d (.role (.form .save)) = [user] := by simp [savedBy, hqueue]
    have hform : user.FromForm := hd.mainQueue user (by simp [hqueue])
    rw [hlast] at hsaved
    refine ⟨hposts ▸ hd.posts, fun u hu => hd.mainQueue u (by simp [hqueue, hu]), ?_,
      by simp [hsaved, hstored], ?_, ?_, hmaster ▸ hd.master⟩
    · rw [hsaved]
      intro u hu
      rcases List.mem_append.mp hu with hold | hnew
      · exact hd.saved u hold
      · exact List.mem_singleton.mp hnew ▸ hform
    · rw [recalled, savedSinceLaunch_snoc, if_pos rfl, hsaved, hcurrent, List.getLast?_concat]
    · rw [hsaved, List.append_assoc, List.singleton_append, ← hqueue]
      exact sublist_acknowledgedPosts hd.order
  | role e he =>
    obtain ⟨⟨hposts, hqueue, hcurrent⟩, hmaster, hstored⟩ := device_role he h
    exact deviceInv_of_unsaved hd (hsame (savedBy_of_not_settles d he))
      (savedSinceLaunch_of_not_settles es he) hstored hcurrent (hposts ▸ hd.posts) hqueue
      (hmaster ▸ hd.master)
  | master e =>
    obtain ⟨hmaster, hrole, hstored⟩ := device_master h
    exact deviceInv_of_unsaved hd (hsame rfl) (savedSinceLaunch_snoc es _) hstored
      (by rw [Device.currentUser, hrole]; rfl) (hrole ▸ hd.posts) (by rw [hrole])
      (masterInv_step hd.master hmaster)
  | relaunch =>
    simp only [device, Option.some.injEq] at h
    subst h
    refine ⟨by simp [Device.launch], by simp [Device.launch], hsame rfl ▸ hd.saved,
      by rw [hsame rfl, ← hd.stored]; rfl, ?_, ?_, masterInv_init⟩
    · rw [recalled, savedSinceLaunch_snoc, if_neg Bool.false_ne_true, hsame rfl, hd.stored]
      exact currentUser_launch fun u hu => hd.saved u (List.mem_of_getLast? hu)
    · rw [hsame rfl]
      refine sublist_acknowledgedPosts ((List.append_nil _).symm ▸ ?_)
      exact (List.sublist_append_left _ _).trans hd.order

theorem deviceInv_run {es : List DeviceEvent} {d : Device} (h : device.run es = some d) :
    DeviceInv es d :=
  run_induction (S := device) (I := DeviceInv)
    ⟨by simp [device, Device.launch], by simp [device, Device.launch], by simp [savedUsers], rfl,
      rfl, List.Sublist.refl [], masterInv_init⟩
    (fun _ _ _ _ hs hi ht => deviceInv_step hs hi ht) h

/-! ### Sessions -/

/-- The screens' events since the last launch. -/
def session : List DeviceEvent → List RoleEvent :=
  List.foldl (fun es e =>
    match e with
    | .role e => es ++ [e]
    | .master _ => es
    | .relaunch => []) []

theorem session_snoc (es : List DeviceEvent) (e : DeviceEvent) :
    session (es ++ [e]) =
      match e with
      | .role e => session es ++ [e]
      | .master _ => session es
      | .relaunch => [] := by
  simp only [session, List.foldl_append, List.foldl_cons, List.foldl_nil]

/-- What a device does since its last launch is a run of its screens, from whatever user
the launch found. -/
theorem session_run {es : List DeviceEvent} {d : Device} (h : device.run es = some d) :
    ∃ provider, (roleSelection provider).run (session es) = some d.role := by
  refine run_induction (S := device)
    (I := fun es d => ∃ provider, (roleSelection provider).run (session es) = some d.role)
    ⟨{}, rfl⟩ ?_ h
  rintro es d e x - ⟨provider, hd⟩ hx
  rw [session_snoc]
  cases e with
  | role e =>
    obtain ⟨role, hrole, rfl⟩ := Option.map_eq_some_iff.mp hx
    exact ⟨provider, run_snoc.mpr ⟨d.role, hd, hrole⟩⟩
  | master e =>
    rw [(device_master hx).2.1]
    exact ⟨provider, hd⟩
  | relaunch =>
    simp only [device, Option.some.injEq] at hx
    subst hx
    exact ⟨UserProvider.loadUser {} d.storedUser, rfl⟩

/-- Through relaunches at any time, the users saved are users of acknowledged posts in
their order, the defaults hold the one saved last, and the current user is that one, or
nobody exactly if the process has saved nobody and that one is a volunteer. -/
theorem recallsLastSaved {es : List DeviceEvent} {d : Device} (h : device.run es = some d) :
    (savedUsers es).Sublist ((acknowledgedPosts es).map Post.user) ∧
      d.storedUser = (savedUsers es).getLast?.map (fun u => .map u.userMap) ∧
      d.currentUser = recalled es := by
  obtain ⟨-, -, -, hstored, hcurrent, horder, -⟩ := deviceInv_run h
  exact ⟨(List.sublist_append_left _ _).trans horder, hstored, hcurrent⟩

/-- The post of the offer in the two runs below. -/
def firstOffer : Post := .volunteer ⟨"", "device", .volunteer, "", "", none, .tutoring⟩

/-- A request and an offer are acknowledged; the process ends before the offer's user is
saved. -/
def interruptedSave : List DeviceEvent :=
  [.role .presentFTUE, .role (.press .requestHelp true), .role (.form (.edit .email "first@mail")),
    .role (.form (.select {⟨2, 0⟩} ⟨2, 0⟩)), .role (.form (.submit "device" 0)), .role .back,
    .role (.press .volunteering true), .role (.form (.select {⟨2, 0⟩} ⟨2, 0⟩)),
    .role (.form (.submit "device" 0)), .role (.form (.acknowledged firstPost)),
    .role (.form (.acknowledged firstOffer)), .role (.form .save), .relaunch]

/-- The offer's user is saved too, and then the process ends. -/
def volunteerForgotten : List DeviceEvent :=
  interruptedSave.take 12 ++ [.role (.form .save), .relaunch]

theorem recallsLastSaved_interruptedSave :
    (∃ d, device.run interruptedSave = some d ∧
      d.currentUser = some (.requestor firstSeeker) ∧ d.currentUser = recalled interruptedSave) ∧
    ∃ d, device.run volunteerForgotten = some d ∧
      (savedUsers volunteerForgotten).Sublist
        ((acknowledgedPosts volunteerForgotten).map Post.user) ∧
      (savedUsers volunteerForgotten).length = 2 ∧ recalled volunteerForgotten = none ∧
      d.currentUser = recalled volunteerForgotten :=
  ⟨⟨_, rfl, rfl, (recallsLastSaved rfl).2.2⟩,
    ⟨_, rfl, (recallsLastSaved rfl).1, rfl, rfl, (recallsLastSaved rfl).2.2⟩⟩

end SewaConnect.Ios
