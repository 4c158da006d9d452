import SewaConnect.Runs.Refinement
import SewaConnect.Android.AccountCreation

/-! What the profiles in "users" can be worth in any run, also in one that breaks
`KeepsProfiles`. Each document is written whole, from one press and for one account
(`profilesWhole`), and the presses, the calls, the accounts and the documents balance
(`accountsConserved`), so that no document is without an account and no account without a
press that passed the checks. -/

namespace SewaConnect.Android

open Values Runs Runs.System

/-! ### What the calls, the accounts and the documents come from -/

/-- The form of a press that makes a call. -/
def AccountEvent.sent : AccountEvent → Option RegisterForm
  | .press form => if RegisterActivity.Rejects form then none else some form
  | _ => none

/-- The form of a call that fails. -/
def AccountEvent.failed : AccountEvent → Option RegisterForm
  | .completed call none => some call.form
  | _ => none

/-- A document whose write fails. -/
def AccountEvent.unwritten : AccountEvent → Option Profile
  | .writeFailed profile => some profile
  | _ => none

/-- The accounts whose success nobody hears of. -/
def unheard (s : AccountState) : AccountEvent → List Account
  | .completed call (some uid) => if call.listening then [] else [⟨uid, call.form⟩]
  | .stop => s.listeners.reduceOption
  | _ => []

/-- The account whose listener runs, with the document that it starts to add. -/
def composedBy (s : AccountState) : AccountEvent → List (Account × Profile)
  | .listener (some account) =>
    (s.currentUser.map fun currentuser => (account, s.activity.newUser currentuser)).toList
  | _ => []

/-- The documents of a run, each with the account that its listener was for. -/
def composed (es : List AccountEvent) : List (Account × Profile) :=
  accountCreation.emitted composedBy es

/-- Each call is outstanding, failed or an account; each account is waiting for its
listener, unheard of, or had its listener run; each document that a listener composed is
being added, failed or written. -/
structure Balanced (es : List AccountEvent) (s : AccountState) : Prop where
  calls : (es.filterMap AccountEvent.sent).Perm (s.calls.map CreateCall.form ++
    es.filterMap AccountEvent.failed ++ s.accounts.map Account.form)
  accounts : s.accounts.Perm (s.listeners.reduceOption ++
    accountCreation.emitted unheard es ++ (composed es).map Prod.fst)
  documents : ((composed es).map Prod.snd).Perm
    (s.writes ++ es.filterMap AccountEvent.unwritten ++ s.users)

theorem perm_reduceOption_erase {listeners : List (Option Account)} {account : Option Account}
    (h : account ∈ listeners) :
    listeners.reduceOption.Perm (account.toList ++ (listeners.erase account).reduceOption) := by
  have hperm : listeners.reduceOption.Perm (account :: listeners.erase account).reduceOption :=
    (List.perm_cons_erase h).filterMap id
  cases account <;> simpa using hperm

theorem filterMap_snoc {α β : Type*} (f : α → Option β) (as : List α) (a : α) :
    (as ++ [a]).filterMap f = as.filterMap f ++ (f a).toList := by
  rw [List.filterMap_append]
  cases h : f a <;> simp [h]

/-- What one step owes the balance: the calls, accounts and documents that it adds, takes
away and moves. -/
theorem Balanced.snoc {es : List AccountEvent} {s t : AccountState} {e : AccountEvent}
    (h : Balanced es s) (hs : accountCreation.run es = some s)
    (ht : accountCreation.step s e = some t)
    (hcalls : (s.calls.map CreateCall.form ++ s.accounts.map Account.form ++ e.sent.toList).Perm
      (t.calls.map CreateCall.form ++ t.accounts.map Account.form ++ e.failed.toList))
    (haccounts : (t.accounts ++ s.listeners.reduceOption).Perm (s.accounts ++
      (t.listeners.reduceOption ++ unheard s e ++ (composedBy s e).map Prod.fst)))
    (hdocuments : (s.writes ++ s.users ++ (composedBy s e).map Prod.snd).Perm
      (t.writes ++ t.users ++ e.unwritten.toList)) : Balanced (es ++ [e]) t where
  calls := by
    refine List.perm_iff_count.mpr fun form => ?_
    have hbefore := h.calls.count_eq form
    have hmoved := hcalls.count_eq form
    rw [filterMap_snoc, filterMap_snoc]
    simp only [List.count_append] at hbefore hmoved ⊢
    omega
  accounts := by
    refine List.perm_iff_count.mpr fun account => ?_
    have hbefore := h.accounts.count_eq account
    have hmoved := haccounts.count_eq account
    rw [emitted_snoc unheard hs ht, composed, emitted_snoc composedBy hs ht, List.map_append,
      ← composed]
    simp only [List.count_append] at hbefore hmoved ⊢
    omega
  documents := by
    refine List.perm_iff_count.mpr fun profile => ?_
    have hbefore := h.documents.count_eq profile
    have hmoved := hdocuments.count_eq profile
    rw [filterMap_snoc, composed, emitted_snoc composedBy hs ht, List.map_append, ← composed]
    simp only [List.count_append] at hbefore hmoved ⊢
    omega

theorem balanced_press {es : List AccountEvent} {s t : AccountState} {form : RegisterForm}
    (hs : accountCreation.run es = some s) (h : Balanced es s)
    (ht : accountCreation.step s (.press form) = some t) : Balanced (es ++ [.press form]) t := by
  have hpress := ht
  simp only [accountCreation, Option.ite_none_right_eq_some, Option.some.injEq] at hpress
  obtain ⟨-, rfl⟩ := hpress
  by_cases hrejects : RegisterActivity.Rejects form
  · rw [press_of_rejects s hrejects] at ht ⊢
    apply h.snoc hs ht
    · simp [AccountEvent.sent, AccountEvent.failed, hrejects]
    · simp [unheard, composedBy]
    · simp [AccountEvent.unwritten, composedBy]
  · rw [press_of_not_rejects s hrejects] at ht ⊢
    apply h.snoc hs ht
    · refine List.perm_iff_count.mpr fun form' => ?_
      simp only [AccountEvent.sent, AccountEvent.failed, hrejects, if_false, Option.toList_some,
        Option.toList_none, List.map_append, List.map_cons, List.map_nil, List.count_append,
        List.count_nil]
      omega
    · simp [unheard, composedBy]
    · simp [AccountEvent.unwritten, composedBy]

theorem balanced_completed {es : List AccountEvent} {s t : AccountState} {call : CreateCall}
    {uid : Option String} (hs : accountCreation.run es = some s) (h : Balanced es s)
    (ht : accountCreation.step s (.completed call uid) = some t) :
    Balanced (es ++ [.completed call uid]) t := by
  have hcompleted := ht
  have hremoved (hmem : call ∈ s.calls) (form : RegisterForm) :
      (s.calls.map CreateCall.form).count form =
        ([call.form] ++ (s.calls.erase call).map CreateCall.form).count form :=
    ((List.perm_cons_erase hmem).map CreateCall.form).count_eq form
  cases uid with
  | none =>
    simp only [accountCreation, Option.ite_none_right_eq_some, Option.some.injEq] at hcompleted
    obtain ⟨hmem, rfl⟩ := hcompleted
    apply h.snoc hs ht
    · refine List.perm_iff_count.mpr fun form => ?_
      have hcount := hremoved hmem form
      simp only [AccountEvent.sent, AccountEvent.failed, Option.toList_some, Option.toList_none,
        List.count_append, List.count_nil] at hcount ⊢
      omega
    · have hnone :
          (if call.listening then [(none : Option Account)] else []).reduceOption = [] := by
        split <;> rfl
      simp [unheard, composedBy, List.reduceOption_append, hnone]
    · simp [AccountEvent.unwritten, composedBy]
  | some uid =>
    simp only [accountCreation, Option.ite_none_right_eq_some, Option.some.injEq] at hcompleted
    obtain ⟨⟨hmem, -⟩, rfl⟩ := hcompleted
    apply h.snoc hs ht
    · refine List.perm_iff_count.mpr fun form => ?_
      have hcount := hremoved hmem form
      simp only [AccountEvent.sent, AccountEvent.failed, Option.toList_none, List.map_append,
        List.map_cons, List.map_nil, List.count_append, List.count_nil] at hcount ⊢
      omega
    · refine List.perm_iff_count.mpr fun account => ?_
      by_cases hlistening : call.listening <;>
      · simp only [unheard, composedBy, hlistening, Bool.false_eq_true, if_false, if_true,
          List.reduceOption_append, List.reduceOption_singleton, List.reduceOption_nil,
          Option.toList_some, List.map_nil, List.count_append, List.count_nil]
        omega
    · simp [AccountEvent.unwritten, composedBy]

theorem balanced_listener {es : List AccountEvent} {s t : AccountState} {account : Option Account}
    (hs : accountCreation.run es = some s) (h : Balanced es s)
    (ht : accountCreation.step s (.listener account) = some t) :
    Balanced (es ++ [.listener account]) t := by
  have hlistener := ht
  cases account with
  | none =>
    simp only [accountCreation, Option.ite_none_right_eq_some, Option.some.injEq] at hlistener
    obtain ⟨hmem, rfl⟩ := hlistener
    apply h.snoc hs ht
    · simp [AccountEvent.sent, AccountEvent.failed]
    · simpa [unheard, composedBy] using (perm_reduceOption_erase hmem).append_left s.accounts
    · simp [AccountEvent.unwritten, composedBy]
  | some account =>
    simp only [accountCreation, Option.ite_none_right_eq_some, Option.map_eq_some_iff]
      at hlistener
    obtain ⟨hmem, currentuser, hcurrent, rfl⟩ := hlistener
    apply h.snoc hs ht
    · simp [AccountEvent.sent, AccountEvent.failed]
    · refine List.perm_iff_count.mpr fun other => ?_
      have hcount := (perm_reduceOption_erase hmem).count_eq other
      simp only [unheard, composedBy, hcurrent, Option.map_some, Option.toList_some, List.map_cons,
        List.map_nil, List.count_append, List.count_nil] at hcount ⊢
      omega
    · refine List.perm_iff_count.mpr fun profile => ?_
      simp only [AccountEvent.unwritten, composedBy, hcurrent, Option.map_some, Option.toList_some,
        Option.toList_none, List.map_cons, List.map_nil, List.count_append, List.count_nil]
      omega

theorem balanced_step {es : List AccountEvent} {s t : AccountState} {e : AccountEvent}
    (hs : accountCreation.run es = some s) (h : Balanced es s)
    (ht : accountCreation.step s e = some t) : Balanced (es ++ [e]) t := by
  have hstep := ht
  cases e with
  | press form => exact balanced_press hs h ht
  | completed call uid => exact balanced_completed hs h ht
  | listener account => exact balanced_listener hs h ht
  | stop =>
    simp only [accountCreation, Option.ite_none_right_eq_some, Option.some.injEq] at hstep
    obtain ⟨-, rfl⟩ := hstep
    apply h.snoc hs ht
    · simp [AccountEvent.sent, AccountEvent.failed, Function.comp_def]
    · simp [unheard, composedBy]
    · simp [AccountEvent.unwritten, composedBy]
  | restart =>
    simp only [accountCreation, Option.ite_none_right_eq_some, Option.some.injEq] at hstep
    obtain ⟨-, rfl⟩ := hstep
    apply h.snoc hs ht
    · simp [AccountEvent.sent, AccountEvent.failed]
    · simp [unheard, composedBy]
    · simp [AccountEvent.unwritten, composedBy]
  | written profile | writeFailed profile =>
    simp only [accountCreation, Option.ite_none_right_eq_some, Option.some.injEq] at hstep
    obtain ⟨hmem, rfl⟩ := hstep
    apply h.snoc hs ht
    · simp [AccountEvent.sent, AccountEvent.failed]
    · simp [unheard, composedBy]
    · refine List.perm_iff_count.mpr fun other => ?_
      have hcount := (List.perm_cons_erase hmem).count_eq other
      simp only [AccountEvent.unwritten, composedBy, Option.toList_some, Option.toList_none,
        List.map_nil, List.count_append, List.count_cons, List.count_nil] at hcount ⊢
      omega

theorem balanced_run {es : List AccountEvent} {s : AccountState}
    (h : accountCreation.run es = some s) : Balanced es s := by
  refine run_induction (S := accountCreation) (I := Balanced) ?_
    (fun _ _ _ _ hs hbalanced ht => balanced_step hs hbalanced ht) h
  constructor <;> simp [accountCreation, composed]

/-! ### What holds of every run -/

theorem lastPressed_of_press {es : List AccountEvent} {form : RegisterForm}
    (h : .press form ∈ es) : ∃ last, lastPressed es = some last := by
  induction es using List.reverseRecOn with
  | nil => cases h
  | append_singleton es e ih =>
    rw [lastPressed_snoc]
    cases hpressed : e.pressed with
    | some last => exact ⟨last, rfl⟩
    | none =>
      rcases List.mem_append.mp h with hbefore | hlast
      · exact ih hbefore
      · rw [← List.mem_singleton.mp hlast] at hpressed
        cases hpressed

/-- A listener of a new account runs after a press that passed the checks. -/
theorem lastPressed_of_waiting {es : List AccountEvent} {s : AccountState} {account : Account}
    (h : accountCreation.run es = some s) (hwaiting : some account ∈ s.listeners) :
    ∃ form, lastPressed es = some form := by
  have hbalanced := balanced_run h
  have haccount : account ∈ s.accounts :=
    hbalanced.accounts.mem_iff.mpr (List.mem_append_left _ (List.mem_append_left _
      (List.reduceOption_mem_iff.mpr hwaiting)))
  have hsent : account.form ∈ es.filterMap AccountEvent.sent :=
    hbalanced.calls.mem_iff.mpr (List.mem_append_right _ (List.mem_map_of_mem haccount))
  obtain ⟨e, he, hform⟩ := List.mem_filterMap.mp hsent
  cases e with
  | press form => exact lastPressed_of_press he
  | _ => cases hform

/-- Every document in "users" or on its way there holds the uid of the account created
last, and the trimmed email and username of the form pressed last, at one moment: when
the listener of an account ran. -/
theorem profilesWhole {es : List AccountEvent} {s : AccountState} {p : Profile}
    (h : accountCreation.run es = some s) (hp : p ∈ s.writes ++ s.users) :
    ∃ pre account post form created, es = pre ++ .listener (some account) :: post ∧
      lastPressed pre = some form ∧ lastCreated pre = some created ∧
      p = ⟨trim form.email, created.uid, trim form.username⟩ := by
  have hcomposed : p ∈ (composed es).map Prod.snd := by
    rw [(balanced_run h).documents.mem_iff]
    simp only [List.mem_append] at hp ⊢
    tauto
  obtain ⟨⟨account, p⟩, hpair, rfl⟩ := List.mem_map.mp hcomposed
  obtain ⟨pre, e, post, r, rfl, hr, hout⟩ := mem_emitted h hpair
  obtain ⟨r', t, hr', ht, -⟩ := run_append_cons.mp h
  obtain rfl := Option.some.inj (hr.symm.trans hr')
  cases e with
  | listener account =>
    cases account with
    | none => cases hout
    | some account =>
      simp only [accountCreation, Option.ite_none_right_eq_some, Option.map_eq_some_iff] at ht
      obtain ⟨hwaiting, currentuser, hcurrent, -⟩ := ht
      have hinv := accountInv_run hr
      obtain ⟨form, hform⟩ := lastPressed_of_waiting hr hwaiting
      obtain ⟨created, hcreated, huid⟩ :=
        Option.map_eq_some_iff.mp (hinv.current.symm.trans hcurrent)
      rw [composedBy, hcurrent, Option.map_some, Option.toList_some, List.mem_singleton] at hout
      obtain ⟨rfl, rfl⟩ := Prod.mk.inj hout
      refine ⟨pre, _, post, form, created, rfl, hform, hcreated, ?_⟩
      rw [RegisterActivity.newUser, hinv.email form hform, hinv.username form hform, huid]
  | _ => cases hout

/-- The document of Asha's account holds the texts of Ravi's press, all of them. -/
theorem profilesWhole_twoRegistrations :
    ∃ pre account post form created,
      twoRegistrations = pre ++ .listener (some account) :: post ∧
        lastPressed pre = some form ∧ lastCreated pre = some created ∧
        (⟨"ravi@mail", "a", "Ravi"⟩ : Profile) =
          ⟨trim form.email, created.uid, trim form.username⟩ :=
  @profilesWhole twoRegistrations _ _ rfl (by decide)

/-- In every run the presses that passed the checks are those of the outstanding calls, the
failed ones and the accounts; the accounts, of different uids, are those that wait for their
listener, those that went unheard and those whose listener ran; and the documents, one
composed by each such listener, are those being added, failed and written. -/
theorem accountsConserved {es : List AccountEvent} {s : AccountState}
    (h : accountCreation.run es = some s) :
    (es.filterMap AccountEvent.sent).Perm (s.calls.map CreateCall.form ++
        es.filterMap AccountEvent.failed ++ s.accounts.map Account.form) ∧
      (s.accounts.map Account.uid).Nodup ∧
      s.accounts.Perm (s.listeners.reduceOption ++ accountCreation.emitted unheard es ++
        (composed es).map Prod.fst) ∧
      ((composed es).map Prod.snd).Perm
        (s.writes ++ es.filterMap AccountEvent.unwritten ++ s.users) :=
  ⟨(balanced_run h).calls, (accountInv_run h).uids, (balanced_run h).accounts,
    (balanced_run h).documents⟩

/-- Each account has one document, though the one of Asha's account holds the texts of
Ravi's press. -/
theorem accountsConserved_twoRegistrations :
    ∃ s, accountCreation.run twoRegistrations = some s ∧
      s.accounts.Perm ((composed twoRegistrations).map Prod.fst) ∧
      ((composed twoRegistrations).map Prod.snd).Perm s.users := by
  obtain ⟨s, hs⟩ : ∃ s, accountCreation.run twoRegistrations = some s := ⟨_, rfl⟩
  obtain ⟨-, -, haccounts, hdocuments⟩ := accountsConserved hs
  obtain rfl := Option.some.inj hs
  exact ⟨_, rfl, haccounts, hdocuments⟩

end SewaConnect.Android
