import SewaConnect.Android.HelpActivity

/-! Pairing replies with questions. A reply carries no mark of its request and the
requests of two presses stand in two queues, so a chat in which everything has been
answered pairs the `k`-th reply with the `k`-th question exactly when the replies came
in the order of the questions. In any order, each question has one reply. -/

namespace SewaConnect.Android

open Values Runs

/-- A press of Send, or a reply with a message. -/
def ChatEvent.SendsOrReplies : ChatEvent → Prop
  | .send _ => True
  | .response _ reply => (reply.getString "lex_message").isSome
  | .errorResponse _ => False

instance : DecidablePred ChatEvent.SendsOrReplies
  | .send _ => inferInstanceAs (Decidable True)
  | .response _ _ => inferInstanceAs (Decidable (_ = true))
  | .errorResponse _ => inferInstanceAs (Decidable False)

/-- Every request has been answered, with a message. -/
def AllAnswered (es : List ChatEvent) (s : ChatState) : Prop :=
  (∀ e ∈ es, e.SendsOrReplies) ∧ s.mQueue = []

/-- The `k`-th "Lex" entry is the reply to the `j`-th "User" entry. -/
def IsReply (es : List ChatEvent) (s : ChatState) (k j : ℕ) : Prop :=
  ∃ queued lexMessage, (lexReplies es)[k]? = some (queued, lexMessage) ∧
    queued.number = j ∧
    (s.activity.messagesOf "Lex")[k]? = some lexMessage ∧
    (s.activity.messagesOf "User")[j]?.map HelpActivity.sendRequest = some queued.request

/-- Each "User" entry has a reply, in the place of its own number. -/
def PairedChat (es : List ChatEvent) (s : ChatState) : Prop :=
  ∀ k < (s.activity.messagesOf "User").length, IsReply es s k k

/-- The numbers of the requests, in the order of their replies. -/
def replyNumbers (es : List ChatEvent) : List ℕ :=
  (lexReplies es).map fun reply => reply.1.number

/-- What an answered chat keeps to in any order of its replies. -/
structure AnsweredChat (es : List ChatEvent) (s : ChatState) : Prop where
  length_eq : (s.activity.messagesOf "Lex").length = (s.activity.messagesOf "User").length
  /-- The `k`-th "Lex" entry is the reply that came `k`-th. -/
  arrival : ∀ k < (s.activity.messagesOf "Lex").length,
    ∃ j < (s.activity.messagesOf "User").length, IsReply es s k j
  /-- No question is without a reply, or has two. -/
  once : ∀ j < (s.activity.messagesOf "User").length, ∃! k, IsReply es s k j
  paired_iff : PairedChat es s ↔ (replyNumbers es).Pairwise (· < ·)

/-- Every reply stands for the request that it answers. -/
theorem isReply_iff {es : List ChatEvent} {s : ChatState} (h : chat.run es = some s) {k j : ℕ} :
    IsReply es s k j ↔ (replyNumbers es)[k]? = some j := by
  constructor
  · rintro ⟨queued, lexMessage, hreply, rfl, -, -⟩
    rw [replyNumbers, List.getElem?_map, hreply]
    rfl
  · intro hj
    rw [replyNumbers, List.getElem?_map, Option.map_eq_some_iff] at hj
    obtain ⟨⟨queued, lexMessage⟩, hreply, rfl⟩ := hj
    refine ⟨queued, lexMessage, hreply, rfl, ?_, ?_⟩
    · rw [messagesOf_lex_run h, List.getElem?_map, hreply]
      rfl
    · rw [messagesOf_user_run h]
      exact (requestInv_run h).replies _ (List.mem_of_getElem? hreply)

/-- Once everything has been answered, the replies answer each request once. -/
theorem replyNumbers_perm {es : List ChatEvent} {s : ChatState} (h : chat.run es = some s)
    (hall : AllAnswered es s) : (replyNumbers es).Perm (List.range (sentTexts es).length) := by
  obtain ⟨d, hrun, hd⟩ := records_run h
  have hdrop : ∀ e ∈ es.map turn, ∀ k, e ≠ .drop k := by
    simp only [List.forall_mem_map]
    intro e he k
    have hreplies := hall.1 e he
    cases e with
    | send text => simp [turn]
    | response queued response =>
      obtain ⟨lexMessage, hlex⟩ := Option.isSome_iff_exists.mp hreplies
      simp [turn, hlex]
    | errorResponse queued => exact hreplies.elim
  have hperm := Dialogue.numbers_run hdrop hrun
  have hpending : d.pending = [] := by
    rw [hd.pending, hall.2]
    rfl
  rw [hpending, List.append_nil, Dialogue.lines_run hrun, answers_turns, questions_turns,
    List.map_map] at hperm
  exact hperm

/-- The replies pair up place by place just when their numbers count up from 0. -/
theorem pairedChat_iff_eq_range {es : List ChatEvent} {s : ChatState}
    (h : chat.run es = some s) (hperm : (replyNumbers es).Perm (List.range (sentTexts es).length)) :
    PairedChat es s ↔ replyNumbers es = List.range (sentTexts es).length := by
  have hlength : (replyNumbers es).length = (sentTexts es).length := by
    rw [hperm.length_eq, List.length_range]
  rw [PairedChat, messagesOf_user_run h]
  constructor
  · intro hpaired
    refine List.ext_getElem? fun k => ?_
    by_cases hk : k < (sentTexts es).length
    · rw [(isReply_iff h).mp (hpaired k hk), List.getElem?_range hk]
    · rw [List.getElem?_eq_none (by omega), List.getElem?_eq_none (by simpa using hk)]
  · intro hrange k hk
    rw [isReply_iff h, hrange, List.getElem?_range hk]

/-- In every chat that has been answered, the replies pair up with the questions one to
one, and place by place exactly when they came in the order of the questions. -/
theorem answeredChat_run {es : List ChatEvent} {s : ChatState} (h : chat.run es = some s)
    (hall : AllAnswered es s) : AnsweredChat es s := by
  have hperm := replyNumbers_perm h hall
  have hnodup : (replyNumbers es).Nodup := hperm.nodup_iff.mpr List.nodup_range
  have huser : (s.activity.messagesOf "User").length = (sentTexts es).length := by
    rw [messagesOf_user_run h]
  have hlex : (s.activity.messagesOf "Lex").length = (replyNumbers es).length := by
    rw [messagesOf_lex_run h, replyNumbers, List.length_map, List.length_map]
  constructor
  · rw [hlex, huser, hperm.length_eq, List.length_range]
  · intro k hk
    rw [hlex] at hk
    refine ⟨(replyNumbers es)[k], ?_, (isReply_iff h).mpr (List.getElem?_eq_getElem hk)⟩
    rw [huser, ← List.mem_range]
    exact hperm.mem_iff.mp (List.getElem_mem hk)
  · intro j hj
    have hmem : j ∈ replyNumbers es := hperm.mem_iff.mpr (List.mem_range.mpr (huser ▸ hj))
    obtain ⟨k, hk, hget⟩ := List.getElem_of_mem hmem
    have hkj : (replyNumbers es)[k]? = some j := by rw [List.getElem?_eq_getElem hk, hget]
    refine ⟨k, (isReply_iff h).mpr hkj, fun i hi => ?_⟩
    have hij := (isReply_iff h).mp hi
    exact ((List.getElem?_inj hk hnodup).mp (hkj.trans hij.symm)).symm
  · rw [pairedChat_iff_eq_range h hperm, Dialogue.pairwise_lt_iff_eq_range hperm]

/-- Two questions, with the replies in the order of the questions. -/
def inOrder : List ChatEvent :=
  [.send "rent", .send "food",
    .response ⟨0, HelpActivity.sendRequest "rent"⟩ [("lex_message", "Which month?")],
    .response ⟨1, HelpActivity.sendRequest "food"⟩ [("lex_message", "For how many?")]]

theorem answeredChat_run_inOrder : ∃ s, chat.run inOrder = some s ∧ AllAnswered inOrder s ∧
    AnsweredChat inOrder s :=
  ⟨_, rfl, ⟨by decide, rfl⟩, answeredChat_run rfl ⟨by decide, rfl⟩⟩

/-- The same two questions, with the second one answered first. -/
def secondFirst : List ChatEvent :=
  [.send "rent", .send "food",
    .response ⟨1, HelpActivity.sendRequest "food"⟩ [("lex_message", "For how many?")],
    .response ⟨0, HelpActivity.sendRequest "rent"⟩ [("lex_message", "Which month?")]]

/-- The question about rent gets the reply about food. -/
theorem secondFirst_not_pairedChat : ∃ s, chat.run secondFirst = some s ∧
    AllAnswered secondFirst s ∧ ¬ PairedChat secondFirst s := by
  refine ⟨_, rfl, ⟨by decide, rfl⟩, fun h => ?_⟩
  have hfirst := (isReply_iff rfl).mp (h 0 (by decide))
  exact absurd hfirst (by decide)

end SewaConnect.Android
