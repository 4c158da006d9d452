import SewaConnect.Runs.Dialogue
import SewaConnect.Values.Value

/-! The chat (`HelpActivity.java`, `ChatMessageAdapter.java`). The activity keeps its
transcript as two parallel lists, of messages and of senders, to which a press of Send
and the replies of the server append. Its runs refine dialogues, and from that the
adapter finds every position in range and under its own sender
(`wellFormedChat_run`). -/

namespace SewaConnect.Android

open Values Runs

/-! ### `ChatMessageAdapter` -/

/-- A Java exception that a list access or a cast can throw. -/
inductive JavaException where
  | indexOutOfBounds
  | classCast
  deriving DecidableEq

/-- `List.get`. -/
def listGet (list : List String) (position : ℕ) : Except JavaException String :=
  match list[position]? with
  | some s => .ok s
  | none => .error .indexOutOfBounds

/-- The two view holder classes, each with its layout. -/
inductive ViewHolderClass where
  | bot
  | user
  deriving DecidableEq

structure ViewHolder where
  «class» : ViewHolderClass
  /-- The view type it was created for. -/
  itemViewType : ℤ
  viewHolderMessage : String := ""
  deriving DecidableEq

structure ChatMessageAdapter where
  mMessage : List String
  mSentBy : List String

namespace ChatMessageAdapter

def BOT : ℤ := 0

def USER : ℤ := 1

variable (adapter : ChatMessageAdapter)

def getItemViewType (position : ℕ) : Except JavaException ℤ := do
  if (← listGet adapter.mSentBy position) == "Lex" then return BOT
  else if (← listGet adapter.mSentBy position) == "User" then return USER
  else return -1

def onCreateViewHolder (viewType : ℤ) : ViewHolder :=
  if viewType = USER then ⟨.user, viewType, ""⟩
  else if viewType = BOT then ⟨.bot, viewType, ""⟩
  else ⟨.user, viewType, ""⟩

/-- The cast to a view holder class. -/
def cast (c : ViewHolderClass) (viewHolder : ViewHolder) : Except JavaException ViewHolder :=
  if viewHolder.class = c then .ok viewHolder else .error .classCast

def onBindViewHolder (viewHolder : ViewHolder) (position : ℕ) :
    Except JavaException ViewHolder := do
  if viewHolder.itemViewType = BOT then
    let vh1 ← cast .bot viewHolder
    return { vh1 with viewHolderMessage := ← listGet adapter.mMessage position }
  else if viewHolder.itemViewType = USER then
    let vh2 ← cast .user viewHolder
    return { vh2 with viewHolderMessage := ← listGet adapter.mMessage position }
  else
    let vh3 ← cast .user viewHolder
    return { vh3 with viewHolderMessage := ← listGet adapter.mMessage position }

def getItemCount : ℕ := adapter.mMessage.length

end ChatMessageAdapter

/-! ### `HelpActivity` -/

/-- The members of a JSON object, with the texts that `getString` gives for them. -/
abbrev JSONObject := List (String × String)

/-- `none` stands for a `JSONException`. -/
def JSONObject.getString (object : JSONObject) (name : String) : Option String :=
  object.lookup name

structure JsonObjectRequest where
  method : String
  url : String
  jsonBody : JSONObject
  deriving DecidableEq

structure HelpActivity where
  /-- The text of the edit text. -/
  mEditText : String := ""
  mMessageList : List String := []
  mSentBy : List String := []

namespace HelpActivity

/-- The adapter holds references to the two lists. -/
def mChatMessageAdapter (a : HelpActivity) : ChatMessageAdapter := ⟨a.mMessageList, a.mSentBy⟩

/-- The request that is added to the queue. -/
def sendRequest (mMessage : String) : JsonObjectRequest where
  method := "POST"
  url := "https://a81qsmzelg.execute-api.us-east-1.amazonaws.com/FF/testapp"
  jsonBody := [("message_string", mMessage)]

/-- The click listener of the Send button: the queued request and the activity after it. -/
def onClick (a : HelpActivity) : JsonObjectRequest × HelpActivity :=
  let mMessage := trim a.mEditText
  (sendRequest mMessage, {
    mEditText := ""
    mMessageList := a.mMessageList ++ [mMessage]
    mSentBy := a.mSentBy ++ ["User"] })

/-- A reply without a message throws before the lists are touched, and the exception
is caught. -/
def onResponse (a : HelpActivity) (response : JSONObject) : HelpActivity :=
  match response.getString "lex_message" with
  | some lexMessage => { a with
      mMessageList := a.mMessageList ++ [lexMessage]
      mSentBy := a.mSentBy ++ ["Lex"] }
  | none => a

/-- The error is only logged. -/
def onErrorResponse (a : HelpActivity) : HelpActivity := a

end HelpActivity

/-! ### Runs -/

/-- A queued request, with the number of requests queued before it. -/
structure QueuedRequest where
  number : ℕ
  request : JsonObjectRequest
  deriving DecidableEq

inductive ChatEvent where
  /-- A press of Send with this text in the edit text. -/
  | send (text : String)
  | response (queued : QueuedRequest) (response : JSONObject)
  | errorResponse (queued : QueuedRequest)

structure ChatState where
  activity : HelpActivity := {}
  /-- The requests that have had no callback. -/
  mQueue : List QueuedRequest := []
  /-- The number of requests queued so far. -/
  queued : ℕ := 0

/-- A request has one callback at most, after the handler that queued it. -/
def chat : System ChatState ChatEvent where
  init := {}
  step s
    | .send text =>
      let clicked := { s.activity with mEditText := text }.onClick
      some {
        activity := clicked.2
        mQueue := s.mQueue ++ [⟨s.queued, clicked.1⟩]
        queued := s.queued + 1 }
    | .response queued response =>
      if queued ∈ s.mQueue then some { s with
        activity := s.activity.onResponse response
        mQueue := s.mQueue.filter (·.number != queued.number) }
      else none
    | .errorResponse queued =>
      if queued ∈ s.mQueue then some { s with
        activity := s.activity.onErrorResponse
        mQueue := s.mQueue.filter (·.number != queued.number) }
      else none

/-- The trimmed texts of the presses of Send. -/
def sentTexts (es : List ChatEvent) : List String :=
  es.filterMap fun
    | .send text => some (trim text)
    | _ => none

/-- The replies that have a message, with the requests they answer. -/
def lexReplies (es : List ChatEvent) : List (QueuedRequest × String) :=
  es.filterMap fun
    | .response queued response => (response.getString "lex_message").map (queued, ·)
    | _ => none

/-- The messages of one sender, in order. -/
def HelpActivity.messagesOf (a : HelpActivity) (sender : String) : List String :=
  ((a.mMessageList.zip a.mSentBy).filter (·.2 == sender)).map Prod.fst

namespace ChatMessageAdapter

/-- The view of a position, in whatever view holder of its type, also one that showed
another message before, has the sender's class and ends up with the message. -/
def Shows (adapter : ChatMessageAdapter) (position : ℕ) : Prop :=
  ∃ message sender viewType,
    adapter.mMessage[position]? = some message ∧ adapter.mSentBy[position]? = some sender ∧
    adapter.getItemViewType position = .ok viewType ∧
    (sender = "User" ∧ viewType = USER ∧ (onCreateViewHolder viewType).class = .user ∨
      sender = "Lex" ∧ viewType = BOT ∧ (onCreateViewHolder viewType).class = .bot) ∧
    ∀ earlier : String,
      adapter.onBindViewHolder { onCreateViewHolder viewType with viewHolderMessage := earlier }
        position = .ok { onCreateViewHolder viewType with viewHolderMessage := message }

end ChatMessageAdapter

structure WellFormedChat (es : List ChatEvent) (s : ChatState) : Prop where
  length_eq : s.activity.mMessageList.length = s.activity.mSentBy.length
  senders : ∀ sender ∈ s.activity.mSentBy, sender = "User" ∨ sender = "Lex"
  user : s.activity.messagesOf "User" = sentTexts es
  lex : s.activity.messagesOf "Lex" = (lexReplies es).map Prod.snd
  /-- Each "Lex" entry stands below the "User" entry whose request it answers. -/
  answers : ∀ position, s.activity.mSentBy[position]? = some "Lex" → ∃ queued lexMessage,
    (lexReplies es)[(s.activity.mSentBy.take position).count "Lex"]? = some (queued, lexMessage) ∧
    s.activity.mMessageList[position]? = some lexMessage ∧
    ∃ asked < position, s.activity.mSentBy[asked]? = some "User" ∧
      (s.activity.mSentBy.take asked).count "User" = queued.number ∧
      s.activity.mMessageList[asked]?.map HelpActivity.sendRequest = some queued.request
  /-- The adapter counts every entry. -/
  getItemCount : s.activity.mChatMessageAdapter.getItemCount =
    (sentTexts es).length + (lexReplies es).length
  shows : ∀ position < s.activity.mChatMessageAdapter.getItemCount,
    s.activity.mChatMessageAdapter.Shows position

/-! ### The adapter on well-formed lists -/

theorem ChatMessageAdapter.shows_of_sender {adapter : ChatMessageAdapter} {position : ℕ}
    {message sender : String} (hmessage : adapter.mMessage[position]? = some message)
    (hsender : adapter.mSentBy[position]? = some sender) (h : sender = "User" ∨ sender = "Lex") :
    adapter.Shows position := by
  have hget : listGet adapter.mMessage position = .ok message := by
    rw [listGet, hmessage]
  obtain rfl | rfl := h
  · refine ⟨message, "User", USER, hmessage, hsender, ?_, .inl ⟨rfl, rfl, rfl⟩, fun earlier => ?_⟩
    · simp [getItemViewType, listGet, hsender]
      rfl
    · simp [onBindViewHolder, onCreateViewHolder, cast, hget, USER, BOT]
      rfl
  · refine ⟨message, "Lex", BOT, hmessage, hsender, ?_, .inr ⟨rfl, rfl, rfl⟩, fun earlier => ?_⟩
    · simp [getItemViewType, listGet, hsender]
      rfl
    · simp [onBindViewHolder, onCreateViewHolder, cast, hget, USER, BOT]
      rfl

/-! ### Refinement of dialogues -/

/-- What an event means for the dialogue between the user and the bot. -/
def turn : ChatEvent → Turn String String
  | .send text => .ask (trim text)
  | .response queued response =>
    match response.getString "lex_message" with
    | some lexMessage => .answer queued.number lexMessage
    | none => .drop queued.number
  | .errorResponse queued => .drop queued.number

def message : Line String String → String
  | .question q => q
  | .answer _ a => a

def sentBy : Line String String → String
  | .question _ => "User"
  | .answer _ _ => "Lex"

/-- The two lists are the two columns of the dialogue. -/
structure Records (s : ChatState) (d : Dialogue String String) : Prop where
  mMessageList : s.activity.mMessageList = d.lines.map message
  mSentBy : s.activity.mSentBy = d.lines.map sentBy
  pending : d.pending = s.mQueue.map QueuedRequest.number
  queued : s.queued = (Line.questions d.lines).length

theorem records_step {s t : ChatState} {d : Dialogue String String} {e : ChatEvent}
    (h : Records s d) (ht : chat.step s e = some t) :
    ∃ d', (dialogue String String).step d (turn e) = some d' ∧ Records t d' := by
  obtain ⟨hmessage, hsentBy, hpending, hqueued⟩ := h
  have hdropped (queued : QueuedRequest) : d.pending.filter (· != queued.number) =
      (s.mQueue.filter (·.number != queued.number)).map QueuedRequest.number := by
    rw [hpending, List.filter_map]
    rfl
  cases e with
  | send text =>
    simp only [chat, Option.some.injEq] at ht
    subst t
    refine ⟨_, rfl, ?_, ?_, ?_, ?_⟩
    · simp [HelpActivity.onClick, hmessage, message]
    · simp [HelpActivity.onClick, hsentBy, sentBy]
    · simp [hpending, hqueued]
    · simp [hqueued]
  | response queued response =>
    simp only [chat, Option.ite_none_right_eq_some, Option.some.injEq] at ht
    obtain ⟨hmem, rfl⟩ := ht
    have hopen : queued.number ∈ d.pending := by
      rw [hpending]
      exact List.mem_map_of_mem hmem
    cases hlex : response.getString "lex_message" with
    | none =>
      refine ⟨⟨d.lines, d.pending.filter (· != queued.number)⟩, ?_, ?_⟩
      · simp [turn, hlex, dialogue, hopen]
      · exact ⟨by simpa [HelpActivity.onResponse, hlex], by simpa [HelpActivity.onResponse, hlex],
          hdropped queued, hqueued⟩
    | some lexMessage =>
      refine ⟨⟨d.lines ++ [.answer queued.number lexMessage],
        d.pending.filter (· != queued.number)⟩, ?_, ?_, ?_, hdropped queued, ?_⟩
      · simp [turn, hlex, dialogue, hopen]
      · simp [HelpActivity.onResponse, hlex, hmessage, message]
      · simp [HelpActivity.onResponse, hlex, hsentBy, sentBy]
      · simpa using hqueued
  | errorResponse queued =>
    simp only [chat, Option.ite_none_right_eq_some, Option.some.injEq] at ht
    obtain ⟨hmem, rfl⟩ := ht
    have hopen : queued.number ∈ d.pending := by
      rw [hpending]
      exact List.mem_map_of_mem hmem
    refine ⟨⟨d.lines, d.pending.filter (· != queued.number)⟩, ?_, ?_⟩
    · simp [turn, dialogue, hopen]
    · exact ⟨hmessage, hsentBy, hdropped queued, hqueued⟩

/-- Every run of the activity records a run of a dialogue. -/
theorem records_run {es : List ChatEvent} {s : ChatState} (h : chat.run es = some s) :
    ∃ d, (dialogue String String).run (es.map turn) = some d ∧ Records s d :=
  System.run_simulation turn ⟨rfl, rfl, rfl, rfl⟩ (fun _ _ _ _ => records_step) h

theorem questions_turns (es : List ChatEvent) :
    Line.questions ((es.map turn).filterMap Turn.line?) = sentTexts es := by
  rw [Line.questions, List.filterMap_filterMap, List.filterMap_map, sentTexts]
  congr 1
  funext e
  cases e with
  | send text => rfl
  | response queued response =>
    cases hlex : response.getString "lex_message" <;>
      simp [turn, hlex, Turn.line?, Line.question?]
  | errorResponse queued => rfl

theorem answers_turns (es : List ChatEvent) :
    Line.answers ((es.map turn).filterMap Turn.line?) =
      (lexReplies es).map fun reply => (reply.1.number, reply.2) := by
  rw [Line.answers, List.filterMap_filterMap, List.filterMap_map, lexReplies, List.map_filterMap]
  congr 1
  funext e
  cases e with
  | send text => rfl
  | response queued response =>
    cases hlex : response.getString "lex_message" <;> simp [turn, hlex, Turn.line?, Line.answer?]
  | errorResponse queued => rfl

/-! ### The two columns -/

section Columns

variable (lines : List (Line String String))

theorem messagesOf_user :
    (((lines.map message).zip (lines.map sentBy)).filter (·.2 == "User")).map Prod.fst =
      Line.questions lines := by
  induction lines with
  | nil => rfl
  | cons line rest ih => cases line <;> simpa [message, sentBy] using ih

theorem messagesOf_lex :
    (((lines.map message).zip (lines.map sentBy)).filter (·.2 == "Lex")).map Prod.fst =
      (Line.answers lines).map Prod.snd := by
  induction lines with
  | nil => rfl
  | cons line rest ih => cases line <;> simpa [message, sentBy] using ih

theorem length_lines :
    lines.length = (Line.questions lines).length + (Line.answers lines).length := by
  induction lines with
  | nil => rfl
  | cons line rest ih =>
    cases line <;> simp [ih] <;> omega

theorem count_user : (lines.map sentBy).count "User" = (Line.questions lines).length := by
  induction lines with
  | nil => rfl
  | cons line rest ih => cases line <;> simpa [sentBy] using ih

theorem count_lex : (lines.map sentBy).count "Lex" = (Line.answers lines).length := by
  induction lines with
  | nil => rfl
  | cons line rest ih => cases line <;> simpa [sentBy] using ih

end Columns

/-! ### Every run -/

theorem messagesOf_user_run {es : List ChatEvent} {s : ChatState} (h : chat.run es = some s) :
    s.activity.messagesOf "User" = sentTexts es := by
  obtain ⟨d, hrun, hd⟩ := records_run h
  rw [HelpActivity.messagesOf, hd.mMessageList, hd.mSentBy, messagesOf_user,
    Dialogue.lines_run hrun, questions_turns]

theorem messagesOf_lex_run {es : List ChatEvent} {s : ChatState} (h : chat.run es = some s) :
    s.activity.messagesOf "Lex" = (lexReplies es).map Prod.snd := by
  obtain ⟨d, hrun, hd⟩ := records_run h
  rw [HelpActivity.messagesOf, hd.mMessageList, hd.mSentBy, messagesOf_lex,
    Dialogue.lines_run hrun, answers_turns, List.map_map]
  rfl

/-- The request carries the text of its number. -/
def QueuedRequest.Carries (texts : List String) (q : QueuedRequest) : Prop :=
  texts[q.number]?.map HelpActivity.sendRequest = some q.request

theorem QueuedRequest.Carries.append {texts : List String} {q : QueuedRequest}
    (h : q.Carries texts) (more : List String) : q.Carries (texts ++ more) := by
  obtain ⟨text, htext, -⟩ := Option.map_eq_some_iff.mp h
  obtain ⟨hlt, -⟩ := List.getElem?_eq_some_iff.mp htext
  rw [Carries, List.getElem?_append_left hlt]
  exact h

/-- Every request, answered or not, carries the text of its press. -/
structure RequestInv (es : List ChatEvent) (s : ChatState) : Prop where
  queued : s.queued = (sentTexts es).length
  mQueue : ∀ q ∈ s.mQueue, q.Carries (sentTexts es)
  replies : ∀ reply ∈ lexReplies es, reply.1.Carries (sentTexts es)

theorem requestInv_run {es : List ChatEvent} {s : ChatState} (h : chat.run es = some s) :
    RequestInv es s := by
  refine System.run_induction (S := chat) (I := RequestInv)
    ⟨rfl, by simp [chat], by simp [lexReplies]⟩ ?_ h
  intro es s e t _ hs ht
  cases e with
  | send text =>
    simp only [chat, Option.some.injEq] at ht
    subst t
    have htexts : sentTexts (es ++ [.send text]) = sentTexts es ++ [trim text] :=
      List.filterMap_append
    have hreplies : lexReplies (es ++ [.send text]) = lexReplies es := by
      simp [lexReplies]
    constructor
    · rw [htexts, List.length_append, hs.queued]
      rfl
    · intro q hq
      rw [htexts]
      rcases List.mem_append.mp hq with hq | hq
      · exact (hs.mQueue q hq).append _
      · obtain rfl := List.mem_singleton.mp hq
        simp [QueuedRequest.Carries, hs.queued, HelpActivity.onClick]
    · intro reply hreply
      rw [htexts]
      exact (hs.replies reply (hreplies ▸ hreply)).append _
  | response queued response =>
    simp only [chat, Option.ite_none_right_eq_some, Option.some.injEq] at ht
    obtain ⟨hmem, rfl⟩ := ht
    have htexts : sentTexts (es ++ [.response queued response]) = sentTexts es := by
      simp [sentTexts]
    constructor
    · exact htexts ▸ hs.queued
    · intro q hq
      rw [htexts]
      exact hs.mQueue q (List.mem_filter.mp hq).1
    · intro reply hreply
      rw [htexts]
      rw [lexReplies, List.filterMap_append] at hreply
      rcases List.mem_append.mp hreply with hreply | hreply
      · exact hs.replies reply hreply
      · obtain rfl : reply.1 = queued := by
          cases hlex : response.getString "lex_message" <;> simp_all
        exact hs.mQueue _ hmem
  | errorResponse queued =>
    simp only [chat, Option.ite_none_right_eq_some, Option.some.injEq] at ht
    obtain ⟨-, rfl⟩ := ht
    have htexts : sentTexts (es ++ [.errorResponse queued]) = sentTexts es := by
      simp [sentTexts]
    have hreplies : lexReplies (es ++ [.errorResponse queued]) = lexReplies es := by
      simp [lexReplies]
    constructor
    · exact htexts ▸ hs.queued
    · intro q hq
      rw [htexts]
      exact hs.mQueue q (List.mem_filter.mp hq).1
    · rw [htexts, hreplies]
      exact hs.replies

/-- Each answer of a recorded dialogue, found by position. -/
theorem answers_of_records {es : List ChatEvent} {s : ChatState} {d : Dialogue String String}
    (hd : Records s d) (hordered : d.Ordered) (hinv : RequestInv es s)
    (hquestions : Line.questions d.lines = sentTexts es)
    (hanswers : Line.answers d.lines = (lexReplies es).map fun reply => (reply.1.number, reply.2))
    {position : ℕ} (hlex : s.activity.mSentBy[position]? = some "Lex") :
    ∃ queued lexMessage,
      (lexReplies es)[(s.activity.mSentBy.take position).count "Lex"]? =
        some (queued, lexMessage) ∧
      s.activity.mMessageList[position]? = some lexMessage ∧
      ∃ asked < position, s.activity.mSentBy[asked]? = some "User" ∧
        (s.activity.mSentBy.take asked).count "User" = queued.number ∧
        s.activity.mMessageList[asked]?.map HelpActivity.sendRequest = some queued.request := by
  have hline : ∃ k a, d.lines[position]? = some (.answer k a) := by
    rw [hd.mSentBy, List.getElem?_map, Option.map_eq_some_iff] at hlex
    obtain ⟨line, hline, hsentBy⟩ := hlex
    cases line with
    | question q => simp [sentBy] at hsentBy
    | answer k a => exact ⟨k, a, hline⟩
  obtain ⟨k, a, hline⟩ := hline
  obtain ⟨hlt, hget⟩ := List.getElem?_eq_some_iff.mp hline
  have hsplit : d.lines = d.lines.take position ++ .answer k a :: d.lines.drop (position + 1) := by
    rw [← hget, ← List.drop_eq_getElem_cons hlt, List.take_append_drop]
  obtain ⟨pre, q, mid, hpre, hk⟩ := Dialogue.answer_below_question hordered hsplit
  -- The reply that this line records.
  have hreply : (Line.answers d.lines)[(Line.answers (d.lines.take position)).length]? =
      some (k, a) := by
    have hall := congrArg Line.answers hsplit
    rw [Line.answers_append, Line.answers_cons_answer] at hall
    rw [hall, List.getElem?_append_right le_rfl, Nat.sub_self, List.getElem?_cons_zero]
  rw [hanswers, List.getElem?_map, Option.map_eq_some_iff] at hreply
  obtain ⟨⟨queued, lexMessage⟩, hqueued, hpair⟩ := hreply
  obtain ⟨rfl, rfl⟩ := Prod.mk.inj hpair
  -- The line of the press it answers.
  have hasked : d.lines[pre.length]? = some (.question q) := by
    rw [hsplit, hpre]
    simp
  have hbefore : pre.length < position := by
    have hlength := congrArg List.length hpre
    rw [List.length_take_of_le hlt.le, List.length_append, List.length_cons] at hlength
    omega
  have htake : d.lines.take pre.length = pre := by
    rw [hsplit, hpre]
    simp
  have htext : (sentTexts es)[queued.number]? = some q := by
    rw [← hquestions, hsplit, hpre, ← hk]
    simp
  refine ⟨queued, lexMessage, ?_, ?_, pre.length, hbefore, ?_, ?_, ?_⟩
  · rw [hd.mSentBy, ← List.map_take, count_lex, hqueued]
  · rw [hd.mMessageList, List.getElem?_map, hline]
    rfl
  · rw [hd.mSentBy, List.getElem?_map, hasked]
    rfl
  · rw [hd.mSentBy, ← List.map_take, htake, count_user, hk]
  · have hcarries := hinv.replies _ (List.mem_of_getElem? hqueued)
    rw [QueuedRequest.Carries, htext] at hcarries
    rw [hd.mMessageList, List.getElem?_map, hasked]
    exact hcarries

theorem wellFormedChat_run {es : List ChatEvent} {s : ChatState} (h : chat.run es = some s) :
    WellFormedChat es s := by
  obtain ⟨d, hrun, hd⟩ := records_run h
  have hordered := Dialogue.ordered_run hrun
  have hquestions : Line.questions d.lines = sentTexts es := by
    rw [Dialogue.lines_run hrun, questions_turns]
  have hanswers : Line.answers d.lines =
      (lexReplies es).map fun reply => (reply.1.number, reply.2) := by
    rw [Dialogue.lines_run hrun, answers_turns]
  have hlength : s.activity.mMessageList.length = s.activity.mSentBy.length := by
    rw [hd.mMessageList, hd.mSentBy, List.length_map, List.length_map]
  have hsenders : ∀ sender ∈ s.activity.mSentBy, sender = "User" ∨ sender = "Lex" := by
    rw [hd.mSentBy, List.forall_mem_map]
    rintro (q | ⟨k, a⟩) -
    · exact .inl rfl
    · exact .inr rfl
  refine ⟨hlength, hsenders, messagesOf_user_run h, messagesOf_lex_run h, fun position => ?_, ?_,
    fun position hposition => ?_⟩
  · exact answers_of_records hd hordered (requestInv_run h) hquestions hanswers
  · show s.activity.mMessageList.length = _
    rw [hd.mMessageList, List.length_map, length_lines, hquestions, hanswers, List.length_map]
  · have hmessage : position < s.activity.mMessageList.length := hposition
    have hsender : position < s.activity.mSentBy.length := hlength ▸ hmessage
    exact ChatMessageAdapter.shows_of_sender (List.getElem?_eq_getElem hmessage)
      (List.getElem?_eq_getElem hsender) (hsenders _ (List.getElem_mem hsender))

/-- Two questions, answered in the other order, the first one without a message. -/
def twoQuestions : List ChatEvent :=
  [.send " hello", .send "I need food",
    .response ⟨1, HelpActivity.sendRequest "I need food"⟩ [("lex_message", "Where are you?")],
    .send "San Jose ", .response ⟨0, HelpActivity.sendRequest "hello"⟩ [("intent", "none")],
    .errorResponse ⟨2, HelpActivity.sendRequest "San Jose"⟩]

theorem wellFormedChat_run_twoQuestions : ∃ s, chat.run twoQuestions = some s ∧
    s.activity.mSentBy = ["User", "User", "Lex", "User"] ∧ WellFormedChat twoQuestions s :=
  ⟨_, rfl, rfl, wellFormedChat_run rfl⟩

end SewaConnect.Android
