import IntcodeVM.Proofs.Channel.Requests

/-! Traffic through a channel. Main statement: what was queued and what came in is what was taken out
and what is queued then, in this order. -/
namespace IntcodeVM.Channel

variable {α : Type}

/-- A channel before and after some traffic: the values that came in, those that were taken out, and
whether the sender has closed its side meanwhile. -/
structure Moved (came gone : List α) (ended : Bool) (ch after : Channel α) : Prop where
  name : after.name = ch.name
  history : after.history.toList = ch.history.toList ++ came
  queue : ch.queue ++ came = gone ++ after.queue
  senderClosed : after.senderClosed = (ch.senderClosed || ended)
  receiverClosed : after.receiverClosed = ch.receiverClosed

variable {came gone more further values rest : List α} {ended later : Bool} {value : α}
  {ch mid after left : Channel α}

theorem Moved.refl (ch : Channel α) : Moved [] [] false ch ch where
  name := rfl
  history := (List.append_nil _).symm
  queue := List.append_nil _
  senderClosed := (Bool.or_false _).symm
  receiverClosed := rfl

theorem Moved.trans (first : Moved came gone ended ch mid)
    (second : Moved more further later mid after) :
    Moved (came ++ more) (gone ++ further) (ended || later) ch after where
  name := second.name.trans first.name
  history := by rw [second.history, first.history, List.append_assoc]
  queue := by
    calc ch.queue ++ (came ++ more)
        = gone ++ (mid.queue ++ more) := by rw [← List.append_assoc, first.queue, List.append_assoc]
      _ = gone ++ further ++ after.queue := by rw [second.queue, List.append_assoc]
  senderClosed := by rw [second.senderClosed, first.senderClosed, Bool.or_assoc]
  receiverClosed := second.receiverClosed.trans first.receiverClosed

theorem Moved.closed (moved : Moved came gone ended ch after) :
    after.closed = (ch.closed || ended) := by
  simp only [Channel.closed, moved.senderClosed, moved.receiverClosed, Bool.or_right_comm]

theorem Moved.eq_of_quiet (moved : Moved [] [] false ch after) : after = ch := by
  have history : after.history = ch.history := by
    apply Array.toList_inj.1
    rw [moved.history, List.append_nil]
  have pending : after.pending = ch.pending := by
    rw [← length_queue, ← length_queue, ← List.append_nil ch.queue, moved.queue, List.nil_append]
  have taken : after.taken = ch.taken := by
    have before := ch.taken_le
    have now := after.taken_le
    simp only [Channel.pending, history] at pending now
    omega
  exact eq_of_fields moved.name history taken (by rw [moved.senderClosed, Bool.or_false])
    moved.receiverClosed

theorem Taken.moved (taken : Taken value ch left) : Moved [] [value] false ch left where
  name := taken.name
  history := by rw [taken.history, List.append_nil]
  queue := by rw [List.append_nil, taken.queue, List.singleton_append]
  senderClosed := by rw [taken.senderClosed, Bool.or_false]
  receiverClosed := taken.receiverClosed

theorem moved_extend (value : α) (ch : Channel α) : Moved [value] [] false ch (ch.extend value) where
  name := rfl
  history := by simp [extend]
  queue := by simp
  senderClosed := (Bool.or_false _).symm
  receiverClosed := rfl

theorem moved_closeSender (ch : Channel α) : Moved [] [] true ch ch.closeSender where
  name := rfl
  history := (List.append_nil _).symm
  queue := List.append_nil _
  senderClosed := (Bool.or_true _).symm
  receiverClosed := rfl

theorem pull_of_queue_cons (queued : ch.queue = value :: rest) :
    ∃ left, ch.pull = (.value value, left) := by
  have front : ch.history[ch.taken]? = some value := by rw [← head?_queue, queued, List.head?_cons]
  obtain ⟨left, pulled, -⟩ := pull_of_front front
  exact ⟨left, pulled⟩

theorem pull_of_queue_nil (queued : ch.queue = []) (closed : ch.closed = true) :
    ch.pull = (.refused (.sourceTerminated ch.name), ch) := by
  have front : ch.history[ch.taken]? = none := by rw [← head?_queue, queued, List.head?_nil]
  exact pull_refused_iff.2 ⟨front, closed, rfl, rfl⟩

theorem feed_of_open (values : List α) (opened : ch.closed = false) :
    ∃ after, ch.feed values = (none, after) ∧ Moved values [] false ch after := by
  induction values generalizing ch with
  | nil => exact ⟨ch, rfl, .refl ch⟩
  | cons value rest ih =>
    have still : (ch.extend value).closed = false := opened
    obtain ⟨after, fed, moved⟩ := ih still
    refine ⟨after, ?_, (moved_extend value ch).trans moved⟩
    rw [feed, push_eq_of_open opened]
    exact fed

theorem last?_eq_getLast? (ch : Channel α) : ch.last? = ch.history.toList.getLast? := by
  rw [last?, Array.getLast?_toList]

theorem sent_eq_length (ch : Channel α) : ch.sent = ch.history.toList.length := by
  rw [sent, Array.length_toList]

theorem moved_ofList (values : List α) (name : String) :
    Moved values [] true (preloaded name []) (ofList values name) := by
  have opened : (preloaded name [] : Channel α).closed = false := rfl
  obtain ⟨after, fed, moved⟩ := feed_of_open values opened
  have made : ofList values name = (feed values (preloaded name [])).2.closeSender := rfl
  rw [made, fed]
  simpa using moved.trans (moved_closeSender after)

theorem queue_ofList (values : List α) (name : String) : (ofList values name).queue = values := by
  have queue := (moved_ofList values name).queue
  exact queue.symm

theorem closed_ofList (values : List α) (name : String) : (ofList values name).closed = true := by
  simp [(moved_ofList values name).closed]

theorem name_ofList (values : List α) (name : String) : (ofList values name).name = name :=
  (moved_ofList values name).name

end IntcodeVM.Channel
