import IntcodeVM.Proofs.Channel.Traffic
import IntcodeVM.Proofs.Circuit.Settling
import Mathlib.Data.List.Flatten

/-! The history of a channel that any number of clients share. A request is carried out as a whole, and
the requests of different clients come in any order; a pull that has to wait is not carried out yet.
Main statement: at every moment the values that were taken out, in this order, and those that are queued
are the values that came in, and the answers that clients get follow from these and from whether a side
was closed. -/
namespace IntcodeVM.Channel

open Settling

variable {α ι : Type} {name : String} {value : α} {values : List α} {ch mid after : Channel α}

inductive Request (α : Type) where
  | push (value : α)
  | pull
  | drain
  | closeSender
  | closeReceiver

inductive Response (α : Type) where
  | done
  | value (value : α)
  | values (values : List α)
  | failed (cause : Cause)

namespace Request

/-- The answer to a request, and the channel after it; there is none to a pull that has to wait. -/
def serve? : Request α → Channel α → Option (Response α × Channel α)
  | push value, ch =>
    match ch.push value with
    | (none, after) => some (.done, after)
    | (some cause, after) => some (.failed cause, after)
  | pull, ch =>
    match ch.pull with
    | (.value value, rest) => some (.value value, rest)
    | (.waiting, _) => none
    | (.refused cause, rest) => some (.failed cause, rest)
  | drain, ch => some (.values ch.drain.1, ch.drain.2)
  | closeSender, ch => some (.done, ch.closeSender)
  | closeReceiver, ch => some (.done, ch.closeReceiver)

def closesSender : Request α → Bool
  | closeSender => true
  | push _ | pull | drain | closeReceiver => false

def closesReceiver : Request α → Bool
  | closeReceiver => true
  | push _ | pull | drain | closeSender => false

def closes (r : Request α) : Bool := r.closesSender || r.closesReceiver

variable {cause : Cause}

theorem push_done_iff :
    (push value).serve? ch = some (.done, after) ↔ ch.push value = (none, after) := by
  rcases pushed : ch.push value with ⟨refused, left⟩
  cases refused <;> simp [serve?, pushed]

theorem push_failed_iff :
    (push value).serve? ch = some (.failed cause, after) ↔ ch.push value = (some cause, after) := by
  rcases pushed : ch.push value with ⟨refused, left⟩
  cases refused <;> simp [serve?, pushed]

theorem pull_value_iff :
    pull.serve? ch = some (.value value, after) ↔ ch.pull = (.value value, after) := by
  rcases pulled : ch.pull with ⟨answer, left⟩
  cases answer <;> simp [serve?, pulled]

theorem pull_failed_iff :
    pull.serve? ch = some (.failed cause, after) ↔ ch.pull = (.refused cause, after) := by
  rcases pulled : ch.pull with ⟨answer, left⟩
  cases answer <;> simp [serve?, pulled]

theorem pull_waits_iff : pull.serve? ch = none ↔ ∃ left, ch.pull = (.waiting, left) := by
  rcases pulled : ch.pull with ⟨answer, left⟩
  cases answer <;> simp [serve?, pulled]

end Request

/-- A request that was carried out: who made it, and what the answer was. -/
structure Event (ι α : Type) where
  client : ι
  request : Request α
  response : Response α

def Event.came (e : Event ι α) : List α :=
  match e.request, e.response with
  | .push value, .done => [value]
  | _, _ => []

def Event.gone (e : Event ι α) : List α :=
  match e.response with
  | .value value => [value]
  | .values values => values
  | .done | .failed _ => []

def came (events : List (Event ι α)) : List α := events.flatMap Event.came

def gone (events : List (Event ι α)) : List α := events.flatMap Event.gone

/-- All these requests were carried out, in this order. -/
abbrev Served : List (Event ι α) → Channel α → Channel α → Prop :=
  Path fun e ch after => e.request.serve? ch = some (e.response, after)

/-- A channel before and after some events. -/
structure Balanced (events : List (Event ι α)) (ch after : Channel α) : Prop where
  name : after.name = ch.name
  history : after.history.toList = ch.history.toList ++ came events
  queue : ch.queue ++ came events = gone events ++ after.queue
  senderClosed : after.senderClosed = (ch.senderClosed || events.any (·.request.closesSender))
  receiverClosed : after.receiverClosed =
    (ch.receiverClosed || events.any (·.request.closesReceiver))

variable {e : Event ι α} {events more : List (Event ι α)}

theorem came_append (events more : List (Event ι α)) :
    came (events ++ more) = came events ++ came more :=
  List.flatMap_append

theorem gone_append (events more : List (Event ι α)) :
    gone (events ++ more) = gone events ++ gone more :=
  List.flatMap_append

theorem Balanced.refl (ch : Channel α) : Balanced ([] : List (Event ι α)) ch ch where
  name := rfl
  history := (List.append_nil _).symm
  queue := List.append_nil _
  senderClosed := (Bool.or_false _).symm
  receiverClosed := (Bool.or_false _).symm

theorem Balanced.trans (first : Balanced events ch mid) (second : Balanced more mid after) :
    Balanced (events ++ more) ch after where
  name := second.name.trans first.name
  history := by rw [second.history, first.history, came_append, List.append_assoc]
  queue := by
    calc ch.queue ++ came (events ++ more)
        = gone events ++ (mid.queue ++ came more) := by
          rw [came_append, ← List.append_assoc, first.queue, List.append_assoc]
      _ = gone (events ++ more) ++ after.queue := by
          rw [second.queue, gone_append, List.append_assoc]
  senderClosed := by rw [second.senderClosed, first.senderClosed, List.any_append, Bool.or_assoc]
  receiverClosed := by
    rw [second.receiverClosed, first.receiverClosed, List.any_append, Bool.or_assoc]

theorem Moved.balanced {incoming outgoing : List α} {ended : Bool}
    (moved : Moved incoming outgoing ended ch after) (entered : e.came = incoming)
    (left : e.gone = outgoing) (sender : e.request.closesSender = ended)
    (receiver : e.request.closesReceiver = false) : Balanced [e] ch after where
  name := moved.name
  history := by simpa [Channel.came, entered] using moved.history
  queue := by simpa [Channel.came, Channel.gone, entered, left] using moved.queue
  senderClosed := by simpa [sender] using moved.senderClosed
  receiverClosed := by simpa [receiver] using moved.receiverClosed

theorem moved_drain (ch : Channel α) : Moved [] ch.queue false ch ch.drain.2 where
  name := rfl
  history := (List.append_nil _).symm
  queue := by rw [queue_drain]
  senderClosed := (Bool.or_false _).symm
  receiverClosed := rfl

theorem balanced_of_served (served : e.request.serve? ch = some (e.response, after)) :
    Balanced [e] ch after := by
  obtain ⟨client, request, response⟩ := e
  cases request with
  | push value =>
    rcases pushed : ch.push value with ⟨refused, left⟩
    simp only [Request.serve?, pushed] at served
    cases refused with
    | none =>
      cases served
      obtain ⟨-, rfl⟩ := push_accepted_iff.1 pushed
      exact (moved_extend value ch).balanced rfl rfl rfl rfl
    | some cause =>
      cases served
      obtain ⟨-, -, rfl⟩ := push_refused_iff.1 pushed
      exact (Moved.refl after).balanced rfl rfl rfl rfl
  | pull =>
    rcases pulled : ch.pull with ⟨answer, left⟩
    simp only [Request.serve?, pulled] at served
    cases answer with
    | value value =>
      cases served
      exact (pull_value_iff.1 pulled).moved.balanced rfl rfl rfl rfl
    | waiting => cases served
    | refused cause =>
      cases served
      obtain ⟨-, -, -, rfl⟩ := pull_refused_iff.1 pulled
      exact (Moved.refl after).balanced rfl rfl rfl rfl
  | drain =>
    cases served
    exact (moved_drain ch).balanced rfl rfl rfl rfl
  | closeSender =>
    cases served
    exact (moved_closeSender ch).balanced rfl rfl rfl rfl
  | closeReceiver =>
    cases served
    exact ⟨rfl, (List.append_nil _).symm, List.append_nil _, (Bool.or_false _).symm,
      (Bool.or_true _).symm⟩

theorem Served.balanced (served : Served events ch after) : Balanced events ch after := by
  induction served with
  | nil => exact .refl _
  | cons first _ ih => exact (balanced_of_served first).trans ih

theorem Balanced.senderClosed_iff (balanced : Balanced events (.preloaded name []) ch) :
    ch.senderClosed = true ↔ ∃ e ∈ events, e.request.closesSender = true := by
  have sender : ch.senderClosed = events.any (·.request.closesSender) := balanced.senderClosed
  rw [sender, List.any_eq_true]

theorem Balanced.receiverClosed_iff (balanced : Balanced events (.preloaded name []) ch) :
    ch.receiverClosed = true ↔ ∃ e ∈ events, e.request.closesReceiver = true := by
  have receiver : ch.receiverClosed = events.any (·.request.closesReceiver) :=
    balanced.receiverClosed
  rw [receiver, List.any_eq_true]

theorem Balanced.closed_iff (balanced : Balanced events (.preloaded name []) ch) :
    ch.closed = true ↔ ∃ e ∈ events, e.request.closes = true := by
  simp only [Channel.closed, Bool.or_eq_true, balanced.senderClosed_iff,
    balanced.receiverClosed_iff, Request.closes, and_or_left, exists_or]

theorem served_feed (client : ι) (values : List α) (ch : Channel α) :
    ∃ pushes : List (Event ι α), Served pushes ch (ch.feed values).2 ∧
      (∀ e ∈ pushes, e.client = client) ∧
      pushes.map Event.request <+: values.map Request.push ∧
      ((ch.feed values).1 = none → pushes.map Event.request = values.map Request.push) ∧
      ∀ cause, (ch.feed values).1 = some cause → ∃ e ∈ pushes, e.response = .failed cause := by
  induction values generalizing ch with
  | nil => exact ⟨[], .nil ch, by simp, List.nil_prefix, fun _ => rfl, by simp⟩
  | cons value rest ih =>
    rcases pushed : ch.push value with ⟨refused, left⟩
    cases refused with
    | none =>
      obtain ⟨pushes, served, made, part, whole, failure⟩ := ih left
      have first : (Request.push value).serve? ch = some (.done, left) := by
        simp only [Request.serve?, pushed]
      simp only [feed, pushed]
      refine ⟨⟨client, .push value, .done⟩ :: pushes, .cons first served, ?_, ?_, ?_, ?_⟩
      · simpa using made
      · exact List.cons_prefix_cons.2 ⟨rfl, part⟩
      · intro accepted
        rw [List.map_cons, List.map_cons, whole accepted]
      · intro cause refused
        obtain ⟨e, mem, failed⟩ := failure cause refused
        exact ⟨e, List.mem_cons_of_mem _ mem, failed⟩
    | some cause =>
      have only : (Request.push value).serve? ch = some (.failed cause, left) := by
        simp only [Request.serve?, pushed]
      simp only [feed, pushed]
      refine ⟨[⟨client, .push value, .failed cause⟩], .cons only (.nil left), by simp, ?_, by simp,
        by simp⟩
      exact List.cons_prefix_cons.2 ⟨rfl, List.nil_prefix⟩

/-- What holds of a channel after these events since it was new, and what is going to be answered
next. -/
structure Accounts (name : String) (events : List (Event ι α)) (ch : Channel α) : Prop where
  order : gone events ++ ch.queue = came events
  /-- Whichever clients are looked at, what they have taken has kept its order. -/
  inOrder (clients : ι → Bool) :
    (gone (events.filter fun e => clients e.client)).Sublist (came events)
  sent : ch.sent = (came events).length
  last : ch.last? = (came events).getLast?
  senderClosed : ch.senderClosed = true ↔ ∃ e ∈ events, e.request.closesSender = true
  receiverClosed : ch.receiverClosed = true ↔ ∃ e ∈ events, e.request.closesReceiver = true
  accepts (value : α) (after : Channel α) :
    (Request.push value).serve? ch = some (.done, after) ↔
      (∀ e ∈ events, e.request.closes = false) ∧ after = ch.extend value
  refuses (value : α) (cause : Cause) (after : Channel α) :
    (Request.push value).serve? ch = some (.failed cause, after) ↔
      (∃ e ∈ events, e.request.closes = true) ∧ cause = .sinkTerminated name ∧ after = ch
  gives (value : α) (rest : List α) : ch.queue = value :: rest →
    ∃ after, Request.pull.serve? ch = some (.value value, after) ∧ after.queue = rest
  fails (cause : Cause) (after : Channel α) :
    Request.pull.serve? ch = some (.failed cause, after) ↔
      ch.queue = [] ∧ (∃ e ∈ events, e.request.closes = true) ∧
        cause = .sourceTerminated name ∧ after = ch
  waits : Request.pull.serve? ch = none ↔
    ch.queue = [] ∧ ∀ e ∈ events, e.request.closes = false

theorem front_eq_none_iff : ch.history[ch.taken]? = none ↔ ch.queue = [] := by
  rw [← head?_queue, List.head?_eq_none_iff]

theorem Balanced.accounts (balanced : Balanced events (.preloaded name []) ch) :
    Accounts name events ch := by
  have named : ch.name = name := balanced.name
  have history : ch.history.toList = came events := balanced.history
  have order : gone events ++ ch.queue = came events := balanced.queue.symm
  have closed := balanced.closed_iff
  have opened : ch.closed = false ↔ ∀ e ∈ events, e.request.closes = false := by
    simp only [← Bool.not_eq_true, closed, not_exists, not_and]
  refine ⟨order, fun clients => ?_, ?_, ?_, balanced.senderClosed_iff, balanced.receiverClosed_iff,
    fun value after => ?_, fun value cause after => ?_, fun value rest queued => ?_,
    fun cause after => ?_, ?_⟩
  · have part := (List.filter_sublist (p := fun e => clients e.client) (l := events)).flatMap
      Event.gone
    exact part.trans (order ▸ List.sublist_append_left _ _)
  · rw [sent_eq_length, history]
  · rw [last?_eq_getLast?, history]
  · rw [Request.push_done_iff, push_accepted_iff, opened]
  · rw [Request.push_failed_iff, push_refused_iff, closed, named]
  · obtain ⟨left, pulled⟩ := pull_of_queue_cons queued
    have remaining := (queue_eq_cons_of_pull pulled).symm.trans queued
    exact ⟨left, Request.pull_value_iff.2 pulled, (List.cons.inj remaining).2⟩
  · rw [Request.pull_failed_iff, pull_refused_iff, front_eq_none_iff, closed, named]
  · simp only [Request.pull_waits_iff, pull_waiting_iff, front_eq_none_iff, opened, exists_and_left,
      exists_eq, and_true]

/-- The history law of a channel, for any number of clients and any order of their requests. Feeding
several values is a row of pushes, which other requests may come between. -/
theorem traffic_conserved (served : Served events (.preloaded name []) ch) :
    Accounts name events ch ∧
      ∀ (client : ι) (values : List α), ∃ pushes : List (Event ι α),
        Served pushes ch (ch.feed values).2 ∧ (∀ e ∈ pushes, e.client = client) ∧
        pushes.map Event.request <+: values.map Request.push ∧
        ((ch.feed values).1 = none → pushes.map Event.request = values.map Request.push) ∧
        ∀ cause, (ch.feed values).1 = some cause → ∃ e ∈ pushes, e.response = .failed cause :=
  ⟨served.balanced.accounts, fun client values => served_feed client values ch⟩

/-- Two senders and two receivers: one sender closes its side with two values queued, the other one is
refused, the values are drained, and a pull finds nothing left. -/
theorem traffic_conserved_after_closing :
    let events : List (Event Nat Int) :=
      [⟨0, .push 5, .done⟩, ⟨1, .push 6, .done⟩, ⟨2, .pull, .value 5⟩, ⟨1, .push 8, .done⟩,
        ⟨0, .closeSender, .done⟩, ⟨1, .push 7, .failed (.sinkTerminated "link")⟩,
        ⟨3, .drain, .values [6, 8]⟩, ⟨2, .pull, .failed (.sourceTerminated "link")⟩]
    ∃ ch, Served events (.preloaded "link" []) ch ∧ Accounts "link" events ch ∧
      gone events = [5, 6, 8] ∧ ch.sent = 3 ∧ ch.last? = some 8 := by
  intro events
  have served : Served events (.preloaded "link" [])
      { name := "link", history := #[5, 6, 8], taken := 3, senderClosed := true } :=
    .cons rfl (.cons rfl (.cons rfl (.cons rfl (.cons rfl (.cons rfl (.cons rfl (.cons rfl
      (.nil _))))))))
  exact ⟨_, served, (traffic_conserved served).1, rfl, rfl, rfl⟩

end IntcodeVM.Channel
