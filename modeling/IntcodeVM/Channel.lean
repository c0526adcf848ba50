import IntcodeVM.Fault
import IntcodeVM.Text.Quoted

/-!
Channels: unbounded queues between a sender and a receiver. Values leave in the order in which they
came. The sender closes its side when it has finished, the receiver when it is gone; what is queued
can still be taken. Main statements: a new value goes behind the queue, and a pull answers the front
of the queue and leaves the rest.
-/

namespace IntcodeVM

inductive Pulled (α : Type) where
  | value (v : α)
  /-- Nothing is queued, but a value may still come. -/
  | waiting
  | refused (cause : Cause)
  deriving DecidableEq, Repr

/-- A channel keeps every value that was ever pushed, oldest first. Those at the front have been
taken, the others are queued. -/
structure Channel (α : Type) where
  name : String := ""
  history : Array α := #[]
  taken : Nat := 0
  senderClosed : Bool := false
  receiverClosed : Bool := false
  taken_le : taken ≤ history.size := by simp
  deriving DecidableEq, Repr

namespace Channel

variable {α : Type}

instance : Inhabited (Channel α) := ⟨{}⟩

def queue (ch : Channel α) : List α := ch.history.toList.drop ch.taken

def pending (ch : Channel α) : Nat := ch.history.size - ch.taken

/-- How many values were ever pushed, taken or not. -/
def sent (ch : Channel α) : Nat := ch.history.size

def last? (ch : Channel α) : Option α := ch.history.back?

def closed (ch : Channel α) : Bool := ch.senderClosed || ch.receiverClosed

/-- A channel with one more value behind the others, whether it is open or not. -/
def extend (value : α) (ch : Channel α) : Channel α :=
  { ch with
    history := ch.history.push value
    taken_le := by simpa using Nat.le_succ_of_le ch.taken_le }

def push (value : α) (ch : Channel α) : Option Cause × Channel α :=
  if ch.closed then (some (.sinkTerminated ch.name), ch) else (none, ch.extend value)

def feed : List α → Channel α → Option Cause × Channel α
  | [], ch => (none, ch)
  | value :: rest, ch =>
    match ch.push value with
    | (none, ch) => feed rest ch
    | refused => refused

/-- The oldest value; without one, the answer hangs on whether more may come. -/
def pull (ch : Channel α) : Pulled α × Channel α :=
  if h : ch.taken < ch.history.size then
    (.value ch.history[ch.taken], { ch with taken := ch.taken + 1, taken_le := h })
  else if ch.closed then (.refused (.sourceTerminated ch.name), ch)
  else (.waiting, ch)

def closeSender (ch : Channel α) : Channel α := { ch with senderClosed := true }

def closeReceiver (ch : Channel α) : Channel α := { ch with receiverClosed := true }

def drain (ch : Channel α) : List α × Channel α :=
  (ch.queue, { ch with taken := ch.history.size, taken_le := Nat.le_refl _ })

def preloaded (name : String) (values : List α) : Channel α :=
  (feed values { name := name }).2

def ofList (values : List α) (name : String := "") : Channel α :=
  (preloaded name values).closeSender

def describe (ch : Channel α) : String :=
  "Channel(" ++ String.ofList (Text.quoted ch.name.toList) ++
    s!", pending={ch.pending}, sent={ch.sent}, closed={Text.truthWord ch.closed})"

@[simp] theorem feed_nil (ch : Channel α) : feed [] ch = (none, ch) := rfl

theorem push_eq_of_open {ch : Channel α} (h : ch.closed = false) (value : α) :
    ch.push value = (none, ch.extend value) := by
  simp [push, h]

theorem push_eq_of_closed {ch : Channel α} (h : ch.closed = true) (value : α) :
    ch.push value = (some (.sinkTerminated ch.name), ch) := by
  simp [push, h]

theorem length_queue (ch : Channel α) : ch.queue.length = ch.pending := by
  simp [queue, pending]

@[simp] theorem queue_extend (ch : Channel α) (value : α) :
    (ch.extend value).queue = ch.queue ++ [value] := by
  simp [queue, extend, List.drop_append_of_le_length, ch.taken_le]

theorem queue_eq_cons_of_pull {ch rest : Channel α} {value : α}
    (h : ch.pull = (.value value, rest)) : ch.queue = value :: rest.queue := by
  unfold pull at h
  split at h
  · rename_i lt
    obtain ⟨rfl, rfl⟩ : _ = value ∧ _ = rest := by simpa using h
    simp [queue, List.drop_eq_getElem_cons, lt]
  · split at h <;> simp at h

@[simp] theorem queue_drain (ch : Channel α) : ch.drain.2.queue = [] := by
  simp [queue, drain]

end Channel

end IntcodeVM
