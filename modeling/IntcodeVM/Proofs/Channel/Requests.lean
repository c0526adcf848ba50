import IntcodeVM.Sink

namespace IntcodeVM

namespace Channel

variable {α : Type}

theorem eq_of_fields {ch other : Channel α} (name : ch.name = other.name)
    (history : ch.history = other.history) (taken : ch.taken = other.taken)
    (sender : ch.senderClosed = other.senderClosed)
    (receiver : ch.receiverClosed = other.receiverClosed) : ch = other := by
  cases ch
  cases other
  cases name
  cases history
  cases taken
  cases sender
  cases receiver
  rfl

/-- The oldest value of the queue has been taken. -/
structure Taken (value : α) (ch rest : Channel α) : Prop where
  name : rest.name = ch.name
  history : rest.history = ch.history
  taken : rest.taken = ch.taken + 1
  senderClosed : rest.senderClosed = ch.senderClosed
  receiverClosed : rest.receiverClosed = ch.receiverClosed
  front : ch.history[ch.taken]? = some value

theorem Taken.unique {value : α} {ch rest other : Channel α} (h : Taken value ch rest)
    (k : Taken value ch other) : rest = other :=
  eq_of_fields (h.name.trans k.name.symm) (h.history.trans k.history.symm)
    (h.taken.trans k.taken.symm) (h.senderClosed.trans k.senderClosed.symm)
    (h.receiverClosed.trans k.receiverClosed.symm)

theorem Taken.closed {value : α} {ch rest : Channel α} (h : Taken value ch rest) :
    rest.closed = ch.closed := by
  simp only [Channel.closed, h.senderClosed, h.receiverClosed]

theorem pull_of_front {value : α} {ch : Channel α} (front : ch.history[ch.taken]? = some value) :
    ∃ rest, ch.pull = (.value value, rest) ∧ Taken value ch rest := by
  obtain ⟨lt, get⟩ := Array.getElem?_eq_some_iff.1 front
  refine ⟨{ ch with taken := ch.taken + 1, taken_le := lt }, ?_, rfl, rfl, rfl, rfl, rfl, front⟩
  simp only [pull, dif_pos lt, get]

theorem pull_of_no_front {ch : Channel α} (front : ch.history[ch.taken]? = none) :
    ch.pull = if ch.closed then (.refused (.sourceTerminated ch.name), ch) else (.waiting, ch) := by
  have exhausted : ¬ ch.taken < ch.history.size := by
    simpa using Array.getElem?_eq_none_iff.1 front
  simp only [pull, dif_neg exhausted]

theorem pull_value_iff {value : α} {ch rest : Channel α} :
    ch.pull = (.value value, rest) ↔ Taken value ch rest := by
  constructor
  · intro h
    cases front : ch.history[ch.taken]? with
    | none =>
      rw [pull_of_no_front front] at h
      split at h <;> cases h
    | some first =>
      obtain ⟨left, pulled, taken⟩ := pull_of_front front
      cases pulled.symm.trans h
      exact taken
  · intro h
    obtain ⟨left, pulled, taken⟩ := pull_of_front h.front
    rw [pulled, h.unique taken]

theorem pull_refused_iff {cause : Cause} {ch rest : Channel α} :
    ch.pull = (.refused cause, rest) ↔
      ch.history[ch.taken]? = none ∧ ch.closed = true ∧
        cause = .sourceTerminated ch.name ∧ rest = ch := by
  cases front : ch.history[ch.taken]? with
  | none =>
    rw [pull_of_no_front front]
    cases ch.closed <;> simp [eq_comm]
  | some first =>
    obtain ⟨left, pulled, _⟩ := pull_of_front front
    simp [pulled]

theorem pull_waiting_iff {ch rest : Channel α} :
    ch.pull = (.waiting, rest) ↔
      ch.history[ch.taken]? = none ∧ ch.closed = false ∧ rest = ch := by
  cases front : ch.history[ch.taken]? with
  | none =>
    rw [pull_of_no_front front]
    cases ch.closed <;> simp [eq_comm]
  | some first =>
    obtain ⟨left, pulled, _⟩ := pull_of_front front
    simp [pulled]

theorem push_accepted_iff {value : α} {ch after : Channel α} :
    ch.push value = (none, after) ↔ ch.closed = false ∧ after = ch.extend value := by
  cases closed : ch.closed with
  | true => simp [push_eq_of_closed closed]
  | false => simp [push_eq_of_open closed, eq_comm]

theorem push_refused_iff {value : α} {cause : Cause} {ch after : Channel α} :
    ch.push value = (some cause, after) ↔
      ch.closed = true ∧ cause = .sinkTerminated ch.name ∧ after = ch := by
  cases closed : ch.closed with
  | true => simp [push_eq_of_closed closed, eq_comm]
  | false => simp [push_eq_of_open closed]

theorem front_extend {value : α} {ch : Channel α} (front : ch.history[ch.taken]? = some value)
    (more : α) : (ch.extend more).history[(ch.extend more).taken]? = some value := by
  obtain ⟨lt, get⟩ := Array.getElem?_eq_some_iff.1 front
  simp only [extend, Array.getElem?_push, Nat.ne_of_lt lt, if_false, front]

theorem head?_queue (ch : Channel α) : ch.queue.head? = ch.history[ch.taken]? := by
  simp [queue, List.head?_drop]

theorem Taken.queue {value : α} {ch rest : Channel α} (h : Taken value ch rest) :
    ch.queue = value :: rest.queue :=
  queue_eq_cons_of_pull (pull_value_iff.2 h)

theorem Taken.extend {value : α} {ch rest : Channel α} (h : Taken value ch rest) (more : α) :
    Taken value (ch.extend more) (rest.extend more) where
  name := h.name
  history := by simp only [Channel.extend, h.history]
  taken := h.taken
  senderClosed := h.senderClosed
  receiverClosed := h.receiverClosed
  front := front_extend h.front more

theorem Taken.closeSender {value : α} {ch rest : Channel α} (h : Taken value ch rest) :
    Taken value ch.closeSender rest.closeSender where
  name := h.name
  history := h.history
  taken := h.taken
  senderClosed := rfl
  receiverClosed := h.receiverClosed
  front := h.front

end Channel

namespace Sink

def delivered : Sink → List Int
  | collector c => c.values.toList
  | channel ch => ch.history.toList

theorem push_of_open {output : Sink} (h : output.closed = false) (value : Int) :
    ∃ after, output.push value = (none, after) ∧
      after.delivered = output.delivered ++ [value] := by
  cases output with
  | collector c =>
    have open' : c.closed = false := h
    exact ⟨.collector { c with values := c.values.push value },
      by simp [push, Collector.push, open'], by simp [delivered]⟩
  | channel ch =>
    exact ⟨.channel (ch.extend value), by simp [push, Channel.push_eq_of_open h],
      by simp [delivered, Channel.extend]⟩

theorem push_refused {output after : Sink} {value : Int} {cause : Cause}
    (h : output.push value = (some cause, after)) :
    output.closed = true ∧ cause.family = .port ∧ after = output := by
  cases output with
  | collector c =>
    cases closed : c.closed with
    | true =>
      simp only [push, Collector.push, closed, if_true] at h
      cases h
      exact ⟨closed, rfl, rfl⟩
    | false => simp [push, Collector.push, closed] at h
  | channel ch =>
    cases closed : ch.closed with
    | true =>
      simp only [push, Channel.push_eq_of_closed closed] at h
      cases h
      exact ⟨closed, rfl, rfl⟩
    | false => simp [push, Channel.push_eq_of_open closed] at h

@[simp] theorem delivered_close (output : Sink) : output.close.delivered = output.delivered := by
  cases output <;> rfl

@[simp] theorem senderClosed_close (output : Sink) : output.close.senderClosed = true := by
  cases output <;> rfl

end Sink

end IntcodeVM
