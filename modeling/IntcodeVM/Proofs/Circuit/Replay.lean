import IntcodeVM.Proofs.Circuit.Exchange
import IntcodeVM.Proofs.Machine.FiniteInput

namespace IntcodeVM.Amplifier.Circuit

open Settling PortAction

/-- The channels before and after these actions of a stage. Its two sides may be one channel. -/
structure Carried (input output : Nat) (actions : List PortAction)
    (channels after : Array (Channel Int)) : Prop where
  size : after.size = channels.size
  moved (j : Nat) : Channel.Moved (if j = output then outputs actions else [])
    (if j = input then inputs actions else []) (decide (j = output ∧ .ended ∈ actions))
    (channelAt channels j) (channelAt after j)

variable {input output : Nat} {action : PortAction} {actions : List PortAction}
  {channels mid after : Array (Channel Int)} {values rest : List Int} {cpu next : Cpu}

theorem moved_of_on {ch left : Channel Int} (on : action.On ch left) :
    Channel.Moved (outputs [action]) (inputs [action]) (decide (.ended ∈ [action])) ch left := by
  cases action with
  | quiet =>
    cases on
    exact .refl ch
  | took value => exact Channel.Taken.moved on
  | sent value =>
    obtain ⟨-, rfl⟩ := on
    exact Channel.moved_extend value ch
  | ended =>
    cases on
    exact Channel.moved_closeSender ch

theorem Carried.refl (input output : Nat) (channels : Array (Channel Int)) :
    Carried input output [] channels channels where
  size := rfl
  moved j := by simpa [outputs, inputs] using Channel.Moved.refl (channelAt channels j)

theorem outputs_place (input output : Nat) (action : PortAction) (j : Nat) :
    (if j = output then outputs [action] else []) =
      if j = action.place input output then outputs [action] else [] := by
  cases action with
  | took value => simp [outputs, List.filterMap_cons, output?]
  | quiet | sent _ | ended => rfl

theorem inputs_place (input output : Nat) (action : PortAction) (j : Nat) :
    (if j = input then inputs [action] else []) =
      if j = action.place input output then inputs [action] else [] := by
  cases action with
  | took value => rfl
  | quiet | sent _ | ended => simp [inputs, List.filterMap_cons, input?]

theorem ended_place (input output : Nat) (action : PortAction) (j : Nat) :
    decide (j = output ∧ .ended ∈ [action]) =
      decide (j = action.place input output ∧ .ended ∈ [action]) := by
  cases action with
  | took value => simp
  | quiet | sent _ | ended => rfl

theorem carried_of_answered (answered : action.Answered (link input output) channels after)
    (inside : output < channels.size) : Carried input output [action] channels after := by
  obtain ⟨ch, on, rfl⟩ := answered_link_iff.1 answered
  refine ⟨Array.size_setIfInBounds, fun j => ?_⟩
  rw [outputs_place input output, inputs_place input output, ended_place input output]
  by_cases here : action.place input output = j
  · subst here
    have there : action.place input output < channels.size := by
      cases action with
      | took value => exact lt_size_of_front on.front
      | quiet | sent _ | ended => exact inside
    rw [channelAt_setIfInBounds_self there]
    simpa using moved_of_on on
  · rw [channelAt_setIfInBounds_ne here]
    have apart : j ≠ action.place input output := fun same => here same.symm
    simpa [apart] using Channel.Moved.refl (channelAt channels j)

theorem Carried.cons (first : Carried input output [action] channels mid)
    (later : Carried input output actions mid after) :
    Carried input output (action :: actions) channels after where
  size := later.size.trans first.size
  moved j := by
    have whole := (first.moved j).trans (later.moved j)
    have came : (if j = output then outputs [action] else []) ++
        (if j = output then outputs actions else []) =
        if j = output then outputs (action :: actions) else [] := by
      split
      · exact (outputs_cons action actions).symm
      · rfl
    have gone : (if j = input then inputs [action] else []) ++
        (if j = input then inputs actions else []) =
        if j = input then inputs (action :: actions) else [] := by
      split
      · exact (inputs_cons action actions).symm
      · rfl
    have ended : (decide (j = output ∧ .ended ∈ [action]) ||
        decide (j = output ∧ .ended ∈ actions)) =
        decide (j = output ∧ PortAction.ended ∈ action :: actions) := by
      simp only [← Bool.decide_or, ← and_or_left, List.mem_cons, List.not_mem_nil, or_false]
    rwa [came, gone, ended] at whole

theorem exists_answered (queued : (channelAt channels input).queue = inputs [action] ++ rest)
    (opened : (channelAt channels output).closed = false) :
    ∃ after, action.Answered (link input output) channels after := by
  cases action with
  | quiet => exact ⟨channels, rfl⟩
  | took value =>
    obtain ⟨left, pulled⟩ := Channel.pull_of_queue_cons (show _ = value :: rest from queued)
    exact ⟨_, link_pull_value_iff.2 ⟨left, Channel.pull_value_iff.1 pulled, rfl⟩⟩
  | sent value => exact ⟨_, link_push_accepted_iff.2 ⟨opened, rfl⟩, rfl⟩
  | ended => exact ⟨_, rfl⟩

/-- A transcript can be carried out again between these channels. -/
theorem exists_carried (transcript : Cpu.Transcript actions cpu next)
    (inside : output < channels.size)
    (queued : (channelAt channels input).queue = inputs actions ++ rest)
    (opened : (channelAt channels output).closed = false) :
    ∃ after, AllAnswered (link input output) actions channels after ∧
      Carried input output actions channels after := by
  induction transcript generalizing channels rest with
  | nil => exact ⟨channels, .nil channels, .refl input output channels⟩
  | @cons action actions cpu between next acts later ih =>
    rw [inputs_cons, List.append_assoc] at queued
    obtain ⟨mid, answered⟩ := exists_answered queued opened
    have carried := carried_of_answered answered inside
    have whole : Cpu.Transcript (action :: actions) cpu next := .cons acts later
    by_cases ends : action = .ended
    · -- the output is closed now, but nothing is left to be sent
      subst ends
      obtain ⟨rfl, -⟩ := whole.of_ended
      exact ⟨mid, .cons answered (.nil mid), carried⟩
    · have inside' : output < mid.size := carried.size ▸ inside
      have opened' : (channelAt mid output).closed = false := by
        simp [(carried.moved output).closed, opened, Ne.symm ends]
      have queue := (carried.moved input).queue
      rw [queued, if_pos rfl, List.append_assoc, List.append_cancel_left_eq,
        List.append_assoc] at queue
      obtain ⟨after, rest, onward⟩ := ih inside' queue.symm opened'
      exact ⟨after, .cons answered rest, carried.cons onward⟩

theorem link_offers (closed : (channelAt channels input).closed = true)
    (opened : (channelAt channels output).closed = false) :
    (link input output).Offers channels (channelAt channels input).queue
      (channelAt channels input).name where
  next queued := by
    obtain ⟨left, pulled⟩ := Channel.pull_of_queue_cons queued
    exact ⟨_, link_pull_value_iff.2 ⟨left, Channel.pull_value_iff.1 pulled, rfl⟩⟩
  dry queued := by
    have dry := Channel.pull_of_queue_nil queued closed
    exact ⟨channels, link_pull_refused_iff.2
      ⟨(Channel.pull_refused_iff.1 dry).1, closed, rfl, rfl⟩⟩
  accepts value := ⟨_, link_push_accepted_iff.2 ⟨opened, rfl⟩⟩
  tells _ := rfl

theorem Carried.offers (carried : Carried input output actions channels after)
    (apart : input ≠ output) (goes : .ended ∉ actions)
    (queued : (channelAt channels input).queue = inputs actions ++ rest)
    (closed : (channelAt channels input).closed = true)
    (opened : (channelAt channels output).closed = false) :
    (link input output).Offers after rest (channelAt channels input).name := by
  have source := carried.moved input
  have sink := carried.moved output
  simp only [apart, goes, if_true, if_false, and_false, decide_false] at source sink
  have left : (channelAt after input).queue = rest := by
    have queue := source.queue
    rw [List.append_nil, queued, List.append_cancel_left_eq] at queue
    exact queue.symm
  have still : (channelAt after input).closed = true := by rw [source.closed, closed, Bool.true_or]
  have free : (channelAt after output).closed = false := by rw [sink.closed, opened, Bool.false_or]
  rw [← left, ← source.name]
  exact link_offers still free

end IntcodeVM.Amplifier.Circuit
