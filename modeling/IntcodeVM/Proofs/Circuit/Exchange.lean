import IntcodeVM.Proofs.Circuit.Link
import IntcodeVM.Proofs.Machine.PortAction

namespace IntcodeVM

namespace PortAction

/-- What an action does to the one channel that it concerns. -/
def On : PortAction → Channel Int → Channel Int → Prop
  | quiet, ch, after => after = ch
  | took value, ch, after => Channel.Taken value ch after
  | sent value, ch, after => ch.closed = false ∧ after = ch.extend value
  | ended, ch, after => after = ch.closeSender

def place (input output : Nat) : PortAction → Nat
  | took _ => input
  | quiet | sent _ | ended => output

open Amplifier.Circuit

variable {input output otherInput otherOutput : Nat} {channels a b : Array (Channel Int)}
  {action other : PortAction}

theorem answered_link_iff : action.Answered (link input output) channels a ↔
    ∃ ch, action.On (channelAt channels (action.place input output)) ch ∧
      a = channels.setIfInBounds (action.place input output) ch := by
  cases action with
  | quiet => simp [Answered, On, place, setIfInBounds_channelAt]
  | took value => exact link_pull_value_iff
  | sent value => simp [Answered, On, place, link_push_accepted_iff, and_assoc]
  | ended => simp [Answered, On, place, link_closeOutput]

theorem On.stays_closed {ch after : Channel Int} (on : action.On ch after) (h : ch.closed = true) :
    after.closed = true := by
  cases action with
  | quiet =>
    cases on
    exact h
  | took value => exact (Channel.Taken.closed on).trans h
  | sent value =>
    obtain ⟨opened, -⟩ := on
    cases h.symm.trans opened
  | ended =>
    cases on
    simp [Channel.closed, Channel.closeSender]

theorem On.closed_eq {ch after : Channel Int} (on : action.On ch after) (goes : action ≠ .ended) :
    after.closed = ch.closed := by
  cases action with
  | quiet => exact congrArg Channel.closed on
  | took value => exact Channel.Taken.closed on
  | sent value =>
    obtain ⟨-, rfl⟩ := on
    rfl
  | ended => exact absurd rfl goes

theorem On.stays_exhausted {ch after : Channel Int} (on : action.On ch after) (h : ch.closed = true)
    (front : ch.history[ch.taken]? = none) : after.history[after.taken]? = none := by
  cases action with
  | quiet | ended =>
    cases on
    exact front
  | took value => cases front.symm.trans (Channel.Taken.front on)
  | sent value =>
    obtain ⟨opened, -⟩ := on
    cases h.symm.trans opened

/-- A receiver and a sender at one channel do not get into each other's way. -/
theorem On.commute {value : Int} {ch left right : Channel Int}
    (receives : (took value).On ch left) (sends : other.On ch right) (h : ∀ v, other ≠ took v) :
    ∃ both, other.On left both ∧ (took value).On right both := by
  cases other with
  | quiet => exact ⟨left, rfl, by rw [show right = ch from sends]; exact receives⟩
  | took v => exact absurd rfl (h v)
  | sent v =>
    obtain ⟨opened, rfl⟩ := sends
    exact ⟨left.extend v, ⟨receives.closed.trans opened, rfl⟩, receives.extend v⟩
  | ended =>
    cases sends
    exact ⟨left.closeSender, rfl, receives.closeSender⟩

theorem Answered.commute_apart
    (first : action.Answered (link input output) channels a)
    (second : other.Answered (link otherInput otherOutput) channels b)
    (apart : action.place input output ≠ other.place otherInput otherOutput) :
    ∃ both, other.Answered (link otherInput otherOutput) a both ∧
      action.Answered (link input output) b both := by
  obtain ⟨left, here, rfl⟩ := answered_link_iff.1 first
  obtain ⟨right, there, rfl⟩ := answered_link_iff.1 second
  refine ⟨_, answered_link_iff.2 ⟨right, ?_, rfl⟩, answered_link_iff.2 ⟨left, ?_, ?_⟩⟩
  · rwa [channelAt_setIfInBounds_ne apart]
  · rwa [channelAt_setIfInBounds_ne apart.symm]
  · exact Array.setIfInBounds_comm left right apart

theorem Answered.commute_receiver {value : Int}
    (first : (took value).Answered (link input output) channels a)
    (second : other.Answered (link otherInput otherOutput) channels b)
    (apart : input ≠ otherInput) :
    ∃ both, other.Answered (link otherInput otherOutput) a both ∧
      (took value).Answered (link input output) b both := by
  by_cases same : input = other.place otherInput otherOutput
  · -- the other stage sends to this input, as it does not take from it
    obtain ⟨left, here, rfl⟩ := answered_link_iff.1 first
    obtain ⟨right, there, rfl⟩ := answered_link_iff.1 second
    have inside : input < channels.size := lt_size_of_front here.front
    have sends : ∀ v, other ≠ took v := by
      rintro v rfl
      exact apart same
    rw [← same] at there
    obtain ⟨both, after, before⟩ := On.commute here there sends
    refine ⟨channels.setIfInBounds input both, answered_link_iff.2 ⟨both, ?_, ?_⟩,
      answered_link_iff.2 ⟨both, ?_, ?_⟩⟩
    · rw [← same]
      show other.On (channelAt (channels.setIfInBounds input left) input) both
      rwa [channelAt_setIfInBounds_self inside]
    · rw [← same]
      exact (Array.setIfInBounds_setIfInBounds ..).symm
    · rw [← same]
      show (took value).On (channelAt (channels.setIfInBounds input right) input) both
      rwa [channelAt_setIfInBounds_self inside]
    · rw [← same]
      exact (Array.setIfInBounds_setIfInBounds ..).symm
  · exact first.commute_apart second same

/-- Actions of two stages that share neither their inputs nor their outputs. -/
theorem Answered.commute (first : action.Answered (link input output) channels a)
    (second : other.Answered (link otherInput otherOutput) channels b)
    (inputs : input ≠ otherInput) (outputs : output ≠ otherOutput) :
    ∃ both, other.Answered (link otherInput otherOutput) a both ∧
      action.Answered (link input output) b both := by
  -- two senders have two places, so only a receiver can meet another stage at a channel
  cases action with
  | took value => exact first.commute_receiver second inputs
  | quiet | sent _ | ended =>
    cases other with
    | took value =>
      obtain ⟨both, after, before⟩ := second.commute_receiver first inputs.symm
      exact ⟨both, before, after⟩
    | quiet | sent _ | ended => exact first.commute_apart second outputs

theorem place_ne {i : Nat} (inputs : input ≠ i) (outputs : output ≠ i) : ∀ action : PortAction,
    action.place input output ≠ i
  | took _ => inputs
  | quiet | sent _ | ended => outputs

theorem Answered.channelAt_ne {i : Nat}
    (answered : action.Answered (link input output) channels a)
    (apart : action.place input output ≠ i) : channelAt a i = channelAt channels i := by
  obtain ⟨ch, -, rfl⟩ := answered_link_iff.1 answered
  exact channelAt_setIfInBounds_ne apart channels ch

theorem Answered.channelAt_induction {P : Channel Int → Prop} {i : Nat}
    (answered : action.Answered (link input output) channels a) (h : P (channelAt channels i))
    (kept : ∀ ch, action.On (channelAt channels i) ch → P ch) : P (channelAt a i) := by
  obtain ⟨ch, on, rfl⟩ := answered_link_iff.1 answered
  by_cases same : action.place input output = i
  · subst same
    by_cases inside : action.place input output < channels.size
    · rw [channelAt_setIfInBounds_self inside]
      exact kept ch on
    · rwa [Array.setIfInBounds_eq_of_size_le (Nat.le_of_not_lt inside)]
  · rwa [channelAt_setIfInBounds_ne same]

end PortAction

end IntcodeVM
