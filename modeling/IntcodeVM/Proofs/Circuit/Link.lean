import IntcodeVM.Amplifier.Circuit
import IntcodeVM.Proofs.Channel.Requests

namespace IntcodeVM.Amplifier.Circuit

/-- A channel of a circuit; where there is none stands one that nobody ever uses. -/
def channelAt (channels : Array (Channel Int)) (i : Nat) : Channel Int := channels[i]?.getD default

theorem channelAt_setIfInBounds_ne {i j : Nat} (h : i ≠ j) (channels : Array (Channel Int))
    (ch : Channel Int) : channelAt (channels.setIfInBounds i ch) j = channelAt channels j := by
  simp [channelAt, Array.getElem?_setIfInBounds_ne h]

theorem channelAt_setIfInBounds_self {i : Nat} {channels : Array (Channel Int)}
    (h : i < channels.size) (ch : Channel Int) :
    channelAt (channels.setIfInBounds i ch) i = ch := by
  simp [channelAt, h]

theorem setIfInBounds_channelAt (channels : Array (Channel Int)) (i : Nat) :
    channels.setIfInBounds i (channelAt channels i) = channels := by
  apply Array.ext_getElem?
  intro j
  by_cases same : i = j
  · subst same
    by_cases inside : i < channels.size <;> simp [channelAt, inside]
  · simp [same]

theorem channelAt_beyond {channels : Array (Channel Int)} {i : Nat} (outside : channels.size ≤ i) :
    channelAt channels i = default := by
  simp [channelAt, outside]

theorem lt_size_of_front {channels : Array (Channel Int)} {i : Nat} {value : Int}
    (front : (channelAt channels i).history[(channelAt channels i).taken]? = some value) :
    i < channels.size := by
  by_cases inside : i < channels.size
  · exact inside
  · have missing : channelAt channels i = default := by simp [channelAt, inside]
    rw [missing] at front
    cases front

variable {input output : Nat} {channels after : Array (Channel Int)}

theorem link_pull (input output : Nat) (channels : Array (Channel Int)) :
    (link input output).pull channels =
      ((channelAt channels input).pull.1,
        channels.setIfInBounds input (channelAt channels input).pull.2) :=
  onChannel_eq input Channel.pull channels

theorem link_push (input output : Nat) (value : Int) (channels : Array (Channel Int)) :
    (link input output).push value channels =
      (((channelAt channels output).push value).1,
        channels.setIfInBounds output ((channelAt channels output).push value).2) :=
  onChannel_eq output (Channel.push value) channels

@[simp]
theorem link_tells (input output : Nat) (value : Int) : (link input output).tells value = true := rfl

theorem link_closeOutput (input output : Nat) (channels : Array (Channel Int)) :
    (link input output).closeOutput channels =
      channels.setIfInBounds output (channelAt channels output).closeSender :=
  congrArg Prod.snd (onChannel_eq output (fun ch => ((), ch.closeSender)) channels)

theorem link_closeInput (input output : Nat) (channels : Array (Channel Int)) :
    (link input output).closeInput channels =
      channels.setIfInBounds input (channelAt channels input).closeReceiver :=
  congrArg Prod.snd (onChannel_eq input (fun ch => ((), ch.closeReceiver)) channels)

theorem link_pull_value_iff {value : Int} :
    (link input output).pull channels = (.value value, after) ↔
      ∃ rest, Channel.Taken value (channelAt channels input) rest ∧
        after = channels.setIfInBounds input rest := by
  rw [link_pull]
  rcases h : (channelAt channels input).pull with ⟨pulled, rest⟩
  constructor
  · intro same
    obtain ⟨rfl, rfl⟩ := Prod.mk.inj same
    exact ⟨rest, Channel.pull_value_iff.1 h, rfl⟩
  · rintro ⟨left, taken, rfl⟩
    cases h.symm.trans (Channel.pull_value_iff.2 taken)
    rfl

theorem link_pull_refused_iff {cause : Cause} :
    (link input output).pull channels = (.refused cause, after) ↔
      (channelAt channels input).history[(channelAt channels input).taken]? = none ∧
        (channelAt channels input).closed = true ∧
        cause = .sourceTerminated (channelAt channels input).name ∧ after = channels := by
  rw [link_pull]
  rcases h : (channelAt channels input).pull with ⟨pulled, rest⟩
  constructor
  · intro same
    obtain ⟨rfl, rfl⟩ := Prod.mk.inj same
    obtain ⟨front, closed, named, rfl⟩ := Channel.pull_refused_iff.1 h
    exact ⟨front, closed, named, setIfInBounds_channelAt channels input⟩
  · rintro ⟨front, closed, named, rfl⟩
    cases h.symm.trans (Channel.pull_refused_iff.2 ⟨front, closed, named, rfl⟩)
    rw [setIfInBounds_channelAt]

theorem eq_of_link_pull_waiting (h : (link input output).pull channels = (.waiting, after)) :
    after = channels := by
  rw [link_pull] at h
  rcases asked : (channelAt channels input).pull with ⟨pulled, rest⟩
  rw [asked] at h
  obtain ⟨rfl, rfl⟩ := Prod.mk.inj h
  obtain ⟨-, -, rfl⟩ := Channel.pull_waiting_iff.1 asked
  exact setIfInBounds_channelAt channels input

theorem link_push_accepted_iff {value : Int} :
    (link input output).push value channels = (none, after) ↔
      (channelAt channels output).closed = false ∧
        after = channels.setIfInBounds output ((channelAt channels output).extend value) := by
  rw [link_push]
  rcases h : (channelAt channels output).push value with ⟨refused, rest⟩
  constructor
  · intro same
    obtain ⟨rfl, rfl⟩ := Prod.mk.inj same
    obtain ⟨opened, rfl⟩ := Channel.push_accepted_iff.1 h
    exact ⟨opened, rfl⟩
  · rintro ⟨opened, rfl⟩
    cases h.symm.trans (Channel.push_accepted_iff.2 ⟨opened, rfl⟩)
    rfl

theorem link_push_refused_iff {value : Int} {cause : Cause} :
    (link input output).push value channels = (some cause, after) ↔
      (channelAt channels output).closed = true ∧
        cause = .sinkTerminated (channelAt channels output).name ∧ after = channels := by
  rw [link_push]
  rcases h : (channelAt channels output).push value with ⟨refused, rest⟩
  constructor
  · intro same
    obtain ⟨rfl, rfl⟩ := Prod.mk.inj same
    obtain ⟨closed, named, rfl⟩ := Channel.push_refused_iff.1 h
    exact ⟨closed, named, setIfInBounds_channelAt channels output⟩
  · rintro ⟨closed, named, rfl⟩
    cases h.symm.trans (Channel.push_refused_iff.2 ⟨closed, named, rfl⟩)
    rw [setIfInBounds_channelAt]

end IntcodeVM.Amplifier.Circuit
