import IntcodeVM.Hull.Robot
import IntcodeVM.Machine
import IntcodeVM.Proofs.Circuit.Link

namespace IntcodeVM

variable {σ : Type}

/-- An outside view of ports. -/
structure PortView (σ : Type) where
  present : σ → Prop
  inputClosed : σ → Bool
  outputClosed : σ → Bool
  delivered : σ → List Int

/-- Ports after these values have been sent: nothing else was delivered, and no side is open again. -/
structure PortView.Later (view : PortView σ) (ports : σ) (sent : List Int) (after : σ) : Prop where
  present : view.present after
  inputClosed : view.inputClosed ports = true → view.inputClosed after = true
  outputClosed : view.outputClosed ports = true → view.outputClosed after = true
  delivered : view.delivered after = view.delivered ports ++ sent

/-- The operations of a wiring as the view has them. -/
structure Wiring.Shows (w : Wiring σ) (view : PortView σ) : Prop where
  pull {ports after : σ} {answer : Pulled Int} : view.present ports →
    w.pull ports = (answer, after) → view.Later ports [] after
  push {ports after : σ} {value : Int} {refused : Option Cause} : view.present ports →
    w.push value ports = (refused, after) →
    view.Later ports (if refused.isNone then [value] else []) after
  closeInput {ports : σ} : view.present ports → view.Later ports [] (w.closeInput ports) ∧
    view.inputClosed (w.closeInput ports) = true
  closeOutput {ports : σ} : view.present ports → view.Later ports [] (w.closeOutput ports) ∧
    view.outputClosed (w.closeOutput ports) = true

namespace PortView

variable {view : PortView σ} {ports mid after : σ} {sent more : List Int}

theorem Later.refl (present : view.present ports) : view.Later ports [] ports where
  present := present
  inputClosed := id
  outputClosed := id
  delivered := (List.append_nil _).symm

theorem Later.trans (first : view.Later ports sent mid) (second : view.Later mid more after) :
    view.Later ports (sent ++ more) after where
  present := second.present
  inputClosed := second.inputClosed ∘ first.inputClosed
  outputClosed := second.outputClosed ∘ first.outputClosed
  delivered := by rw [second.delivered, first.delivered, List.append_assoc]

end PortView

namespace Channel

variable {α : Type} {value : α} {sent : List α} {ch after : Channel α}

/-- A channel after these values have come in. -/
structure Kept (sent : List α) (ch after : Channel α) : Prop where
  history : after.history.toList = ch.history.toList ++ sent
  senderClosed : ch.senderClosed = true → after.senderClosed = true
  receiverClosed : ch.receiverClosed = true → after.receiverClosed = true

theorem Kept.refl (ch : Channel α) : Kept [] ch ch where
  history := (List.append_nil _).symm
  senderClosed := id
  receiverClosed := id

theorem kept_of_pull {answer : Pulled α} (pulled : ch.pull = (answer, after)) :
    Kept [] ch after := by
  cases answer with
  | value value =>
    have taken := pull_value_iff.1 pulled
    exact ⟨by rw [taken.history, List.append_nil], taken.senderClosed.trans,
      taken.receiverClosed.trans⟩
  | waiting =>
    obtain ⟨-, -, rfl⟩ := pull_waiting_iff.1 pulled
    exact .refl after
  | refused cause =>
    obtain ⟨-, -, -, rfl⟩ := pull_refused_iff.1 pulled
    exact .refl after

theorem kept_of_push {refused : Option Cause}
    (pushed : ch.push value = (refused, after)) :
    Kept (if refused.isNone then [value] else []) ch after := by
  cases refused with
  | none =>
    obtain ⟨-, rfl⟩ := push_accepted_iff.1 pushed
    exact ⟨by simp [extend], id, id⟩
  | some cause =>
    obtain ⟨-, -, rfl⟩ := push_refused_iff.1 pushed
    exact .refl after

theorem kept_closeReceiver (ch : Channel α) : Kept [] ch ch.closeReceiver :=
  ⟨(List.append_nil _).symm, id, fun _ => rfl⟩

theorem kept_closeSender (ch : Channel α) : Kept [] ch ch.closeSender :=
  ⟨(List.append_nil _).symm, fun _ => rfl, id⟩

end Channel

namespace Sink

theorem kept_of_push {output after : Sink} {value : Int} {refused : Option Cause}
    (pushed : output.push value = (refused, after)) :
    (output.senderClosed = true → after.senderClosed = true) ∧
      after.delivered = output.delivered ++ if refused.isNone then [value] else [] := by
  cases output with
  | channel ch =>
    rcases asked : ch.push value with ⟨answer, left⟩
    simp only [push, asked] at pushed
    cases pushed
    have kept := Channel.kept_of_push asked
    exact ⟨kept.senderClosed, kept.history⟩
  | collector c =>
    cases closed : c.closed with
    | true =>
      simp only [push, Collector.push, closed, if_true] at pushed
      cases pushed
      exact ⟨id, (List.append_nil _).symm⟩
    | false =>
      simp only [push, Collector.push, closed, Bool.false_eq_true, if_false] at pushed
      cases pushed
      exact ⟨fun opened => absurd opened (by simp [senderClosed, closed]), by simp [delivered]⟩

end Sink

namespace Machine

def portView : PortView Ports where
  present _ := True
  inputClosed ports := ports.1.receiverClosed
  outputClosed ports := ports.2.senderClosed
  delivered ports := ports.2.delivered

variable {ports after : Ports}

theorem wiring_pull_iff {answer : Pulled Int} :
    wiring.pull ports = (answer, after) ↔
      ∃ left, ports.1.pull = (answer, left) ∧ after = (left, ports.2) := by
  rcases asked : ports.1.pull with ⟨found, left⟩
  have same : wiring.pull ports = (found, left, ports.2) := by simp only [wiring, asked]
  rw [same]
  constructor
  · rintro ⟨⟩
    exact ⟨left, rfl, rfl⟩
  · rintro ⟨_, ⟨⟩, rfl⟩
    rfl

theorem wiring_push_iff {value : Int} {refused : Option Cause} :
    wiring.push value ports = (refused, after) ↔
      ∃ left, ports.2.push value = (refused, left) ∧ after = (ports.1, left) := by
  rcases asked : ports.2.push value with ⟨found, left⟩
  have same : wiring.push value ports = (found, ports.1, left) := by simp only [wiring, asked]
  rw [same]
  constructor
  · rintro ⟨⟩
    exact ⟨left, rfl, rfl⟩
  · rintro ⟨_, ⟨⟩, rfl⟩
    rfl

theorem wiring_shows : wiring.Shows portView where
  pull := by
    intro ports after answer _ asked
    obtain ⟨left, pulled, rfl⟩ := wiring_pull_iff.1 asked
    have kept := Channel.kept_of_pull pulled
    exact ⟨trivial, kept.receiverClosed, id, (List.append_nil _).symm⟩
  push := by
    intro ports after value refused _ asked
    obtain ⟨left, pushed, rfl⟩ := wiring_push_iff.1 asked
    obtain ⟨senderClosed, delivered⟩ := Sink.kept_of_push pushed
    exact ⟨trivial, id, senderClosed, delivered⟩
  closeInput _ := ⟨⟨trivial, fun _ => rfl, id, (List.append_nil _).symm⟩, rfl⟩
  closeOutput {ports} _ := by
    have closed := ports.2.senderClosed_close
    refine ⟨⟨trivial, id, fun _ => closed, ?_⟩, closed⟩
    exact ports.2.delivered_close.trans (List.append_nil _).symm

end Machine

namespace Amplifier.Circuit

/-- The ports of a stage between two channels, which may be the same. -/
def linkView (input output : Nat) : PortView (Array (Channel Int)) where
  present channels := input < channels.size ∧ output < channels.size
  inputClosed channels := (channelAt channels input).receiverClosed
  outputClosed channels := (channelAt channels output).senderClosed
  delivered channels := (channelAt channels output).history.toList

variable {input output i : Nat} {channels : Array (Channel Int)} {ch : Channel Int}
  {sent : List Int}

theorem later_of_channel (present : (linkView input output).present channels)
    (kept : Channel.Kept sent (channelAt channels i) ch) (place : i = output ∨ sent = []) :
    (linkView input output).Later channels sent (channels.setIfInBounds i ch) := by
  have each : ∀ j, j < channels.size → Channel.Kept (if i = j then sent else [])
      (channelAt channels j) (channelAt (channels.setIfInBounds i ch) j) := by
    intro j inside
    by_cases same : i = j
    · subst same
      rw [if_pos rfl, channelAt_setIfInBounds_self inside]
      exact kept
    · rw [if_neg same, channelAt_setIfInBounds_ne same]
      exact .refl _
  have atOutput := each output present.2
  have all : (if i = output then sent else []) = sent := by
    rcases place with rfl | rfl <;> simp
  rw [all] at atOutput
  refine ⟨?_, (each input present.1).receiverClosed, atOutput.senderClosed, atOutput.history⟩
  simpa [linkView] using present

theorem link_shows (input output : Nat) : (link input output).Shows (linkView input output) where
  pull := by
    intro channels after answer present asked
    rw [link_pull] at asked
    cases asked
    exact later_of_channel present (Channel.kept_of_pull rfl) (.inr rfl)
  push := by
    intro channels after value refused present asked
    rw [link_push] at asked
    cases asked
    exact later_of_channel present (Channel.kept_of_push rfl) (.inl rfl)
  closeInput {channels} present := by
    rw [link_closeInput]
    refine ⟨later_of_channel present (Channel.kept_closeReceiver _) (.inr rfl), ?_⟩
    simp [linkView, channelAt_setIfInBounds_self present.1, Channel.closeReceiver]
  closeOutput {channels} present := by
    rw [link_closeOutput]
    refine ⟨later_of_channel present (Channel.kept_closeSender _) (.inl rfl), ?_⟩
    simp [linkView, channelAt_setIfInBounds_self present.2, Channel.closeSender]

end Amplifier.Circuit

namespace Hull.Rig

def portView : PortView Rig where
  present _ := True
  inputClosed rig := rig.cameraClosed
  outputClosed rig := rig.sink.closed
  delivered rig := rig.sink.values.toList

theorem wiring_shows : wiring.Shows portView where
  pull := by
    intro rig after answer _ asked
    cases closed : rig.cameraClosed with
    | true =>
      simp only [wiring, look, closed, if_true] at asked
      cases asked
      exact .refl trivial
    | false =>
      simp only [wiring, look, closed, Bool.false_eq_true, if_false] at asked
      cases asked
      exact ⟨trivial, closed.symm.trans, id, (List.append_nil _).symm⟩
  push := by
    intro rig after value refused _ asked
    cases closed : rig.sink.closed with
    | true =>
      simp only [wiring, Collector.push, closed, if_true] at asked
      cases asked
      exact .refl trivial
    | false =>
      simp only [wiring, Collector.push, closed, Bool.false_eq_true, if_false] at asked
      cases asked
      exact ⟨trivial, id, closed.symm.trans, by simp [portView]⟩
  closeInput _ := ⟨⟨trivial, fun _ => rfl, id, (List.append_nil _).symm⟩, rfl⟩
  closeOutput _ := ⟨⟨trivial, id, fun _ => rfl, (List.append_nil _).symm⟩, rfl⟩

end Hull.Rig

end IntcodeVM
