import IntcodeVM.Proofs.Circuit.Interleaving
import IntcodeVM.Proofs.Machine.PortFaults

/-! Stages that starve. A stage whose senders have all ended finds its channel empty, and ends with a fault
of its port. The sides that it closes concern nobody else: its senders are gone, and its receiver takes
what is still there. Main statement: starving is in nobody's way, and it leaves what another stage is going
to fail for, if that is no fault of a port. -/
namespace IntcodeVM

def Amplifier.Circuit.update (i : Nat) (f : Channel Int → Channel Int)
    (channels : Array (Channel Int)) : Array (Channel Int) :=
  channels.setIfInBounds i (f (Amplifier.Circuit.channelAt channels i))

/-- The channels after the stage between these two has given up. -/
def Amplifier.Circuit.abandoned (input output : Nat) (channels : Array (Channel Int)) :
    Array (Channel Int) :=
  (link input output).closeOutput ((link input output).closeInput channels)

namespace Amplifier.Circuit

variable {input output otherInput otherOutput i j : Nat} {channels a b : Array (Channel Int)}
  {f g : Channel Int → Channel Int}

theorem abandoned_eq (input output : Nat) (channels : Array (Channel Int)) :
    abandoned input output channels =
      update output Channel.closeSender (update input Channel.closeReceiver channels) := by
  rw [abandoned, link_closeOutput, link_closeInput]
  rfl

theorem channelAt_update_ne (h : i ≠ j) : channelAt (update i f channels) j = channelAt channels j :=
  channelAt_setIfInBounds_ne h channels _

theorem update_comm (h : i ≠ j) (f g : Channel Int → Channel Int) (channels : Array (Channel Int)) :
    update i f (update j g channels) = update j g (update i f channels) := by
  rw [update, channelAt_update_ne h.symm, update, update, channelAt_update_ne h, update]
  exact Array.setIfInBounds_comm _ _ h.symm

theorem channelAt_abandoned_ne (inputs : input ≠ j) (outputs : output ≠ j) :
    channelAt (abandoned input output channels) j = channelAt channels j := by
  rw [abandoned_eq, channelAt_update_ne outputs, channelAt_update_ne inputs]

theorem abandoned_comm (inputs : input ≠ otherInput) (outputs : output ≠ otherOutput)
    (onward : output ≠ otherInput) (back : otherOutput ≠ input) :
    abandoned input output (abandoned otherInput otherOutput channels) =
      abandoned otherInput otherOutput (abandoned input output channels) := by
  simp only [abandoned_eq]
  rw [update_comm back.symm, update_comm outputs, update_comm inputs, update_comm onward]

end Amplifier.Circuit

namespace PortAction

open Amplifier.Circuit

variable {input output otherInput otherOutput i : Nat} {channels a : Array (Channel Int)}
  {action : PortAction}

theorem Answered.update (answered : action.Answered (link input output) channels a)
    (apart : action.place input output ≠ i) (f : Channel Int → Channel Int) :
    action.Answered (link input output) (Amplifier.Circuit.update i f channels)
      (Amplifier.Circuit.update i f a) := by
  obtain ⟨ch, on, rfl⟩ := answered_link_iff.1 answered
  refine answered_link_iff.2 ⟨ch, ?_, ?_⟩
  · rwa [channelAt_update_ne apart.symm]
  · rw [Amplifier.Circuit.update, Amplifier.Circuit.update, channelAt_setIfInBounds_ne apart]
    exact Array.setIfInBounds_comm _ _ apart

theorem Answered.abandoned (answered : action.Answered (link input output) channels a)
    (inputs : input ≠ otherInput) (outputs : output ≠ otherOutput)
    (apart : action.place input output ≠ otherInput) :
    action.Answered (link input output)
      (Amplifier.Circuit.abandoned otherInput otherOutput channels)
      (Amplifier.Circuit.abandoned otherInput otherOutput a) := by
  have first := answered.update apart Channel.closeReceiver
  have second : ended.Answered (link otherInput otherOutput)
      (Amplifier.Circuit.update otherInput Channel.closeReceiver channels)
      (Amplifier.Circuit.abandoned otherInput otherOutput channels) := by
    rw [Amplifier.Circuit.abandoned, link_closeInput]
    rfl
  obtain ⟨both, later, earlier⟩ := first.commute second inputs outputs
  have same : both = Amplifier.Circuit.abandoned otherInput otherOutput a := by
    rw [Amplifier.Circuit.abandoned, link_closeInput]
    exact later
  rwa [← same]

end PortAction

namespace Amplifier.Circuit

variable {stage other i : Nat} {c next a b : Circuit} {cpu peer : Cpu} {cause : Cause}
  {stop : Stop} {channels : Array (Channel Int)}

/-- All stages that send to this one have ended. -/
def Orphaned (stage : Nat) (c : Circuit) : Prop :=
  ∀ i cpu, c.stages[i]? = some cpu → c.outputOf i = stage → cpu.refusal? ≠ none

/-- A stage asks for a value that is not there, and nobody is left to send it. -/
structure Starving (stage : Nat) (c : Circuit) (cpu : Cpu) (cause : Cause) : Prop where
  orphaned : c.Orphaned stage
  found : c.stages[stage]? = some cpu
  asks : ∃ op dst, cpu.Intends op (.take dst)
  unprimed : cpu.phase = none
  refused : (c.wiring stage).pull c.channels = (.refused cause, c.channels)

/-- The circuit after a stage has given up. -/
def bereft (c : Circuit) (stage : Nat) (cpu : Cpu) (cause : Cause) : Circuit :=
  c.withStage stage (cpu.faulted (.cause cause) true)
    (abandoned stage (c.outputOf stage) c.channels)

theorem bereft_withStage (other : Nat) (after : Cpu) (channels : Array (Channel Int)) :
    (c.withStage other after channels).bereft stage cpu cause =
      (c.withStage other after channels).withStage stage (cpu.faulted (.cause cause) true)
        (abandoned stage (c.outputOf stage) channels) := by
  rw [bereft, withStage_outputOf]
  rfl

/-- A stage carries out one instruction, or it starves. -/
inductive Calm (stage : Nat) (c next : Circuit) : Prop
  | runs : Runs stage c next → Calm stage c next
  | starves {cpu : Cpu} {cause : Cause} : Starving stage c cpu cause →
      next = c.bereft stage cpu cause → Calm stage c next

theorem Starving.live (starving : Starving stage c cpu cause) : cpu.refusal? = none := by
  obtain ⟨_, _, intends⟩ := starving.asks
  exact intends.1

theorem Starving.port (starving : Starving stage c cpu cause) : cause.family = .port := by
  obtain ⟨_, _, rfl, _⟩ := link_pull_refused_iff.1 starving.refused
  rfl

theorem Starving.legible (starving : Starving stage c cpu cause) : cause.isLegible = true := by
  obtain ⟨_, _, rfl, _⟩ := link_pull_refused_iff.1 starving.refused
  rfl

theorem Starving.step (starving : Starving stage c cpu cause) :
    c.onStage stage Cpu.step =
      (some (.stopped (.fault ⟨cause, some cpu.ip⟩)), c.bereft stage cpu cause) := by
  obtain ⟨_, _, intends⟩ := starving.asks
  have stepped := Cpu.step_fault_iff.2 ⟨cause, true, cpu, c.channels,
    .noInput intends starving.unprimed starving.refused, starving.legible, rfl, rfl, rfl⟩
  exact onStage_step_iff.2 ⟨cpu, _, _, starving.found, stepped, rfl⟩

theorem Calm.step (calm : Calm stage c next) :
    ∃ outcome, c.onStage stage Cpu.step = (some outcome, next) := by
  cases calm with
  | runs ran =>
    obtain ⟨op, ran⟩ := ran
    exact ⟨_, ran⟩
  | starves starving same => exact ⟨_, same ▸ starving.step⟩

theorem Calm.unique (first : Calm stage c a) (second : Calm stage c b) : a = b := by
  obtain ⟨_, first⟩ := first.step
  obtain ⟨_, second⟩ := second.step
  exact congrArg Prod.snd (first.symm.trans second)

theorem Calm.not_raises (calm : Calm stage c next) (inner : stop.isPortFault = false) :
    ¬ Raises stage stop c := by
  rintro ⟨-, last, raised⟩
  cases calm with
  | runs ran =>
    obtain ⟨op, ran⟩ := ran
    cases congrArg Prod.fst (ran.symm.trans raised)
  | starves starving _ =>
    cases congrArg Prod.fst (starving.step.symm.trans raised)
    simp [Stop.isPortFault, Fault.isPort, starving.port] at inner

theorem Calm.place (calm : Calm stage c next) :
    ∃ cpu after channels, c.stages[stage]? = some cpu ∧ cpu.refusal? = none ∧
      next = c.withStage stage after channels := by
  cases calm with
  | runs ran =>
    obtain ⟨cpu, op, action, after, channels, found, acts, -, rfl⟩ := runs_iff.1 ran
    exact ⟨cpu, after, channels, found, acts.live, rfl⟩
  | starves starving same => exact ⟨_, _, _, starving.found, starving.live, same⟩

theorem Orphaned.apart (orphaned : c.Orphaned stage) (found : c.stages[i]? = some cpu)
    (live : cpu.refusal? = none) : c.outputOf i ≠ stage :=
  fun same => orphaned i cpu found same live

theorem Orphaned.calm (orphaned : c.Orphaned stage) (calm : Calm other c next) :
    next.Orphaned stage := by
  obtain ⟨cpu, after, channels, found, live, rfl⟩ := calm.place
  intro i peer there same
  rw [withStage_outputOf] at same
  by_cases mover : other = i
  · subst mover
    exact absurd same (orphaned.apart found live)
  · rw [withStage_stages_ne mover] at there
    exact orphaned i peer there same

theorem Starving.after_calm (starving : Starving stage c cpu cause) (h : stage ≠ other)
    (calm : Calm other c b) (untouched : channelAt b.channels stage = channelAt c.channels stage) :
    Starving stage b cpu cause := by
  have orphaned := starving.orphaned.calm calm
  obtain ⟨_, after, channels, -, -, rfl⟩ := calm.place
  refine ⟨orphaned, ?_, starving.asks, starving.unprimed, ?_⟩
  · rw [withStage_stages_ne h.symm, starving.found]
  · rw [wiring, withStage_outputOf]
    obtain ⟨front, closed, named, -⟩ := link_pull_refused_iff.1 starving.refused
    rw [← untouched] at front closed named
    exact link_pull_refused_iff.2 ⟨front, closed, named, rfl⟩

theorem Starving.commute_runs (starving : Starving stage c cpu cause) (h : stage ≠ other)
    (runs : Runs other c b) :
    Runs other (c.bereft stage cpu cause) (b.bereft stage cpu cause) ∧
      Starving stage b cpu cause := by
  obtain ⟨peer, op, action, after, channels, there, acts, answered, rfl⟩ := id runs_iff.1 runs
  have apart := PortAction.place_ne h.symm (starving.orphaned.apart there acts.live) action
  have outputs :=
    outputOf_ne (lt_size_of_getElem? there) (lt_size_of_getElem? starving.found) h.symm
  refine ⟨?_, starving.after_calm h (.runs runs) (answered.channelAt_ne apart)⟩
  refine runs_iff.2 ⟨peer, op, action, after, abandoned stage (c.outputOf stage) channels, ?_, acts,
    ?_, ?_⟩
  · rw [bereft, withStage_stages_ne h, there]
  · rw [bereft, wiring, withStage_outputOf]
    exact answered.abandoned h.symm outputs apart
  · rw [bereft_withStage, bereft]
    exact withStage_comm h.symm

theorem Starving.commute_starving (first : Starving stage c cpu cause) {other' : Cause}
    (h : stage ≠ other) (second : Starving other c peer other') :
    (c.bereft stage cpu cause).bereft other peer other' =
      (c.bereft other peer other').bereft stage cpu cause ∧
    Starving other (c.bereft stage cpu cause) peer other' := by
  -- neither sends to the other, so they have no channel in common
  have onward := second.orphaned.apart first.found first.live
  have back := first.orphaned.apart second.found second.live
  have outputs :=
    outputOf_ne (lt_size_of_getElem? first.found) (lt_size_of_getElem? second.found) h
  constructor
  · show (c.withStage stage _ _).bereft other _ _ = (c.withStage other _ _).bereft stage _ _
    rw [bereft_withStage, bereft_withStage, abandoned_comm h.symm outputs.symm back onward]
    exact withStage_comm h
  · exact second.after_calm h.symm (.starves first rfl) (channelAt_abandoned_ne h onward)

theorem fails_of_pulls {input output : Nat} {before after : Array (Channel Int)} {snag : Snag}
    {wordRead : Bool} {met : Cpu} {ip : Option Int}
    (fails : Cpu.Fails (link input output) cpu before snag wordRead met channels)
    (inner : (snag.stop ip).isPortFault = false)
    (pulls : ∀ value left, (link input output).pull before = (.value value, left) →
      ∃ rest, (link input output).pull after = (.value value, rest)) :
    ∃ rest, Cpu.Fails (link input output) cpu after snag wordRead met rest := by
  cases fails with
  | fetch live fetched => exact ⟨_, .fetch live fetched⟩
  | prepare live fetched prepared => exact ⟨_, .prepare live fetched prepared⟩
  | lostPhase intends primed outside => exact ⟨_, .lostPhase intends primed outside⟩
  | lostInput intends unprimed outside pulled =>
    obtain ⟨rest, pulled⟩ := pulls _ _ pulled
    exact ⟨rest, .lostInput intends unprimed outside pulled⟩
  | noInput _ _ refused =>
    obtain ⟨_, _, rfl, _⟩ := link_pull_refused_iff.1 refused
    cases inner
  | noOutput _ refused =>
    obtain ⟨_, rfl, _⟩ := link_push_refused_iff.1 refused
    cases inner
  | untold _ _ untold => cases (link_tells input output _).symm.trans untold

theorem Raises.persists (raises : Raises stage stop c) (inner : stop.isPortFault = false)
    (h : stage ≠ other) (calm : Calm other c b) : Raises stage stop b := by
  obtain ⟨cpu, snag, wordRead, met, left, found, fails, rfl⟩ := raises_iff.1 raises
  have pulls : ∀ value left, (c.wiring stage).pull c.channels = (.value value, left) →
      ∃ rest, (c.wiring stage).pull b.channels = (.value value, rest) := by
    intro value left pulled
    have took : (PortAction.took value).Answered (c.wiring stage) c.channels left := pulled
    cases calm with
    | runs runs =>
      obtain ⟨peer, op, action, after, channels, there, -, answered, rfl⟩ := runs_iff.1 runs
      have outputs := outputOf_ne (lt_size_of_getElem? found) (lt_size_of_getElem? there) h
      obtain ⟨rest, -, later⟩ := took.commute answered h outputs
      exact ⟨rest, later⟩
    | starves starving same =>
      cases same
      have outputs :=
        outputOf_ne (lt_size_of_getElem? found) (lt_size_of_getElem? starving.found) h
      exact ⟨_, took.abandoned h outputs h⟩
  obtain ⟨rest, later⟩ := fails_of_pulls fails inner pulls
  obtain ⟨_, after, channels, -, -, rfl⟩ := calm.place
  refine raises_iff.2 ⟨cpu, snag, wordRead, met, rest, ?_, ?_, rfl⟩
  · rw [withStage_stages_ne h.symm, found]
  · rw [wiring, withStage_outputOf]
    exact later

theorem Calm.commute (h : stage ≠ other) (first : Calm stage c a) (second : Calm other c b) :
    ∃ both, Calm other a both ∧ Calm stage b both := by
  cases first with
  | runs runs =>
    cases second with
    | runs runs' =>
      obtain ⟨both, later, earlier⟩ := runs.commute h runs'
      exact ⟨both, .runs later, .runs earlier⟩
    | starves starving same =>
      obtain ⟨later, still⟩ := starving.commute_runs h.symm runs
      exact ⟨_, .starves still rfl, .runs (same ▸ later)⟩
  | starves starving same =>
    cases second with
    | runs runs =>
      obtain ⟨later, still⟩ := starving.commute_runs h runs
      exact ⟨_, .runs (same ▸ later), .starves still rfl⟩
    | starves starving' same' =>
      obtain ⟨order, still'⟩ := starving.commute_starving h starving'
      obtain ⟨-, still⟩ := starving'.commute_starving h.symm starving
      cases same
      cases same'
      exact ⟨_, .starves still' rfl, .starves still order⟩

/-- Calm moves of different stages do not get into each other's way, nor do they mend a failure that
does not come from a port. -/
theorem calm_commuting (stop : Stop) (inner : stop.isPortFault = false) :
    Settling.Commuting Calm fun stage c => Raises stage stop c where
  unique := Calm.unique
  sound calm := calm.not_raises inner
  commute h first second := first.commute h second
  persists h raises calm := raises.persists inner h calm

end Amplifier.Circuit

end IntcodeVM
