import IntcodeVM.Amplifier.Chain
import IntcodeVM.Proofs.Circuit.Passing

/-! A chain of stages as the composition of single runs. Main statement: a chain answers the last
value of what single runs make of the seed, each fed with the outputs of the one before; the first of
them that fails is the stage at which the chain fails. -/
namespace IntcodeVM

theorem Fault.message_diagnostic (fault : Fault) : fault.diagnostic.message = fault.message := by
  rw [diagnostic, message]
  cases fault.cause <;> rfl

namespace Amplifier.Circuit

open Settling PortAction

/-- Single runs one after the other, each with the outputs of the one before as its inputs. The first
that does not halt is answered with its number. -/
def relay (allowance : Nat) (memory : Memory) :
    Nat → List (Option Int) → List Int → Except (Nat × Stop) (List Int)
  | _, [], values => .ok values
  | stage, phase :: rest, values =>
    match Batch.outputs allowance memory values phase with
    | .error stop => .error (stage, stop)
    | .ok outs => relay allowance memory (stage + 1) rest outs

/-- A fault of a single run as it is met between the channels of a chain. -/
def linked (stage : Nat) (fault : Fault) : Fault :=
  { fault with cause := fault.cause.through s!"link-{stage}" s!"link-{stage + 1}" }

/-- The wording of a single run's fault, with the name of the stage's input behind that of a port
fault. -/
def messageAt (stage : Nat) (fault : Fault) : String :=
  let channel := if fault.isPort then Cause.portLabel s!"link-{stage}" else ""
  fault.cause.message ++ channel ++ ipLabel fault.ip

/-- The stages before this one have halted, and nothing has happened to those behind it. -/
structure Interrupted (built : Circuit) (stage : Nat) (c : Circuit) : Prop where
  stages_size : c.stages.size = built.stages.size
  halted {j : Nat} {cpu : Cpu} : j < stage → c.stages[j]? = some cpu → cpu.halted = true
  untouched {j : Nat} : stage < j → c.stages[j]? = built.stages[j]?

/-- What a stage of a chain comes to, given what a single run comes to. -/
inductive Passed (built : Circuit) (stage : Nat) :
    Except Stop (List Int) → Option (Except Stop Nat) × Circuit → Prop
  | onward {outs : List Int} {count : Nat} {c : Circuit} :
      Reached built (stage + 1) outs true c → Passed built stage (.ok outs) (some (.ok count), c)
  | unfinished {c : Circuit} :
      Passed built stage (.error .unfinished) (some (.error .unfinished), c)
  | faulted {fault : Fault} {c : Circuit} : Interrupted built stage c →
      fault.cause.family ≠ .port ∨ fault.cause = .sourceTerminated "" →
      Passed built stage (.error (.fault fault)) (some (.error (.fault (linked stage fault))), c)
  | unworded {snag : Snag} {c : Circuit} : Interrupted built stage c →
      Passed built stage (.error (.unworded snag)) (some (.error (.unworded snag)), c)

variable {memory : Memory} {phases rest : List (Option Int)} {phase : Option Int}
  {built c : Circuit} {stage : Nat} {values : List Int} {allowance larger : Nat}

theorem Reached.interrupted {ended : Bool} {cpu : Cpu} {channels : Array (Channel Int)}
    (reached : Reached built stage values ended c) :
    Interrupted built stage (c.withStage stage cpu channels) where
  stages_size := by rw [← reached.stages_size, withStage, Array.size_setIfInBounds]
  halted := by
    intro j other before found
    rw [withStage_stages_ne (by omega)] at found
    exact (reached.halted before found).1
  untouched := by
    intro j later
    rw [withStage_stages_ne (by omega)]
    exact reached.untouched (Nat.le_of_lt later)

/-- A failure of a single run is met between the channels of a chain, too. There are words for the one
if there are words for the other. -/
theorem Reached.fails {ended : Bool} {cpu : Cpu} {channels : Array (Channel Int)} {cause : Cause}
    (reached : Reached built stage values ended c) (ip : Option Int)
    (plain : cause.family ≠ .port ∨ cause = .sourceTerminated "") :
    Passed built stage (.error ((Snag.cause cause).stop ip))
      (some (.error ((Snag.cause (cause.through s!"link-{stage}" s!"link-{stage + 1}")).stop ip)),
        c.withStage stage cpu channels) := by
  have kept := cause.isLegible_through s!"link-{stage}" s!"link-{stage + 1}"
  cases legible : cause.isLegible with
  | true =>
    rw [Snag.stop_cause legible, Snag.stop_cause (kept.trans legible)]
    exact .faulted reached.interrupted plain
  | false =>
    -- a port fault can always be worded
    have inner : cause.family ≠ .port := by
      rcases plain with inner | rfl
      · exact inner
      · cases legible
    rw [Cause.through_of_family inner]
    have bare : (Snag.cause cause).stop ip = .unworded (.cause cause) := by
      simp [Snag.stop, Snag.fault?, legible]
    rw [bare]
    exact .unworded reached.interrupted

theorem onStage_of_ending {cpu next last : Cpu} {actions : List PortAction}
    {after channels : Array (Channel Int)} {answer : Except Stop Nat}
    (found : c.stages[stage]? = some cpu)
    (transcript : Cpu.Transcript actions cpu next)
    (answered : AllAnswered (c.wiring stage) actions c.channels after)
    (ending : Cpu.Ending (c.wiring stage) allowance actions.length next after
      (answer, last, channels)) :
    (c.onStage stage fun w => Cpu.run w allowance) =
      (some answer, c.withStage stage last channels) := by
  rw [onStage_eq_some found, Cpu.run_of_ending transcript answered ending]
  rfl

theorem Reached.turn (reached : Reached built stage values true c)
    (fresh : Fresh memory phases built) (chain : built.feedback = false)
    (here : phases[stage]? = some phase) (allowance : Nat) :
    Passed built stage (Batch.outputs allowance memory values phase)
      (c.onStage stage fun w => Cpu.run w allowance) := by
  have before : stage < phases.length := (List.getElem?_eq_some_iff.1 here).1
  have count : built.channels.size = phases.length + 1 := by simp [fresh.channels_size, chain]
  have output : c.outputOf stage = stage + 1 := by
    rw [reached.outputOf, Circuit.outputOf, chain]
    rfl
  have found := reached.found fresh here
  have source : (channelAt c.channels stage).closed = true :=
    reached.closed fresh (by omega)
  have opened : (channelAt c.channels (stage + 1)).closed = false :=
    reached.next_open fresh (by omega)
  have queued : (channelAt c.channels stage).queue = values := reached.queue fresh (by omega)
  obtain ⟨actions, next, rest, after, transcript, answered, carried, split, came⟩ :=
    exists_run (by rw [output, reached.channels_size, count]; omega) queued (by rwa [output])
      allowance memory phase s!"stage-{stage}"
  rw [output] at carried
  generalize Batch.outputs allowance memory values phase = result at came ⊢
  cases came with
  | halted within halted =>
    have ends : .ended ∈ actions := (transcript.halted_iff rfl).1 halted
    rw [onStage_of_ending found transcript answered (.halted within halted)]
    exact .onward (reached.passed (by rw [fresh.stages_size]; omega) carried ends halted
      transcript.fault_eq)
  | spent same going =>
    rw [onStage_of_ending found transcript answered (.spent same going)]
    exact .unfinished
  | failed within going offers fails same =>
    subst same
    -- the sink is still open, so its ports offer what the finite input of the single run offers
    have goes : .ended ∉ actions := by
      intro ends
      cases going.symm.trans ((transcript.halted_iff rfl).2 ends)
    have left := carried.offers (Nat.ne_of_lt (Nat.lt_succ_self stage)) goes (queued.trans split)
      source opened
    rw [reached.name fresh (by omega), ← output] at left
    obtain ⟨met, there, failing⟩ :=
      fails.elsewhere (offers.alike left s!"link-{stage + 1}") s!"stage-{stage}"
    have stepped := Cpu.step_of_fails failing
    rw [onStage_of_ending found transcript answered (.stopped within going stepped)]
    exact reached.fails _ (fails.cause_of_offers offers)

/-- What a chain comes to, given what the relay of single runs comes to. -/
inductive Finished (built : Circuit) :
    Except (Nat × Stop) (List Int) → Option CircuitError × Circuit → Prop
  | delivered {values : List Int} {c : Circuit} : Reached built built.stages.size values true c →
      Finished built (.ok values) (none, c)
  | unfinished {stage : Nat} {c : Circuit} :
      Finished built (.error (stage, .unfinished)) (some (.stageStopped .unfinished), c)
  | faulted {stage : Nat} {fault : Fault} {c : Circuit} : stage < built.stages.size →
      Interrupted built stage c →
      fault.cause.family ≠ .port ∨ fault.cause = .sourceTerminated "" →
      Finished built (.error (stage, .fault fault))
        (some (.stageFaulted false stage (.fault (linked stage fault))), c)
  | unworded {stage : Nat} {snag : Snag} {c : Circuit} : stage < built.stages.size →
      Interrupted built stage c →
      Finished built (.error (stage, .unworded snag)) (some (.stageStopped (.unworded snag)), c)

theorem Reached.runInOrder (reached : Reached built stage values true c)
    (fresh : Fresh memory phases built) (chain : built.feedback = false)
    (left : phases.drop stage = rest) (within : stage ≤ phases.length) (allowance : Nat) :
    Finished built (relay allowance memory stage rest values)
      (runInOrder allowance (List.range' stage rest.length) c) := by
  induction rest generalizing stage values c with
  | nil =>
    have last : stage = built.stages.size := by
      rw [fresh.stages_size]
      exact Nat.le_antisymm within (List.drop_eq_nil_iff.1 left)
    rw [last] at reached
    exact .delivered reached
  | cons phase rest ih =>
    -- a stage that halts leaves its outputs, and their end, before the next one
    obtain ⟨here, later⟩ := of_drop_eq_cons left
    have before : stage < phases.length := (List.getElem?_eq_some_iff.1 here).1
    have passed := reached.turn fresh chain here allowance
    rw [relay, List.length_cons, List.range'_succ, Circuit.runInOrder]
    generalize Batch.outputs allowance memory values phase = result at passed ⊢
    generalize (c.onStage stage fun w => Cpu.run w allowance) = turn at passed ⊢
    cases passed with
    | onward next => exact ih next later before
    | unfinished => exact .unfinished
    | faulted interrupted plain =>
      exact .faulted (fresh.stages_size ▸ before) interrupted plain
    | unworded interrupted => exact .unworded (fresh.stages_size ▸ before) interrupted

theorem Reached.closeEntry (reached : Reached built 0 values false c)
    (inside : 0 < built.channels.size) : Reached built 0 values true c.closeEntry := by
  have closed : c.closeEntry =
      { c with channels := c.channels.setIfInBounds 0 (channelAt c.channels 0).closeSender } := by
    rw [Circuit.closeEntry, onChannel_eq]
    rfl
  have entry : 0 < c.channels.size := reached.channels_size ▸ inside
  rw [closed]
  refine ⟨reached.feedback, reached.stages_size, ?_, reached.halted, reached.untouched, ?_, ?_⟩
  · exact Array.size_setIfInBounds.trans reached.channels_size
  · rw [channelAt_setIfInBounds_self entry]
    simpa using reached.source.trans (Channel.moved_closeSender _)
  · intro j later
    rw [channelAt_setIfInBounds_ne (Nat.ne_of_lt later)]
    exact reached.beyond later

theorem Reached.chainResult (reached : Reached built built.stages.size values true c)
    (fresh : Fresh memory phases built) (chain : built.feedback = false) :
    c.chainResult = match values.getLast? with
      | some value => .ok value
      | none => .error (.noOutput false built.lastStage) := by
  have count : built.channels.size = built.stages.size + 1 := by
    simp [fresh.channels_size, fresh.stages_size, chain]
  have inside : built.stages.size < c.channels.size := by
    rw [reached.channels_size, count]
    exact Nat.lt_succ_self _
  have back : c.channels.back? = some (channelAt c.channels built.stages.size) := by
    rw [Array.back?_eq_getElem?, reached.channels_size, count, Nat.add_sub_cancel,
      getElem?_channelAt inside]
  have last : (channelAt c.channels built.stages.size).last? = values.getLast? := by
    have history := reached.source.history
    rw [fresh.channel (by omega)] at history
    rw [Channel.last?_eq_getLast?, history]
    rfl
  have lastStage : c.lastStage = built.lastStage := congrArg (· - 1) reached.stages_size
  rw [Circuit.chainResult, back, Option.bind_some, last]
  cases values.getLast? with
  | some value => rfl
  | none =>
    show Except.error (CircuitError.noOutput false c.lastStage) = _
    rw [lastStage]

theorem diagnostic_linked {fault : Fault} (stage : Nat)
    (plain : fault.cause.family ≠ .port ∨ fault.cause = .sourceTerminated "") :
    (CircuitError.stageFaulted false stage (.fault (linked stage fault))).diagnostic =
      .circuit s!"Stage {stage} faulted: {messageAt stage fault}" (some (stage : Int)) := by
  have worded : (linked stage fault).diagnostic.message = messageAt stage fault := by
    rw [Fault.message_diagnostic, Fault.message, linked, Cause.message_through _ _ plain]
    simp [messageAt, Fault.isPort]
  rw [← worded]
  rfl

theorem relay_mono
    (ended : ∀ place, relay allowance memory stage rest values ≠ .error (place, .unfinished))
    (more : allowance ≤ larger) :
    relay larger memory stage rest values = relay allowance memory stage rest values := by
  induction rest generalizing stage values with
  | nil => rfl
  | cons phase rest ih =>
    rw [relay] at ended
    have first : Batch.outputs allowance memory values phase ≠ .error .unfinished := by
      intro unfinished
      rw [unfinished] at ended
      exact ended stage rfl
    rw [relay, relay, Batch.outputs_mono first more]
    cases ran : Batch.outputs allowance memory values phase with
    | error stop => rfl
    | ok outs =>
      rw [ran] at ended
      exact ih ended

/-- A chain against the relay of single runs: what it answers, and the circuit that it leaves. -/
inductive Composes (built : Circuit) :
    Except (Nat × Stop) (List Int) → Except CircuitError Int × Circuit → Prop
  | delivered {outs : List Int} {value : Int} {final : Circuit} : outs.getLast? = some value →
      final.allHalted = true → Composes built (.ok outs) (.ok value, final)
  | silent {error : CircuitError} {final : Circuit} : final.allHalted = true →
      error = .noOutput false (built.stages.size - 1) →
      error.diagnostic = .circuit "Final stage produced no output"
        (some ((built.stages.size - 1 : Nat) : Int)) →
      Composes built (.ok []) (.error error, final)
  | faulted {stage : Nat} {fault : Fault} {error : CircuitError} {final : Circuit} :
      stage < built.stages.size → Interrupted built stage final →
      error = .stageFaulted false stage (.fault (linked stage fault)) →
      error.diagnostic =
        .circuit s!"Stage {stage} faulted: {messageAt stage fault}" (some (stage : Int)) →
      Composes built (.error (stage, .fault fault)) (.error error, final)
  /-- There are no words for what went wrong, with the stage's number or without it. -/
  | unworded {stage : Nat} {snag : Snag} {error : CircuitError} {final : Circuit} :
      stage < built.stages.size → Interrupted built stage final →
      error = .stageStopped (.unworded snag) → error.diagnostic = .badValue Text.illegibleMessage →
      Composes built (.error (stage, .unworded snag)) (.error error, final)
  | unfinished {stage : Nat} {final : Circuit} :
      Composes built (.error (stage, .unfinished)) (.error (.stageStopped .unfinished), final)

theorem runChain_composes (fresh : Fresh memory phases built) (chain : built.feedback = false)
    (allowance : Nat) (seed : Int) :
    Composes built (relay allowance memory 0 phases [seed]) (built.runChain allowance seed) := by
  have inside : 0 < built.channels.size := by simp [fresh.channels_size, chain]
  obtain ⟨start, injected, seeded⟩ := reached_inject fresh inside seed
  have entered := seeded.closeEntry inside
  have finished := entered.runInOrder fresh chain List.drop_zero (Nat.zero_le _) allowance
  have count : List.range start.stages.size = List.range' 0 phases.length := by
    rw [seeded.stages_size, fresh.stages_size, List.range_eq_range']
  rw [runChain, injected]
  simp only [count]
  generalize relay allowance memory 0 phases [seed] = relayed at finished ⊢
  generalize start.closeEntry.runInOrder allowance (List.range' 0 phases.length) = ran at finished ⊢
  cases finished with
  | @delivered outs last reached =>
    have halted := reached.settled.halted
    simp only [reached.chainResult fresh chain]
    cases final : outs.getLast? with
    | some value => exact .delivered final halted
    | none =>
      cases List.getLast?_eq_none_iff.1 final
      exact .silent halted rfl rfl
  | unfinished => exact .unfinished
  | faulted before interrupted plain =>
    exact .faulted before interrupted rfl (diagnostic_linked _ plain)
  | unworded before interrupted => exact .unworded before interrupted rfl rfl

/-- A chain is the composition of single runs, with any allowance; and once the single runs have come
to an end, no larger allowance changes what they come to. -/
theorem chain_composes (memory : Memory) (phases : List (Option Int)) (stages : phases ≠ [])
    (seed : Int) :
    ∃ c, build memory phases false = .ok c ∧ c.stages.size = phases.length ∧ ∀ allowance,
      Composes c (relay allowance memory 0 phases [seed]) (c.run allowance seed) ∧
      ((∀ stage, relay allowance memory 0 phases [seed] ≠ .error (stage, .unfinished)) →
        ∀ larger, allowance ≤ larger →
          relay larger memory 0 phases [seed] = relay allowance memory 0 phases [seed]) := by
  obtain ⟨c, built, fresh, chain⟩ := exists_build memory stages false
  refine ⟨c, built, fresh.stages_size, ?_⟩
  intro allowance
  constructor
  · have composes := runChain_composes fresh chain allowance seed
    rwa [← show c.run allowance seed = _ from if_neg (by simp [chain])] at composes
  · intro ended larger more
    exact relay_mono ended more

/-- The second of two stages that add two inputs has no phase and starves. -/
theorem chain_composes_starved :
    let memory : Memory := .ofWords [3, 11, 3, 12, 1, 11, 12, 11, 4, 11, 99, 0, 0] 0
    let error : CircuitError :=
      .stageFaulted false 1 (.fault ⟨.sourceTerminated "link-1", some 2⟩)
    [some 1, none] ≠ ([] : List (Option Int)) ∧
      ∃ c final, build memory [some 1, none] false = .ok c ∧
        relay 6 memory 0 [some 1, none] [5] = .error (1, .fault ⟨.sourceTerminated "", some 2⟩) ∧
        c.run 6 5 = (.error error, final) ∧ Interrupted c 1 final ∧
        error.diagnostic =
          .circuit "Stage 1 faulted: pull from terminated source (link-1) (ip=2)" (some 1) := by
  intro memory error
  have relayed : relay 6 memory 0 [some 1, none] [5] =
      .error (1, .fault ⟨.sourceTerminated "", some 2⟩) := by decide +kernel
  obtain ⟨c, built, -, composes⟩ := chain_composes memory [some 1, none] (by decide) 5
  obtain ⟨follows, -⟩ := composes 6
  rcases ran : c.run 6 5 with ⟨answer, final⟩
  rw [relayed, ran] at follows
  cases follows with
  | faulted before interrupted same reported =>
    subst same
    exact ⟨by decide, c, final, built, relayed, ran, interrupted, reported⟩

end Amplifier.Circuit

end IntcodeVM
