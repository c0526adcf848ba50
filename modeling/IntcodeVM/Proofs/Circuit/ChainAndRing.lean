import IntcodeVM.Proofs.Circuit.Composition

/-! A ring against a chain of the same stages. Where every single run halts, running the stages of
the ring one after the other is one of the orders in which they can step, and it settles the ring.
Main statement: if the chain answers a value, then every order of steps brings the ring to an end at
which this value is left on the loop; and if the chain is silent, so is the ring. -/
namespace IntcodeVM.Amplifier.Circuit

open Settling PortAction

variable {memory : Memory} {phases rest : List (Option Int)} {phase : Option Int}
  {built c next : Circuit} {stage allowance : Nat} {values outs : List Int} {ended : Bool}
  {actions : List PortAction} {cpu later : Cpu} {after : Array (Channel Int)} {seed : Int}

theorem path_of_transcript (transcript : Cpu.Transcript actions cpu later)
    (found : c.stages[stage]? = some cpu)
    (answered : AllAnswered (c.wiring stage) actions c.channels after) :
    Path Runs (List.replicate actions.length stage) c (c.withStage stage later after) := by
  induction transcript generalizing c with
  | nil =>
    cases answered
    rw [withStage_self found]
    exact .nil c
  | @cons action actions cpu mid later acts rest ih =>
    obtain ⟨op, acts⟩ := acts
    cases answered with
    | @cons _ _ _ channels _ first onward =>
      have runs : Runs stage c (c.withStage stage mid channels) :=
        runs_iff.2 ⟨cpu, op, action, mid, channels, found, acts, first, rfl⟩
      have there : (c.withStage stage mid channels).stages[stage]? = some mid :=
        withStage_stages_self (lt_size_of_getElem? found)
      have wired : (c.withStage stage mid channels).wiring stage = c.wiring stage := by
        rw [wiring, withStage_outputOf, wiring]
      have path := ih there (wired ▸ onward)
      rw [withStage_again] at path
      exact .cons runs path

/-- Nothing but the seed has been sent to the first stage, and it can be sent more. -/
structure Entered (seed : Int) (c : Circuit) : Prop where
  history : (channelAt c.channels 0).history.toList = [seed]
  opened : (channelAt c.channels 0).closed = false

/-- All stages have halted, and these values have come around behind the seed. -/
structure Closed (built : Circuit) (seed : Int) (outs : List Int) (c : Circuit) : Prop where
  stages_size : c.stages.size = built.stages.size
  channels_size : c.channels.size = built.channels.size
  settled : c.Settled
  history : (channelAt c.channels 0).history.toList = seed :: outs

theorem Entered.of_inject (seeded : Reached built 0 [seed] false c)
    (fresh : Fresh memory phases built) (inside : 0 < built.channels.size) : Entered seed c where
  history := by
    rw [seeded.source.history, fresh.channel inside]
    rfl
  opened := seeded.closed fresh inside

theorem Reached.closedLoop (reached : Reached built stage values ended c)
    (last : stage + 1 = built.stages.size) (entered : Entered seed c)
    (carried : Carried stage 0 actions c.channels after)
    (halted : later.halted = true) (clean : later.fault = none) :
    Closed built seed (outputs actions) (c.withStage stage later after) where
  stages_size := by rw [← reached.stages_size, withStage, Array.size_setIfInBounds]
  channels_size := carried.size.trans reached.channels_size
  settled := by
    apply settled_of_stages
    intro j cpu found
    have before : j < stage + 1 := by
      have within := lt_size_of_getElem? found
      rw [withStage, Array.size_setIfInBounds, reached.stages_size] at within
      omega
    exact reached.halted_withStage (by omega) halted clean before found
  history := by
    have history := (carried.moved 0).history
    rw [if_pos rfl, entered.history] at history
    exact history

theorem Entered.passed (entered : Entered seed c)
    (carried : Carried stage (stage + 1) actions c.channels after) :
    Entered seed (c.withStage stage later after) where
  history := by
    have history := (carried.moved 0).history
    rw [if_neg (Nat.zero_ne_add_one stage), List.append_nil, entered.history] at history
    exact history
  opened := by
    have closed := (carried.moved 0).closed
    simp only [Nat.zero_ne_add_one stage, false_and, decide_false, Bool.or_false] at closed
    exact closed.trans entered.opened

theorem relay_cons_eq_ok_iff :
    relay allowance memory stage (phase :: rest) values = .ok outs ↔
      ∃ sent, Batch.outputs allowance memory values phase = .ok sent ∧
        relay allowance memory (stage + 1) rest sent = .ok outs := by
  rw [relay]
  cases Batch.outputs allowance memory values phase with
  | error stop => simp
  | ok sent => simp

theorem Reached.halts (reached : Reached built stage values ended c)
    (fresh : Fresh memory phases built) (here : phases[stage]? = some phase)
    (source : stage < built.channels.size) (sink : c.outputOf stage < built.channels.size)
    (opened : (channelAt c.channels (c.outputOf stage)).closed = false)
    (ran : Batch.outputs allowance memory values phase = .ok outs) :
    ∃ actions later after, outputs actions = outs ∧ .ended ∈ actions ∧
      later.halted = true ∧ later.fault = none ∧
      Carried stage (c.outputOf stage) actions c.channels after ∧
      Path Runs (List.replicate actions.length stage) c (c.withStage stage later after) := by
  obtain ⟨actions, next, left, after, transcript, answered, carried, -, came⟩ :=
    exists_run (reached.channels_size ▸ sink) (reached.queue fresh source) opened allowance memory
      phase s!"stage-{stage}"
  rw [ran] at came
  cases came with
  | halted within halted =>
    have path := path_of_transcript transcript (reached.found fresh here) answered
    exact ⟨actions, next.renamed s!"stage-{stage}", after, rfl,
      (transcript.halted_iff rfl).1 halted, halted, transcript.fault_eq, carried, path⟩

theorem Reached.round (reached : Reached built stage values ended c)
    (fresh : Fresh memory phases built) (ring : built.feedback = true) (entered : Entered seed c)
    (left : phases.drop stage = phase :: rest)
    (relayed : relay allowance memory stage (phase :: rest) values = .ok outs) :
    ∃ order final, Path Runs order c final ∧ Closed built seed outs final := by
  have count : built.channels.size = phases.length := by simp [fresh.channels_size, ring]
  induction rest generalizing stage values ended c phase with
  | nil =>
    -- the last stage sends back to the entry of the loop
    obtain ⟨here, -⟩ := of_drop_eq_cons left
    have last : stage + 1 = phases.length := by
      have length := congrArg List.length left
      simp only [List.length_drop, List.length_singleton] at length
      omega
    have output : c.outputOf stage = 0 := by
      rw [reached.outputOf, Circuit.outputOf, if_pos ring, fresh.stages_size, last, Nat.mod_self]
    obtain ⟨sent, ran, rfl⟩ : ∃ sent, Batch.outputs allowance memory values phase = .ok sent ∧
        sent = outs := by
      obtain ⟨sent, ran, same⟩ := relay_cons_eq_ok_iff.1 relayed
      exact ⟨sent, ran, Except.ok.inj same⟩
    obtain ⟨actions, later, after, rfl, -, halted, clean, carried, path⟩ :=
      reached.halts fresh here (by omega) (by rw [output]; omega) (output ▸ entered.opened) ran
    rw [output] at carried
    exact ⟨_, _, path, reached.closedLoop (last.trans fresh.stages_size.symm) entered carried halted
      clean⟩
  | cons another rest ih =>
    obtain ⟨here, onward⟩ := of_drop_eq_cons left
    have more : stage + 1 < phases.length := by
      have length := congrArg List.length onward
      simp only [List.length_drop, List.length_cons] at length
      omega
    have output : c.outputOf stage = stage + 1 := by
      rw [reached.outputOf, Circuit.outputOf, if_pos ring, fresh.stages_size,
        Nat.mod_eq_of_lt more]
    have opened : (channelAt c.channels (stage + 1)).closed = false :=
      reached.next_open fresh (by omega)
    obtain ⟨sent, ran, relayed⟩ := relay_cons_eq_ok_iff.1 relayed
    obtain ⟨actions, later, after, rfl, ends, halted, clean, carried, path⟩ :=
      reached.halts fresh here (by omega) (by omega) (output ▸ opened) ran
    rw [output] at carried
    have inside : stage < built.stages.size := by
      rw [fresh.stages_size]
      omega
    obtain ⟨order, final, further, closed⟩ := ih
      (reached.passed inside carried ends halted clean) (entered.passed carried) onward relayed
    exact ⟨_, final, path.append further, closed⟩

theorem Closed.loopResult (closed : Closed built seed outs c) (inside : 0 < built.channels.size) :
    c.loopResult = match outs.getLast? with
      | some value => .ok value
      | none => .error (.noOutput true (built.stages.size - 1)) := by
  have entry : c.channels[0]? = some (channelAt c.channels 0) :=
    getElem?_channelAt (closed.channels_size ▸ inside)
  have sent : (channelAt c.channels 0).sent = outs.length + 1 := by
    rw [Channel.sent_eq_length, closed.history, List.length_cons]
  have last : (channelAt c.channels 0).last? = (seed :: outs).getLast? := by
    rw [Channel.last?_eq_getLast?, closed.history]
  simp only [Circuit.loopResult, entry, Option.map_some, sent, last, Circuit.lastStage,
    closed.stages_size]
  cases outs with
  | nil => rfl
  | cons first others =>
    rw [List.getLast?_cons_cons]
    cases final : (first :: others).getLast? with
    | none => cases List.getLast?_eq_none_iff.1 final
    | some value => simp

/-- Whatever order the stages of a ring step in, it comes to an end without a fault, and this is what
is left on the loop then. The ring's own rounds are one of these orders. -/
structure ComesTo (ring start : Circuit) (seed : Int) (answer : Except CircuitError Int)
    (order : List Nat) (final : Circuit) : Prop where
  reached : Interleaving order start final
  settled : final.Settled
  confluent : Confluent start final order
  left : final.loopResult = answer
  rounds {allowance : Nat} : order.length < allowance → ring.run allowance seed = (answer, final)

theorem comesTo_of_relay {ring start : Circuit} (fresh : Fresh memory phases ring)
    (loop : ring.feedback = true) (stages : phases ≠ []) (seeded : ring.inject seed = (none, start))
    (relayed : relay allowance memory 0 phases [seed] = .ok outs) :
    ∃ order final, ComesTo ring start seed (match outs.getLast? with
      | some value => .ok value
      | none => .error (.noOutput true (phases.length - 1))) order final := by
  have some : 0 < phases.length := List.length_pos_iff.2 stages
  have inside : 0 < ring.channels.size := by
    rw [fresh.channels_size]
    omega
  obtain ⟨_, again, reached⟩ := reached_inject fresh inside seed
  cases seeded.symm.trans again
  have unfaulted : start.faults = [] := by
    rw [← fresh.faults, ← show (ring.inject seed).2.faults = ring.faults from rfl, seeded]
  obtain ⟨first, rest, rfl⟩ := List.exists_cons_of_ne_nil stages
  obtain ⟨order, final, path, closed⟩ :=
    reached.round fresh loop (.of_inject reached fresh inside) List.drop_zero relayed
  have left := closed.loopResult inside
  rw [fresh.stages_size] at left
  have steps := interleaving_of_path path
  refine ⟨order, final, steps, closed.settled, steps.confluent closed.settled, left, ?_⟩
  intro allowance enough
  rw [run, if_pos loop, runRing_settles seeded unfaulted path closed.settled enough, left]

/-- Where a chain answers a value, the ring of its stages comes to the same value in every order of
steps; and where it is silent at its last stage, so is the ring. -/
theorem ring_agrees_with_chain (memory : Memory) (phases : List (Option Int)) (stages : phases ≠ [])
    (seed : Int) :
    ∃ chain ring start, build memory phases false = .ok chain ∧ build memory phases true = .ok ring ∧
      ring.inject seed = (none, start) ∧ ∀ allowance,
        (∀ value, (chain.run allowance seed).1 = .ok value →
          ∃ order final, ComesTo ring start seed (.ok value) order final) ∧
        ∀ stage, (chain.run allowance seed).1 = .error (.noOutput false stage) →
          stage = phases.length - 1 ∧
          ∃ error order final, ComesTo ring start seed (.error error) order final ∧
            error = .noOutput true stage ∧
            error.diagnostic = .circuit "Ring produced no output" (some (stage : Int)) := by
  obtain ⟨chain, chained, fresh, linear⟩ := exists_build memory stages false
  obtain ⟨ring, looped, freshRing, loop⟩ := exists_build memory stages true
  have some : 0 < phases.length := List.length_pos_iff.2 stages
  have inside : 0 < ring.channels.size := by simpa [freshRing.channels_size, loop]
  obtain ⟨start, seeded, -⟩ := reached_inject freshRing inside seed
  refine ⟨chain, ring, start, chained, looped, seeded, ?_⟩
  intro allowance
  have same : chain.run allowance seed = chain.runChain allowance seed :=
    if_neg (by simp [linear])
  have composes := runChain_composes fresh linear allowance seed
  rw [same]
  generalize chain.runChain allowance seed = ended at composes ⊢
  obtain ⟨answer, last⟩ := ended
  constructor
  · rintro value rfl
    generalize relayed : relay allowance memory 0 phases [seed] = outcome at composes
    cases composes with
    | delivered final _ =>
      have comes := comesTo_of_relay freshRing loop stages seeded relayed
      rwa [final] at comes
  · rintro stage rfl
    generalize relayed : relay allowance memory 0 phases [seed] = outcome at composes
    cases composes with
    | silent _ silence _ =>
      cases silence
      rw [fresh.stages_size]
      obtain ⟨order, final, comes⟩ := comesTo_of_relay freshRing loop stages seeded relayed
      exact ⟨rfl, _, order, final, comes, rfl, rfl⟩
    | faulted _ _ fault _ => cases fault
    | unworded _ _ broken _ => cases broken

/-- Two stages that add their phase to the signal. -/
theorem ring_agrees_with_chain_adders :
    let memory : Memory := .ofWords [3, 11, 3, 12, 1, 11, 12, 11, 4, 11, 99, 0, 0] 0
    let phases : List (Option Int) := [some 1, some 2]
    phases ≠ [] ∧ ∃ chain ring start, build memory phases false = .ok chain ∧
      build memory phases true = .ok ring ∧ ring.inject 5 = (none, start) ∧
      (chain.run 6 5).1 = .ok 8 ∧ ∃ order final, ComesTo ring start 5 (.ok 8) order final := by
  intro memory phases
  have stages : phases ≠ [] := by decide
  obtain ⟨chain, ring, start, chained, looped, seeded, agree⟩ :=
    ring_agrees_with_chain memory phases stages 5
  have answered : (chain.run 6 5).1 = .ok 8 := by
    cases chained
    decide +kernel
  exact ⟨stages, chain, ring, start, chained, looped, seeded, answered, (agree 6).1 8 answered⟩

end IntcodeVM.Amplifier.Circuit
