import IntcodeVM.Proofs.Circuit.Replay
import IntcodeVM.Proofs.Circuit.Rounds

namespace IntcodeVM.Amplifier.Circuit

open Settling PortAction

/-- A circuit as it is built. -/
structure Fresh (memory : Memory) (phases : List (Option Int)) (built : Circuit) : Prop where
  stages_size : built.stages.size = phases.length
  stages (j : Nat) : built.stages[j]? =
    phases[j]?.map fun phase => Cpu.renamed { memory, phase } s!"stage-{j}"
  channels_size : built.channels.size = phases.length + if built.feedback then 0 else 1
  faults : built.faults = []
  channel {j : Nat} : j < built.channels.size →
    channelAt built.channels j = .preloaded s!"link-{j}" []

/-- The stages before this one have halted, and these values have been sent to it, with an end to
them or not. The later stages and their outputs are as they were built. -/
structure Reached (built : Circuit) (stage : Nat) (values : List Int) (ended : Bool)
    (c : Circuit) : Prop where
  feedback : c.feedback = built.feedback
  stages_size : c.stages.size = built.stages.size
  channels_size : c.channels.size = built.channels.size
  halted {j : Nat} {cpu : Cpu} : j < stage → c.stages[j]? = some cpu →
    cpu.halted = true ∧ cpu.fault = none
  untouched {j : Nat} : stage ≤ j → c.stages[j]? = built.stages[j]?
  source : Channel.Moved values [] ended (channelAt built.channels stage)
    (channelAt c.channels stage)
  beyond {j : Nat} : stage < j → channelAt c.channels j = channelAt built.channels j

variable {memory : Memory} {phases : List (Option Int)}
  {built c : Circuit} {stage : Nat} {values : List Int} {ended : Bool}
  {actions : List PortAction} {cpu next : Cpu} {after : Array (Channel Int)}

theorem exists_build (memory : Memory) (stages : phases ≠ []) (feedback : Bool) :
    ∃ c, build memory phases feedback = .ok c ∧ Fresh memory phases c ∧ c.feedback = feedback := by
  refine ⟨_, if_neg (by simpa using stages), ⟨?_, ?_, ?_, rfl, ?_⟩, rfl⟩
  · simp [freshStages]
  · intro j
    simp only [freshStages, List.getElem?_toArray, List.getElem?_map, List.getElem?_zipIdx,
      Option.map_map, Nat.zero_add]
    rfl
  · simp [freshChannels]
  · intro j inside
    have counted : j < phases.length + if feedback = true then 0 else 1 := by
      simpa [freshChannels] using inside
    simp [channelAt, freshChannels, counted, Channel.preloaded]

theorem reached_inject (fresh : Fresh memory phases built) (inside : 0 < built.channels.size)
    (seed : Int) :
    ∃ start, built.inject seed = (none, start) ∧ Reached built 0 [seed] false start := by
  have opened : (channelAt built.channels 0).closed = false := by
    rw [fresh.channel inside]
    rfl
  refine ⟨_, inject_of_open opened seed, rfl, rfl, Array.size_setIfInBounds, ?_, ?_, ?_, ?_⟩
  · intro j cpu before
    cases before
  · intro j _
    rfl
  · rw [channelAt_setIfInBounds_self inside]
    exact Channel.moved_extend seed _
  · intro j later
    exact channelAt_setIfInBounds_ne (Nat.ne_of_lt later) _ _

theorem settled_of_stages
    (done : ∀ {j : Nat} {cpu : Cpu}, c.stages[j]? = some cpu → cpu.halted = true ∧ cpu.fault = none) :
    c.Settled where
  halted := by
    apply Array.all_eq_true.2
    intro j inside
    exact (done (Array.getElem?_eq_getElem inside)).1
  faultless := by
    intro cpu mem
    obtain ⟨j, inside, same⟩ := Array.mem_iff_getElem.1 mem
    exact (done (Array.getElem?_eq_some_iff.2 ⟨inside, same⟩)).2

theorem Reached.settled (reached : Reached built built.stages.size values ended c) : c.Settled := by
  apply settled_of_stages
  intro j cpu found
  have inside : j < built.stages.size := reached.stages_size ▸ lt_size_of_getElem? found
  exact reached.halted inside found

theorem Reached.outputOf (reached : Reached built stage values ended c) (i : Nat) :
    c.outputOf i = built.outputOf i := by
  rw [Circuit.outputOf, Circuit.outputOf, reached.feedback, reached.stages_size]

theorem Reached.queue (reached : Reached built stage values ended c)
    (fresh : Fresh memory phases built) (inside : stage < built.channels.size) :
    (channelAt c.channels stage).queue = values := by
  have queue := reached.source.queue
  rw [fresh.channel inside] at queue
  exact queue.symm

theorem Reached.closed (reached : Reached built stage values ended c)
    (fresh : Fresh memory phases built) (inside : stage < built.channels.size) :
    (channelAt c.channels stage).closed = ended := by
  rw [reached.source.closed, fresh.channel inside]
  exact Bool.false_or ended

theorem Reached.name (reached : Reached built stage values ended c)
    (fresh : Fresh memory phases built) (inside : stage < built.channels.size) :
    (channelAt c.channels stage).name = s!"link-{stage}" := by
  rw [reached.source.name, fresh.channel inside]
  rfl

theorem Reached.found (reached : Reached built stage values ended c)
    (fresh : Fresh memory phases built) {phase : Option Int} (here : phases[stage]? = some phase) :
    c.stages[stage]? = some (Cpu.renamed { memory, phase } s!"stage-{stage}") := by
  rw [reached.untouched (Nat.le_refl stage), fresh.stages, here, Option.map_some]

theorem Reached.next_open (reached : Reached built stage values ended c)
    (fresh : Fresh memory phases built) (inside : stage + 1 < built.channels.size) :
    (channelAt c.channels (stage + 1)).closed = false := by
  rw [reached.beyond (Nat.lt_succ_self stage), fresh.channel inside]
  rfl

theorem of_drop_eq_cons {phase : Option Int} {rest : List (Option Int)}
    (left : phases.drop stage = phase :: rest) :
    phases[stage]? = some phase ∧ phases.drop (stage + 1) = rest := by
  constructor
  · rw [← List.head?_drop, left, List.head?_cons]
  · rw [← List.tail_drop, left, List.tail_cons]

theorem getElem?_channelAt {channels : Array (Channel Int)} {i : Nat} (inside : i < channels.size) :
    channels[i]? = some (channelAt channels i) := by
  rw [channelAt, Array.getElem?_eq_getElem inside]
  rfl

/-- A stage does with its ports what a single run does with a list of inputs. -/
theorem exists_run (inside : c.outputOf stage < c.channels.size)
    (queued : (channelAt c.channels stage).queue = values)
    (opened : (channelAt c.channels (c.outputOf stage)).closed = false) (allowance : Nat)
    (memory : Memory) (phase : Option Int) (name : String) :
    ∃ actions next rest after,
      Cpu.Transcript actions (Cpu.renamed { memory, phase } name) (next.renamed name) ∧
      AllAnswered (c.wiring stage) actions c.channels after ∧
      Carried stage (c.outputOf stage) actions c.channels after ∧
      values = inputs actions ++ rest ∧
      Batch.Came allowance actions.length (outputs actions) rest next
        (Batch.outputs allowance memory values phase) := by
  obtain ⟨actions, next, rest, transcript, split, came⟩ :=
    Batch.outputs_came allowance memory values phase
  obtain ⟨after, answered, carried⟩ :=
    exists_carried (transcript.renamed name) inside (queued.trans split) opened
  exact ⟨actions, next, rest, after, transcript.renamed name, answered, carried, split, came⟩

theorem Reached.halted_withStage (reached : Reached built stage values ended c)
    (inside : stage < built.stages.size) (halted : next.halted = true) (clean : next.fault = none)
    {j : Nat} (before : j < stage + 1)
    (found : (c.withStage stage next after).stages[j]? = some cpu) :
    cpu.halted = true ∧ cpu.fault = none := by
  by_cases same : stage = j
  · subst same
    rw [withStage_stages_self (reached.stages_size ▸ inside)] at found
    cases found
    exact ⟨halted, clean⟩
  · rw [withStage_stages_ne same] at found
    exact reached.halted (by omega) found

theorem Reached.passed (reached : Reached built stage values ended c)
    (inside : stage < built.stages.size)
    (carried : Carried stage (stage + 1) actions c.channels after)
    (ends : .ended ∈ actions) (halted : next.halted = true) (clean : next.fault = none) :
    Reached built (stage + 1) (outputs actions) true (c.withStage stage next after) where
  feedback := reached.feedback
  stages_size := by rw [← reached.stages_size, withStage, Array.size_setIfInBounds]
  channels_size := carried.size.trans reached.channels_size
  halted := reached.halted_withStage inside halted clean
  untouched := by
    intro j later
    rw [withStage_stages_ne (by omega)]
    exact reached.untouched (by omega)
  source := by
    have moved := carried.moved (stage + 1)
    rw [reached.beyond (by omega)] at moved
    simpa [withStage, ends] using moved
  beyond := by
    intro j later
    have moved := carried.moved j
    have next : j ≠ stage + 1 := by omega
    have this : j ≠ stage := by omega
    simp only [next, this, if_false, false_and, decide_false] at moved
    exact moved.eq_of_quiet.trans (reached.beyond (by omega))

end IntcodeVM.Amplifier.Circuit
