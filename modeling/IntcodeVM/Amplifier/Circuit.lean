import IntcodeVM.Cpu.Run
import IntcodeVM.Diagnostic

/-!
Amplifier circuits: stages that run one program, each with its own phase, linked by channels. A
chain ends in a channel of its own; in a ring the last stage sends to the channel that the first one
reads. A stage touches only its own state and the channels on its two sides.
-/

namespace IntcodeVM.Amplifier

/-- Stage `i` reads channel `i` and sends to the next one. `faults` lists the ring stages that
stopped, in the order in which they said so. -/
structure Circuit where
  feedback : Bool
  stages : Array Cpu
  channels : Array (Channel Int)
  faults : List (Nat × Stop) := []

inductive CircuitError where
  | noStages
  | seedRefused (cause : Cause)
  | stageFaulted (feedback : Bool) (stage : Nat) (stop : Stop)
  /-- A stage of a chain did not run at all, did not come to an end or broke off. -/
  | stageStopped (stop : Stop)
  | noOutput (feedback : Bool) (stage : Nat)
  deriving DecidableEq, Repr

def CircuitError.message : CircuitError → String
  | noStages => "A pipeline needs at least one stage"
  | seedRefused cause => cause.message
  | stageFaulted _ stage stop => s!"Stage {stage} faulted: {stop.diagnostic.message}"
  | stageStopped stop => stop.message
  | noOutput false _ => "Final stage produced no output"
  | noOutput true _ => "Ring produced no output"

def CircuitError.diagnostic (e : CircuitError) : Diagnostic :=
  match e with
  | noStages => .badValue e.message
  | seedRefused cause => cause.diagnostic
  | stageFaulted _ stage _ | noOutput _ stage => .circuit e.message (some (stage : Int))
  | stageStopped stop => stop.diagnostic

namespace Circuit

def freshStages (memory : Memory) (phases : List (Option Int)) : List Cpu :=
  phases.zipIdx.map fun (phase, i) => { name := s!"stage-{i}", memory, phase }

def freshChannels (count : Nat) : List (Channel Int) :=
  (List.range count).map fun i => { name := s!"link-{i}" }

def build (memory : Memory) (phases : List (Option Int)) (feedback : Bool) :
    Except CircuitError Circuit :=
  if phases.isEmpty then .error .noStages
  else .ok {
    feedback
    stages := (freshStages memory phases).toArray
    channels := (freshChannels (phases.length + if feedback then 0 else 1)).toArray }

def outputOf (c : Circuit) (stage : Nat) : Nat :=
  if c.feedback then (stage + 1) % c.stages.size else stage + 1

/-- Changes one channel and leaves the others alone. Its place is vacated meanwhile, so that the
channel has no second holder and a long history grows in place. -/
def onChannel {α : Type} (i : Nat) (f : Channel Int → α × Channel Int)
    (channels : Array (Channel Int)) : α × Array (Channel Int) :=
  let ch := channels[i]?.getD {}
  let vacated := channels.setIfInBounds i {}
  let (answer, ch) := f ch
  (answer, vacated.setIfInBounds i ch)

theorem onChannel_eq {α : Type} (i : Nat) (f : Channel Int → α × Channel Int)
    (channels : Array (Channel Int)) :
    onChannel i f channels =
      ((f (channels[i]?.getD default)).1,
        channels.setIfInBounds i (f (channels[i]?.getD default)).2) := by
  simp only [onChannel, Array.setIfInBounds_setIfInBounds]
  rfl

def link (input output : Nat) : Wiring (Array (Channel Int)) where
  pull := onChannel input Channel.pull
  push value := onChannel output (Channel.push value)
  closeInput channels := (onChannel input (fun ch => ((), ch.closeReceiver)) channels).2
  closeOutput channels := (onChannel output (fun ch => ((), ch.closeSender)) channels).2

def wiring (c : Circuit) (stage : Nat) : Wiring (Array (Channel Int)) :=
  link stage (c.outputOf stage)

/-- Lets one stage act on the channels; a stage that the circuit does not have does nothing. Its
place is vacated meanwhile, so that the stage has no second holder and its memory changes in
place. -/
def onStage {α : Type} (c : Circuit) (stage : Nat)
    (act : Wiring (Array (Channel Int)) → Cpu → Array (Channel Int) →
      α × Cpu × Array (Channel Int)) : Option α × Circuit :=
  match c.stages[stage]? with
  | none => (none, c)
  | some cpu =>
    let w := c.wiring stage
    let ⟨feedback, stages, channels, faults⟩ := c
    let vacated := stages.setIfInBounds stage default
    let (answer, cpu, channels) := act w cpu channels
    (some answer, ⟨feedback, vacated.setIfInBounds stage cpu, channels, faults⟩)

theorem onStage_eq_none {α : Type} {c : Circuit} {stage : Nat} (h : c.stages[stage]? = none)
    (act : Wiring (Array (Channel Int)) → Cpu → Array (Channel Int) →
      α × Cpu × Array (Channel Int)) : c.onStage stage act = (none, c) := by
  simp [onStage, h]

theorem onStage_eq_some {α : Type} {c : Circuit} {stage : Nat} {cpu : Cpu}
    (h : c.stages[stage]? = some cpu)
    (act : Wiring (Array (Channel Int)) → Cpu → Array (Channel Int) →
      α × Cpu × Array (Channel Int)) :
    c.onStage stage act =
      let (answer, cpu, channels) := act (c.wiring stage) cpu c.channels
      (some answer, { c with stages := c.stages.setIfInBounds stage cpu, channels }) := by
  simp [onStage, h]

def stage? (c : Circuit) (stage : Nat) : Option Cpu := c.stages[stage]?

def inject (c : Circuit) (seed : Int) : Option Cause × Circuit :=
  let (refused, channels) := onChannel 0 (Channel.push seed) c.channels
  (refused, { c with channels })

def lastStage (c : Circuit) : Nat := c.stages.size - 1

def allHalted (c : Circuit) : Bool := c.stages.all Cpu.halted

def report (c : Circuit) : List String :=
  (c.stages.toList.flatMap fun cpu => s!"=== {cpu.name} ===" :: cpu.report) ++
    c.channels.toList.map fun ch => "  " ++ ch.describe

end Circuit

end IntcodeVM.Amplifier
