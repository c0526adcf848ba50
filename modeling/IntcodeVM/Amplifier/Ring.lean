import IntcodeVM.Amplifier.Chain
import IntcodeVM.Amplifier.Schedule

/-!
Running a ring: all stages at once. A stage that finds its channel empty waits until another stage
has sent something. A turn ends with the stage's next output at the latest, so a stage that sends
without end does not keep the others from their turns. This is one of many possible schedules, and
stages interact through the channels alone.
-/

namespace IntcodeVM.Amplifier

def Turn.ofRun : Option (Except Stop (Option Int)) → Turn Stop
  | some (.ok (some _)) => .sent
  | some (.error .waiting) => .waiting
  | some (.error .unfinished) => .unfinished
  | some (.error stop) => .failed stop
  | some (.ok none) | none => .halted

namespace Circuit

def stageHalted (c : Circuit) (stage : Nat) : Bool := ((c.stage? stage).map Cpu.halted).getD true

/-- Lets a stage run until it sends a value, halts, stops or has to wait. A stage that has halted
stays as it is. -/
def turn (allowance stage : Nat) (c : Circuit) : Turn Stop × Circuit :=
  if c.stageHalted stage then (.halted, c)
  else
    let (answer, c) := c.onStage stage fun w => Cpu.runUntilOutput w allowance
    (.ofRun answer, c)

def totalSteps (c : Circuit) : Nat := c.stages.toList.foldr (fun cpu total => cpu.steps + total) 0

def schedule (allowance : Nat) : Schedule Circuit Stop := ⟨turn allowance, totalSteps⟩

/-- What is left on the closed loop at the end: the last value sent to the first stage, if it is not
the seed. -/
def loopResult (c : Circuit) : Except CircuitError Int :=
  match c.channels[0]?.map fun ch => (ch.sent, ch.last?) with
  | some (sent, some value) =>
    if sent ≤ 1 then .error (.noOutput true c.lastStage) else .ok value
  | _ => .error (.noOutput true c.lastStage)

def runRing (allowance : Nat) (seed : Int) (c : Circuit) : Except CircuitError Int × Circuit :=
  match c.inject seed with
  | (some cause, c) => (.error (.seedRefused cause), c)
  | (none, c) =>
    let stages := List.range c.stages.size
    let (settlement, faults, c) := (schedule allowance).run allowance stages c.faults c
    let c := { c with faults }
    match settlement with
    | .stuck => (.error (.stageStopped .waiting), c)
    | .unfinished => (.error (.stageStopped .unfinished), c)
    | .ended =>
      match rootFailure? Stop.isPortFault faults with
      | some (stage, stop) => (.error (.stageFaulted true stage stop), c)
      | none => (c.loopResult, c)

def run (allowance : Nat) (seed : Int) (c : Circuit) : Except CircuitError Int × Circuit :=
  if c.feedback then c.runRing allowance seed else c.runChain allowance seed

end Circuit

end IntcodeVM.Amplifier
