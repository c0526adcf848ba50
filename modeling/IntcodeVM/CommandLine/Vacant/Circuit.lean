import IntcodeVM.Amplifier.Search
import IntcodeVM.CommandLine.Vacant.Step

/-!
Amplifier circuits with a vacant seed. In a chain a misuse ends the run at once. In a ring it ends
its own stage only, which closes no channel, and it is the failure to blame.
-/

namespace IntcodeVM.CommandLine.Vacant

open Amplifier (Circuit CircuitError Schedule Setting Turn)

inductive CircuitSetback where
  | circuit (e : CircuitError)
  | misuse (misuse : Misuse)
  | stageMisuse (stage : Nat) (misuse : Misuse)
  deriving DecidableEq, Repr

def CircuitSetback.diagnostic : CircuitSetback → Diagnostic
  | circuit e => e.diagnostic
  | misuse m => m.diagnostic
  | stageMisuse stage m => .circuit s!"Stage {stage} faulted: {m.message}" (some (stage : Int))

def CircuitSetback.ofStage (stage : Nat) : Setback → CircuitSetback
  | .stop stop => .circuit (.stageFaulted true stage stop)
  | .misuse m => .stageMisuse stage m

def stagesOf (c : Circuit) : List Nat := List.range c.stages.size

def runInOrder (allowance : Nat) : List Nat → Circuit → Except CircuitSetback Circuit
  | [], c => .ok c
  | stage :: rest, c =>
    match c.onStage stage fun w => run w allowance with
    | (some (.error (.misuse m)), _) => .error (.misuse m)
    | (some (.error (.stop (.fault f))), _) =>
      .error (.circuit (.stageFaulted false stage (.fault f)))
    | (some (.error (.stop stop)), _) => .error (.circuit (.stageStopped stop))
    | (_, c) => runInOrder allowance rest c

def turnOfRun : Option (Except Setback (Option Int)) → Turn Setback
  | some (.ok (some _)) => .sent
  | some (.error (.stop .waiting)) => .waiting
  | some (.error (.stop .unfinished)) => .unfinished
  | some (.error e) => .failed e
  | some (.ok none) | none => .halted

def turn (allowance stage : Nat) (c : Circuit) : Turn Setback × Circuit :=
  if c.stageHalted stage then (.halted, c)
  else
    let (answer, c) := c.onStage stage fun w => runUntilOutput w allowance
    (turnOfRun answer, c)

def schedule (allowance : Nat) : Schedule Circuit Setback := ⟨turn allowance, Circuit.totalSteps⟩

def ringResult (allowance : Nat) (c : Circuit) : Except CircuitSetback Int :=
  match (schedule allowance).run allowance (stagesOf c) [] c with
  | (.stuck, _, _) => .error (.circuit (.stageStopped .waiting))
  | (.unfinished, _, _) => .error (.circuit (.stageStopped .unfinished))
  | (.ended, failures, c) =>
    match Amplifier.rootFailure? Setback.isPortFault failures with
    | some (stage, e) => .error (.ofStage stage e)
    | none => c.loopResult.mapError .circuit

def chainResult (allowance : Nat) (c : Circuit) : Except CircuitSetback Int := do
  let c ← runInOrder allowance (stagesOf c) c.closeEntry
  c.chainResult.mapError .circuit

def amplify (allowance : Nat) (memory : Memory) (feedback : Bool) (phases : List (Option Int)) :
    Except CircuitSetback Int := do
  let c ← (Circuit.build memory phases feedback).mapError .circuit
  match c.inject hole with
  | (some cause, _) => throw (.circuit (.seedRefused cause))
  | (none, c) => if feedback then ringResult allowance c else chainResult allowance c

def better (best : Option Setting) (next : Setting) : Except CircuitSetback Setting :=
  match best.map fun b => (isVacant b.1, isVacant next.1) with
  | some (true, false) => .error (.misuse .exceeded)
  | some (false, true) => .error (.misuse .exceeding)
  | _ => .ok (Amplifier.better best next)

def bestOf (trial : List (Option Int) → Except CircuitSetback Int) :
    List (List (Option Int)) → Option Setting → Except CircuitSetback (Option Setting)
  | [], best => .ok best
  | phases :: rest, best => do
    let value ← trial phases
    bestOf trial rest (some (← better best (value, phases)))

def searchPhases (allowance : Nat) (memory : Memory) (phases : List (Option Int))
    (feedback : Bool) : Except CircuitSetback (Option Setting) :=
  bestOf (amplify allowance (codedMemory memory) feedback) (Amplifier.orderings phases) none

end IntcodeVM.CommandLine.Vacant
