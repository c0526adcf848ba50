import IntcodeVM.Hull.Painter
import IntcodeVM.Cpu.Run
import IntcodeVM.Sink

/-!
A machine that steers a painting robot. Its input is a camera that shows the color under the robot
at the time of the reading; its outputs are collected and handed to the robot one at a time.
-/

namespace IntcodeVM.Hull

structure Rig where
  painter : Painter
  reads : Nat := 0
  cameraClosed : Bool := false
  sink : Collector := {}

namespace Rig

/-- The camera answers as long as it is open. -/
def look (rig : Rig) : Pulled Int × Rig :=
  if rig.cameraClosed then (.refused (.sourceTerminated "camera"), rig)
  else (.value rig.painter.view, { rig with reads := rig.reads + 1 })

def closeCamera (rig : Rig) : Rig := { rig with cameraClosed := true }

def wiring : Wiring Rig where
  pull := look
  push value rig :=
    let (refused, sink) := rig.sink.push value
    (refused, { rig with sink })
  closeInput := closeCamera
  closeOutput rig := { rig with sink := rig.sink.close }

end Rig

structure Robot where
  cpu : Cpu
  rig : Rig

namespace Robot

def start (memory : Memory) (color : Int) : Robot :=
  ⟨{ name := "robot", memory }, { painter := .start color }⟩

/-- Runs the machine to its next output without telling the robot. -/
def untilOutput (allowance : Nat) : Robot → Except Stop (Option Int) × Robot
  | ⟨cpu, rig⟩ =>
    let (answer, cpu, rig) := cpu.runUntilOutput Rig.wiring allowance rig
    (answer, ⟨cpu, rig⟩)

def consume (r : Robot) (value : Int) : Robot :=
  { r with rig := { r.rig with painter := r.rig.painter.consume value } }

def missingTurn (r : Robot) : Stop :=
  (Snag.cause (.missingTurn r.rig.painter.view)).stop (some r.cpu.ip)

/-- Hands each output to the robot until the machine halts; at most as many outputs as `rounds`. -/
def runRounds (allowance : Nat) : (rounds : Nat) → Robot → Except Stop Unit × Robot
  | 0, r => (.error .unfinished, r)
  | rounds + 1, r =>
    match r.untilOutput allowance with
    | (.error stop, r) => (.error stop, r)
    | (.ok (some value), r) => runRounds allowance rounds (r.consume value)
    | (.ok none, r) =>
      if r.rig.painter.expectsColor then (.ok (), r) else (.error r.missingTurn, r)

def run (allowance : Nat) (r : Robot) : Except Stop Unit × Robot :=
  runRounds allowance allowance r

end Robot

end IntcodeVM.Hull
