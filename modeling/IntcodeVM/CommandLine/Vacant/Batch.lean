import IntcodeVM.Batch
import IntcodeVM.CommandLine.Vacant.Step

namespace IntcodeVM.CommandLine.Vacant

def finish (allowance : Nat) (m : Machine) : Except Setback Machine :=
  match run Machine.wiring allowance m.cpu (m.input, m.output) with
  | (.ok (), cpu, input, output) => .ok ⟨cpu, input, output⟩
  | (.error setback, _) => .error setback

def outputs (allowance : Nat) (memory : Memory) (inputs : List Amount) (phase : Option Amount) :
    Except Setback (List Int) :=
  let m := Batch.machine (codedMemory memory) (inputs.map Amount.code) (phase.map Amount.code)
  (finish allowance m).map fun m => m.output.visible

def outside {α : Type} (r : Except Cause α) : Except Setback α :=
  (Batch.outside r).mapError .stop

def patched (allowance : Nat) (memory : Memory) (noun verb : Amount) : Except Setback Int := do
  let memory ← outside ((codedMemory memory).write Batch.nounAddress noun.code)
  let memory ← outside (memory.write Batch.verbAddress verb.code)
  let m ← finish allowance (Batch.machine memory [] none)
  outside (m.cpu.memory.read Batch.resultAddress)

def tryAll (allowance : Nat) (memory : Memory) (limit : Nat) : Except Stop Unit :=
  let trial (noun verb : Nat) : Except Stop (Option Unit) :=
    (Batch.patched allowance memory noun verb).map fun _ => none
  (Batch.firstAnswer (fun noun => Batch.firstAnswer (trial noun) limit 0) limit 0).map fun _ => ()

end IntcodeVM.CommandLine.Vacant
