import IntcodeVM.Amplifier.Circuit

namespace IntcodeVM.Amplifier.Circuit

/-- Runs these stages in order. A fault is reported with its stage and the later stages stay as they
are. -/
def runInOrder (allowance : Nat) : List Nat → Circuit → Option CircuitError × Circuit
  | [], c => (none, c)
  | stage :: rest, c =>
    match c.onStage stage fun w => Cpu.run w allowance with
    | (some (.error (.fault f)), c) => (some (.stageFaulted false stage (.fault f)), c)
    | (some (.error stop), c) => (some (.stageStopped stop), c)
    | (_, c) => runInOrder allowance rest c

def closeEntry (c : Circuit) : Circuit :=
  { c with channels := (onChannel 0 (fun ch => ((), ch.closeSender)) c.channels).2 }

def chainResult (c : Circuit) : Except CircuitError Int :=
  match c.channels.back?.bind Channel.last? with
  | some value => .ok value
  | none => .error (.noOutput false c.lastStage)

def runChain (allowance : Nat) (seed : Int) (c : Circuit) : Except CircuitError Int × Circuit :=
  match c.inject seed with
  | (some cause, c) => (.error (.seedRefused cause), c)
  | (none, c) =>
    match runInOrder allowance (List.range c.stages.size) c.closeEntry with
    | (some e, c) => (.error e, c)
    | (none, c) => (c.chainResult, c)

end IntcodeVM.Amplifier.Circuit
