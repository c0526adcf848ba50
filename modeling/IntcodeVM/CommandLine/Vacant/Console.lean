import IntcodeVM.CommandLine.Vacant.Step
import IntcodeVM.Monitor.Session

/-!
A monitor whose machine holds codes of amounts. Misuse is not caught, neither that of the machine
nor that of the commands which look at its memory; what was printed before it stays printed.
-/

namespace IntcodeVM.CommandLine.Vacant

open Monitor (Action Advance Command Console Reply)
open Disassembly (Chunk)

inductive Escape where
  | monitor (e : Monitor.Escape)
  | misuse (misuse : Misuse)
  deriving DecidableEq, Repr

def Escape.diagnostic : Escape → Diagnostic
  | monitor e => e.diagnostic
  | misuse m => m.diagnostic

def misused {α : Type} (r : Except Misuse α) : Except Escape α := r.mapError .misuse

def shown (line : String) : Except Escape String :=
  match showVacant? line with
  | some line => .ok line
  | none => .error (.monitor .illegible)

def wiring : Wiring Machine.Ports :=
  Machine.telling fun code => isVacant code || Text.isLegible code

def starved (m : Machine) : Except Misuse Bool := do
  match ← fetch m.cpu with
  | .error _ => return false
  | .ok code => return Monitor.lacksInput m (← number .divided code)

def advanced (cpu : Cpu) : Except Setback Opcode → Except Escape Advance
  | .ok op => ofOutcome (.ran op)
  | .error (.stop stop) => ofOutcome (.stopped stop)
  | .error (.misuse misuse) => .error (.misuse misuse)
where
  ofOutcome (outcome : Outcome) : Except Escape Advance := do
    let a ← (Advance.ofOutcome cpu outcome).mapError .monitor
    return { a with printed := ← a.printed.mapM shown }

def advance (m : Machine) : Except Escape Advance × Machine :=
  if m.cpu.halted || m.cpu.fault.isSome then (.ok .ended, m)
  else
    match starved m with
    | .error misuse => (.error (.misuse misuse), m)
    | .ok true => (.ok (.waiting m.cpu.ip), m)
    | .ok false =>
      let ⟨cpu, input, output⟩ := m
      let (result, cpu, input, output) := step wiring cpu (input, output)
      (advanced cpu result, ⟨cpu, input, output⟩)

/-- The text of a chunk; a vacant word is not looked through for an instruction. -/
def textOf (chunk : Chunk) : Except Misuse (List Char) :=
  if chunk = .data hole then .error .atLeast else .ok chunk.text

def nextLine (cpu : Cpu) : Except Escape String := do
  let ip ← misused (number .atMost cpu.ip)
  let text ← misused (textOf (Disassembly.chunkAt cpu.memory ip))
  shown ("  " ++ Disassembly.line ip text)

def stepper : Monitor.Stepper Escape where
  nextLine := nextLine
  advance := advance
  stopsAt breakpoints ip := misused ((number .lookedUp ip).map breakpoints.contains)

def plainly (reply : Reply Monitor.Escape × Console) : Reply Escape × Console :=
  let (reply, c) := reply
  ({ printed := reply.printed, ends := reply.ends, escape := reply.escape.map .monitor }, c)

def stepCommand (c : Console) (argument : List Char) : Reply Escape × Console :=
  match Monitor.numberOr 1 (Monitor.given? argument) with
  | .error e => plainly (c.sayError e)
  | .ok count =>
    let (escape, printed, machine) := stepper.stepMany count.toNat c.machine #[]
    ({ printed := printed.toList, escape }, { c with machine })

def runCommand (c : Console) (argument : List Char) : Reply Escape × Console :=
  match Monitor.numberOr Console.defaultBudget (Monitor.given? argument) with
  | .error e => plainly (c.sayError e)
  | .ok budget =>
    let (ending, printed, machine) :=
      stepper.runMany c.breakpoints budget.toNat true c.machine #[]
    let (lines, escape) : List String × Option Escape := match ending with
      | .error e => ([], some e)
      | .ok ending =>
        let (lines, escape) := Monitor.cut (Console.runEnding budget ending)
        (lines, escape.map .monitor)
    ({ printed := printed.toList ++ lines, escape }, { c with machine })

/-- Prints all of these lines with codes, or none. -/
def sayAtOnce (c : Console) (lines : List String) : Reply Escape × Console :=
  match lines.mapM shown with
  | .error e => ({ escape := some e }, c)
  | .ok printed => ({ printed }, c)

def outCommand (c : Console) : Reply Escape × Console :=
  sayAtOnce c ["  " ++ String.ofList (Text.commaSeparated c.machine.output.visible)]

def dumpEscape? (code : Int) : Option Escape :=
  if isVacant code then some (.misuse .aligned)
  else if Text.isLegible code then none
  else some (.monitor .illegible)

/-- Rows of eight words up to the first with a word that is kept out. -/
def dumpCommand (c : Console) (argument : List Char) : Reply Escape × Console :=
  match Text.shellWords argument with
  | .ok (first :: rest) =>
    match c.dumped first rest with
    | .error e => plainly (c.sayError e)
    | .ok (addr, words) =>
      let rows := (Monitor.dumpRows addr words).map Prod.snd
      match words.findIdx? fun code => (dumpEscape? code).isSome with
      | none => ({ printed := rows }, c)
      | some i => ({ printed := rows.take (i / 8), escape := words[i]?.bind dumpEscape? }, c)
  | _ => plainly (c.dump argument)

def listed (c : Console) (addr count : Int) : Except Escape (List (Int × List Char)) := do
  let addr ← misused (number .below addr)
  (Disassembly.chunks c.machine.cpu.memory addr (some count)).mapM fun (a, chunk) => do
    let text ← shown (String.ofList (← misused (textOf chunk)))
    return (a, text.toList)

def disassembleCommand (c : Console) (argument : List Char) : Reply Escape × Console :=
  match Text.shellWords argument with
  | .error _ => plainly (c.disassemble argument)
  | .ok parts =>
    match c.listingRange parts with
    | .error e => plainly (c.sayError e)
    | .ok (addr, count) =>
      match listed c addr count with
      | .error e => ({ escape := some e }, c)
      | .ok texts => plainly (c.tell (c.listing texts))

def carryOut (c : Console) : Command → Reply Escape × Console
  | .act .step argument => stepCommand c argument
  | .act .run argument => runCommand c argument
  | .act .out _ => outCommand c
  | .act .registers _ => sayAtOnce c c.machine.cpu.report
  | .act .dump argument => dumpCommand c argument
  | .act .disassemble argument => disassembleCommand c argument
  | command => plainly (c.execute command)

def execute (vacant : Bool) (c : Console) (command : Command) : Reply Escape × Console :=
  if vacant then carryOut c command else plainly (c.execute command)

end IntcodeVM.CommandLine.Vacant
