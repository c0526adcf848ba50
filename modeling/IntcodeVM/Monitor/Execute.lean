import IntcodeVM.Monitor.Command
import IntcodeVM.Monitor.Console
import IntcodeVM.Text.Columns
import IntcodeVM.Text.Lowercase
import IntcodeVM.Text.Numeral

/-!
Carrying out monitor commands. Each answers the lines it prints; a bad argument is printed as an
error and changes nothing. Three things are not caught: an argument whose quotes do not close,
values sent to a machine that no longer listens, and a number that is too long to be written. What
was printed before stays printed, and what was done before stays done.
-/

namespace IntcodeVM.Monitor

structure Reply (ε : Type) where
  printed : List String := []
  ends : Bool := false
  escape : Option ε := none
  deriving DecidableEq, Repr

def Reply.text {ε : Type} (r : Reply ε) : String := String.join (r.printed.map (· ++ "\n"))

/-- The message for a text that is no integer; the quoted text is cut at two hundred characters. -/
def notANumber (text : List Char) : String :=
  "invalid literal for int() with base 0: " ++ String.ofList ((Text.quoted text).take 200)

def numberMessage (text : List Char) : Text.NumeralProblem → String
  | .malformed => notANumber text
  | .tooManyDigits count => Text.excessMessage count

def number (text : List Char) : Except String Int :=
  let stripped := Text.strip text
  (Text.integer stripped).mapError (numberMessage stripped)

def numberOr (default : Int) (text : Option (List Char)) : Except String Int :=
  match text with
  | none => .ok default
  | some t => number t

def given? (argument : List Char) : Option (List Char) :=
  if argument.isEmpty then none else some argument

def insertSorted (addr : Int) : List Int → List Int
  | [] => [addr]
  | a :: rest =>
    if addr < a then addr :: a :: rest
    else if addr = a then a :: rest
    else a :: insertSorted addr rest

def dumpRows (addr : Int) (words : List Int) : List (List Int × String) :=
  (List.range ((words.length + 7) / 8)).map fun row =>
    let chunk := (words.drop (8 * row)).take 8
    let shown := chunk.map fun w => Text.alignRight 8 (toString w)
    (chunk, "  " ++ Text.alignRight 6 (toString (addr + 8 * row)) ++ ": " ++ " ".intercalate shown)

def topics (header : String) (names : List String) : List String :=
  if names.isEmpty then []
  else header :: String.ofList (List.replicate header.length '=') ::
    Text.inColumns 79 names ++ [""]

def helpOverview : List String :=
  let named := commandNames.partition fun (_, action) => action.help?.isSome
  "" :: topics "Documented commands (type help <topic>):" (named.1.map Prod.fst) ++
    topics "Undocumented commands:" (named.2.map Prod.fst)

def helpOn (name : List Char) : String :=
  match (Action.ofName? (String.ofList name)).bind Action.help? with
  | some text => text
  | none => "*** No help on " ++ String.ofList name

def farewell : List String := [""]

/-- The lines up to the first that cannot be written, and what comes of that one. -/
def cut (lines : List (Option String)) : List String × Option Escape :=
  let (written, complete) := Text.writtenLines lines
  (written, if complete then none else some .illegible)

namespace Console

def tell (c : Console) (lines : List (Option String)) : Reply Escape × Console :=
  let (printed, escape) := cut lines
  ({ printed, escape }, c)

def say (c : Console) (lines : List String) : Reply Escape × Console := ({ printed := lines }, c)

def sayError (c : Console) (message : String) : Reply Escape × Console :=
  c.say ["Error: " ++ message]

def escaped (c : Console) (e : Escape) : Reply Escape × Console := ({ escape := some e }, c)

def step (c : Console) (argument : List Char) : Reply Escape × Console :=
  match numberOr 1 (given? argument) with
  | .error e => c.sayError e
  | .ok count =>
    let (escape, printed, machine) := stepper.stepMany count.toNat c.machine #[]
    ({ printed := printed.toList, escape }, { c with machine })

/-- The line that says how a run ended, if its last step does not say it. -/
def runEnding (budget : Int) : RunEnd → List (Option String)
  | .budget => [Text.lineOf? [budget] s!"Stopped after {budget} steps."]
  | .breakpoint ip => [Text.lineOf? [ip] s!"Breakpoint hit at {ip}"]
  | .stopped => []

def runClosing (budget : Int) : Except Escape RunEnd → List String × Option Escape
  | .error e => ([], some e)
  | .ok ending => cut (runEnding budget ending)

def defaultBudget : Int := 10000000

def run (c : Console) (argument : List Char) : Reply Escape × Console :=
  match numberOr defaultBudget (given? argument) with
  | .error e => c.sayError e
  | .ok budget =>
    let (ending, printed, machine) :=
      stepper.runMany c.breakpoints budget.toNat true c.machine #[]
    let (lines, escape) := runClosing budget ending
    ({ printed := printed.toList ++ lines, escape }, { c with machine })

/-- Queues values; commas count as blanks. -/
def send (c : Console) (argument : List Char) : Reply Escape × Console :=
  match Text.shellWords (argument.map fun ch => if ch = ',' then ' ' else ch) with
  | .error problem => c.escaped (.badQuoting problem)
  | .ok [] => c.say ["Usage: send <value...>"]
  | .ok parts =>
    match parts.mapM number with
    | .error e => c.sayError e
    | .ok values =>
      let (refused, input) := c.machine.input.feed values
      let c := { c with machine := { c.machine with input } }
      match refused with
      | some cause => c.escaped (.sendRefused cause)
      | none => c.say [s!"  Queued {values.length} value(s)."]

def out (c : Console) : Reply Escape × Console :=
  let values := c.machine.output.visible
  c.tell [Text.lineOf? values ("  " ++ String.ofList (Text.commaSeparated values))]

def setBreakpoint (c : Console) (argument : List Char) : Reply Escape × Console :=
  if argument.isEmpty then
    if c.breakpoints.isEmpty then c.say ["No breakpoints set."]
    else c.tell (some "Breakpoints:" :: c.breakpoints.map fun a => Text.lineOf? [a] s!"  {a}")
  else
    match number argument with
    | .error e => c.sayError e
    | .ok addr =>
      { c with breakpoints := insertSorted addr c.breakpoints }.tell
        [Text.lineOf? [addr] s!"Breakpoint set at {addr}"]

def clearBreakpoint (c : Console) (argument : List Char) : Reply Escape × Console :=
  if Text.lowercase argument = ['a', 'l', 'l'] then
    { c with breakpoints := [] }.say ["All breakpoints cleared."]
  else
    match number argument with
    | .error e => c.sayError e
    | .ok addr =>
      { c with breakpoints := c.breakpoints.filter (· ≠ addr) }.tell
        [Text.lineOf? [addr] s!"Breakpoint at {addr} removed."]

def registers (c : Console) : Reply Escape × Console :=
  let cpu := c.machine.cpu
  if (cpu.ip :: cpu.base :: cpu.phase.toList).all Text.isLegible then c.say cpu.report
  else c.escaped .illegible

def dumped (c : Console) (first : List Char) (rest : List (List Char)) :
    Except String (Int × List Int) := do
  let addr ← number first
  let count ← numberOr 16 rest.head?
  let words ← (c.machine.cpu.memory.slice addr count).mapError fun cause => cause.diagnostic.message
  return (addr, words)

def dump (c : Console) (argument : List Char) : Reply Escape × Console :=
  match Text.shellWords argument with
  | .error problem => c.escaped (.badQuoting problem)
  | .ok [] => c.say ["Usage: dump <address> [count]"]
  | .ok (first :: rest) =>
    match c.dumped first rest with
    | .error e => c.sayError e
    | .ok (addr, words) =>
      c.tell ((dumpRows addr words).map fun (words, line) => Text.lineOf? words line)

def listingRange (c : Console) (parts : List (List Char)) : Except String (Int × Int) := do
  let addr ← numberOr c.machine.cpu.ip parts.head?
  let count ← numberOr 16 (parts.drop 1).head?
  return (addr, count)

/-- Marks the text at the instruction pointer. -/
def listing (c : Console) (texts : List (Int × List Char)) : List (Option String) :=
  texts.map fun (a, text) =>
    Text.lineOf? [a]
      ("  " ++ (if a = c.machine.cpu.ip then ">>>" else "   ") ++ " " ++ Disassembly.line a text)

def disassemble (c : Console) (argument : List Char) : Reply Escape × Console :=
  match Text.shellWords argument with
  | .error problem => c.escaped (.badQuoting problem)
  | .ok parts =>
    match c.listingRange parts with
    | .error e => c.sayError e
    | .ok (addr, count) =>
      match Disassembly.texts? c.machine.cpu.memory addr (some count) with
      | none => c.escaped .illegible
      | some texts => c.tell (c.listing texts)

def reset (c : Console) : Reply Escape × Console :=
  { c with machine := boot c.image c.inputs c.phase }.say ["Machine reset."]

def help (c : Console) (argument : List Char) : Reply Escape × Console :=
  c.say (if argument.isEmpty then helpOverview else [helpOn argument])

def act (c : Console) (action : Action) (argument : List Char) : Reply Escape × Console :=
  match action with
  | .step => c.step argument
  | .run => c.run argument
  | .send => c.send argument
  | .out => c.out
  | .breakpoint => c.setBreakpoint argument
  | .clearBreakpoint => c.clearBreakpoint argument
  | .registers => c.registers
  | .dump => c.dump argument
  | .disassemble => c.disassemble argument
  | .reset => c.reset
  | .quit => ({ ends := true }, c)
  | .endOfInput => ({ printed := farewell, ends := true }, c)
  | .help => c.help argument

def execute (c : Console) : Command → Reply Escape × Console
  | .empty => ({}, c)
  | .act action argument => c.act action argument
  | .unknown line => c.say ["*** Unknown syntax: " ++ String.ofList line]

def enter (c : Console) (typed : List Char) : Reply Escape × Console :=
  c.execute (.parse typed)

end Console

end IntcodeVM.Monitor
