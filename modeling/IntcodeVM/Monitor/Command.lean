import IntcodeVM.Text.Blank

namespace IntcodeVM.Monitor

inductive Action where
  | step
  | run
  | send
  | out
  | breakpoint
  | clearBreakpoint
  | registers
  | dump
  | disassemble
  | reset
  | quit
  | endOfInput
  | help
  deriving DecidableEq, Repr

/-- Every command name in alphabetical order, capitals first. -/
def commandNames : List (String × Action) :=
  [("EOF", .endOfInput), ("bp", .breakpoint), ("bpd", .clearBreakpoint), ("c", .run),
    ("disasm", .disassemble), ("dump", .dump), ("exit", .quit), ("help", .help), ("out", .out),
    ("q", .quit), ("quit", .quit), ("regs", .registers), ("reset", .reset), ("run", .run),
    ("send", .send), ("step", .step)]

def Action.ofName? (name : String) : Option Action := commandNames.lookup name

def Action.help? : Action → Option String
  | step => some "Step N instructions: step [count]"
  | run => some "Run until halt/breakpoint/input wait: run [max_steps]"
  | send => some "Queue input values: send <value...>"
  | out => some "Show every value the machine has output."
  | breakpoint => some "Set breakpoint: bp <address>"
  | clearBreakpoint => some "Delete breakpoint: bpd <address|all>"
  | registers => some "Show machine registers."
  | dump => some "Dump memory: dump <address> [count]"
  | disassemble =>
    some "Disassemble: disasm [address] [count]\n        Defaults to current IP, 16 instructions."
  | reset => some "Reload the program and restart from address 0."
  | quit => some "Exit the monitor."
  | help => some "List available commands with \"help\" or detailed help with \"help cmd\"."
  | endOfInput => none

inductive Command where
  | empty
  | act (action : Action) (argument : List Char)
  | unknown (line : List Char)
  deriving DecidableEq, Repr

def isNameCharacter (c : Char) : Bool := c.isAlphanum || c == '_'

def Command.ofStripped (line : List Char) : Command :=
  let name := line.takeWhile isNameCharacter
  match Action.ofName? (String.ofList name) with
  | some action => .act action (Text.strip (line.dropWhile isNameCharacter))
  | none => .unknown line

def Command.parse (typed : List Char) : Command :=
  match Text.strip typed with
  | [] => .empty
  | '?' :: rest => .act .help (Text.strip rest)
  | line => .ofStripped line

end IntcodeVM.Monitor
