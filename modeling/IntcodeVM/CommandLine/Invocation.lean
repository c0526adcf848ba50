import IntcodeVM.CommandLine.Arguments
import IntcodeVM.Hull.Panels

namespace IntcodeVM.CommandLine

/-- Where a program comes from: the file, the zero cells after it, and whether it is assembly
text. -/
structure ProgramFile where
  path : String
  scratch : Amount
  assembly : Bool
  deriving DecidableEq, Repr

inductive Invocation where
  | run (program : ProgramFile) (inputs : List Amount) (phase : Option Amount)
  | amplify (program : ProgramFile) (feedback : Bool) (seed : Amount)
  | paint (program : ProgramFile) (start : Int) (shown : Bool) (image : Option String)
      (scale : Amount)
  | repair (program : ProgramFile) (noun verb target : Option Amount)
  | disassemble (program : ProgramFile) (addr : Amount) (count : Option Amount)
  | monitor (program : ProgramFile) (inputs : List Amount) (phase : Option Amount)
  /-- A vacant place for the words has no path. -/
  | assemble (source : String) (out : Option String) (listing : Bool)
  deriving DecidableEq, Repr

def defaultScratch : Int := 1000

def helpOption : OptionSpec := ⟨[helpName, "-h"], .nothing⟩

def programOptions : List OptionSpec :=
  [helpOption, ⟨["--scratch"], .integer⟩, ⟨["--asm"], .nothing⟩]

def inputOptions : List OptionSpec :=
  [⟨["--input", "-i"], .integer⟩, ⟨["--phase"], .integer⟩]

def programFile (p : Parsed) : ProgramFile where
  path := (p.positional? 0).getD ""
  scratch := p.amountD "--scratch" defaultScratch
  assembly := p.has "--asm"

/-- The color of the first panel: white if nothing is said, and black for all but the word. -/
def startColor : Option OptionValue → Int
  | none => Hull.white
  | some value => if value = .text "white" then Hull.white else Hull.black

structure CommandSpec where
  options : List OptionSpec
  positionals : Nat
  invocation : Parsed → Invocation

def onProgram (options : List OptionSpec) (invocation : ProgramFile → Parsed → Invocation) :
    CommandSpec :=
  ⟨programOptions ++ options, 1, fun p => invocation (programFile p) p⟩

def commands : List (String × CommandSpec) :=
  [("run", onProgram inputOptions fun program p =>
      .run program (p.amounts "--input") (p.amount? "--phase")),
    ("amplify", onProgram [⟨["--feedback"], .nothing⟩, ⟨["--seed"], .integer⟩] fun program p =>
      .amplify program (p.has "--feedback") (p.amountD "--seed" 0)),
    ("paint", onProgram
      [⟨["--start"], .choice ["black", "white"]⟩, ⟨["--render"], .nothing⟩, ⟨["--image"], .text⟩,
        ⟨["--scale"], .integer⟩] fun program p =>
      .paint program (startColor (p.last? "--start")) (p.has "--render") (p.text? "--image")
        (p.amountD "--scale" 8)),
    ("repair", onProgram
      [⟨["--noun"], .integer⟩, ⟨["--verb"], .integer⟩, ⟨["--target"], .integer⟩] fun program p =>
      .repair program (p.amount? "--noun") (p.amount? "--verb") (p.amount? "--target")),
    ("disasm", onProgram [⟨["--addr"], .integer⟩, ⟨["--count"], .integer⟩] fun program p =>
      .disassemble program (p.amountD "--addr" 0) (p.amount? "--count")),
    ("monitor", onProgram inputOptions fun program p =>
      .monitor program (p.amounts "--input") (p.amount? "--phase")),
    ("assemble", ⟨[helpOption, ⟨["--listing", "-l"], .nothing⟩], 2, fun p =>
      .assemble ((p.positional? 0).getD "") (p.positional? 1) (p.has "--listing")⟩)]

/-- Finds the command name. Before it, only a call for help is known; other options are kept as an
error for the end. -/
def findCommand (leftover : Bool) : List String → Except UsageEnd (Bool × CommandSpec × List String)
  | [] => .error .error
  | arg :: rest =>
    if arg = "--" then .error .error
    else do
      match ← classify [helpOption] arg with
      | .plain name =>
        match commands.lookup name with
        | some command => return (leftover, command, rest)
        | none => throw .error
      | .found found =>
        let _ ← resolve [helpOption] found none
        throw .help
      | _ => findCommand true rest

def Invocation.parse (args : List String) : Except UsageEnd Invocation := do
  let (leftover, command, rest) ← findCommand false args
  let p ← CommandLine.parse command.options command.positionals rest
  if leftover || p.leftover then throw .error else return command.invocation p

end IntcodeVM.CommandLine
