import IntcodeVM.Assembly.Assembler
import IntcodeVM.CommandLine.Files
import IntcodeVM.CommandLine.Invocation
import IntcodeVM.CommandLine.PictureFormat
import IntcodeVM.CommandLine.Vacant.Batch
import IntcodeVM.CommandLine.Vacant.Circuit
import IntcodeVM.CommandLine.Vacant.Console
import IntcodeVM.Hull.PictureSize
import IntcodeVM.Hull.Robot
import IntcodeVM.Monitor.Session
import IntcodeVM.ProgramText

namespace IntcodeVM.CommandLine

inductive Failure where
  | file (e : FileError)
  | encoding (e : Text.Utf8Error)
  | load (e : ProgramText.LoadError)
  | assembly (e : Assembly.AssemblyError)
  | scratch (e : Memory.ScratchError)
  | machine (stop : Stop)
  | circuit (e : Amplifier.CircuitError)
  | vacantCircuit (e : Vacant.CircuitSetback)
  | search (e : Batch.SearchError)
  /-- No run ends with a vacant result. -/
  | fruitless (limit : Nat)
  | illegible
  | misuse (m : Misuse)
  | pictureSize (p : Hull.SizeProblem)
  | pictureName (extension : List Char)
  | picture (e : PictureFailure)
  | monitor (e : Vacant.Escape)
  deriving DecidableEq, Repr

inductive Ending where
  | exit (code : Nat)
  | usage (code : Nat)
  /-- A failure that the command line does not report itself. -/
  | uncaught (d : Diagnostic)
  deriving DecidableEq, Repr

structure Report where
  stdout : String := ""
  stderr : String := ""
  ending : Ending
  files : Files

/-- The wording of a decoding failure; positions count bytes from zero. -/
def encodingMessage (e : Text.Utf8Error) : String :=
  let reason := match e.problem with
    | .invalidStart => "invalid start byte"
    | .invalidContinuation => "invalid continuation byte"
    | .unexpectedEnd => "unexpected end of data"
  let place := match e.bytes with
    | [b] => "byte 0x" ++ String.ofList (Text.hexPadded 2 b.toNat) ++ s!" in position {e.position}"
    | bytes => s!"bytes in position {e.position}-{e.position + bytes.length - 1}"
  "'utf-8' codec can't decode " ++ place ++ ": " ++ reason

/-- A failure is written to the error output and ends the call with code one; bad values and the
bounds of the machine underneath are not caught. -/
def Failure.ending (f : Failure) : String × Ending :=
  let reported (message : String) : String × Ending := ("Error: " ++ message ++ "\n", .exit 1)
  let diagnosed (d : Diagnostic) : String × Ending :=
    match d.kind with
    | .badValue | .mismatch | .overflow | .exhausted | .packing | .unwritable | .breakdown =>
      ("", .uncaught d)
    | .assembly => ("Assembly error: " ++ d.message ++ "\n", .exit 1)
    | _ => reported d.message
  match f with
  | file e =>
    if e.problem = .nullInName then diagnosed (.badValue e.message) else reported e.message
  | encoding e => reported (encodingMessage e)
  | load e => diagnosed e.diagnostic
  | assembly e => diagnosed e.diagnostic
  | scratch e => diagnosed e.diagnostic
  | machine stop => diagnosed stop.diagnostic
  | circuit e => diagnosed e.diagnostic
  | vacantCircuit e => diagnosed e.diagnostic
  | search e => diagnosed e.diagnostic
  | fruitless limit => diagnosed (.notFound s!"No noun/verb below {limit} produces []")
  | illegible => diagnosed (.badValue Text.illegibleMessage)
  | misuse m => diagnosed m.diagnostic
  | pictureSize p => diagnosed p.diagnostic
  | pictureName extension =>
    diagnosed (.badValue ("unknown file extension: " ++ String.ofList extension))
  | picture e => (e.diagnostic?.map diagnosed).getD (reported e.message)
  | monitor e => diagnosed e.diagnostic

namespace Report

def done (files : Files) (stdout : String) : Report := { stdout, ending := .exit 0, files }

def failed (files : Files) (stdout : String) (f : Failure) : Report :=
  let (stderr, ending) := f.ending
  { stdout, stderr, ending, files }

end Report

def lines (ls : List String) : String := String.join (ls.map (· ++ "\n"))

def readText (files : Files) (path : String) : Except Failure (List Char) := do
  let bytes ← (files.read path).mapError .file
  let text ← (Text.decodeUtf8 bytes).mapError .encoding
  return Text.unifyLineEnds text

def readWords (files : Files) (p : ProgramFile) : Except Failure (List Int) := do
  if p.assembly then
    (Assembly.assemble (← readText files p.path)).mapError .assembly
  else
    let bytes ← (files.read p.path).mapError .file
    let text ← (ProgramText.decode bytes).mapError .load
    (ProgramText.parse text).mapError .load

def Amount.get (misuse : Misuse) : Amount → Except Failure Int
  | number n => .ok n
  | vacant => .error (.misuse misuse)

def loadProgram (files : Files) (p : ProgramFile) : Except Failure Memory := do
  let words ← readWords files p
  (Memory.ofWords? words (← p.scratch.get .below)).mapError .scratch

/-- Writes a picture of panels into a file that is open for it. A writer that fails leaves what it
has written so far if the file was there before, and takes the file away again if not. -/
def writePicture (files : Files) (path : String) (writer : GrayWriter) (p : Hull.Picture)
    (scale : Int) : Except Failure Unit × Files :=
  let size := max 1 scale.toNat
  match writer.failure? path.toList (p.width * size) (p.height * size) with
  | none =>
    let content := .picture writer.form (String.ofList (nameLine path.toList)) p scale
    match files.write path content with
    | .error e => (.error (.file e), files)
    | .ok files => (.ok (), files)
  | some failure =>
    match files.write path (.bytes (bytesOf failure.written)) with
    | .error e => (.error (.file e), files)
    | .ok later => (.error (.picture failure), if files.mem path then later else files)

/-- The writer for a path, if there is one. A file is not opened for a format that is only read. -/
def writerFor (path : List Char) : Except Failure GrayWriter :=
  match PictureFormat.ofExtension? (String.ofList (extension path)) with
  | none => .error (.pictureName (extension path))
  | some ⟨_, .fails (.readOnly format)⟩ => .error (.picture (.readOnly format))
  | some f => .ok f.writer

/-- Writes an enlarged picture of panels, if there is room for it and the name says that it is
one. -/
def savePicture (files : Files) (path : String) (panels : Hull.Panels) (scale : Amount) :
    Except Failure Unit × Files :=
  let prepared : Except Failure (Hull.Picture × Int × GrayWriter) := do
    let picture ← panels.picture.mapError .pictureSize
    let scale ← scale.get .exceeding
    if let some problem := panels.enlargementProblem? scale then throw (.pictureSize problem)
    return (picture, scale, ← writerFor path.toList)
  match prepared with
  | .error e => (.error e, files)
  | .ok (picture, scale, writer) => writePicture files path writer picture scale

/-- The report of a command that writes everything at its end, perhaps with vacant amounts in it. -/
def settle (files : Files) (vacant : Bool) (result : Except Failure String) : Report :=
  match result.map (written? vacant) with
  | .ok (some stdout) => .done files stdout
  | .ok none => .failed files "" .illegible
  | .error f => .failed files "" f

def Failure.ofSetback : Vacant.Setback → Failure
  | .stop s => .machine s
  | .misuse m => .misuse m

def anyVacant (inputs : List Amount) (phase : Option Amount) : Bool :=
  inputs.contains .vacant || phase = some .vacant

/-- Only a call with a vacant amount needs a machine that knows them. -/
def runProgram (allowance : Nat) (files : Files) (program : ProgramFile) (inputs : List Amount)
    (phase : Option Amount) : Except Failure String := do
  let memory ← loadProgram files program
  let outputs ←
    if anyVacant inputs phase then
      (Vacant.outputs allowance memory inputs phase).mapError .ofSetback
    else
      (Batch.outputs allowance memory (inputs.filterMap Amount.number?)
        (phase.bind Amount.number?)).mapError .machine
  return lines [String.ofList (Text.commaSeparated outputs)]

def bestSetting (allowance : Nat) (memory : Memory) (feedback : Bool) :
    Amount → Except Failure (Option Amplifier.Setting)
  | .number seed =>
    (Amplifier.searchPhases allowance memory (Amplifier.defaultPhases feedback) feedback
      seed).mapError .circuit
  | .vacant =>
    (Vacant.searchPhases allowance memory (Amplifier.defaultPhases feedback) feedback).mapError
      .vacantCircuit

def amplify (allowance : Nat) (files : Files) (program : ProgramFile) (feedback : Bool)
    (seed : Amount) : Except Failure String := do
  let best ← bestSetting allowance (← loadProgram files program) feedback seed
  let kind := if feedback then "ring" else "chain"
  return lines (best.toList.flatMap fun (value, phases) =>
    [s!"Best {kind} output: {value}",
      "  Phases: " ++ String.ofList (Text.commaSeparated (phases.filterMap id))])

def paint (allowance : Nat) (files : Files) (program : ProgramFile) (start : Int) (shown : Bool)
    (image : Option String) (scale : Amount) : Report :=
  match loadProgram files program with
  | .error f => .failed files "" f
  | .ok memory =>
    match (Hull.Robot.start memory start).run allowance with
    | (.error stop, _) => .failed files "" (.machine stop)
    | (.ok _, robot) =>
      let painter := robot.rig.painter
      let picture := (Hull.Picture.ofPanels painter.panels).text "#" " "
      let stdout := lines
        (s!"Panels painted: {painter.paintedCount}" :: if shown then [picture] else [])
      match image.filter (!·.isEmpty) with
      | none => .done files stdout
      | some path =>
        match savePicture files path painter.panels scale with
        | (.error f, files) => .failed files stdout f
        | (.ok _, files) => .done files (stdout ++ lines ["Wrote " ++ path])

def repaired (allowance : Nat) (memory : Memory) : (noun verb : Amount) → Except Failure Int
  | .number noun, .number verb => (Batch.patched allowance memory noun verb).mapError .machine
  | noun, verb => (Vacant.patched allowance memory noun verb).mapError .ofSetback

def searchLimit : Nat := 100

def repairing (allowance : Nat) (memory : Memory) : (target : Amount) → Except Failure (Nat × Nat)
  | .number target => (Batch.search allowance memory target searchLimit).mapError .search
  | .vacant => do
    (Vacant.tryAll allowance memory searchLimit).mapError .machine
    throw (.fruitless searchLimit)

def repair (allowance : Nat) (files : Files) (program : ProgramFile)
    (noun verb target : Option Amount) : Report :=
  match loadProgram files program with
  | .error f => .failed files "" f
  | .ok memory =>
    match target, noun, verb with
    | some target, _, _ =>
      settle files false do
        let (noun, verb) ← repairing allowance memory target
        return lines [s!"noun={noun} verb={verb} answer={100 * noun + verb}"]
    | none, some noun, some verb =>
      settle files (noun = .vacant || verb = .vacant) do
        return lines [toString (← repaired allowance memory noun verb)]
    | none, _, _ =>
      { stderr := lines ["repair needs --target, or both --noun and --verb"], ending := .exit 2,
        files }

/-- The texts of a listing. A vacant address is below no end, and no count of chunks is below a
vacant number of them. -/
def texts (m : Memory) (addr : Amount) (count : Option Amount) :
    Except Failure (List (Int × List Char)) := do
  let addr ← addr.get .below
  let listed (count : Option Int) : Except Failure (List (Int × List Char)) :=
    match Disassembly.texts? m addr count with
    | some texts => .ok texts
    | none => .error .illegible
  match count with
  | none => listed none
  | some (.number n) => listed (some n)
  | some .vacant => if addr < m.size then throw (.misuse .above) else return []

def disassemble (files : Files) (program : ProgramFile) (addr : Amount) (count : Option Amount) :
    Except Failure String := do
  let memory ← loadProgram files program
  return lines ((← texts memory addr count).map fun (a, text) => "  " ++ Disassembly.line a text)

def openMonitor (files : Files) (program : ProgramFile) (inputs : List Amount)
    (phase : Option Amount) : Except Failure Monitor.Console := do
  let memory ← loadProgram files program
  if anyVacant inputs phase then
    return .start (codedMemory memory) (inputs.map Amount.code) (phase.map Amount.code)
  else return .start memory (inputs.filterMap Amount.number?) (phase.bind Amount.number?)

def monitor (files : Files) (stdin : List Char) (program : ProgramFile) (inputs : List Amount)
    (phase : Option Amount) : Report :=
  match openMonitor files program inputs phase with
  | .error f => .failed files "" f
  | .ok c =>
    let enter (c : Monitor.Console) (typed : List Char) :=
      Vacant.execute (anyVacant inputs phase) c (.parse typed)
    match Monitor.transcript enter Monitor.greeting c (Monitor.inputLines stdin) with
    | (stdout, some e) => .failed files stdout (.monitor e)
    | (stdout, none) => .done files stdout

/-- Writes words as program text; a vacant place for them is no path. A file for words that cannot
be written stays empty. -/
def writeWords (files : Files) (out : Option String) (words : List Int) :
    Except Failure String × Files :=
  match out with
  | none => (.error (.misuse .path), files)
  | some path =>
    let legible := words.all Text.isLegible
    let text := if legible then String.ofList (ProgramText.render words) else ""
    match files.write path (.bytes (bytesOf text)) with
    | .error e => (.error (.file e), files)
    | .ok files => (if legible then .ok path else .error .illegible, files)

def assemble (files : Files) (source : String) (out : Option String) (listing : Bool) : Report :=
  match readText files source with
  | .error f => .failed files "" f
  | .ok text =>
    let (listed, complete) := Text.writtenLines (Assembly.progress text).listing
    let stdout := if listing then lines listed else ""
    match Assembly.assemble text with
    | .error e => .failed files stdout (if listing && !complete then .illegible else .assembly e)
    | .ok words =>
      if listing && !complete then .failed files stdout .illegible
      else match writeWords files out words with
      | (.error e, files) => .failed files stdout e
      | (.ok out, files) =>
        .done files (stdout ++ lines [s!"Assembled {source} → {out} ({words.length} words)"])

def Invocation.execute (allowance : Nat) (files : Files) (stdin : List Char) : Invocation → Report
  | .run program inputs phase =>
    settle files (anyVacant inputs phase) (runProgram allowance files program inputs phase)
  | .amplify program feedback seed =>
    settle files (seed = .vacant) (CommandLine.amplify allowance files program feedback seed)
  | .paint program start shown image scale =>
    CommandLine.paint allowance files program start shown image scale
  | .repair program noun verb target => CommandLine.repair allowance files program noun verb target
  | .disassemble program addr count =>
    settle files false (CommandLine.disassemble files program addr count)
  | .monitor program inputs phase => CommandLine.monitor files stdin program inputs phase
  | .assemble source out listing => CommandLine.assemble files source out listing

def run (allowance : Nat) (args : List String) (files : Files) (stdin : List Char) : Report :=
  match Invocation.parse args with
  | .ok invocation => invocation.execute allowance files stdin
  | .error .help => { ending := .usage 0, files }
  | .error .error => { ending := .usage 2, files }

end IntcodeVM.CommandLine
