import IntcodeVM.CommandLine.Run

/-!
The command-line program. Everything is decided in `CommandLine.run`; here the files that the
arguments may name are read before it, and written where it changed them. A monitor reads its lines
as they are typed.
-/

namespace IntcodeVM.CommandLine

/-- Steps enough for any run that a user will wait for. -/
def longAllowance : Nat := 1000000000000000000

def usageText : String :=
  "usage: intcode COMMAND [options]\n\n" ++
  "  run PROGRAM [--input N ...] [--phase N]\n" ++
  "  amplify PROGRAM [--feedback] [--seed N]\n" ++
  "  paint PROGRAM [--start black|white] [--render] [--image PNG] [--scale N]\n" ++
  "  repair PROGRAM (--noun N --verb N | --target N)\n" ++
  "  disasm PROGRAM [--addr N] [--count N]\n" ++
  "  monitor PROGRAM [--input N ...] [--phase N]\n" ++
  "  assemble SOURCE OUT [--listing]\n\n" ++
  "Every command with a PROGRAM takes --scratch N (zero cells after the program) and --asm\n" ++
  "(PROGRAM is assembly text).\n"

def probe (path : String) : IO (Option Entry) := do
  try
    let bytes ← IO.FS.readBinFile path
    return some (.file (.bytes bytes.toList))
  catch
    | .inappropriateType .. => return some .directory
    | _ => return none

def waypoints (path : List Char) : List String :=
  let ends := path.zipIdx.filterMap fun (c, i) => if c = '/' && i ≠ 0 then some i else none
  (ends ++ [path.length]).map fun n => String.ofList (path.take n)

/-- The paths that an argument may name: the argument itself, and what follows an equals sign. -/
def pathsIn (arg : String) : List String :=
  [arg, String.ofList (Text.after '=' arg.toList)].filter (!·.isEmpty)

def readFiles (paths : List String) : IO Files :=
  paths.foldlM (fun files path => do
    match ← probe path with
    | some e => return files.add path e
    | none => return files) {}

def writeFiles (paths : List String) (earlier later : Files) : IO Unit :=
  for path in paths do
    match later.read path with
    | .ok bytes =>
      if (earlier.read path).toOption ≠ some bytes then
        IO.FS.writeBinFile path (ByteArray.mk bytes.toArray)
    | .error _ => pure ()

def finish (r : Report) : IO UInt32 := do
  IO.print r.stdout
  IO.eprint r.stderr
  match r.ending with
  | .exit code => return code.toUInt32
  | .usage code =>
    if code = 0 then IO.print usageText else IO.eprint usageText
    return code.toUInt32
  | .uncaught d =>
    IO.eprintln d.message
    return 1

partial def converse (vacant : Bool) (c : Monitor.Console) (files : Files) : IO UInt32 := do
  IO.print Monitor.prompt
  (← IO.getStdout).flush
  let typed ← (← IO.getStdin).getLine
  let (reply, c) :=
    Vacant.execute vacant c (if typed.isEmpty then .act .endOfInput [] else .parse typed.toList)
  IO.print reply.text
  match reply.escape with
  | some e => finish (.failed files "" (.monitor e))
  | none => if reply.ends then return 0 else converse vacant c files

end IntcodeVM.CommandLine

open IntcodeVM IntcodeVM.CommandLine in
def main (args : List String) : IO UInt32 := do
  let paths := args.flatMap pathsIn
  let files ← readFiles (paths.flatMap fun path => waypoints path.toList)
  match Invocation.parse args with
  | .ok (.monitor program inputs phase) =>
    match openMonitor files program inputs phase with
    | .error f => finish (.failed files "" f)
    | .ok c =>
      IO.print Monitor.greeting
      converse (anyVacant inputs phase) c files
  | _ =>
    let report := CommandLine.run longAllowance args files []
    writeFiles paths files report.files
    finish report
