import IntcodeVM.Hull.GrayFile
import IntcodeVM.Text.Blank
import IntcodeVM.Text.Quoted

/-!
The files that a command can see, as a tree of named entries. Paths are followed from the working
directory or, after a leading slash, from the root. Main statement: what was put at a place is found
there.
-/

namespace IntcodeVM.CommandLine

/-- The names on the way to a file. A way from the root starts with the name `/`; a way that leads
above the working directory starts with names `..`. -/
abbrev Location := List (List Char)

/-- What a file holds. A picture is kept as it is until its bytes are asked for. -/
inductive Content where
  | bytes (bs : List UInt8)
  /-- A picture with each pixel as a square of this size, in a format whose header may name it. -/
  | picture (form : Hull.GrayFile) (nameLine : String) (p : Hull.Picture) (scale : Int)
  deriving DecidableEq, Repr

def Content.toBytes : Content → List UInt8
  | bytes bs => bs
  | picture form nameLine p scale => form.encode nameLine (p.enlarge scale)

inductive Entry where
  | directory
  | file (content : Content)
  deriving DecidableEq, Repr

structure Files where
  entries : List (Location × Entry) := []
  deriving DecidableEq, Repr

inductive FileProblem where
  | notFound
  | notDirectory
  | isDirectory
  | nameTooLong
  | nullInName
  deriving DecidableEq, Repr

structure FileError where
  problem : FileProblem
  path : String
  deriving DecidableEq, Repr

def FileProblem.words : FileProblem → String
  | notFound => "[Errno 2] No such file or directory"
  | notDirectory => "[Errno 20] Not a directory"
  | isDirectory => "[Errno 21] Is a directory"
  | nameTooLong => "[Errno 36] File name too long"
  | nullInName => "embedded null byte"

def FileError.message (e : FileError) : String :=
  if e.problem = .nullInName then e.problem.words
  else e.problem.words ++ ": " ++ String.ofList (Text.quoted e.path.toList)

def rootName : List Char := ['/']

def hereName : List Char := ['.']

def parentName : List Char := ['.', '.']

def bytesOf (text : String) : List UInt8 := text.toUTF8.toList

def isLongName (name : List Char) : Bool := 255 < (String.ofList name).utf8ByteSize

def isLongPath (path : List Char) : Bool := 4095 < (String.ofList path).utf8ByteSize

namespace Location

/-- The working directory, the root and what is above them are always directories. -/
def isBase (l : Location) : Bool :=
  l.all fun name => name = rootName || name = parentName

def up (l : Location) : Location :=
  match l.getLast? with
  | none => [parentName]
  | some name =>
    if name = rootName then l else if name = parentName then l ++ [parentName] else l.dropLast

end Location

/-- A path taken apart: where it starts, the names that have to lead to directories, the last name,
and whether slashes follow it. -/
structure Route where
  base : Location
  way : List (List Char)
  last : Option (List Char)
  slash : Bool
  deriving DecidableEq, Repr

/-- Several slashes in a row count as one. -/
def Route.ofPath (path : List Char) : Route :=
  let names := (Text.pieces '/' path).filter (!·.isEmpty)
  { base := if path.head? = some '/' then [rootName] else []
    way := names.dropLast
    last := names.getLast?
    slash := path.getLast? = some '/' }

inductive Place where
  | directory (l : Location)
  | named (dir : Location) (name : List Char) (slash : Bool)
  deriving DecidableEq, Repr

namespace Files

def at? (files : Files) (l : Location) : Option Entry :=
  if l.isBase then some .directory else files.entries.lookup l

def set (files : Files) (l : Location) (e : Entry) : Files :=
  ⟨(l, e) :: files.entries.filter (·.1 != l)⟩

def named? (files : Files) (dir : Location) (name : List Char) :
    Except FileProblem (Option Entry) :=
  if isLongName name then .error .nameTooLong else .ok (files.at? (dir ++ [name]))

def enter (files : Files) (here : Location) (name : List Char) : Except FileProblem Location :=
  if name = hereName then .ok here
  else if name = parentName then .ok here.up
  else do
    match ← files.named? here name with
    | none => throw .notFound
    | some (.file _) => throw .notDirectory
    | some .directory => return here ++ [name]

/-- The place that a path leads to; the directories on the way have to be there. -/
def locate (files : Files) (path : List Char) : Except FileProblem Place :=
  if path.contains (Char.ofNat 0) then .error .nullInName
  else if path.isEmpty then .error .notFound
  else if isLongPath path then .error .nameTooLong
  else do
    let route := Route.ofPath path
    let dir ← route.way.foldlM files.enter route.base
    match route.last with
    | none => return .directory dir
    | some name =>
      if name = hereName then return .directory dir
      else if name = parentName then return .directory dir.up
      else return .named dir name route.slash

/-- What is at a place. A file is not found under a name with a slash after it. -/
def find (files : Files) : Place → Except FileProblem Entry
  | .directory _ => .ok .directory
  | .named dir name slash => do
    match ← files.named? dir name with
    | none => throw .notFound
    | some .directory => return .directory
    | some (.file content) => if slash then throw .notDirectory else return .file content

def read (files : Files) (path : String) : Except FileError (List UInt8) :=
  let found : Except FileProblem (List UInt8) := do
    match ← files.find (← files.locate path.toList) with
    | .directory => throw .isDirectory
    | .file content => return content.toBytes
  found.mapError (⟨·, path⟩)

def write (files : Files) (path : String) (content : Content) : Except FileError Files :=
  let written : Except FileProblem Files := do
    match ← files.locate path.toList with
    | .directory _ | .named _ _ true => throw .isDirectory
    | .named dir name false =>
      match ← files.named? dir name with
      | some .directory => throw .isDirectory
      | _ => return files.set (dir ++ [name]) (.file content)
  written.mapError (⟨·, path⟩)

def mem (files : Files) (path : String) : Bool :=
  (do files.find (← files.locate path.toList)).isOk

def add (files : Files) (path : String) (e : Entry) : Files :=
  let step (name : List Char) (l : Location) : Location :=
    if name = hereName then l else if name = parentName then l.up else l ++ [name]
  let route := Route.ofPath path.toList
  let walk := route.way.foldl
    (fun ((files, here) : Files × Location) name =>
      (files.set (step name here) .directory, step name here))
    (files, route.base)
  match route.last with
  | none => walk.1
  | some name => walk.1.set (step name walk.2) e

theorem at?_set {files : Files} {l : Location} {e : Entry} (h : l.isBase = false) :
    (files.set l e).at? l = some e := by
  simp [set, at?, h]

end Files

end IntcodeVM.CommandLine
