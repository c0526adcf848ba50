import IntcodeVM.Monitor.Execute

namespace IntcodeVM.Monitor

def greeting : String :=
  "\nIntcode Monitor\nType 'help' for commands.  'quit' to exit.\n\n"

def prompt : String := "IC> "

/-- The transcript of these lines after a beginning, and what ended the session against its will. -/
def transcript {σ ε : Type} (enter : σ → List Char → Reply ε × σ) (written : String) (s : σ) :
    List (List Char) → String × Option ε
  | [] => (written ++ prompt ++ String.join (farewell.map (· ++ "\n")), none)
  | typed :: rest =>
    let (reply, s) := enter s typed
    let written := written ++ prompt ++ reply.text
    match reply.escape with
    | some e => (written, some e)
    | none => if reply.ends then (written, none) else transcript enter written s rest

/-- The lines of an input text; nothing follows its last line end. -/
def inputLines (input : List Char) : List (List Char) :=
  let lines := Text.pieces '\n' input
  if lines.getLast? = some [] then lines.dropLast else lines

end IntcodeVM.Monitor
