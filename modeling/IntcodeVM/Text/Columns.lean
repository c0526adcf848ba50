import IntcodeVM.Text.Aligned

namespace IntcodeVM.Text

def columnsOf (rows : Nat) (words : List String) : List (List String) :=
  (List.range ((words.length + rows - 1) / rows)).map fun i => (words.drop (rows * i)).take rows

def widest (words : List String) : Nat :=
  words.foldl (fun width w => max width w.length) 0

def totalWidth (columns : List (List String)) : Nat :=
  columns.foldl (fun width column => width + widest column) 0 + 2 * (columns.length - 1)

def rowsFor (width : Nat) (words : List String) : Nat :=
  (((List.range words.length).drop 1).find? fun rows =>
    totalWidth (columnsOf rows words) ≤ width).getD words.length

def columnRow (columns : List (List String)) (row : Nat) : String :=
  "  ".intercalate (columns.filterMap fun column => column[row]?.map (alignLeft (widest column)))

def inColumns (width : Nat) (words : List String) : List String :=
  let rows := rowsFor width words
  if rows = words.length then words
  else (List.range rows).map (columnRow (columnsOf rows words))

end IntcodeVM.Text
