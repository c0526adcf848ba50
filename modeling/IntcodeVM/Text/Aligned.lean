namespace IntcodeVM.Text

def alignRight (width : Nat) (text : String) : String :=
  String.ofList (List.replicate (width - text.length) ' ') ++ text

def alignLeft (width : Nat) (text : String) : String :=
  text ++ String.ofList (List.replicate (width - text.length) ' ')

def twoDigits (n : Nat) : String :=
  if n < 10 then "0" ++ toString n else toString n

def truthWord (b : Bool) : String :=
  if b then "True" else "False"

end IntcodeVM.Text
