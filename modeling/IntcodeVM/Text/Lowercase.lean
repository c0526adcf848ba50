import IntcodeVM.Text.CaseTable

/-!
Lower-casing of whole texts. Every character has a lower case of its own, but for two: the dotted
capital I becomes two characters, and a capital sigma becomes a final sigma at the end of a word.
-/

namespace IntcodeVM.Text

def lowerCharacter (c : Char) : Char :=
  let run? := caseRuns.find? fun run =>
    run.first ≤ c.toNat && c.toNat ≤ run.last && (c.toNat - run.first) % run.stride == 0
  match run? with
  | some run => Char.ofNat (c.toNat + run.shift).toNat
  | none => c

def isCaseIgnorable (c : Char) : Bool := caseIgnorableRanges.contains c.toNat

def isCased (c : Char) : Bool := casedRanges.contains c.toNat

/-- Whether the nearest character that is not passed over has case. -/
def meetsCased (text : List Char) : Bool :=
  ((text.dropWhile isCaseIgnorable).head?.map isCased).getD false

/-- A sigma is final when a letter with case comes before it in the word and none after it. -/
def isFinalSigma (past rest : List Char) : Bool :=
  meetsCased past && !meetsCased rest

/-- Lower-cases the rest of a text; `past` holds what came before, the nearest first. -/
def lowercaseFrom (past : List Char) : List Char → List Char
  | [] => []
  | c :: rest =>
    let lower :=
      if c = 'Σ' then [if isFinalSigma past rest then 'ς' else 'σ']
      else if c = 'İ' then ['i', Char.ofNat 0x307]
      else [lowerCharacter c]
    lower ++ lowercaseFrom (c :: past) rest

def lowercase (text : List Char) : List Char :=
  lowercaseFrom [] text

end IntcodeVM.Text
