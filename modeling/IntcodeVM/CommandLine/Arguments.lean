import IntcodeVM.Text.Numeral

/-!
Command-line arguments. Options may stand before, between and after the positional arguments. A
long option may be shortened as long as only one option starts that way, and may have its value
after an equals sign; a short option may have its value, or further short options, attached. After
`--` nothing is an option any more, and where `--` stands for a value, that value is vacant. A
negative number is no option.
-/

namespace IntcodeVM.CommandLine

inductive ValueKind where
  | nothing
  | integer
  | text
  | choice (allowed : List String)
  deriving DecidableEq, Repr

structure OptionSpec where
  names : List String
  kind : ValueKind
  deriving DecidableEq, Repr

def OptionSpec.key (o : OptionSpec) : String := o.names.headD ""

def OptionSpec.takesValue (o : OptionSpec) : Bool := o.kind ≠ .nothing

inductive OptionValue where
  | present
  /-- The option was given a value, but there is nothing in it. -/
  | vacant
  | integer (n : Int)
  | text (s : String)
  deriving DecidableEq, Repr

inductive UsageEnd where
  | help
  | error
  deriving DecidableEq, Repr

structure FoundOption where
  option : OptionSpec
  short : Bool
  attached : Option (List Char)
  deriving DecidableEq, Repr

inductive Argument where
  | plain (text : String)
  | terminator
  | found (o : FoundOption)
  | unknownOption
  deriving DecidableEq, Repr

def optionNames (options : List OptionSpec) : List (List Char × OptionSpec) :=
  options.flatMap fun o => o.names.map fun name => (name.toList, o)

def isShortName : List Char → Bool
  | '-' :: '-' :: _ => false
  | _ => true

/-- The options that an argument may mean, though it is not the name of one. -/
def candidates (names : List (List Char × OptionSpec)) (arg : List Char) : List FoundOption :=
  if isShortName arg then
    names.filterMap fun (name, o) =>
      if name = arg.take 2 then some ⟨o, true, some (arg.drop 2)⟩
      else if arg.isPrefixOf name then some ⟨o, isShortName name, none⟩
      else none
  else
    let attached := if arg.contains '=' then some (Text.after '=' arg) else none
    names.filterMap fun (name, o) =>
      if (Text.before '=' arg).isPrefixOf name then some ⟨o, isShortName name, attached⟩ else none

/-- A minus sign and digits, perhaps with a decimal point before the last of them; one line end may
follow. -/
def isNegativeNumber : List Char → Bool
  | '-' :: rest =>
    let rest := if rest.getLast? = some '\n' then rest.dropLast else rest
    let isDigit (c : Char) := (Text.decimalDigit? c).isSome
    let whole := rest.takeWhile isDigit
    match rest.dropWhile isDigit with
    | [] => !whole.isEmpty
    | '.' :: fraction => !fraction.isEmpty && fraction.all isDigit
    | _ => false
  | _ => false

/-- The kind of one argument. An abbreviation of two options is an error. -/
def classify (options : List OptionSpec) (arg : String) : Except UsageEnd Argument :=
  let chars := arg.toList
  let names := optionNames options
  match chars with
  | '-' :: _ :: _ =>
    match names.lookup chars with
    | some o => .ok (.found ⟨o, isShortName chars, none⟩)
    | none =>
      let name := Text.before '=' chars
      match if chars.contains '=' then names.lookup name else none with
      | some o => .ok (.found ⟨o, isShortName name, some (Text.after '=' chars)⟩)
      | none =>
        match candidates names chars with
        | _ :: _ :: _ => .error .error
        | [found] => .ok (.found found)
        | [] =>
          if isNegativeNumber chars || chars.contains ' ' then .ok (.plain arg)
          else .ok .unknownOption
  | _ => .ok (.plain arg)

/-- The kinds of all arguments; from the first `--` on, every argument is plain. -/
def classifyAll (options : List OptionSpec) : List String → Except UsageEnd (List Argument)
  | [] => .ok []
  | arg :: rest =>
    if arg = "--" then .ok (.terminator :: rest.map .plain)
    else do
      let first ← classify options arg
      return first :: (← classifyAll options rest)

/-- What was read: option values in order, positional arguments, and whether anything was left
over. A vacant positional argument has no text. -/
structure Parsed where
  values : List (String × OptionValue) := []
  positionals : List (Option String) := []
  leftover : Bool := false
  deriving DecidableEq, Repr

def helpName : String := "--help"

/-- The mark after which nothing is an option; as a value it stands for none. -/
def terminatorMark : List Char := ['-', '-']

/-- The value of a text. What is vacant is of every kind. -/
def ValueKind.read? (kind : ValueKind) (text : List Char) : Option OptionValue :=
  if kind = .nothing then some .present
  else if text = terminatorMark then some .vacant
  else match kind with
    | .nothing => some .present
    | .integer => (Text.decimalInteger? text).map .integer
    | .text => some (.text (String.ofList text))
    | .choice allowed =>
      if allowed.contains (String.ofList text) then some (.text (String.ofList text)) else none

/-- Files the value of an option; asking for help ends the reading. -/
def Parsed.take (p : Parsed) (o : OptionSpec) (text : List Char) : Except UsageEnd Parsed :=
  if o.key = helpName then .error .help
  else
    match o.kind.read? text with
    | some value => .ok { p with values := p.values ++ [(o.key, value)] }
    | none => .error .error

structure Resolved where
  taken : List (OptionSpec × List Char) := []
  usedNext : Bool := false

/-- An option without attached text finds its value in the next argument. -/
def resolvePlain (o : OptionSpec) (next : Option Argument) : Except UsageEnd Resolved :=
  if o.takesValue then
    match next with
    | some (.plain text) => .ok { taken := [(o, text.toList)], usedNext := true }
    | _ => .error .error
  else .ok { taken := [(o, [])] }

def shortOption? (options : List OptionSpec) (letter : Char) : Option OptionSpec :=
  (optionNames options).lookup ['-', letter]

/-- Text attached to an option: its value, or the letters of more short options if it takes none. -/
def resolveAttached (options : List OptionSpec) (o : OptionSpec) (short : Bool)
    (next : Option Argument) : List Char → Except UsageEnd Resolved
  | [] => if o.takesValue then .ok { taken := [(o, [])] } else .error .error
  | letter :: rest =>
    if o.takesValue then .ok { taken := [(o, letter :: rest)] }
    else
      match if short then shortOption? options letter else none with
      | none => .error .error
      | some further => do
        let resolved ← match rest with
          | [] => resolvePlain further next
          | c :: more => resolveAttached options further true next (c :: more)
        return { resolved with taken := (o, []) :: resolved.taken }

def resolve (options : List OptionSpec) (found : FoundOption) (next : Option Argument) :
    Except UsageEnd Resolved :=
  match found.attached with
  | none => resolvePlain found.option next
  | some text => resolveAttached options found.option found.short next text

inductive Neighbor where
  | positional
  /-- A terminator that belongs to the argument after it. -/
  | terminator
  | other
  deriving DecidableEq, Repr

/-- The text of a positional argument. A second terminator mark is the name of a file right after
the terminator, and vacant elsewhere. -/
def positionalText (before : Neighbor) (text : String) : Option String :=
  if text.toList = terminatorMark ∧ before ≠ .terminator then none else some text

/-- Reads classified arguments from left to right; `wanted` positional arguments are still missing.
The terminator belongs to the positional argument beside it, and to the one before it rather than
the one after it. -/
def parseArguments (options : List OptionSpec) (wanted : Nat) (before : Neighbor) (p : Parsed) :
    List Argument → Except UsageEnd Parsed
  | [] => if wanted = 0 then .ok p else .error .error
  | .plain text :: rest =>
    match wanted with
    | 0 => parseArguments options 0 .other { p with leftover := true } rest
    | wanted + 1 =>
      let positionals := p.positionals ++ [positionalText before text]
      parseArguments options wanted .positional { p with positionals } rest
  | .terminator :: rest =>
    if before = .positional then parseArguments options wanted .other p rest
    else if wanted ≠ 0 && !rest.isEmpty then parseArguments options wanted .terminator p rest
    else parseArguments options wanted .other { p with leftover := true } rest
  | .unknownOption :: rest =>
    parseArguments options wanted .other { p with leftover := true } rest
  | .found found :: rest => do
    let resolved ← resolve options found rest.head?
    let p ← resolved.taken.foldlM (fun p (o, text) => p.take o text) p
    match rest with
    | [] => parseArguments options wanted .other p []
    | next :: more =>
      if resolved.usedNext then parseArguments options wanted .other p more
      else parseArguments options wanted .other p (next :: more)

def parse (options : List OptionSpec) (positionals : Nat) (args : List String) :
    Except UsageEnd Parsed := do
  parseArguments options positionals .other {} (← classifyAll options args)

inductive Amount where
  | number (n : Int)
  | vacant
  deriving DecidableEq, Repr

def Amount.number? : Amount → Option Int
  | number n => some n
  | vacant => none

def OptionValue.amount? : OptionValue → Option Amount
  | .integer n => some (.number n)
  | .vacant => some .vacant
  | _ => none

namespace Parsed

def last? (p : Parsed) (key : String) : Option OptionValue :=
  (p.values.filter (·.1 == key)).getLast?.map Prod.snd

def has (p : Parsed) (key : String) : Bool := (p.last? key).isSome

def amount? (p : Parsed) (key : String) : Option Amount := (p.last? key).bind OptionValue.amount?

def amountD (p : Parsed) (key : String) (default : Int) : Amount :=
  (p.amount? key).getD (.number default)

def text? (p : Parsed) (key : String) : Option String :=
  match p.last? key with
  | some (.text s) => some s
  | _ => none

def amounts (p : Parsed) (key : String) : List Amount :=
  (p.values.filter (·.1 == key)).filterMap fun (_, value) => value.amount?

def positional? (p : Parsed) (index : Nat) : Option String := (p.positionals[index]?).join

end Parsed

end IntcodeVM.CommandLine
