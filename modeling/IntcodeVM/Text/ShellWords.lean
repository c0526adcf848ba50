import IntcodeVM.Text.Blank

/-!
Command arguments split the way a shell splits words: at spaces, tabs and line ends, with single
quotes that keep everything, double quotes in which a backslash escapes a quote or a backslash,
and a backslash that keeps the next character outside quotes.
-/

namespace IntcodeVM.Text

inductive ShellProblem where
  | noClosingQuotation
  | noEscapedCharacter
  deriving DecidableEq, Repr

/-- Where the reader stands: between words, in a word, in quotes, or right after a backslash. -/
inductive ShellState where
  | between
  | word
  | quotes (quote : Char)
  | escape (back : Option Char)

def isShellBlank (c : Char) : Bool :=
  c == ' ' || c == '\t' || c == '\r' || c == '\n'

/-- Reads on from a state; `token` is the word so far and `done` the earlier words, both reversed.
After a backslash the state keeps the double quote that it stands in, if any. -/
def shellWordsFrom (token : List Char) (done : List (List Char)) :
    ShellState → List Char → Except ShellProblem (List (List Char))
  | .between, [] => .ok done.reverse
  | .word, [] => .ok (token.reverse :: done).reverse
  | .quotes _, [] => .error .noClosingQuotation
  | .escape _, [] => .error .noEscapedCharacter
  | .between, c :: rest =>
    if isShellBlank c then shellWordsFrom [] done .between rest
    else if c = '\\' then shellWordsFrom [] done (.escape none) rest
    else if c = '\'' ∨ c = '"' then shellWordsFrom [] done (.quotes c) rest
    else shellWordsFrom [c] done .word rest
  | .word, c :: rest =>
    if isShellBlank c then shellWordsFrom [] (token.reverse :: done) .between rest
    else if c = '\\' then shellWordsFrom token done (.escape none) rest
    else if c = '\'' ∨ c = '"' then shellWordsFrom token done (.quotes c) rest
    else shellWordsFrom (c :: token) done .word rest
  | .quotes quote, c :: rest =>
    if c = quote then shellWordsFrom token done .word rest
    else if c = '\\' ∧ quote = '"' then shellWordsFrom token done (.escape (some quote)) rest
    else shellWordsFrom (c :: token) done (.quotes quote) rest
  | .escape none, c :: rest => shellWordsFrom (c :: token) done .word rest
  | .escape (some quote), c :: rest =>
    if c = '\\' ∨ c = quote then shellWordsFrom (c :: token) done (.quotes quote) rest
    else shellWordsFrom (c :: '\\' :: token) done (.quotes quote) rest

def shellWords (text : List Char) : Except ShellProblem (List (List Char)) :=
  shellWordsFrom [] [] .between text

def ShellProblem.message : ShellProblem → String
  | .noClosingQuotation => "No closing quotation"
  | .noEscapedCharacter => "No escaped character"

end IntcodeVM.Text
