import IntcodeVM.Diagnostic
import IntcodeVM.Machine

namespace IntcodeVM.Batch

def machine (memory : Memory) (inputs : List Int) (phase : Option Int) : Machine where
  cpu := { memory, phase }
  input := .ofList inputs
  output := .collector {}

def outputs (allowance : Nat) (memory : Memory) (inputs : List Int) (phase : Option Int) :
    Except Stop (List Int) :=
  match (machine memory inputs phase).run allowance none with
  | (.error stop, _) => .error stop
  | (.ok _, m) => .ok m.output.visible

/-- The cells that take the noun and the verb, and the cell of the result. -/
def nounAddress : Int := 1
def verbAddress : Int := 2
def resultAddress : Int := 0

/-- Memory accesses from outside a machine fail with a fault that has no instruction. -/
def outside {α : Type} (r : Except Cause α) : Except Stop α :=
  r.mapError fun cause => (Snag.cause cause).stop none

def patched (allowance : Nat) (memory : Memory) (noun verb : Int) : Except Stop Int := do
  let memory ← outside (memory.write nounAddress noun)
  let memory ← outside (memory.write verbAddress verb)
  match (machine memory [] none).run allowance none with
  | (.error stop, _) => throw stop
  | (.ok _, m) => outside (m.cpu.memory.read resultAddress)

inductive SearchError where
  | stopped (stop : Stop)
  | noPair (limit target : Int)
  deriving DecidableEq, Repr

def SearchError.diagnostic : SearchError → Diagnostic
  | stopped stop => stop.diagnostic
  | noPair limit target =>
    if Text.isLegible limit && Text.isLegible target then
      .notFound s!"No noun/verb below {limit} produces {target}"
    else .badValue Text.illegibleMessage

/-- The first answer among the questions `n`, `n + 1` and so on, `left` of them; a question that
fails ends the search. -/
def firstAnswer {ε α : Type} (question : Nat → Except ε (Option α)) :
    (left n : Nat) → Except ε (Option α)
  | 0, _ => .ok none
  | left + 1, n =>
    match question n with
    | .error e => .error e
    | .ok (some answer) => .ok (some answer)
    | .ok none => firstAnswer question left (n + 1)

def trial (allowance : Nat) (memory : Memory) (target : Int) (noun verb : Nat) :
    Except Stop (Option (Nat × Nat)) :=
  (patched allowance memory noun verb).map fun result =>
    if result = target then some (noun, verb) else none

/-- Searches nouns and verbs below the limit for a pair that leaves the target; the noun counts
slower. -/
def search (allowance : Nat) (memory : Memory) (target limit : Int) :
    Except SearchError (Nat × Nat) :=
  let row (noun : Nat) := firstAnswer (trial allowance memory target noun) limit.toNat 0
  match firstAnswer row limit.toNat 0 with
  | .error stop => .error (.stopped stop)
  | .ok (some pair) => .ok pair
  | .ok none => .error (.noPair limit target)

end IntcodeVM.Batch
