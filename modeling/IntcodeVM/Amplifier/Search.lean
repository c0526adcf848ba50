import IntcodeVM.Amplifier.Ring

namespace IntcodeVM.Amplifier

variable {α : Type}

def selections : List α → List (α × List α)
  | [] => []
  | a :: rest => (a, rest) :: (selections rest).map fun (b, others) => (b, a :: others)

def orderingsOf : Nat → List α → List (List α)
  | 0, _ => [[]]
  | n + 1, list =>
    (selections list).flatMap fun (first, others) => (orderingsOf n others).map (first :: ·)

/-- All orderings, ascending by the positions of the elements. -/
def orderings (list : List α) : List (List α) := orderingsOf list.length list

def amplify (allowance : Nat) (memory : Memory) (phases : List (Option Int)) (feedback : Bool)
    (seed : Int) : Except CircuitError Int := do
  let c ← Circuit.build memory phases feedback
  (c.run allowance seed).1

abbrev Setting := Int × List (Option Int)

/-- Of two results the greater, and of equal ones the earlier. -/
def better (best : Option Setting) (next : Setting) : Setting :=
  match best with
  | none => next
  | some best => if best.1 < next.1 then next else best

/-- Tries settings in order; the first error ends the search. -/
def bestOf (trial : List (Option Int) → Except CircuitError Int) :
    List (List (Option Int)) → Option Setting → Except CircuitError (Option Setting)
  | [], best => .ok best
  | phases :: rest, best => do
    let value ← trial phases
    bestOf trial rest (some (better best (value, phases)))

def searchPhases (allowance : Nat) (memory : Memory) (phases : List (Option Int)) (feedback : Bool)
    (seed : Int) : Except CircuitError (Option Setting) :=
  bestOf (fun ps => amplify allowance memory ps feedback seed) (orderings phases) none

def defaultPhases (feedback : Bool) : List (Option Int) :=
  (List.range 5).map fun (i : Nat) => some (if feedback then (i : Int) + 5 else i)

end IntcodeVM.Amplifier
