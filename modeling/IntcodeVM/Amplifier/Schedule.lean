/-!
A fair schedule for stages that depend on each other. Stages take turns in rounds; a stage that has
to wait is asked again in the next round, and one that has come to its end is asked no more. What
the stages work on is left open.
-/

namespace IntcodeVM.Amplifier

inductive Turn (ε : Type) where
  | halted
  | sent
  | waiting
  | failed (e : ε)
  | unfinished
  deriving DecidableEq, Repr

structure Schedule (σ ε : Type) where
  turn : (stage : Nat) → σ → Turn ε × σ
  work : σ → Nat

inductive Settlement where
  | ended
  /-- Those that are left would wait for ever. -/
  | stuck
  | unfinished
  deriving DecidableEq, Repr

namespace Schedule

variable {σ ε : Type}

/-- Gives each of these stages a turn. Answers those that have not come to their end, unless the
allowance ran out, and those that failed in the order in which they did. -/
def round (s : Schedule σ ε) : List Nat → σ → Option (List Nat) × List (Nat × ε) × σ
  | [], state => (some [], [], state)
  | stage :: rest, state =>
    match s.turn stage state with
    | (.unfinished, state) => (none, [], state)
    | (.halted, state) => s.round rest state
    | (.failed e, state) =>
      let (left, failures, state) := s.round rest state
      (left, (stage, e) :: failures, state)
    | (.sent, state) | (.waiting, state) =>
      let (left, failures, state) := s.round rest state
      (left.map (stage :: ·), failures, state)

/-- Rounds until every stage has come to its end, or until none does anything. -/
def run (s : Schedule σ ε) :
    (rounds : Nat) → List Nat → List (Nat × ε) → σ → Settlement × List (Nat × ε) × σ
  | _, [], failures, state => (.ended, failures, state)
  | 0, _ :: _, failures, state => (.unfinished, failures, state)
  | rounds + 1, stage :: rest, failures, state =>
    let before := s.work state
    match s.round (stage :: rest) state with
    | (none, more, state) => (.unfinished, failures ++ more, state)
    | (some left, more, state) =>
      if left = stage :: rest ∧ s.work state = before then (.stuck, failures ++ more, state)
      else s.run rounds left (failures ++ more) state

end Schedule

/-- The failure to blame. Some failures are passed on from a stage to its neighbours, so the first
one that is not of this kind comes before those. -/
def rootFailure? {ε : Type} (passedOn : ε → Bool) (failures : List (Nat × ε)) :
    Option (Nat × ε) :=
  (failures.find? fun (_, e) => !passedOn e).or failures.head?

end IntcodeVM.Amplifier
