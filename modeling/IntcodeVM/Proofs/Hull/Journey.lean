import IntcodeVM.Proofs.Hull.ClosedLoop
import Mathlib.Algebra.BigOperators.Intervals

/-! Where the robot goes hangs on its turns alone, and every cell shows the last color that it was given
when the robot stood there. Main statement: after any values, all that the robot has is a sum, a count or
a last choice over the values themselves. -/
namespace IntcodeVM.Hull

namespace Heading

/-- The heading so many quarters clockwise from up. -/
def clockwise (quarters : Int) : Heading := turnRight^[(quarters % 4).toNat] .up

theorem clockwise_succ (quarters : Int) : clockwise (quarters + 1) = (clockwise quarters).turnRight := by
  have rests : quarters % 4 = 0 ∨ quarters % 4 = 1 ∨ quarters % 4 = 2 ∨ quarters % 4 = 3 := by omega
  rcases rests with rest | rest | rest | rest <;>
    simp [clockwise, Int.add_emod, rest, turnRight]

theorem clockwise_pred (quarters : Int) : clockwise (quarters - 1) = (clockwise quarters).turnLeft := by
  have around := clockwise_succ (quarters - 1)
  rw [Int.sub_add_cancel] at around
  rw [around, turnLeft_turnRight]

/-- A turn to the right is a quarter, one to the left a quarter less. -/
def quarters (turns : List Int) : Int := turns.countP (· ≠ 0) - turns.count 0

def facing (turns : List Int) : Heading := clockwise (quarters turns)

theorem facing_snoc (turns : List Int) (command : Int) :
    facing (turns ++ [command]) = (facing turns).turn command := by
  by_cases left : command = 0
  · have fewer : quarters (turns ++ [command]) = quarters turns - 1 := by
      simp [quarters, left]
      omega
    rw [facing, fewer, clockwise_pred, turn, if_pos left, facing]
  · have more : quarters (turns ++ [command]) = quarters turns + 1 := by
      simp [quarters, left]
      omega
    rw [facing, more, clockwise_succ, turn, if_neg left, facing]

end Heading

/-- Where the turns lead: one cell for each of them, ahead of the heading that it makes. -/
def place (turns : List Int) : Cell :=
  ∑ j ∈ Finset.range turns.length, (Heading.facing (turns.take (j + 1))).delta

theorem place_snoc (turns : List Int) (command : Int) :
    place (turns ++ [command]) = (place turns).ahead (Heading.facing (turns ++ [command])) := by
  have last : (turns ++ [command]).take (turns.length + 1) = turns ++ [command] :=
    List.take_of_length_le (by simp)
  have before : ∀ j ∈ Finset.range turns.length,
      (Heading.facing ((turns ++ [command]).take (j + 1))).delta =
        (Heading.facing (turns.take (j + 1))).delta := by
    intro j within
    rw [List.take_append_of_le_length (Finset.mem_range.1 within)]
  rw [place, List.length_append, List.length_singleton, Finset.sum_range_succ,
    Finset.sum_congr rfl before, last]
  rfl

/-- No more cells away than there are turns, and on the color of a chessboard that their number gives. -/
theorem place_reachable (turns : List Int) :
    (place turns).1.natAbs + (place turns).2.natAbs ≤ turns.length ∧
      ((place turns).1 + (place turns).2) % 2 = turns.length % 2 := by
  induction turns using List.reverseRecOn with
  | nil => decide
  | append_singleton turns command ih =>
    rw [place_snoc, List.length_append, List.length_singleton, Cell.ahead]
    cases Heading.facing (turns ++ [command]) <;>
      simp only [Heading.delta] <;> omega

/-- The values that say a color, and those that say a turn. -/
def colorsOf : List Int → List Int
  | [] => []
  | [color] => [color]
  | color :: _ :: rest => color :: colorsOf rest

def turnsOf : List Int → List Int
  | [] | [_] => []
  | _ :: command :: rest => command :: turnsOf rest

theorem length_colorsOf (values : List Int) : (colorsOf values).length = (values.length + 1) / 2 := by
  fun_induction colorsOf values with
  | case1 => rfl
  | case2 color => simp
  | case3 color command rest ih =>
    simp only [List.length_cons, ih]
    omega

theorem length_turnsOf (values : List Int) : (turnsOf values).length = values.length / 2 := by
  fun_induction turnsOf values with
  | case1 => rfl
  | case2 color => simp
  | case3 color command rest ih =>
    simp only [List.length_cons, ih]
    omega

theorem colorsOf_snoc (values : List Int) (value : Int) :
    colorsOf (values ++ [value]) =
      if values.length % 2 = 0 then colorsOf values ++ [value] else colorsOf values := by
  fun_induction colorsOf values with
  | case1 => rfl
  | case2 => rfl
  | case3 color command rest ih =>
    rw [List.cons_append, List.cons_append, colorsOf, ih, apply_ite (color :: ·)]
    simp [Nat.add_assoc]

theorem turnsOf_snoc (values : List Int) (value : Int) :
    turnsOf (values ++ [value]) =
      if values.length % 2 = 0 then turnsOf values else turnsOf values ++ [value] := by
  fun_induction turnsOf values with
  | case1 => rfl
  | case2 => rfl
  | case3 color command rest ih =>
    rw [List.cons_append, List.cons_append, turnsOf, ih, apply_ite (command :: ·)]
    simp [Nat.add_assoc]

theorem getElem?_colorsOf (values : List Int) (i : Nat) : (colorsOf values)[i]? = values[2 * i]? := by
  fun_induction colorsOf values generalizing i with
  | case1 => rfl
  | case2 color => cases i <;> simp [Nat.mul_succ]
  | case3 color command rest ih => cases i <;> simp [Nat.mul_succ, ih]

theorem getElem?_turnsOf (values : List Int) (i : Nat) : (turnsOf values)[i]? = values[2 * i + 1]? := by
  fun_induction turnsOf values generalizing i with
  | case1 => rfl
  | case2 color => simp
  | case3 color command rest ih => cases i <;> simp [Nat.mul_succ, ih]

theorem turnsOf_take (values : List Int) (i : Nat) :
    turnsOf (values.take (2 * i)) = (turnsOf values).take i := by
  fun_induction turnsOf values generalizing i with
  | case1 => simp [turnsOf]
  | case2 color => cases i <;> simp [turnsOf, Nat.mul_succ]
  | case3 color command rest ih =>
    cases i with
    | zero => rfl
    | succ i => simp [Nat.mul_succ, turnsOf, ih]

/-- What a robot has after these colors and turns. -/
structure Journey (color : Int) (colors turns : List Int) (p : Painter) : Prop where
  moves : p.moves = turns.length
  heading : p.heading = .facing turns
  position : p.position = place turns
  painted {cell : Cell} : cell ∈ p.painted ↔ ∃ i < colors.length, place (turns.take i) = cell
  /-- A color stays until the robot paints the same cell again. -/
  latest {i : Nat} {value : Int} : colors[i]? = some value →
    (∀ j, i < j → j < colors.length → place (turns.take j) ≠ place (turns.take i)) →
    p.panels.color? (place (turns.take i)) = some value
  unpainted {cell : Cell} : cell ∉ p.painted →
    p.panels.color? cell = if cell = origin then some color else none

namespace Journey

variable {color value : Int} {colors turns : List Int} {p : Painter}

theorem start (color : Int) : Journey color [] [] (.start color) where
  moves := rfl
  heading := rfl
  position := rfl
  painted := by simp [Painter.start]
  latest := by simp
  unpainted _ := Panels.color?_paint ..

/-- The robot stands where it was after all its turns. -/
theorem stands (journey : Journey color colors turns p) (level : colors.length = turns.length) :
    place (turns.take colors.length) = p.position := by
  rw [level, List.take_length, journey.position]

theorem paint (journey : Journey color colors turns p) (level : colors.length = turns.length)
    (value : Int) : Journey color (colors ++ [value]) turns (p.paint value) where
  moves := journey.moves
  heading := journey.heading
  position := journey.position
  painted := by
    intro cell
    rw [Painter.paint, Std.ExtTreeSet.mem_insert, Cell.order_eq_iff, journey.painted,
      ← journey.stands level, List.length_append, List.length_singleton]
    constructor
    · rintro (same | ⟨i, within, same⟩)
      · exact ⟨colors.length, Nat.lt_succ_self _, same⟩
      · exact ⟨i, Nat.lt_succ_of_lt within, same⟩
    · rintro ⟨i, within, same⟩
      rcases Nat.lt_succ_iff_lt_or_eq.1 within with within | rfl
      · exact .inr ⟨i, within, same⟩
      · exact .inl same
  latest := by
    intro i found here last
    rw [List.length_append, List.length_singleton] at last
    rw [Painter.paint, Panels.color?_paint, ← journey.stands level]
    rcases Nat.lt_trichotomy i colors.length with earlier | rfl | beyond
    · rw [if_neg (last _ earlier (Nat.lt_succ_self _)).symm]
      rw [List.getElem?_append_left earlier] at here
      exact journey.latest here fun j later within => last j later (Nat.lt_succ_of_lt within)
    · rw [if_pos rfl]
      simpa using here
    · rw [List.getElem?_eq_none (by simpa using beyond)] at here
      cases here
  unpainted := by
    intro cell elsewhere
    rw [Painter.paint, Std.ExtTreeSet.mem_insert, Cell.order_eq_iff, not_or] at elsewhere
    rw [Painter.paint, Panels.color?_paint, if_neg (Ne.symm elsewhere.1)]
    exact journey.unpainted elsewhere.2

theorem move (journey : Journey color colors turns p) (ahead : colors.length = turns.length + 1)
    (command : Int) : Journey color colors (turns ++ [command]) (p.move command) := by
  have kept {i : Nat} (within : i < colors.length) : (turns ++ [command]).take i = turns.take i :=
    List.take_append_of_le_length (by omega)
  refine ⟨?_, ?_, ?_, ?_, ?_, journey.unpainted⟩
  · rw [Painter.move, journey.moves, List.length_append, List.length_singleton]
  · rw [Painter.move, journey.heading, Heading.facing_snoc]
  · rw [place_snoc, Heading.facing_snoc, ← journey.heading, ← journey.position]
    rfl
  · intro cell
    refine journey.painted.trans (exists_congr fun i => and_congr_right fun within => ?_)
    rw [kept within]
  · intro i value found last
    have within : i < colors.length := (List.getElem?_eq_some_iff.1 found).1
    rw [kept within]
    refine journey.latest found fun j later inside => ?_
    rw [← kept within, ← kept inside]
    exact last j later inside

theorem paintedCount (journey : Journey color colors turns p) :
    p.paintedCount = ((Finset.range colors.length).image fun i => place (turns.take i)).card := by
  have distinct : p.painted.toList.Nodup :=
    p.painted.distinct_toList.imp fun apart same => apart (Cell.order_eq_iff.2 same)
  have cells : p.painted.toList.toFinset =
      (Finset.range colors.length).image fun i => place (turns.take i) := by
    ext cell
    simp [journey.painted]
  rw [← cells, List.toFinset_card_of_nodup distinct, Std.ExtTreeSet.length_toList]
  rfl

theorem known (journey : Journey color colors turns p) {cell : Cell} :
    (p.panels.color? cell).isSome ↔ cell ∈ p.painted ∨ cell = origin := by
  by_cases mem : cell ∈ p.painted
  · obtain ⟨first, within, same⟩ := journey.painted.1 mem
    let paints (i : Nat) : Prop := i < colors.length ∧ place (turns.take i) = cell
    obtain ⟨inside, there⟩ : paints (Nat.findGreatest paints colors.length) :=
      Nat.findGreatest_spec (Nat.le_of_lt within) ⟨within, same⟩
    have colored := journey.latest (List.getElem?_eq_getElem inside) fun j later within again =>
      Nat.findGreatest_is_greatest later (Nat.le_of_lt within) ⟨within, again.trans there⟩
    rw [there] at colored
    simp [mem, colored]
  · rw [journey.unpainted mem]
    by_cases origin : cell = origin <;> simp [mem, origin]

end Journey

open Robot

theorem painted_snoc (color : Int) (values : List Int) (value : Int) :
    painted color (values ++ [value]) = (painted color values).consume value := by
  rw [painted, List.foldl_append]
  rfl

theorem color?_unturned {color last : Int} {values : List Int}
    (turn : (painted color (values ++ [last])).expectsColor = false) :
    (painted color (values ++ [last])).panels.color? (painted color (values ++ [last])).position =
      some last := by
  have expects : (painted color values).expectsColor = true := by
    rw [← Bool.not_eq_false, expectsColor_painted]
    rw [expectsColor_painted, List.length_append, List.length_singleton] at turn
    omega
  rw [painted_snoc, Painter.consume, if_pos expects]
  exact (Panels.color?_paint ..).trans (if_pos rfl)

theorem journey_painted (color : Int) (values : List Int) :
    Journey color (colorsOf values) (turnsOf values) (painted color values) := by
  induction values using List.reverseRecOn with
  | nil => exact .start color
  | append_singleton values value ih =>
    have colors := length_colorsOf values
    have turns := length_turnsOf values
    have expects := expectsColor_painted color values
    rw [colorsOf_snoc, turnsOf_snoc, painted_snoc, Painter.consume]
    by_cases even : values.length % 2 = 0
    · have color : (painted color values).expectsColor = true := by
        rw [← Bool.not_eq_false, expects]
        omega
      rw [if_pos even, if_pos even, if_pos color]
      exact ih.paint (by omega) value
    · have turn : ¬ (painted color values).expectsColor = true := by
        rw [Bool.not_eq_true, expects]
        omega
      rw [if_neg even, if_neg even, if_neg turn]
      exact ih.move (by omega) value

/-- A robot that was told these values, in terms of the values. -/
structure ClosedForm (color : Int) (values : List Int) (p : Painter) : Prop
    extends Journey color (colorsOf values) (turnsOf values) p where
  colors (i : Nat) : (colorsOf values)[i]? = values[2 * i]?
  turns (i : Nat) : (turnsOf values)[i]? = values[2 * i + 1]?
  expects : p.expectsColor = true ↔ values.length % 2 = 0
  half : p.moves = values.length / 2
  /-- The places are those where the robot stood when it was told a color. -/
  headed (i : Nat) :
    (Robot.painted color (values.take (2 * i))).heading = .facing ((turnsOf values).take i)
  stood (i : Nat) :
    (Robot.painted color (values.take (2 * i))).position = place ((turnsOf values).take i)
  near : p.position.1.natAbs + p.position.2.natAbs ≤ p.moves
  parity : (p.position.1 + p.position.2) % 2 = p.moves % 2
  known {cell : Cell} : (p.panels.color? cell).isSome ↔ cell ∈ p.painted ∨ cell = origin
  count : p.paintedCount =
    ((Finset.range (colorsOf values).length).image fun i => place ((turnsOf values).take i)).card
  few : p.paintedCount ≤ (values.length + 1) / 2
  /-- The color for which a turn is missing can be looked up. -/
  unturned : p.expectsColor = false →
    ∃ last, values.getLast? = some last ∧ p.panels.color? p.position = some last ∧
      ∀ r : Robot, r.rig.painter = p → r.missingTurn = (Snag.cause (.missingTurn last)).stop (some r.cpu.ip)

/-- Any values make of the robot what their number, their turns and their colors say: it expects a color
after an even number of them, it heads as many quarters from up as it turned right more often than left,
and stands at the sum of all the steps on its way. A cell is painted if the robot stood there to paint it,
and shows the last color that it got. -/
theorem painted_closed_form (color : Int) (values : List Int) :
    ClosedForm color values (painted color values) := by
  have journey := journey_painted color values
  have half : (painted color values).moves = values.length / 2 := by
    rw [journey.moves, length_turnsOf]
  obtain ⟨near, parity⟩ := place_reachable (turnsOf values)
  rw [← journey.moves, ← journey.position] at near parity
  have before (i : Nat) :
      Journey color _ ((turnsOf values).take i) (painted color (values.take (2 * i))) :=
    turnsOf_take values i ▸ journey_painted color (values.take (2 * i))
  refine ⟨journey, getElem?_colorsOf values, getElem?_turnsOf values, ?_, half,
    fun i => (before i).heading, fun i => (before i).position, near, parity, journey.known,
    journey.paintedCount, ?_, ?_⟩
  · rw [← Bool.not_eq_false, expectsColor_painted]
    omega
  · rw [journey.paintedCount, ← length_colorsOf]
    exact Finset.card_image_le.trans_eq (Finset.card_range _)
  · intro turn
    rcases List.eq_nil_or_concat' values with rfl | ⟨before, last, rfl⟩
    · cases turn
    · have looked := color?_unturned turn
      refine ⟨last, List.getLast?_concat, looked, fun r same => ?_⟩
      rw [missingTurn, same, Painter.view, Panels.colorAt, looked]
      rfl

end IntcodeVM.Hull
