import IntcodeVM.Proofs.Monitor.Refusals

/-! Starting the machine of a session again. No command touches the image, the first inputs and the phase
that a monitor was given. Main statement: whatever was typed before a reset, and whatever became of it,
the breakpoints are all that is left. -/
namespace IntcodeVM.Monitor

/-- The replies to typed lines, also to those behind a line that ends the session or is cut off. -/
def replies (c : Console) : List (List Char) → List (Reply Escape)
  | [] => []
  | typed :: rest => (c.enter typed).1 :: replies (c.enter typed).2 rest

/-- The breakpoints after a command. Only the command and the earlier breakpoints count. -/
def marked (marks : List Int) : Command → List Int
  | .act .breakpoint argument =>
    if argument.isEmpty then marks
    else
      match number argument with
      | .ok addr => insertSorted addr marks
      | .error _ => marks
  | .act .clearBreakpoint argument =>
    if Text.lowercase argument = ['a', 'l', 'l'] then []
    else
      match number argument with
      | .ok addr => marks.filter (· ≠ addr)
      | .error _ => marks
  | _ => marks

variable {c : Console} {lines : List (List Char)} {typed argument : List Char}

namespace Console

theorem breakpoints_setBreakpoint (c : Console) (argument : List Char) :
    (c.setBreakpoint argument).2.breakpoints = marked c.breakpoints (.act .breakpoint argument) := by
  unfold setBreakpoint marked
  by_cases none : argument.isEmpty = true
  · simp only [if_pos none]
    split <;> rfl
  · simp only [if_neg none]
    cases number argument <;> rfl

theorem breakpoints_clearBreakpoint (c : Console) (argument : List Char) :
    (c.clearBreakpoint argument).2.breakpoints =
      marked c.breakpoints (.act .clearBreakpoint argument) := by
  unfold clearBreakpoint marked
  by_cases every : Text.lowercase argument = ['a', 'l', 'l']
  · simp only [if_pos every]
    rfl
  · simp only [if_neg every]
    cases number argument <;> rfl

theorem breakpoints_send (c : Console) (argument : List Char) :
    (c.send argument).2.breakpoints = c.breakpoints := by
  rcases c.cases_of_send argument with ⟨-, same⟩ | ⟨-, same, -⟩
  · rw [same]
  · rw [same]

theorem breakpoints_execute (c : Console) (command : Command) :
    (c.execute command).2.breakpoints = marked c.breakpoints command := by
  cases command with
  | empty | unknown line => rfl
  | act action argument =>
    cases action with
    | breakpoint => exact breakpoints_setBreakpoint c argument
    | clearBreakpoint => exact breakpoints_clearBreakpoint c argument
    | send => exact breakpoints_send c argument
    | out | reset | quit | endOfInput | help => rfl
    | registers =>
      simp only [execute, act, registers_eq]
      rfl
    | step =>
      simp only [execute, act, step]
      split <;> rfl
    | run =>
      simp only [execute, act, run]
      split <;> rfl
    | dump =>
      simp only [execute, act, dump_eq]
      rfl
    | disassemble =>
      simp only [execute, act, disassemble_eq]
      rfl

end Console

structure Passed (c : Console) (lines : List (List Char)) (next : Console) : Prop where
  image : next.image = c.image
  inputs : next.inputs = c.inputs
  phase : next.phase = c.phase
  breakpoints : next.breakpoints =
    lines.foldl (fun marks typed => marked marks (.parse typed)) c.breakpoints

theorem passed_enter (c : Console) (typed : List Char) : Passed c [typed] (c.enter typed).2 :=
  have turned := c.turned_execute (.parse typed)
  ⟨turned.image, turned.inputs, turned.phase, c.breakpoints_execute (.parse typed)⟩

theorem passed_after (c : Console) (lines : List (List Char)) : Passed c lines (after c lines) := by
  induction lines generalizing c with
  | nil => exact ⟨rfl, rfl, rfl, rfl⟩
  | cons typed rest ih =>
    have first := passed_enter c typed
    have others := ih (c.enter typed).2
    refine ⟨others.image.trans first.image, others.inputs.trans first.inputs,
      others.phase.trans first.phase, ?_⟩
    rw [after, List.foldl_cons, List.foldl_cons, ← after, others.breakpoints, first.breakpoints]
    rfl

theorem enter_of_reset (resets : Command.parse typed = .act .reset argument) (c : Console) :
    c.enter typed = ({ printed := ["Machine reset."] },
      { Console.start c.image c.inputs c.phase with breakpoints := c.breakpoints }) := by
  rw [Console.enter, resets]
  rfl

/-- After a reset the monitor is as one that was just opened with the same image, inputs and phase and has
the breakpoints of the moment. It gives the same replies to whatever is typed next and comes to the same
machine and ports, and of what was typed before, only the breakpoint commands matter. -/
theorem reset_starts_afresh (image : Memory) (inputs : List Int) (phase : Option Int)
    (before later : List (List Char)) {typed argument : List Char}
    (resets : Command.parse typed = .act .reset argument) :
    let start := Console.start image inputs phase
    let fresh := { start with breakpoints := (after start before).breakpoints }
    ((after start before).enter typed).1 = { printed := ["Machine reset."] } ∧
      replies (after start (before ++ [typed])) later = replies fresh later ∧
      after start (before ++ typed :: later) = after fresh later ∧
      fresh.breakpoints = before.foldl (fun marks typed => marked marks (.parse typed)) [] := by
  intro start fresh
  have passed : Passed start before (after start before) := passed_after start before
  have reply := enter_of_reset resets (after start before)
  rw [passed.image, passed.inputs, passed.phase] at reply
  have again : after start (before ++ [typed]) = fresh := by
    rw [after, List.foldl_append]
    exact congrArg Prod.snd reply
  refine ⟨congrArg Prod.fst reply, congrArg (replies · later) again, ?_, passed.breakpoints⟩
  rw [← again, after, after, after, ← List.foldl_append, List.append_assoc]
  rfl

/-- A machine that overwrote its program, took the phase and the values and has a fault, with breakpoints
set and cleared before; then a run to one that is left. -/
theorem reset_starts_afresh_overwritten :
    let image := Memory.ofWords [3, 4, 3, 5, 99, 0, 104, 7, 1105, 1, 0] 0
    let start := Console.start image [1107] (some 8)
    let before := ["bp 6", "run", "send 5,6", "bp 2", "run", "bpd 6", "run", "dump 0 4"].map String.toList
    let later := ["run", "regs", "run", "run", "out"].map String.toList
    let fresh := { start with breakpoints := [2] }
    Command.parse " reset now".toList = .act .reset "now".toList ∧
      (after start before).machine.cpu.fault.isSome = true ∧
      (after start before).machine.cpu.memory.toList ≠ image.toList ∧
      replies (after start (before ++ [" reset now".toList])) later = replies fresh later ∧
      after start (before ++ " reset now".toList :: later) = after fresh later := by
  intro image start before later fresh
  have resets : Command.parse " reset now".toList = .act .reset "now".toList := by decide +kernel
  have marks : (after start before).breakpoints = [2] := by decide +kernel
  obtain ⟨-, same, reached, -⟩ := reset_starts_afresh image [1107] (some 8) before later resets
  rw [marks] at same reached
  exact ⟨resets, by decide +kernel, by decide +kernel, same, reached⟩

end IntcodeVM.Monitor
