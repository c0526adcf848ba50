import IntcodeVM.Monitor.Execute
import IntcodeVM.Proofs.Attempt

/-! What the monitor's commands do to its machine. The two loops of the monitor are rows of attempts to
step; an attempt comes to a step unless the machine has ended or would have to wait. Main statement: a
command makes a row of steps, or queues values, or starts the machine again, and does nothing else to
the machine. -/
namespace IntcodeVM.Monitor

variable {m next last : Machine} {row : List Machine} {pauses : Machine → Bool} {count budget : Nat}
  {printed : Array String}

def canStep (m : Machine) : Bool :=
  !(m.cpu.halted || m.cpu.fault.isSome) && !starved m

theorem canStep_iff : canStep m = true ↔
    m.cpu.halted = false ∧ m.cpu.fault = none ∧ starved m = false := by
  simp [canStep, and_assoc]

theorem advance_of_canStep (able : canStep m = true) :
    advance m = (Advance.ofOutcome (stepOnce m).2.cpu (stepOnce m).1, (stepOnce m).2) := by
  obtain ⟨going, sound, fed⟩ := canStep_iff.1 able
  simp [advance, going, sound, fed]

theorem advance_of_not_canStep (unable : canStep m = false) :
    ∃ line, advance m = (.ok ⟨[line], false⟩, m) := by
  unfold advance
  split
  · exact ⟨_, rfl⟩
  · rename_i live
    split
    · exact ⟨_, rfl⟩
    · rename_i fed
      simp [canStep, live, fed] at unable

def linesOf : Except Escape Advance → List String
  | .ok a => a.printed
  | .error _ => []

/-- What an attempt prints; nothing if it breaks off. -/
def printedBy (m : Machine) : List String := linesOf (advance m).1

def goesOn (m : Machine) : Bool :=
  match (advance m).1 with
  | .ok a => a.goesOn
  | .error _ => false

def brokenBy (m : Machine) : Option Escape :=
  match (advance m).1 with
  | .ok _ => none
  | .error e => some e

/-- Whether the step of a machine breaks off. -/
def breaks (m : Machine) : Bool := (brokenBy m).isSome

theorem goesOn_of_not_canStep (unable : canStep m = false) : goesOn m = false := by
  obtain ⟨line, tried⟩ := advance_of_not_canStep unable
  rw [goesOn, tried]

theorem brokenBy_eq_some_iff {e : Escape} : brokenBy m = some e ↔ breaks m = true ∧ e = .illegible := by
  have only : ∀ other, brokenBy m = some other → other = .illegible := by
    intro other broke
    rw [brokenBy] at broke
    cases able : canStep m with
    | false =>
      obtain ⟨line, tried⟩ := advance_of_not_canStep able
      simp [tried] at broke
    | true =>
      rw [advance_of_canStep able] at broke
      cases outcome : (stepOnce m).1 with
      | ran op =>
        rw [outcome] at broke
        cases op <;> cases broke
      | stopped stop =>
        rw [outcome] at broke
        cases stop <;> cases broke
        rfl
  rw [breaks, Option.isSome_iff_exists]
  constructor
  · intro broke
    exact ⟨⟨e, broke⟩, only e broke⟩
  · rintro ⟨⟨other, broke⟩, rfl⟩
    rw [broke, only other broke]

theorem not_breaks_of_goesOn (onward : goesOn m = true) : breaks m = false := by
  rw [goesOn] at onward
  rw [breaks, brokenBy]
  rcases tried : (advance m).1 with e | a
  · simp [tried] at onward
  · rfl

theorem stepMany_succ (count : Nat) (m : Machine) (printed : Array String) :
    stepper.stepMany (count + 1) m printed =
      if showsInstruction m.cpu then
        let printed := printed.push (instructionLine m.cpu) ++ (printedBy m).toArray
        if goesOn m then stepper.stepMany count (advance m).2 printed
        else (brokenBy m, printed, (advance m).2)
      else (some .illegible, printed, m) := by
  rw [Stepper.stepMany, goesOn, brokenBy, printedBy]
  cases shown : showsInstruction m.cpu with
  | false => simp [stepper, nextLine, shown]
  | true =>
    rcases tried : advance m with ⟨_ | a, next⟩ <;> simp [stepper, nextLine, shown, tried, linesOf]

theorem runMany_succ (breakpoints : List Int) (budget : Nat) (first : Bool) (m : Machine)
    (printed : Array String) :
    stepper.runMany breakpoints (budget + 1) first m printed =
      if !first && breakpoints.contains m.cpu.ip then (.ok (.breakpoint m.cpu.ip), printed, m)
      else
        let printed := printed ++ (printedBy m).toArray
        if goesOn m then stepper.runMany breakpoints budget false (advance m).2 printed
        else ((advance m).1.map fun _ => .stopped, printed, (advance m).2) := by
  rw [Stepper.runMany, goesOn, printedBy]
  have looked : (if first then .ok false else stepper.stopsAt breakpoints m.cpu.ip) =
      .ok (!first && breakpoints.contains m.cpu.ip) := by
    cases first <;> rfl
  rw [looked]
  cases !first && breakpoints.contains m.cpu.ip with
  | true => rfl
  | false => rcases tried : advance m with ⟨_ | a, next⟩ <;> simp [stepper, tried, linesOf] <;> rfl

/-- Steps in a row: the machines that make them, one after the other, and the machine in the end. -/
inductive Row : Machine → List Machine → Machine → Prop
  | nil (m : Machine) : Row m [] m
  | cons {m last : Machine} {rest : List Machine} : canStep m = true → Row (stepOnce m).2 rest last →
      Row m (m :: rest) last

theorem Row.keeps {P : Machine → Prop} (made : Row m row last) (begun : P m)
    (kept : ∀ t, P t → canStep t = true → P (stepOnce t).2) :
    (∀ t ∈ row, P t ∧ canStep t = true) ∧ P last := by
  induction made with
  | nil => exact ⟨by simp, begun⟩
  | cons able _ ih =>
    obtain ⟨each, ending⟩ := ih (kept _ begun able)
    exact ⟨List.forall_mem_cons.2 ⟨⟨begun, able⟩, each⟩, ending⟩

/-- The machines of a row of attempts. It ends with an attempt after which the machine does not go on, or
in front of a machine that pauses, or after as many attempts as are allowed. -/
def attempts (pauses : Machine → Bool) : (first : Bool) → Nat → Machine → List Machine
  | _, 0, _ => []
  | first, n + 1, m =>
    if !first && pauses m then []
    else m :: if goesOn m then attempts pauses false n (advance m).2 else []

def leftBy (m : Machine) (tried : List Machine) : Machine :=
  tried.foldl (fun _ t => (advance t).2) m

theorem row_of_attempts (pauses : Machine → Bool) (first : Bool) (n : Nat) (m : Machine) :
    Row m ((attempts pauses first n m).filter canStep) (leftBy m (attempts pauses first n m)) := by
  induction n generalizing first m with
  | zero => exact .nil m
  | succ n ih =>
    rw [attempts]
    split
    · exact .nil m
    · cases able : canStep m with
      | false =>
        obtain ⟨line, same⟩ := advance_of_not_canStep able
        simp only [goesOn_of_not_canStep able, Bool.false_eq_true, if_false, leftBy, List.foldl_cons,
          List.foldl_nil, same]
        simpa [able] using Row.nil m
      | true =>
        rw [List.filter_cons_of_pos able]
        apply Row.cons able
        rw [leftBy, List.foldl_cons, advance_of_canStep able]
        split
        · exact ih false (stepOnce m).2
        · exact .nil (stepOnce m).2

/-- What an attempt prints when the instruction is shown first. -/
def shownAttempt (m : Machine) : List String := instructionLine m.cpu :: printedBy m

theorem stepMany_eq (count : Nat) (m : Machine) (printed : Array String) :
    let tried := attempts (fun m => !showsInstruction m.cpu) false count m
    (stepper.stepMany count m printed).2 =
      (printed ++ (tried.flatMap shownAttempt).toArray, leftBy m tried) := by
  induction count generalizing m printed with
  | zero => simp [attempts, Stepper.stepMany, leftBy]
  | succ count ih =>
    rw [stepMany_succ, attempts]
    cases showsInstruction m.cpu with
    | false => simp [leftBy]
    | true =>
      cases goesOn m with
      | false => simp [shownAttempt, leftBy]
      | true => simp [ih, shownAttempt, leftBy]

theorem runMany_eq (breakpoints : List Int) (budget : Nat) (first : Bool) (m : Machine)
    (printed : Array String) :
    let tried := attempts (fun m => breakpoints.contains m.cpu.ip) first budget m
    (stepper.runMany breakpoints budget first m printed).2 =
      (printed ++ (tried.flatMap printedBy).toArray, leftBy m tried) := by
  induction budget generalizing first m printed with
  | zero => simp [attempts, Stepper.runMany, leftBy]
  | succ budget ih =>
    rw [runMany_succ, attempts]
    split
    · simp [leftBy]
    · cases goesOn m with
      | false => simp [leftBy]
      | true => simp [ih, leftBy]

namespace Console

variable {c : Console} {command : Command}

def tried (c : Console) : Command → List Machine
  | .act .step argument =>
    match numberOr 1 (given? argument) with
    | .ok count => attempts (fun m => !showsInstruction m.cpu) false count.toNat c.machine
    | .error _ => []
  | .act .run argument =>
    match numberOr defaultBudget (given? argument) with
    | .ok budget => attempts (fun m => c.breakpoints.contains m.cpu.ip) true budget.toNat c.machine
    | .error _ => []
  | _ => []

/-- The machines that a command steps, in order. -/
def stepped (c : Console) (command : Command) : List Machine := (c.tried command).filter canStep

/-- The values that an argument of `send` stands for; none if they cannot be read. -/
def valuesOf (argument : List Char) : List Int :=
  match Text.shellWords (argument.map fun ch => if ch = ',' then ' ' else ch) with
  | .error _ => []
  | .ok parts =>
    match parts.mapM number with
    | .error _ => []
    | .ok values => values

def machineAfter (c : Console) : Command → Machine
  | .act .send argument => { c.machine with input := (c.machine.input.feed (valuesOf argument)).2 }
  | .act .reset _ => boot c.image c.inputs c.phase
  | command => leftBy c.machine (c.tried command)

/-- What a command leaves as it is, and the machine after it. -/
structure Turned (c : Console) (command : Command) (next : Console) : Prop where
  image : next.image = c.image
  inputs : next.inputs = c.inputs
  phase : next.phase = c.phase
  machine : next.machine = c.machineAfter command

theorem turned_step (c : Console) (argument : List Char) :
    Turned c (.act .step argument) (c.step argument).2 := by
  unfold step
  cases asked : numberOr 1 (given? argument) with
  | error e => exact ⟨rfl, rfl, rfl, by simp [machineAfter, tried, asked, leftBy, sayError, say]⟩
  | ok count =>
    refine ⟨rfl, rfl, rfl, ?_⟩
    simp only [stepMany_eq, machineAfter, tried, asked]

theorem turned_run (c : Console) (argument : List Char) :
    Turned c (.act .run argument) (c.run argument).2 := by
  unfold run
  cases asked : numberOr defaultBudget (given? argument) with
  | error e => exact ⟨rfl, rfl, rfl, by simp [machineAfter, tried, asked, leftBy, sayError, say]⟩
  | ok budget =>
    refine ⟨rfl, rfl, rfl, ?_⟩
    simp only [runMany_eq, machineAfter, tried, asked]

theorem cases_of_send (c : Console) (argument : List Char) :
    valuesOf argument = [] ∧ (c.send argument).2 = c ∨
      (c.send argument).2.machine =
          { c.machine with input := (c.machine.input.feed (valuesOf argument)).2 } ∧
        (c.send argument).2 = { c with machine := (c.send argument).2.machine } ∧
        (c.send argument).1.escape.isNone = (c.machine.input.feed (valuesOf argument)).1.isNone := by
  unfold send
  cases words : Text.shellWords (argument.map fun ch => if ch = ',' then ' ' else ch) with
  | error problem => exact .inl ⟨by simp only [valuesOf, words], rfl⟩
  | ok parts =>
    cases parts with
    | nil => exact .inl ⟨by simp [valuesOf, words], rfl⟩
    | cons part rest =>
      simp only
      cases read : (part :: rest).mapM number with
      | error e => exact .inl ⟨by simp only [valuesOf, words, read], rfl⟩
      | ok values =>
        have sent : valuesOf argument = values := by simp only [valuesOf, words, read]
        rcases fed : c.machine.input.feed values with ⟨refused, input⟩
        simp only [sent, fed]
        cases refused with
        | none => exact .inr ⟨rfl, rfl, rfl⟩
        | some cause => exact .inr ⟨rfl, rfl, rfl⟩

theorem turned_send (c : Console) (argument : List Char) :
    Turned c (.act .send argument) (c.send argument).2 := by
  rcases c.cases_of_send argument with ⟨none, same⟩ | ⟨machine, same, -⟩
  · rw [same]
    exact ⟨rfl, rfl, rfl, by simp [machineAfter, none]⟩
  · rw [same]
    exact ⟨rfl, rfl, rfl, machine⟩

theorem setBreakpoint_eq (c : Console) (argument : List Char) :
    ∃ breakpoints, (c.setBreakpoint argument).2 = { c with breakpoints } := by
  unfold setBreakpoint
  split
  · split <;> exact ⟨_, rfl⟩
  · split <;> exact ⟨_, rfl⟩

theorem clearBreakpoint_eq (c : Console) (argument : List Char) :
    ∃ breakpoints, (c.clearBreakpoint argument).2 = { c with breakpoints } := by
  unfold clearBreakpoint
  split
  · exact ⟨_, rfl⟩
  · split <;> exact ⟨_, rfl⟩

theorem dump_eq (c : Console) (argument : List Char) : (c.dump argument).2 = c := by
  unfold dump
  split
  · rfl
  · rfl
  · split <;> rfl

theorem disassemble_eq (c : Console) (argument : List Char) : (c.disassemble argument).2 = c := by
  unfold disassemble
  split
  · rfl
  · split
    · rfl
    · split <;> rfl

theorem registers_eq (c : Console) : c.registers.2 = c := by
  unfold registers
  dsimp only
  split <;> rfl

/-- Steps, sent values and a new start apart, a command changes nothing but the breakpoints. -/
theorem turned_execute (c : Console) (command : Command) :
    Turned c command (c.execute command).2 := by
  cases command with
  | empty => exact ⟨rfl, rfl, rfl, rfl⟩
  | unknown line => exact ⟨rfl, rfl, rfl, rfl⟩
  | act action argument =>
    cases action with
    | step => exact turned_step c argument
    | run => exact turned_run c argument
    | send => exact turned_send c argument
    | reset | out | quit | endOfInput | help => exact ⟨rfl, rfl, rfl, rfl⟩
    | breakpoint =>
      obtain ⟨breakpoints, same⟩ := setBreakpoint_eq c argument
      simp only [execute, act, same]
      exact ⟨rfl, rfl, rfl, rfl⟩
    | clearBreakpoint =>
      obtain ⟨breakpoints, same⟩ := clearBreakpoint_eq c argument
      simp only [execute, act, same]
      exact ⟨rfl, rfl, rfl, rfl⟩
    | registers =>
      simp only [execute, act, registers_eq]
      exact ⟨rfl, rfl, rfl, rfl⟩
    | dump =>
      simp only [execute, act, dump_eq]
      exact ⟨rfl, rfl, rfl, rfl⟩
    | disassemble =>
      simp only [execute, act, disassemble_eq]
      exact ⟨rfl, rfl, rfl, rfl⟩

theorem row_of_tried (c : Console) (command : Command) :
    Row c.machine (c.stepped command) (leftBy c.machine (c.tried command)) := by
  unfold stepped tried
  split
  · split
    · exact row_of_attempts _ _ _ _
    · exact .nil _
  · split
    · exact row_of_attempts _ _ _ _
    · exact .nil _
  · exact .nil _

/-- What a command does to the machine is to step it, unless it sends values or starts it again. -/
theorem row_of_execute (silent : ∀ argument, command ≠ .act .send argument)
    (lasting : ∀ argument, command ≠ .act .reset argument) :
    Row c.machine (c.stepped command) (c.execute command).2.machine := by
  have after : c.machineAfter command = leftBy c.machine (c.tried command) := by
    unfold machineAfter
    split
    · exact absurd rfl (silent _)
    · exact absurd rfl (lasting _)
    · rfl
  rw [(turned_execute c command).machine, after]
  exact row_of_tried c command

/-- The values that a command queues; none if they are refused. -/
def accepts (c : Console) : Command → List Int
  | .act .send argument => if (c.send argument).1.escape.isNone then valuesOf argument else []
  | _ => []

theorem accepts_send (c : Console) (argument : List Char) :
    c.accepts (.act .send argument) =
      if (c.machine.input.feed (valuesOf argument)).1.isNone then valuesOf argument else [] := by
  rcases c.cases_of_send argument with ⟨none, -⟩ | ⟨-, -, answer⟩
  · simp [accepts, none]
  · rw [accepts, answer]

end Console

/-- A session so far: its console, the lines that it has printed and the values that it has queued. -/
structure Session where
  console : Console
  printed : List String := []
  accepted : List Int := []
  escapes : List Escape := []

namespace Session

variable {s : Session} {command : Command} {commands : List Command}

def opened (image : Memory) (inputs : List Int) (phase : Option Int) : Session :=
  { console := .start image inputs phase }

def enter (s : Session) (command : Command) : Session where
  console := (s.console.execute command).2
  printed := s.printed ++ (s.console.execute command).1.printed
  accepted := s.accepted ++ s.console.accepts command
  escapes := s.escapes ++ (s.console.execute command).1.escape.toList

def follow (s : Session) (commands : List Command) : Session := commands.foldl enter s

theorem follow_keeps {P : Session → Prop} (begun : P s)
    (kept : ∀ s, P s → ∀ command ∈ commands, P (s.enter command)) : P (s.follow commands) := by
  induction commands generalizing s with
  | nil => exact begun
  | cons command rest ih =>
    apply ih (kept s begun command List.mem_cons_self)
    intro t held later mem
    exact kept t held later (List.mem_cons_of_mem _ mem)

end Session

end IntcodeVM.Monitor
