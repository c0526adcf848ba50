import IntcodeVM.Proofs.Monitor.Reached

/-! Sessions as steps in a row. A value that is sent late goes behind all that a machine has still to
take, so it is in nobody's way if it was there from the start. Main statement: whatever was done in a
session, its machine is where plain steps bring a machine that had all values queued at once. -/
namespace IntcodeVM

theorem Channel.feed_of_closed {α : Type} {ch : Channel α} (closed : ch.closed = true)
    (values : List α) : (ch.feed values).2 = ch ∧ ((ch.feed values).1.isNone → values = []) := by
  cases values with
  | nil => exact ⟨rfl, fun _ => rfl⟩
  | cons value rest =>
    rw [feed, push_eq_of_closed closed]
    exact ⟨rfl, fun taken => by cases taken⟩

namespace Monitor

variable {m : Machine} {image : Memory} {inputs : List Int} {phase : Option Int}

theorem count_brokenBy (m : Machine) :
    (brokenBy m).toList.count .illegible = if breaks m then 1 else 0 := by
  cases broke : brokenBy m with
  | none => simp [breaks, broke]
  | some e =>
    obtain ⟨breaking, rfl⟩ := brokenBy_eq_some_iff.1 broke
    simp [breaking]

/-- Of a row of attempts only the last can break off, and then it ends the command. -/
theorem countP_breaks_step (count : Nat) (m : Machine) (printed : Array String) :
    (attempts (fun m => !showsInstruction m.cpu) false count m).countP breaks ≤
      (stepper.stepMany count m printed).1.toList.count .illegible := by
  induction count generalizing m printed with
  | zero => exact Nat.zero_le _
  | succ count ih =>
    rw [attempts, stepMany_succ]
    cases showsInstruction m.cpu with
    | false => exact Nat.zero_le _
    | true =>
      cases onward : goesOn m with
      | true => simpa [not_breaks_of_goesOn onward] using ih _ _
      | false => simp [count_brokenBy, List.countP_cons]

theorem countP_breaks_run (breakpoints : List Int) (budget : Nat) (first : Bool) (m : Machine)
    (printed : Array String) (limit : Int) :
    (attempts (fun m => breakpoints.contains m.cpu.ip) first budget m).countP breaks ≤
      (Console.runClosing limit
        (stepper.runMany breakpoints budget first m printed).1).2.toList.count .illegible := by
  induction budget generalizing first m printed with
  | zero => exact Nat.zero_le _
  | succ budget ih =>
    rw [attempts, runMany_succ]
    split
    · exact Nat.zero_le _
    · cases onward : goesOn m with
      | true => simpa [not_breaks_of_goesOn onward] using ih _ _ _
      | false =>
        have closed : (Console.runClosing limit ((advance m).1.map fun _ => .stopped)).2 =
            brokenBy m := by
          rw [brokenBy]
          cases (advance m).1 <;> rfl
        simp [closed, count_brokenBy, List.countP_cons]

theorem Console.countP_breaks (c : Console) (command : Command) :
    (c.stepped command).countP breaks ≤
      (c.execute command).1.escape.toList.count .illegible := by
  refine Nat.le_trans List.filter_sublist.countP_le ?_
  unfold tried
  split
  · rename_i argument
    simp only [execute, act, step]
    cases numberOr 1 (given? argument) with
    | ok count => exact countP_breaks_step _ _ _
    | error e => exact Nat.zero_le _
  · rename_i argument
    simp only [execute, act, run]
    cases numberOr defaultBudget (given? argument) with
    | ok budget => exact countP_breaks_run _ _ _ _ _ _
    | error e => exact Nat.zero_le _
  · exact Nat.zero_le _

/-- What holds of a session at every moment. -/
structure Accounted (image : Memory) (inputs : List Int) (phase : Option Int) (s : Session) :
    Prop where
  attended : Attended s.console.machine
  reached : ∃ broken ≤ s.escapes.count .illegible,
    Reached image phase (inputs ++ s.accepted) broken s.console.machine
  values : s.printed.filter isOut =
    (s.console.machine.output.visible.filter Text.isLegible).map outLine
  faults : s.printed.filter isFault = s.console.machine.cpu.fault.toList.map faultLine

variable {s : Session}

theorem Accounted.stepped (accounted : Accounted image inputs phase s) {command : Command}
    (silent : ∀ argument, command ≠ .act .send argument)
    (lasting : ∀ argument, command ≠ .act .reset argument) :
    Accounted image inputs phase (s.enter command) := by
  have row := Console.row_of_execute silent lasting (c := s.console)
  have none : s.console.accepts command = [] := by
    unfold Console.accepts
    split
    · exact absurd rfl (silent _)
    · rfl
  obtain ⟨out, fault⟩ := accounted.attended.row_shown row
  obtain ⟨broken, few, reached⟩ := accounted.reached
  refine ⟨(Console.attended_execute accounted.attended command).2,
    ⟨broken + (s.console.stepped command).countP breaks, ?_, ?_⟩, ?_, ?_⟩
  · simp only [Session.enter, List.count_append]
    exact Nat.add_le_add few (s.console.countP_breaks command)
  · simp only [Session.enter, none, List.append_nil]
    exact reached.row accounted.attended row
  · simp only [Session.enter, List.filter_append, accounted.values, out,
      Console.filter_printed fun _ => isOut_of_plain]
  · simp only [Session.enter, List.filter_append, accounted.faults, fault,
      Console.filter_printed fun _ => isFault_of_plain]

theorem Accounted.sent (accounted : Accounted image inputs phase s) (argument : List Char) :
    Accounted image inputs phase (s.enter (.act .send argument)) := by
  have machine := (s.console.turned_execute (.act .send argument)).machine
  have printed {marked : String → Bool} (spared : ∀ line, plain line = true → marked line = false) :
      (s.console.execute (.act .send argument)).1.printed.filter marked = [] :=
    Console.filter_of_plain spared (s.console.plain_send argument)
  obtain ⟨broken, few, reached⟩ := accounted.reached
  refine ⟨(Console.attended_execute accounted.attended _).2, ⟨broken, ?_, ?_⟩, ?_, ?_⟩
  · simp only [Session.enter, List.count_append]
    exact Nat.le_add_right_of_le few
  · simp only [Session.enter, machine, Console.machineAfter, Console.accepts_send]
    cases faulted : s.console.machine.cpu.fault with
    | none =>
      have opened : s.console.machine.input.closed = false := by
        rw [accounted.attended.listening, faulted]
        rfl
      simp only [Channel.feed_eq_supplied opened, Option.isNone_none, if_true, ← List.append_assoc]
      exact reached.supplied faulted _
    | some fault =>
      have closed : s.console.machine.input.closed = true := by
        rw [accounted.attended.listening, faulted]
        rfl
      obtain ⟨same, refused⟩ := Channel.feed_of_closed closed (Console.valuesOf argument)
      have none : (if (s.console.machine.input.feed (Console.valuesOf argument)).1.isNone then
          Console.valuesOf argument else []) = [] := by
        split
        · exact refused ‹_›
        · rfl
      rw [none, same, List.append_nil]
      exact reached
  · simp only [Session.enter, List.filter_append, accounted.values, machine, Console.machineAfter,
      printed fun _ => isOut_of_plain, List.append_nil]
  · simp only [Session.enter, List.filter_append, accounted.faults, machine, Console.machineAfter,
      printed fun _ => isFault_of_plain, List.append_nil]

theorem accounted_opened (image : Memory) (inputs : List Int) (phase : Option Int) :
    Accounted image inputs phase (.opened image inputs phase) where
  attended := attended_boot image inputs phase
  reached := by
    rw [Session.opened, List.append_nil]
    exact ⟨0, Nat.le_refl 0, reached_boot image inputs phase⟩
  values := rfl
  faults := rfl

theorem accounted_follow (image : Memory) (inputs : List Int) (phase : Option Int)
    {commands : List Command} (lasting : ∀ argument, .act .reset argument ∉ commands) :
    Accounted image inputs phase ((Session.opened image inputs phase).follow commands) := by
  apply Session.follow_keeps (accounted_opened image inputs phase)
  intro s accounted command mem
  have once : ∀ argument, command ≠ .act .reset argument := by
    rintro argument rfl
    exact lasting argument mem
  by_cases sends : ∃ argument, command = .act .send argument
  · obtain ⟨argument, rfl⟩ := sends
    exact accounted.sent argument
  · exact accounted.stepped (fun argument same => sends ⟨argument, same⟩) once

/-- A session against plain steps of a machine on the same image, which has the first inputs and all
values that the session accepted queued at once. -/
structure OnlySteps (image : Memory) (inputs : List Int) (phase : Option Int) (s : Session) :
    Prop where
  /-- A step that is broken off ends its command. -/
  walked : ∃ broken ≤ s.escapes.count .illegible, ∃ outcomes,
    Progress s.console.machine.cpu.steps broken outcomes ∧
      Cpu.walk wiring (s.console.machine.cpu.steps + broken + (s.printed.filter isFault).length)
          { name := "monitor", memory := image, phase }
          (.preloaded "monitor-in" (inputs ++ s.accepted), .collector {}) =
        (outcomes ++ s.console.machine.cpu.fault.toList.map fun fault => .stopped (.fault fault),
          s.console.machine.cpu, s.console.machine.input, s.console.machine.output)
  faults : s.printed.filter isFault = s.console.machine.cpu.fault.toList.map faultLine
  values : s.printed.filter isOut =
    (s.console.machine.output.visible.filter Text.isLegible).map outLine
  shown (argument : List Char) : (s.console.execute (.act .out argument)).1 =
    if s.console.machine.output.visible.all Text.isLegible then
      { printed :=
          ["  " ++ String.ofList (Text.commaSeparated s.console.machine.output.visible)] }
    else { escape := some .illegible }
  /-- Where nothing was too long to be written, the steps are those of a machine without a monitor. -/
  plain : .illegible ∉ s.escapes → s.console.machine.output.visible.all Text.isLegible = true ∧
    ∃ ops : List Opcode, ops.length = s.console.machine.cpu.steps ∧
      Cpu.walk Machine.wiring
          (s.console.machine.cpu.steps + (s.printed.filter isFault).length)
          { name := "monitor", memory := image, phase }
          (.preloaded "monitor-in" (inputs ++ s.accepted), .collector {}) =
        (ops.map .ran ++ s.console.machine.cpu.fault.toList.map fun fault => .stopped (.fault fault),
          s.console.machine.cpu, s.console.machine.input, s.console.machine.output)

theorem Accounted.unbroken (accounted : Accounted image inputs phase s)
    (whole : .illegible ∉ s.escapes) :
    Reached image phase (inputs ++ s.accepted) 0 s.console.machine := by
  obtain ⟨broken, few, reached⟩ := accounted.reached
  rw [List.count_eq_zero.2 whole] at few
  cases Nat.le_zero.1 few
  exact reached

theorem execute_out (c : Console) (argument : List Char) :
    (c.execute (.act .out argument)).1 =
      if c.machine.output.visible.all Text.isLegible then
        { printed := ["  " ++ String.ofList (Text.commaSeparated c.machine.output.visible)] }
      else { escape := some .illegible } := by
  simp only [Console.execute, Console.act, Console.out, Text.lineOf?]
  split <;> rfl

/-- A session without a new start is nothing but stepping: as many steps that run as its machine counts,
one that fails if it has told a fault, and steps that were broken off at a number too long to be written,
each of which ended a command. Its lines that tell values are those of the values at the output that can
be told. -/
theorem session_is_stepping (image : Memory) (inputs : List Int) (phase : Option Int)
    (commands : List Command) (lasting : ∀ argument, .act .reset argument ∉ commands) :
    OnlySteps image inputs phase ((Session.opened image inputs phase).follow commands) := by
  have accounted := accounted_follow image inputs phase lasting
  obtain ⟨broken, few, reached⟩ := accounted.reached
  have faults := congrArg List.length accounted.faults
  rw [List.length_map] at faults
  refine ⟨⟨broken, few, ?_⟩, accounted.faults, accounted.values, execute_out _, fun whole => ?_⟩
  · rw [faults]
    exact reached.walked
  · rw [faults]
    exact (accounted.unbroken whole).plain

/-- A run cut by a wait, a breakpoint and a fault, with a value that came late and one that came too
late. -/
theorem session_is_stepping_cut :
    let image := Memory.ofWords [3, 0, 4, 0, 1101, 0, 0, 9] 0
    let commands : List Command := [.act .step [], .act .send ['7'], .act .breakpoint ['4'],
      .act .run [], .act .step [], .act .send ['8'], .act .run []]
    let s := (Session.opened image [] none).follow commands
    (∀ argument, .act .reset argument ∉ commands) ∧ OnlySteps image [] none s ∧
      s.accepted = [7] ∧ s.console.machine.cpu.steps = 2 ∧
      s.console.machine.cpu.fault = some ⟨.outOfBounds 9 8, some 4⟩ ∧
      s.printed.filter isOut = [outLine 7] ∧ .illegible ∉ s.escapes := by
  intro image commands s
  have lasting : ∀ argument, .act .reset argument ∉ commands := by simp [commands]
  refine ⟨lasting, session_is_stepping image [] none commands lasting, ?_, ?_, ?_, ?_, ?_⟩ <;>
    decide +kernel

/-- A value that is too long to be written breaks its step off: the value is handed out, and no number of
plain steps comes to the same. -/
theorem session_of_long_output :
    let s := (Session.opened (.ofWords [104, Text.illegible, 99] 0) [] none).follow [.act .run []]
    s.escapes = [.illegible] ∧ s.printed = [] ∧ s.console.machine.cpu.steps = 0 ∧
      s.console.machine.cpu.ip = 1 ∧ s.console.machine.output.visible = [Text.illegible] ∧
      ¬ ∀ (image : Memory) (inputs : List Int) (phase : Option Int) (commands : List Command),
        (∀ argument, .act .reset argument ∉ commands) →
          let s := (Session.opened image inputs phase).follow commands
          ∃ outcomes, Cpu.walk Machine.wiring
              (s.console.machine.cpu.steps + (s.printed.filter isFault).length)
              { name := "monitor", memory := image, phase }
              (.preloaded "monitor-in" (inputs ++ s.accepted), .collector {}) =
            (outcomes, s.console.machine.cpu, s.console.machine.input, s.console.machine.output) := by
  intro s
  have printed : s.printed = [] := by decide +kernel
  have steps : s.console.machine.cpu.steps = 0 := by decide +kernel
  have ip : s.console.machine.cpu.ip = 1 := by decide +kernel
  refine ⟨by decide +kernel, printed, steps, ip, by decide +kernel, fun always => ?_⟩
  obtain ⟨outcomes, walked⟩ := always (.ofWords [104, Text.illegible, 99] 0) [] none [.act .run []]
    (by simp)
  have named : (Session.opened (.ofWords [104, Text.illegible, 99] 0) [] none).follow [.act .run []] =
      s := rfl
  clear_value s
  rw [named, printed, steps] at walked
  have stays : 0 = s.console.machine.cpu.ip := congrArg (fun reached => reached.2.1.ip) walked
  cases stays.trans ip

/-- How a run was cut, and when its values were sent, makes no difference to the machine. -/
theorem machines_agree {others : List Int} {commands more : List Command}
    (lasting : ∀ argument, .act .reset argument ∉ commands)
    (lasting' : ∀ argument, .act .reset argument ∉ more) {s t : Session}
    (first : s = (Session.opened image inputs phase).follow commands)
    (second : t = (Session.opened image others phase).follow more)
    (whole : .illegible ∉ s.escapes) (whole' : .illegible ∉ t.escapes)
    (values : inputs ++ s.accepted = others ++ t.accepted)
    (steps : s.console.machine.cpu.steps = t.console.machine.cpu.steps)
    (faults : s.console.machine.cpu.fault.isSome = t.console.machine.cpu.fault.isSome) :
    s.console.machine = t.console.machine := by
  subst first second
  have here := (accounted_follow image inputs phase lasting).unbroken whole
  have there := (accounted_follow image others phase lasting').unbroken whole'
  rw [← values] at there
  exact here.unique there steps faults

end Monitor

end IntcodeVM
