import IntcodeVM.Monitor.Session
import IntcodeVM.Proofs.Monitor.Unwritable

/-! What becomes of a command that the monitor cannot carry out. It is told by lines of its own, and
nothing changes. Three things are not caught: quotes that do not close, values for a machine with a
fault, and numbers too long to be written. Main statement: after any typed lines, the next one is cut off
by one of the three and by nothing else, and a session goes on until a line ends it or is cut off. -/
namespace IntcodeVM.Monitor

open Machine

variable {c : Console} {command : Command} {argument : List Char} {lines : List String}
  {e : Escape} {message : String}

/-- The text of a command that is cut into words as a shell cuts it. -/
def shellText? : Command → Option (List Char)
  | .act .send argument => some (argument.map fun ch => if ch = ',' then ' ' else ch)
  | .act .dump argument | .act .disassemble argument => some argument
  | _ => none

/-- What a command meets and does not catch. -/
inductive Uncaught (c : Console) : Command → Escape → Prop
  | quoting {command : Command} {text : List Char} {problem : Text.ShellProblem} :
      shellText? command = some text → Text.shellWords text = .error problem →
      Uncaught c command (.badQuoting problem)
  | faulted {argument : List Char} : Console.valuesOf argument ≠ [] → c.machine.cpu.fault.isSome →
      Uncaught c (.act .send argument) (.sendRefused (.sinkTerminated c.machine.input.name))
  | unwritable {command : Command} : Unwritable c command → Uncaught c command .illegible

def problem? {α : Type} : Except String α → Option String
  | .ok _ => none
  | .error message => some message

/-- What is wrong with the numbers of a command, or with the range of memory that they name. -/
def complaint? (c : Console) : Command → Option String
  | .act .step argument => problem? (numberOr 1 (given? argument))
  | .act .run argument => problem? (numberOr Console.defaultBudget (given? argument))
  | .act .breakpoint argument => if argument.isEmpty then none else problem? (number argument)
  | .act .clearBreakpoint argument =>
    if Text.lowercase argument = ['a', 'l', 'l'] then none else problem? (number argument)
  | .act .send argument =>
    match Text.shellWords (argument.map fun ch => if ch = ',' then ' ' else ch) with
    | .ok parts => problem? (parts.mapM number)
    | .error _ => none
  | .act .dump argument =>
    match Text.shellWords argument with
    | .ok (first :: rest) => problem? (c.dumped first rest)
    | _ => none
  | .act .disassemble argument =>
    match Text.shellWords argument with
    | .ok parts => problem? (c.listingRange parts)
    | .error _ => none
  | _ => none

/-- The commands that are refused, and the lines that say so. -/
inductive Declined (c : Console) : Command → List String → Prop
  | unreadable {command : Command} {message : String} : complaint? c command = some message →
      Declined c command ["Error: " ++ message]
  | nothingToSend {argument text : List Char} : shellText? (.act .send argument) = some text →
      Text.shellWords text = .ok [] → Declined c (.act .send argument) ["Usage: send <value...>"]
  | nothingToDump {argument : List Char} : Text.shellWords argument = .ok [] →
      Declined c (.act .dump argument) ["Usage: dump <address> [count]"]
  | notStepped {argument : List Char} {count : Int} : numberOr 1 (given? argument) = .ok count →
      0 < count → canStep c.machine = false → showsInstruction c.machine.cpu = true →
      Declined c (.act .step argument) (shownAttempt c.machine)
  | notRun {argument : List Char} {budget : Int} :
      numberOr Console.defaultBudget (given? argument) = .ok budget → 0 < budget →
      canStep c.machine = false → Declined c (.act .run argument) (printedBy c.machine)
  | noHelp {argument : List Char} : argument ≠ [] →
      (Action.ofName? (String.ofList argument)).bind Action.help? = none →
      Declined c (.act .help argument) ["*** No help on " ++ String.ofList argument]
  | unknown (line : List Char) :
      Declined c (.unknown line) ["*** Unknown syntax: " ++ String.ofList line]

namespace Console

theorem words_of_values (given : valuesOf argument ≠ []) :
    ∃ part parts, Text.shellWords (argument.map fun ch => if ch = ',' then ' ' else ch) =
        .ok (part :: parts) ∧ (part :: parts).mapM number = .ok (valuesOf argument) := by
  cases words : Text.shellWords (argument.map fun ch => if ch = ',' then ' ' else ch) with
  | error problem => simp [valuesOf, words] at given
  | ok parts =>
    cases parts with
    | nil => simp [valuesOf, words] at given
    | cons part parts =>
      refine ⟨part, parts, rfl, ?_⟩
      cases read : (part :: parts).mapM number with
      | error message => simp only [valuesOf, words, read, ne_eq, not_true_eq_false] at given
      | ok values => simp only [valuesOf, words, read]

theorem send_of_closed (given : valuesOf argument ≠ []) (closed : c.machine.input.closed = true) :
    c.send argument =
      ({ escape := some (.sendRefused (.sinkTerminated c.machine.input.name)) }, c) := by
  obtain ⟨part, parts, words, read⟩ := words_of_values given
  obtain ⟨value, rest, values⟩ := List.exists_cons_of_ne_nil given
  have refused : c.machine.input.feed (valuesOf argument) =
      (some (.sinkTerminated c.machine.input.name), c.machine.input) := by
    rw [values, Channel.feed, Channel.push_eq_of_closed closed]
  simp only [send, words, read, refused]
  rfl

end Console

/-- A number that is too long apart, a command that is not caught does nothing. -/
theorem execute_of_uncaught (listening : c.machine.input.closed = c.machine.cpu.fault.isSome)
    (uncaught : Uncaught c command e) (other : e ≠ .illegible) :
    c.execute command = ({ escape := some e }, c) := by
  cases uncaught with
  | quoting shell bad =>
    unfold shellText? at shell
    split at shell <;> cases shell
    · simp only [Console.execute, Console.act, Console.send, bad]
      rfl
    · simp only [Console.execute, Console.act, Console.dump, bad]
      rfl
    · simp only [Console.execute, Console.act, Console.disassemble, bad]
      rfl
  | faulted given faulted => exact Console.send_of_closed given (listening.trans faulted)
  | unwritable => exact absurd rfl other

theorem uncaught_of_send (listening : c.machine.input.closed = c.machine.cpu.fault.isSome)
    (escaped : (c.send argument).1.escape = some e) : Uncaught c (.act .send argument) e := by
  by_cases given : Console.valuesOf argument = []
  · unfold Console.send at escaped
    split at escaped
    · rename_i problem bad
      cases escaped
      exact .quoting rfl bad
    · cases escaped
    · rename_i parts _ words
      split at escaped
      · cases escaped
      · rename_i values read
        have none : values = [] := by simpa only [Console.valuesOf, words, read] using given
        subst none
        cases escaped
  · cases closed : c.machine.input.closed with
    | true =>
      rw [Console.send_of_closed given closed] at escaped
      cases escaped
      exact .faulted given (listening.symm.trans closed)
    | false =>
      obtain ⟨part, parts, words, read⟩ := Console.words_of_values given
      obtain ⟨after, fed, -⟩ := Channel.feed_of_open (Console.valuesOf argument) closed
      simp only [Console.send, words, read, fed] at escaped
      cases escaped

theorem escape_send_iff (listening : c.machine.input.closed = c.machine.cpu.fault.isSome) :
    (c.send argument).1.escape = some e ↔ Uncaught c (.act .send argument) e := by
  refine ⟨uncaught_of_send listening, fun uncaught => ?_⟩
  have other : e ≠ .illegible := by
    rintro rfl
    cases uncaught with
    | unwritable long => cases long
  exact congrArg (fun answered => answered.1.escape) (execute_of_uncaught listening uncaught other)

theorem uncaught_iff_of_whole (whole : shellText? command = none) :
    Uncaught c command e ↔ e = .illegible ∧ Unwritable c command := by
  constructor
  · intro uncaught
    cases uncaught with
    | quoting shell => cases whole.symm.trans shell
    | faulted => cases whole
    | unwritable long => exact ⟨rfl, long⟩
  · rintro ⟨rfl, long⟩
    exact .unwritable long

theorem uncaught_iff_of_shell (action : Action)
    (shell : shellText? (.act action argument) = some argument) (listens : action ≠ .send) :
    Uncaught c (.act action argument) e ↔
      (∃ problem, Text.shellWords argument = .error problem ∧ e = .badQuoting problem) ∨
        e = .illegible ∧ Unwritable c (.act action argument) := by
  constructor
  · intro uncaught
    cases uncaught with
    | quoting given bad =>
      cases shell.symm.trans given
      exact .inl ⟨_, bad, rfl⟩
    | faulted => exact absurd rfl listens
    | unwritable long => exact .inr ⟨rfl, long⟩
  · rintro (⟨problem, bad, rfl⟩ | ⟨rfl, long⟩)
    · exact .quoting shell bad
    · exact .unwritable long

/-- What leaves a command uncaught, and nothing else does. -/
theorem escape_execute_iff (listening : c.machine.input.closed = c.machine.cpu.fault.isSome) :
    (c.execute command).1.escape = some e ↔ Uncaught c command e := by
  have calm (command : Command) (quiet : (c.execute command).1.escape = none)
      (free : ¬ Unwritable c command) (whole : shellText? command = none) :
      (c.execute command).1.escape = some e ↔ Uncaught c command e := by
    rw [uncaught_iff_of_whole whole, quiet]
    exact uncut_iff free
  cases command with
  | empty => exact calm .empty rfl nofun rfl
  | unknown line => exact calm (.unknown line) rfl nofun rfl
  | act action argument =>
    cases action with
    | send => exact escape_send_iff listening
    | step => exact Console.escape_step_iff.trans (uncaught_iff_of_whole rfl).symm
    | run => exact Console.escape_run_iff.trans (uncaught_iff_of_whole rfl).symm
    | out => exact Console.escape_out_iff.trans (uncaught_iff_of_whole rfl).symm
    | breakpoint => exact Console.escape_setBreakpoint_iff.trans (uncaught_iff_of_whole rfl).symm
    | clearBreakpoint =>
      exact Console.escape_clearBreakpoint_iff.trans (uncaught_iff_of_whole rfl).symm
    | registers => exact Console.escape_registers_iff.trans (uncaught_iff_of_whole rfl).symm
    | dump => exact Console.escape_dump_iff.trans (uncaught_iff_of_shell .dump rfl (by decide)).symm
    | disassemble =>
      exact Console.escape_disassemble_iff.trans (uncaught_iff_of_shell .disassemble rfl (by decide)).symm
    | reset => exact calm (.act .reset _) rfl nofun rfl
    | quit => exact calm (.act .quit _) rfl nofun rfl
    | endOfInput => exact calm (.act .endOfInput _) rfl nofun rfl
    | help => exact calm (.act .help _) rfl nofun rfl

theorem problem?_eq_some_iff {α : Type} {x : Except String α} :
    problem? x = some message ↔ x = .error message := by
  cases x with
  | ok a => simp [problem?]
  | error other => simp [problem?]

theorem execute_of_complaint (wrong : complaint? c command = some message) :
    c.execute command = c.sayError message := by
  unfold complaint? at wrong
  split at wrong
  · simp only [Console.execute, Console.act, Console.step, problem?_eq_some_iff.1 wrong]
  · simp only [Console.execute, Console.act, Console.run, problem?_eq_some_iff.1 wrong]
  · split at wrong
    · cases wrong
    · rename_i given
      simp only [Console.execute, Console.act, Console.setBreakpoint, if_neg given,
        problem?_eq_some_iff.1 wrong]
  · split at wrong
    · cases wrong
    · rename_i one
      simp only [Console.execute, Console.act, Console.clearBreakpoint, if_neg one,
        problem?_eq_some_iff.1 wrong]
  · split at wrong
    · rename_i parts words
      cases parts with
      | nil => cases wrong
      | cons part parts =>
        simp only [Console.execute, Console.act, Console.send, words, problem?_eq_some_iff.1 wrong]
    · cases wrong
  · split at wrong
    · rename_i first rest words
      simp only [Console.execute, Console.act, Console.dump, words, problem?_eq_some_iff.1 wrong]
    · cases wrong
  · split at wrong
    · rename_i parts words
      simp only [Console.execute, Console.act, Console.disassemble, words,
        problem?_eq_some_iff.1 wrong]
    · cases wrong
  · cases wrong

theorem step_of_unable {count : Int} (asked : numberOr 1 (given? argument) = .ok count)
    (some : 0 < count) (unable : canStep c.machine = false)
    (shown : showsInstruction c.machine.cpu = true) :
    c.step argument = ({ printed := shownAttempt c.machine }, c) := by
  obtain ⟨n, more⟩ : ∃ n, count.toNat = n + 1 := ⟨count.toNat - 1, by omega⟩
  obtain ⟨line, tried⟩ := advance_of_not_canStep unable
  simp [Console.step, asked, more, stepMany_succ, shown, goesOn_of_not_canStep unable, brokenBy,
    shownAttempt, tried]

theorem run_of_unable {budget : Int}
    (asked : numberOr Console.defaultBudget (given? argument) = .ok budget) (some : 0 < budget)
    (unable : canStep c.machine = false) :
    c.run argument = ({ printed := printedBy c.machine }, c) := by
  obtain ⟨n, more⟩ : ∃ n, budget.toNat = n + 1 := ⟨budget.toNat - 1, by omega⟩
  obtain ⟨line, tried⟩ := advance_of_not_canStep unable
  simp [Console.run, asked, more, runMany_succ, goesOn_of_not_canStep unable, tried, Except.map,
    Console.runClosing, Console.runEnding, cut, Text.writtenLines]

theorem execute_of_declined (declined : Declined c command lines) :
    c.execute command = ({ printed := lines }, c) ∧ lines ≠ [] := by
  cases declined with
  | unreadable wrong => exact ⟨execute_of_complaint wrong, by simp⟩
  | nothingToSend shell none =>
    cases shell
    refine ⟨?_, by simp⟩
    simp only [Console.execute, Console.act, Console.send, none]
    rfl
  | nothingToDump none =>
    refine ⟨?_, by simp⟩
    simp only [Console.execute, Console.act, Console.dump, none]
    rfl
  | notStepped asked some unable shown =>
    exact ⟨step_of_unable asked some unable shown, by simp [shownAttempt]⟩
  | notRun asked some unable =>
    obtain ⟨line, tried⟩ := advance_of_not_canStep unable
    exact ⟨run_of_unable asked some unable, by simp [printedBy, linesOf, tried]⟩
  | noHelp given none =>
    refine ⟨?_, by simp⟩
    simp [Console.execute, Console.act, Console.help, helpOn, given, none, Console.say]
  | unknown line => exact ⟨rfl, by simp⟩

def after (c : Console) (lines : List (List Char)) : Console :=
  lines.foldl (fun c typed => (c.enter typed).2) c

/-- What becomes of a command. -/
structure Told (c : Console) (command : Command) (answered : Reply Escape × Console) : Prop where
  cut (e : Escape) : answered.1.escape = some e ↔ Uncaught c command e
  uncaught (e : Escape) : Uncaught c command e → e ≠ .illegible →
    answered = ({ escape := some e }, c)
  declined (lines : List String) : Declined c command lines →
    lines ≠ [] ∧ answered = ({ printed := lines }, c)

theorem told_execute (attended : Attended c.machine) (command : Command) :
    Told c command (c.execute command) where
  cut _ := escape_execute_iff attended.listening
  uncaught _ := execute_of_uncaught attended.listening
  declined _ declined := (execute_of_declined declined).symm

theorem attended_after (image : Memory) (inputs : List Int) (phase : Option Int)
    (lines : List (List Char)) : Attended (after (.start image inputs phase) lines).machine := by
  have begun : Attended (Console.start image inputs phase).machine := attended_boot image inputs phase
  generalize Console.start image inputs phase = c at begun
  induction lines generalizing c with
  | nil => exact begun
  | cons typed rest ih => exact ih (c.enter typed).2 (Console.attended_execute begun _).2

/-- Whether no line ends the session or is cut off. -/
def staysOpen (c : Console) : List (List Char) → Bool
  | [] => true
  | typed :: rest =>
    (c.enter typed).1.escape.isNone && !(c.enter typed).1.ends && staysOpen (c.enter typed).2 rest

/-- Some line is the first that is cut off, with none before it that ends the session. -/
def CutOff (c : Console) (lines : List (List Char)) (e : Escape) : Prop :=
  ∃ before typed later, lines = before ++ typed :: later ∧ staysOpen c before = true ∧
    ((after c before).enter typed).1.escape = some e

theorem cutOff_cons {typed : List Char} {rest : List (List Char)} {e : Escape} :
    CutOff c (typed :: rest) e ↔ (c.enter typed).1.escape = some e ∨
      staysOpen c [typed] = true ∧ CutOff (c.enter typed).2 rest e := by
  constructor
  · rintro ⟨before, last, later, same, onward, cut⟩
    rcases List.cons_eq_append_iff.1 same with ⟨rfl, first⟩ | ⟨others, rfl, rfl⟩
    · cases first
      exact .inl cut
    · simp only [staysOpen, Bool.and_eq_true] at onward
      exact .inr ⟨by simp [staysOpen, onward], others, last, later, rfl, onward.2, cut⟩
  · rintro (cut | ⟨onward, before, last, later, rfl, others, cut⟩)
    · exact ⟨[], typed, rest, rfl, rfl, cut⟩
    · refine ⟨typed :: before, last, later, rfl, ?_, cut⟩
      simpa [staysOpen, others] using onward

/-- A session is cut off by its first line that is, unless an earlier one ends it. -/
theorem transcript_escape_iff (written : String) (c : Console) (lines : List (List Char))
    (e : Escape) :
    (transcript Console.enter written c lines).2 = some e ↔ CutOff c lines e := by
  induction lines generalizing c written with
  | nil => simp [transcript, CutOff]
  | cons typed rest ih =>
    rw [cutOff_cons]
    rcases answered : c.enter typed with ⟨reply, next⟩
    simp only [transcript, staysOpen, answered]
    cases escape : reply.escape with
    | some other => simp
    | none =>
      cases ends : reply.ends with
      | true => simp
      | false => simpa using ih _ next

/-- After any typed lines, whether or not they were cut off, a line is cut off by what is not caught and
by nothing else; whatever else a command is refused for is told, and changes nothing. A session is cut
off by its first such line. -/
theorem lines_cut_off_iff (image : Memory) (inputs : List Int) (phase : Option Int)
    (lines : List (List Char)) :
    let start := Console.start image inputs phase
    (∀ typed, Told (after start lines) (.parse typed) ((after start lines).enter typed)) ∧
      ∀ e, (transcript Console.enter greeting start lines).2 = some e ↔ CutOff start lines e :=
  ⟨fun _ => told_execute (attended_after image inputs phase lines) _,
    transcript_escape_iff greeting _ lines⟩

/-- A quote that does not close, and a value for a machine with a fault. -/
theorem lines_cut_off_twice :
    let halting := Console.start (.ofWords [99] 0) [] none
    let failing := after (.start (.ofWords [-1] 0) [] none) ["step".toList]
    (halting.enter "send 'a".toList).1 = { escape := some (.badQuoting .noClosingQuotation) } ∧
      failing.machine.cpu.fault = some ⟨.negativeWord (-1), some 0⟩ ∧
      (failing.enter "send 5".toList).1 =
        { escape := some (.sendRefused (.sinkTerminated "monitor-in")) } ∧
      (transcript Console.enter "" halting ["send 'a".toList, "regs".toList]).2 =
        some (.badQuoting .noClosingQuotation) := by
  decide +kernel

end IntcodeVM.Monitor
