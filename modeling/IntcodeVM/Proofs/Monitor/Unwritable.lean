import IntcodeVM.Proofs.Disassembly.Reassembly
import IntcodeVM.Proofs.Monitor.Breakpoints

/-! Commands that print a number too long to be written. Some lines are printed one by one, some all at
once, and those of a step or a run in between its instructions. Main statement: for each command, the
states in which it is cut off for such a number. -/
namespace IntcodeVM.Monitor

open Text

variable {c : Console} {m : Machine} {argument : List Char} {e : Escape} {lines : List (Option String)}

/-- The machine after so many attempts, if the monitor goes on after each of them. -/
def onward : Nat → Machine → Option Machine
  | 0, m => some m
  | n + 1, m => if goesOn m then onward n (advance m).2 else none

/-- The commands that are cut off at a number too long to be written. -/
inductive Unwritable (c : Console) : Command → Prop
  /-- An instruction cannot be shown, or its step breaks off. -/
  | stepped {argument : List Char} {count : Int} {n : Nat} {m : Machine} :
      numberOr 1 (given? argument) = .ok count → n < count.toNat → onward n c.machine = some m →
      (showsInstruction m.cpu && !breaks m) = false → Unwritable c (.act .step argument)
  | ran {argument : List Char} : c.runEnd? argument = some (.error .illegible) →
      Unwritable c (.act .run argument)
  | spent {argument : List Char} {budget : Int} :
      numberOr Console.defaultBudget (given? argument) = .ok budget →
      c.runEnd? argument = some (.ok .budget) → isLegible budget = false →
      Unwritable c (.act .run argument)
  | met {argument : List Char} {ip : Int} : c.runEnd? argument = some (.ok (.breakpoint ip)) →
      isLegible ip = false → Unwritable c (.act .run argument)
  | out {argument : List Char} : c.machine.output.visible.all isLegible = false →
      Unwritable c (.act .out argument)
  | breakpoints : c.breakpoints.all isLegible = false → Unwritable c (.act .breakpoint [])
  | set {argument : List Char} {addr : Int} : argument ≠ [] → number argument = .ok addr →
      isLegible addr = false → Unwritable c (.act .breakpoint argument)
  | cleared {argument : List Char} {addr : Int} : lowercase argument ≠ ['a', 'l', 'l'] →
      number argument = .ok addr → isLegible addr = false → Unwritable c (.act .clearBreakpoint argument)
  | registers {argument : List Char} :
      (c.machine.cpu.ip :: c.machine.cpu.base :: c.machine.cpu.phase.toList).all isLegible = false →
      Unwritable c (.act .registers argument)
  | dumped {argument first : List Char} {rest : List (List Char)} {addr : Int} {words : List Int} :
      shellWords argument = .ok (first :: rest) → c.dumped first rest = .ok (addr, words) →
      words.all isLegible = false → Unwritable c (.act .dump argument)
  | listed {argument : List Char} {parts : List (List Char)} {addr count : Int} :
      shellWords argument = .ok parts → c.listingRange parts = .ok (addr, count) →
      ((Disassembly.chunks c.machine.cpu.memory addr (some count)).all fun (place, _) =>
        isLegible place && Disassembly.isLegibleAt c.machine.cpu.memory place) = false →
      Unwritable c (.act .disassemble argument)

theorem exists_onward_succ {count : Nat} {P : Machine → Prop} :
    (∃ n < count + 1, ∃ t, onward n m = some t ∧ P t) ↔
      P m ∨ goesOn m = true ∧ ∃ n < count, ∃ t, onward n (advance m).2 = some t ∧ P t := by
  constructor
  · rintro ⟨_ | n, few, t, reached, holds⟩
    · cases reached
      exact .inl holds
    · rw [onward] at reached
      split at reached
      · exact .inr ⟨‹_›, n, Nat.lt_of_succ_lt_succ few, t, reached, holds⟩
      · cases reached
  · rintro (holds | ⟨on, n, few, t, reached, holds⟩)
    · exact ⟨0, Nat.succ_pos count, m, rfl, holds⟩
    · exact ⟨n + 1, Nat.succ_lt_succ few, t, by rw [onward, if_pos on, reached], holds⟩

theorem uncut_iff {long : Prop} (short : ¬ long) : none = some e ↔ e = .illegible ∧ long := by
  simp [short]

theorem escape_stepMany_iff {count : Nat} {printed : Array String} :
    (stepper.stepMany count m printed).1 = some e ↔ e = .illegible ∧
      ∃ n < count, ∃ t, onward n m = some t ∧ (showsInstruction t.cpu && !breaks t) = false := by
  induction count generalizing m printed with
  | zero =>
    refine uncut_iff ?_
    rintro ⟨n, few, -⟩
    exact absurd few (Nat.not_lt_zero n)
  | succ count ih =>
    rw [stepMany_succ, exists_onward_succ]
    cases shown : showsInstruction m.cpu with
    | false =>
      simp only [Bool.false_eq_true, if_false, Bool.false_and, true_or, and_true, Option.some.injEq]
      exact eq_comm
    | true =>
      cases on : goesOn m with
      | true => simpa [not_breaks_of_goesOn on] using ih
      | false => simp [brokenBy_eq_some_iff, and_comm]

theorem snd_cut (lines : List (Option String)) :
    (cut lines).2 = if lines.all Option.isSome then none else some .illegible := by
  rw [← snd_writtenLines]
  rfl

theorem escape_cut_iff : (cut lines).2 = some e ↔ e = .illegible ∧ lines.all Option.isSome = false := by
  rw [snd_cut]
  cases lines.all Option.isSome with
  | true => simp
  | false =>
    simp only [Bool.false_eq_true, if_false, Option.some.injEq, and_true]
    exact eq_comm

theorem isSome_lineOf? (numbers : List Int) (line : String) :
    (lineOf? numbers line).isSome = numbers.all isLegible := by
  unfold lineOf?
  split <;> simp [*]

theorem escape_cut_number_iff {n : Int} {line : String} :
    (cut [lineOf? [n] line]).2 = some e ↔ e = .illegible ∧ isLegible n = false := by
  rw [escape_cut_iff, List.all_cons, List.all_nil, Bool.and_true, isSome_lineOf?, List.all_cons,
    List.all_nil, Bool.and_true]

namespace Console

theorem escape_tell_iff : (c.tell lines).1.escape = some e ↔
    e = .illegible ∧ lines.all Option.isSome = false := escape_cut_iff

theorem escape_tell_number_iff {n : Int} {line : String} :
    (c.tell [lineOf? [n] line]).1.escape = some e ↔ e = .illegible ∧ isLegible n = false :=
  escape_cut_number_iff

theorem escape_step_iff : (c.step argument).1.escape = some e ↔
    e = .illegible ∧ Unwritable c (.act .step argument) := by
  unfold step
  cases asked : numberOr 1 (given? argument) with
  | error message =>
    refine uncut_iff fun long => ?_
    cases long with
    | stepped read => cases asked.symm.trans read
  | ok count =>
    simp only [escape_stepMany_iff]
    refine and_congr_right fun _ => ⟨?_, fun long => ?_⟩
    · rintro ⟨n, few, t, reached, long⟩
      exact .stepped asked few reached long
    · cases long with
      | stepped read few reached long =>
        cases asked.symm.trans read
        exact ⟨_, few, _, reached, long⟩

theorem illegible_of_runEnd? (ends : c.runEnd? argument = some (.error e)) : e = .illegible := by
  obtain ⟨budget, asked⟩ := asked_of_runEnd? ends
  obtain ⟨done, how, ends', stops⟩ := runStops (c := c) asked
  cases ends.symm.trans ends'
  obtain ⟨t, -, leaves⟩ := stops.left
  cases leaves with
  | failed _ _ _ _ failed =>
    cases failed
    rfl

theorem escape_run_iff : (c.run argument).1.escape = some e ↔
    e = .illegible ∧ Unwritable c (.act .run argument) := by
  cases asked : numberOr defaultBudget (given? argument) with
  | error message =>
    have none : c.runEnd? argument = none := by rw [runEnd?, asked]
    rw [run, asked]
    refine uncut_iff fun long => ?_
    cases long with
    | ran ends | met ends | spent _ ends => cases none.symm.trans ends
  | ok budget =>
    have ends := runEnd?_eq (c := c) asked
    have answer : (c.run argument).1.escape =
        (runClosing budget (course c.breakpoints budget.toNat true c.machine).1).2 := by
      rw [run, asked, ← runMany_eq_course _ _ _ _ #[]]
    rw [answer]
    generalize (course c.breakpoints budget.toNat true c.machine).1 = how at ends
    have only {how' : Except Escape RunEnd} (same : c.runEnd? argument = some how') : how' = how :=
      Option.some.inj (same.symm.trans ends)
    cases how with
    | error other =>
      cases illegible_of_runEnd? ends
      refine ⟨fun escaped => ⟨(Option.some.inj escaped).symm, .ran ends⟩, ?_⟩
      rintro ⟨rfl, -⟩
      rfl
    | ok ending =>
      cases ending with
      | stopped =>
        refine uncut_iff fun long => ?_
        cases long with
        | ran same | met same | spent _ same => cases only same
      | budget =>
        rw [runClosing, runEnding, escape_cut_number_iff]
        refine and_congr_right fun _ => ⟨.spent asked ends, fun long => ?_⟩
        cases long with
        | ran same | met same => cases only same
        | spent asked' _ long =>
          cases asked.symm.trans asked'
          exact long
      | breakpoint ip =>
        rw [runClosing, runEnding, escape_cut_number_iff]
        refine and_congr_right fun _ => ⟨.met ends, fun long => ?_⟩
        cases long with
        | ran same | spent _ same => cases only same
        | met same long =>
          cases only same
          exact long

theorem escape_out_iff : c.out.1.escape = some e ↔
    e = .illegible ∧ Unwritable c (.act .out argument) := by
  rw [out, escape_tell_iff, List.all_cons, isSome_lineOf?]
  refine and_congr_right fun _ => ⟨fun long => .out (by simpa using long), fun long => ?_⟩
  cases long with
  | out long => simpa using long

theorem escape_setBreakpoint_iff : (c.setBreakpoint argument).1.escape = some e ↔
    e = .illegible ∧ Unwritable c (.act .breakpoint argument) := by
  unfold setBreakpoint
  cases argument with
  | nil =>
    cases none : c.breakpoints with
    | nil =>
      refine uncut_iff fun long => ?_
      cases long with
      | breakpoints long => simp [none] at long
      | set given => exact absurd rfl given
    | cons mark marks =>
      have all : ((some "Breakpoints:" :: (mark :: marks).map fun a => lineOf? [a] s!"  {a}").all
          Option.isSome) = c.breakpoints.all isLegible := by
        simp [none, isSome_lineOf?, List.all_map, Function.comp_def]
      simp only [List.isEmpty_nil, List.isEmpty_cons, if_true, Bool.false_eq_true, if_false,
        escape_tell_iff, all]
      refine and_congr_right fun _ => ⟨.breakpoints, fun long => ?_⟩
      cases long with
      | breakpoints long => exact long
      | set given => exact absurd rfl given
  | cons ch rest =>
    have given : ch :: rest ≠ [] := List.cons_ne_nil _ _
    simp only [List.isEmpty_cons, Bool.false_eq_true, if_false]
    cases read : number (ch :: rest) with
    | error message =>
      refine uncut_iff fun long => ?_
      cases long with
      | set _ read' => cases read.symm.trans read'
    | ok addr =>
      simp only [escape_tell_number_iff]
      refine and_congr_right fun _ => ⟨.set given read, fun long => ?_⟩
      cases long with
      | set _ read' long =>
        cases read.symm.trans read'
        exact long

theorem escape_clearBreakpoint_iff : (c.clearBreakpoint argument).1.escape = some e ↔
    e = .illegible ∧ Unwritable c (.act .clearBreakpoint argument) := by
  unfold clearBreakpoint
  by_cases every : lowercase argument = ['a', 'l', 'l']
  · rw [if_pos every]
    refine uncut_iff fun long => ?_
    cases long with
    | cleared one => exact absurd every one
  · rw [if_neg every]
    cases read : number argument with
    | error message =>
      refine uncut_iff fun long => ?_
      cases long with
      | cleared _ read' => cases read.symm.trans read'
    | ok addr =>
      simp only [escape_tell_number_iff]
      refine and_congr_right fun _ => ⟨.cleared every read, fun long => ?_⟩
      cases long with
      | cleared _ read' long =>
        cases read.symm.trans read'
        exact long

theorem escape_registers_iff : c.registers.1.escape = some e ↔
    e = .illegible ∧ Unwritable c (.act .registers argument) := by
  unfold registers
  dsimp only
  split
  · rename_i short
    refine uncut_iff fun long => ?_
    cases long with
    | registers long => cases short.symm.trans long
  · rename_i long
    constructor
    · intro escaped
      exact ⟨(Option.some.inj escaped).symm, .registers (by simpa using long)⟩
    · rintro ⟨rfl, -⟩
      rfl

theorem mem_row_iff {word : Int} {words : List Int} :
    (∃ row < (words.length + 7) / 8, word ∈ (words.drop (8 * row)).take 8) ↔ word ∈ words := by
  constructor
  · rintro ⟨row, -, mem⟩
    exact List.mem_of_mem_drop (List.mem_of_mem_take mem)
  · intro mem
    obtain ⟨i, inside, rfl⟩ := List.getElem_of_mem mem
    have place : 8 * (i / 8) + i % 8 = i := Nat.div_add_mod i 8
    refine ⟨i / 8, by omega, List.mem_of_getElem? (i := i % 8) ?_⟩
    rw [List.getElem?_take_of_lt (Nat.mod_lt i (by decide)), List.getElem?_drop, place,
      List.getElem?_eq_getElem inside]

theorem all_dumpRows (addr : Int) (words : List Int) :
    ((dumpRows addr words).map fun (words, line) => lineOf? words line).all Option.isSome =
      words.all isLegible := by
  rw [Bool.eq_iff_iff]
  simp only [dumpRows, List.map_map, List.all_map, Function.comp_def, isSome_lineOf?,
    List.all_eq_true, List.mem_range]
  constructor
  · intro rows word mem
    obtain ⟨row, inside, here⟩ := mem_row_iff.2 mem
    exact rows row inside word here
  · intro each row inside word here
    exact each word (mem_row_iff.1 ⟨row, inside, here⟩)

theorem misquoted_iff {problem : ShellProblem} {rest : Prop} (free : ¬ rest) :
    ((∃ other, (.error problem : Except ShellProblem (List (List Char))) = .error other ∧
      e = .badQuoting other) ∨ e = .illegible ∧ rest) ↔ .badQuoting problem = e := by
  simp [free, eq_comm]

theorem quoted_iff {parts : List (List Char)} {rest : Prop} :
    ((∃ other, (.ok parts : Except ShellProblem (List (List Char))) = .error other ∧
      e = .badQuoting other) ∨ rest) ↔ rest := by
  simp

theorem escape_dump_iff : (c.dump argument).1.escape = some e ↔
    (∃ problem, shellWords argument = .error problem ∧ e = .badQuoting problem) ∨
      e = .illegible ∧ Unwritable c (.act .dump argument) := by
  unfold dump
  cases words : shellWords argument with
  | error problem =>
    have free : ¬ Unwritable c (.act .dump argument) := by
      intro long
      cases long with
      | dumped cut => cases words.symm.trans cut
    exact Option.some_inj.trans (misquoted_iff free).symm
  | ok parts =>
    rw [quoted_iff]
    cases parts with
    | nil =>
      refine uncut_iff fun long => ?_
      cases long with
      | dumped cut => cases words.symm.trans cut
    | cons first rest =>
      cases range : c.dumped first rest with
      | error message =>
        simp only [range]
        refine uncut_iff fun long => ?_
        cases long with
        | dumped cut range' =>
          cases words.symm.trans cut
          cases range.symm.trans range'
      | ok answer =>
        simp only [range, escape_tell_iff, all_dumpRows]
        refine and_congr_right fun _ => ⟨.dumped words range, fun long => ?_⟩
        cases long with
        | dumped cut range' long =>
          cases words.symm.trans cut
          cases range.symm.trans range'
          exact long

theorem all_listing_iff {addr count : Int} :
    (∃ texts, Disassembly.texts? c.machine.cpu.memory addr (some count) = some texts ∧
      (c.listing texts).all Option.isSome = true) ↔
    ((Disassembly.chunks c.machine.cpu.memory addr (some count)).all fun (place, _) =>
      isLegible place && Disassembly.isLegibleAt c.machine.cpu.memory place) = true := by
  have lines (listed : List (Int × Disassembly.Chunk)) :
      (c.listing (Disassembly.textsOf listed)).all Option.isSome = true ↔
        ∀ entry ∈ listed, isLegible entry.1 = true := by
    simp [listing, Disassembly.textsOf, isSome_lineOf?]
  constructor
  · rintro ⟨texts, given, told⟩
    obtain ⟨each, rfl⟩ := Disassembly.texts?_eq_some_iff.1 given
    rw [List.all_eq_true]
    rintro ⟨place, chunk⟩ mem
    exact Bool.and_eq_true_iff.2 ⟨(lines _).1 told _ mem, each _ mem⟩
  · intro whole
    have each : ∀ entry ∈ Disassembly.chunks c.machine.cpu.memory addr (some count),
        isLegible entry.1 = true ∧ Disassembly.isLegibleAt c.machine.cpu.memory entry.1 = true :=
      fun entry mem => Bool.and_eq_true_iff.1 (List.all_eq_true.1 whole entry mem)
    exact ⟨_, Disassembly.texts?_eq_some_iff.2 ⟨fun entry mem => (each entry mem).2, rfl⟩,
      (lines _).2 fun entry mem => (each entry mem).1⟩

/-- A listing is cut off before its first line for a text, and at a line for its address. -/
theorem escape_listing_iff {addr count : Int} {answer : Reply Escape × Console}
    (shown : answer = ((Disassembly.texts? c.machine.cpu.memory addr (some count)).map fun texts =>
      c.tell (c.listing texts)).getD (c.escaped .illegible)) :
    answer.1.escape = some e ↔ e = .illegible ∧
      ((Disassembly.chunks c.machine.cpu.memory addr (some count)).all fun (place, _) =>
        isLegible place && Disassembly.isLegibleAt c.machine.cpu.memory place) = false := by
  rw [shown, ← Bool.not_eq_true, ← all_listing_iff]
  cases Disassembly.texts? c.machine.cpu.memory addr (some count) with
  | none =>
    simp only [reduceCtorEq, false_and, exists_false, not_false_eq_true, and_true]
    exact Option.some_inj.trans eq_comm
  | some texts =>
    simp only [Option.map_some, Option.getD_some, escape_tell_iff, Option.some.injEq,
      exists_eq_left', Bool.not_eq_true]

theorem escape_disassemble_iff : (c.disassemble argument).1.escape = some e ↔
    (∃ problem, shellWords argument = .error problem ∧ e = .badQuoting problem) ∨
      e = .illegible ∧ Unwritable c (.act .disassemble argument) := by
  unfold disassemble
  cases words : shellWords argument with
  | error problem =>
    have free : ¬ Unwritable c (.act .disassemble argument) := by
      intro long
      cases long with
      | listed cut => cases words.symm.trans cut
    exact Option.some_inj.trans (misquoted_iff free).symm
  | ok parts =>
    rw [quoted_iff]
    dsimp only
    cases range : c.listingRange parts with
    | error message =>
      refine uncut_iff fun long => ?_
      cases long with
      | listed cut range' =>
        cases words.symm.trans cut
        cases range.symm.trans range'
    | ok answer =>
      obtain ⟨addr, count⟩ := answer
      dsimp only
      rw [escape_listing_iff]
      · refine and_congr_right fun _ => ⟨.listed words range, fun long => ?_⟩
        cases long with
        | listed cut range' long =>
          cases words.symm.trans cut
          cases range.symm.trans range'
          exact long
      · cases Disassembly.texts? c.machine.cpu.memory addr (some count) <;> rfl

end Console

end IntcodeVM.Monitor
