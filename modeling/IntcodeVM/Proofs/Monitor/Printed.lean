import IntcodeVM.Proofs.Monitor.Readiness
import IntcodeVM.Proofs.Text.Tokens

namespace IntcodeVM.Monitor

def outLine (value : Int) : String := s!"  OUT {value}"

def faultLine (fault : Fault) : String := s!"Fault: {fault.message}"

def isOut (line : String) : Bool := "  OUT ".toList.isPrefixOf line.toList

def isFault (line : String) : Bool := "Fault: ".toList.isPrefixOf line.toList

/-- One character tells other lines from both kinds. -/
def plain (line : String) : Bool :=
  line.toList[0]? ≠ some 'F' && line.toList[2]? ≠ some 'O'

variable {line text : String} {value n : Int} {fault : Fault}

theorem isOut_outLine (value : Int) : isOut (outLine value) = true := by
  simp [isOut, outLine, toString]

theorem isFault_outLine (value : Int) : isFault (outLine value) = false := by
  simp [isFault, outLine, toString, List.isPrefixOf]

theorem isFault_faultLine (fault : Fault) : isFault (faultLine fault) = true := by
  simp [isFault, faultLine, toString, List.isPrefixOf]

theorem isOut_faultLine (fault : Fault) : isOut (faultLine fault) = false := by
  simp [isOut, faultLine, toString, List.isPrefixOf]

theorem isOut_of_plain (other : plain line = true) : isOut line = false := by
  cases told : isOut line with
  | false => rfl
  | true =>
    obtain ⟨rest, same⟩ := List.isPrefixOf_iff_prefix.1 told
    simp [plain, ← same] at other

theorem isFault_of_plain (other : plain line = true) : isFault line = false := by
  cases told : isFault line with
  | false => rfl
  | true =>
    obtain ⟨rest, same⟩ := List.isPrefixOf_iff_prefix.1 told
    simp [plain, ← same] at other

/-- A text whose first character is no sign of a value. -/
def Begun (text : String) : Prop := ∃ c rest, text.toList = c :: rest ∧ c ≠ 'O'

theorem Begun.append (begun : Begun text) (more : String) : Begun (text ++ more) := by
  obtain ⟨c, rest, same, other⟩ := begun
  exact ⟨c, rest ++ more.toList, by simp [same], other⟩

theorem Begun.indented (begun : Begun text) : plain ("  " ++ text) = true := by
  obtain ⟨c, rest, same, other⟩ := begun
  simp [plain, same, other]

theorem begun_number (n : Int) : Begun (toString n) := by
  rw [← Text.ofList_decimal]
  obtain ⟨c, rest, same⟩ := List.exists_cons_of_ne_nil (Text.decimal_ne_nil n)
  refine ⟨c, rest, by simp [same], ?_⟩
  rintro rfl
  have sign := Text.of_mem_decimal (same ▸ List.mem_cons_self : 'O' ∈ Text.decimal n)
  revert sign
  decide

theorem Begun.aligned (begun : Begun text) (width : Nat) : Begun (Text.alignRight width text) := by
  cases blanks : width - text.length with
  | zero => simpa [Text.alignRight, blanks] using begun
  | succ k =>
    refine ⟨' ', List.replicate k ' ' ++ text.toList, ?_, by decide⟩
    simp [Text.alignRight, blanks, List.replicate_succ]

theorem begun_line (addr : Int) (text : List Char) : Begun (Disassembly.line addr text) :=
  (((begun_number addr).aligned 6).append _).append _

theorem plain_values (values : List Int) :
    plain ("  " ++ String.ofList (Text.commaSeparated values)) = true := by
  cases values with
  | nil => decide
  | cons value rest =>
    have begun : ∃ more, String.ofList (Text.commaSeparated (value :: rest)) = toString value ++ more := by
      rw [← Text.ofList_decimal, Text.commaSeparated]
      cases rest with
      | nil => exact ⟨"", by simp [Text.glue]⟩
      | cons next rest =>
        exact ⟨String.ofList (',' :: Text.glue ',' ((next :: rest).map Text.decimal)), by
          simp [Text.glue]⟩
    obtain ⟨more, same⟩ := begun
    rw [same]
    exact ((begun_number value).append more).indented

theorem plain_of_not_canStep {m : Machine} (unable : canStep m = false) :
    ∀ line ∈ printedBy m, plain line = true := by
  unfold printedBy advance
  by_cases ended : (m.cpu.halted || m.cpu.fault.isSome) = true
  · simp only [if_pos ended, linesOf, Advance.ended, List.forall_mem_singleton]
    decide
  · have unfed : starved m = true := by simpa [canStep, ended] using unable
    simp [ended, unfed, linesOf, Advance.waiting, plain, toString]

theorem some_mem_of_cut {lines : List (Option String)} (mem : line ∈ (cut lines).1) :
    some line ∈ lines := by
  rw [cut] at mem
  induction lines with
  | nil => cases mem
  | cons first rest ih =>
    cases first with
    | none => cases mem
    | some first =>
      rcases List.mem_cons.1 mem with rfl | later
      · exact List.mem_cons_self
      · exact List.mem_cons_of_mem _ (ih later)

theorem plain_cut {lines : List (Option String)}
    (others : ∀ line, some line ∈ lines → plain line = true) :
    ∀ line ∈ (cut lines).1, plain line = true := fun line mem => others line (some_mem_of_cut mem)

theorem plain_cut_one {numbers : List Int} (other : plain text = true) :
    ∀ line ∈ (cut [Text.lineOf? numbers text]).1, plain line = true := by
  apply plain_cut
  intro line mem
  obtain ⟨-, rfl⟩ := Text.lineOf?_eq_some_iff.1 (List.mem_singleton.1 mem).symm
  exact other

theorem plain_runClosing (budget : Int) (ending : Except Escape RunEnd) :
    ∀ line ∈ (Console.runClosing budget ending).1, plain line = true := by
  cases ending with
  | error e => simp [Console.runClosing]
  | ok ending =>
    cases ending with
    | budget => exact plain_cut_one (by simp [plain, toString])
    | breakpoint ip => exact plain_cut_one (by simp [plain, toString])
    | stopped => exact plain_cut (by simp [Console.runEnding])

theorem plain_report (cpu : Cpu) : ∀ line ∈ cpu.report, plain line = true := by
  unfold Cpu.report
  cases cpu.fault with
  | none => simp [plain, toString]
  | some fault => simp [plain, toString]

theorem plain_dumpRows (addr : Int) (words : List Int) :
    ∀ row ∈ dumpRows addr words, plain row.2 = true := by
  unfold dumpRows
  simp only [List.forall_mem_map]
  intro row _
  rw [String.append_assoc, String.append_assoc]
  exact (((begun_number _).aligned 6).append _).indented

theorem plain_listing (c : Console) (texts : List (Int × List Char)) :
    ∀ line, some line ∈ c.listing texts → plain line = true := by
  unfold Console.listing
  simp only [List.mem_map]
  rintro line ⟨⟨addr, text⟩, -, told⟩
  obtain ⟨-, rfl⟩ := Text.lineOf?_eq_some_iff.1 told
  split
  · simp [plain]
  · simp [plain]

theorem plain_help (argument : List Char) :
    ∀ line ∈ (if argument.isEmpty then helpOverview else [helpOn argument]), plain line = true := by
  split
  · decide +kernel
  · rw [List.forall_mem_singleton]
    unfold helpOn
    split
    · rename_i text found
      obtain ⟨action, -, helped⟩ := Option.bind_eq_some_iff.1 found
      cases action <;> cases helped <;> decide +kernel
    · simp [plain]

namespace Console

theorem plain_sayError (c : Console) (message : String) :
    ∀ line ∈ (c.sayError message).1.printed, plain line = true := by
  simp [sayError, say, plain]

theorem plain_tell (c : Console) {lines : List (Option String)}
    (others : ∀ line, some line ∈ lines → plain line = true) :
    ∀ line ∈ (c.tell lines).1.printed, plain line = true := plain_cut others

theorem plain_send (c : Console) (argument : List Char) :
    ∀ line ∈ (c.send argument).1.printed, plain line = true := by
  unfold send
  split
  · simp [escaped]
  · simp only [say, List.forall_mem_singleton]
    decide
  · split
    · exact c.plain_sayError _
    · dsimp only
      split
      · simp [escaped]
      · simp [say, plain, toString]

theorem plain_setBreakpoint (c : Console) (argument : List Char) :
    ∀ line ∈ (c.setBreakpoint argument).1.printed, plain line = true := by
  unfold setBreakpoint
  split
  · split
    · simp only [say, List.forall_mem_singleton]
      decide
    · apply c.plain_tell
      simp only [List.mem_cons, List.mem_map]
      rintro line (heading | ⟨addr, -, told⟩)
      · cases heading
        decide
      · obtain ⟨-, rfl⟩ := Text.lineOf?_eq_some_iff.1 told
        exact (begun_number addr).indented
  · split
    · exact c.plain_sayError _
    · exact plain_cut_one (by simp [plain, toString])

theorem plain_clearBreakpoint (c : Console) (argument : List Char) :
    ∀ line ∈ (c.clearBreakpoint argument).1.printed, plain line = true := by
  unfold clearBreakpoint
  split
  · simp only [say, List.forall_mem_singleton]
    decide
  · split
    · exact c.plain_sayError _
    · exact plain_cut_one (by simp [plain, toString])

theorem plain_registers (c : Console) : ∀ line ∈ c.registers.1.printed, plain line = true := by
  unfold registers
  dsimp only
  split
  · exact plain_report c.machine.cpu
  · simp [escaped]

theorem plain_dump (c : Console) (argument : List Char) :
    ∀ line ∈ (c.dump argument).1.printed, plain line = true := by
  unfold dump
  split
  · simp [escaped]
  · simp only [say, List.forall_mem_singleton]
    decide
  · split
    · exact c.plain_sayError _
    · apply c.plain_tell
      simp only [List.mem_map]
      rintro line ⟨row, mem, told⟩
      obtain ⟨-, rfl⟩ := Text.lineOf?_eq_some_iff.1 told
      exact plain_dumpRows _ _ row mem

theorem plain_disassemble (c : Console) (argument : List Char) :
    ∀ line ∈ (c.disassemble argument).1.printed, plain line = true := by
  unfold disassemble
  split
  · simp [escaped]
  · split
    · exact c.plain_sayError _
    · split
      · simp [escaped]
      · exact c.plain_tell (plain_listing c _)

theorem plain_execute (c : Console) (command : Command)
    (still : ∀ argument, command ≠ .act .step argument ∧ command ≠ .act .run argument) :
    ∀ line ∈ (c.execute command).1.printed, plain line = true := by
  cases command with
  | empty => simp [execute]
  | unknown line => simp [execute, say, plain]
  | act action argument =>
    cases action with
    | step => exact absurd rfl (still argument).1
    | run => exact absurd rfl (still argument).2
    | send => exact c.plain_send argument
    | out => exact plain_cut_one (plain_values c.machine.output.visible)
    | breakpoint => exact c.plain_setBreakpoint argument
    | clearBreakpoint => exact c.plain_clearBreakpoint argument
    | registers => exact c.plain_registers
    | dump => exact c.plain_dump argument
    | disassemble => exact c.plain_disassemble argument
    | reset =>
      simp only [execute, act, reset, say, List.forall_mem_singleton]
      decide
    | quit => simp [execute, act]
    | endOfInput =>
      simp only [execute, act, farewell, List.forall_mem_singleton]
      decide
    | help => exact plain_help argument

section

variable {marked : String → Bool}

theorem filter_of_plain (spared : ∀ line, plain line = true → marked line = false)
    {printed : List String} (others : ∀ line ∈ printed, plain line = true) :
    printed.filter marked = [] := by
  rw [List.filter_eq_nil_iff]
  intro line mem
  simp [spared line (others line mem)]

theorem filter_attempts (spared : ∀ line, plain line = true → marked line = false)
    (tried : List Machine) :
    (tried.flatMap printedBy).filter marked =
      (tried.filter canStep).flatMap fun m => (printedBy m).filter marked := by
  induction tried with
  | nil => rfl
  | cons m rest ih =>
    rw [List.flatMap_cons, List.filter_append, ih]
    cases able : canStep m with
    | true => rw [List.filter_cons_of_pos able, List.flatMap_cons]
    | false =>
      rw [List.filter_cons_of_neg (by simp [able]),
        filter_of_plain spared (plain_of_not_canStep able), List.nil_append]

theorem filter_shown (unmarked : ∀ cpu, marked (instructionLine cpu) = false)
    (tried : List Machine) :
    (tried.flatMap shownAttempt).filter marked = (tried.flatMap printedBy).filter marked := by
  induction tried with
  | nil => rfl
  | cons m rest ih =>
    rw [List.flatMap_cons, List.flatMap_cons, List.filter_append, List.filter_append, ih,
      shownAttempt, List.filter_cons_of_neg (by simp [unmarked])]

/-- The lines of a command that tell of the machine are those of its steps. -/
theorem filter_printed (spared : ∀ line, plain line = true → marked line = false) (c : Console)
    (command : Command) :
    (c.execute command).1.printed.filter marked =
      (c.stepped command).flatMap fun m => (printedBy m).filter marked := by
  unfold stepped tried
  split
  · rename_i argument
    simp only [execute, act, step]
    cases asked : numberOr 1 (given? argument) with
    | error e => exact filter_of_plain spared (c.plain_sayError e)
    | ok count =>
      simp only [stepMany_eq, Array.empty_append]
      rw [filter_shown fun cpu => spared _ (begun_line _ _).indented, filter_attempts spared]
  · rename_i argument
    simp only [execute, act, run]
    cases asked : numberOr defaultBudget (given? argument) with
    | error e => exact filter_of_plain spared (c.plain_sayError e)
    | ok budget =>
      simp only [runMany_eq, Array.empty_append]
      rw [List.filter_append, filter_of_plain spared (plain_runClosing _ _), List.append_nil,
        filter_attempts spared]
  · rename_i noStep noRun
    rw [filter_of_plain spared (c.plain_execute command fun argument => ⟨?_, ?_⟩)]
    · rfl
    · exact fun same => noStep argument same
    · exact fun same => noRun argument same

end

end Console

end IntcodeVM.Monitor
