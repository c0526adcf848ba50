import IntcodeVM.Proofs.Assembly.Faults
import IntcodeVM.Proofs.Assembly.Items
import Mathlib.Order.Bounds.Basic

/-! Which sources are rejected, and the line that is named. The first pass stops at the first line
whose labels or mnemonic are at fault, and the second pass, which begins only where there is none, at
the first statement without words. Main statement: a source is rejected if and only if some line is at
fault, and the error names the first one, where faults of the first kind go before the others. -/
namespace IntcodeVM.Assembly

variable {source : List Char} {earlier given : List (List Char)} {line : Line} {lines : List Line}
  {labels known : Labels} {address number : Nat} {l : Layout} {name : List Char} {e : AssemblyError}
  {placed : List Placed} {words : List Int}

theorem line_of_defineLabels (failed : defineLabels number address given labels = .error e) :
    e.line = number := by
  induction given generalizing labels with
  | nil => cases failed
  | cons name rest ih =>
    rw [defineLabels] at failed
    split at failed
    · cases failed
      rfl
    · exact ih failed

theorem line_of_statement? (failed : line.statement? = .error e) : e.line = line.number := by
  unfold Line.statement? at failed
  split at failed
  · cases failed
  · dsimp only at failed
    split at failed
    · cases failed
      rfl
    · cases failed

theorem error_of_refused (domain : ∀ name, (labels.find? name).isSome ↔ name ∈ earlier)
    (refused : Refused earlier line) (address : Nat) (lines : List Line) :
    ∃ problem, layoutFrom address labels (line :: lines) = .error ⟨line.number, problem⟩ := by
  cases defined : defineLabels line.number address line.labels labels with
  | error e =>
    refine ⟨e.problem, ?_⟩
    rw [layoutFrom, defined, ← line_of_defineLabels defined]
    rfl
  | ok known =>
    obtain ⟨distinct, fresh, -⟩ := defineLabels_eq_ok_iff.1 defined
    rcases refused with twice | ⟨name, mem, before⟩ | ⟨e, failed⟩
    · exact absurd distinct twice
    · have defined := (domain name).2 before
      rw [fresh name mem] at defined
      cases defined
    · refine ⟨e.problem, ?_⟩
      rw [layoutFrom, defined, failed, ← line_of_statement? failed]
      rfl

theorem exists_of_accepted (domain : ∀ name, (labels.find? name).isSome ↔ name ∈ earlier)
    (accepted : ¬ Refused earlier line) (address : Nat) :
    ∃ known stated, defineLabels line.number address line.labels labels = .ok known ∧
      line.statement? = .ok stated ∧
      ∀ name, (known.find? name).isSome ↔ name ∈ earlier ++ line.labels := by
  simp only [Refused, not_or, not_not, not_exists, not_and] at accepted
  obtain ⟨distinct, apart, unfailing⟩ := accepted
  have fresh : ∀ name ∈ line.labels, labels.find? name = none := by
    intro name mem
    exact Option.not_isSome_iff_eq_none.1 (mt (domain name).1 (apart name mem))
  obtain ⟨known, defined⟩ := exists_defineLabels line.number address distinct fresh
  cases read : line.statement? with
  | error e => exact absurd read (unfailing e)
  | ok stated =>
    refine ⟨known, stated, defined, rfl, fun name => ?_⟩
    rw [(defineLabels_eq_ok_iff.1 defined).2.2 name, List.mem_append, ← domain name]
    by_cases here : name ∈ line.labels
    · simp [here]
    · simp [here]

theorem refusedAt_zero : RefusedAt earlier (line :: lines) 0 ↔ Refused earlier line := by
  simp [RefusedAt]

theorem refusedAt_succ {index : Nat} : RefusedAt earlier (line :: lines) (index + 1) ↔
    RefusedAt (earlier ++ line.labels) lines index := by
  simp [RefusedAt]

/-- There is a layout, or the first refused line is named. -/
theorem layoutFrom_cases (domain : ∀ name, (labels.find? name).isSome ↔ name ∈ earlier)
    (address : Nat) (lines : List Line) :
    (∃ l, layoutFrom address labels lines = .ok l ∧ ∀ index, ¬ RefusedAt earlier lines index) ∨
      ∃ index line problem, lines[index]? = some line ∧
        layoutFrom address labels lines = .error ⟨line.number, problem⟩ ∧
        IsLeast {index | RefusedAt earlier lines index} index := by
  induction lines generalizing address labels earlier with
  | nil => exact .inl ⟨_, rfl, by simp [RefusedAt]⟩
  | cons line lines ih =>
    by_cases refused : Refused earlier line
    · obtain ⟨problem, failed⟩ := error_of_refused domain refused address lines
      exact .inr ⟨0, line, problem, rfl, failed, refusedAt_zero.2 refused, fun _ _ => Nat.zero_le _⟩
    · obtain ⟨known, stated, defined, read, domain⟩ := exists_of_accepted domain refused address
      have step := layoutFrom_cons_of_ok lines defined read
      rcases ih domain (address + counted stated.toList) with
        ⟨l, laidOut, sound⟩ | ⟨index, other, problem, found, failed, least, lower⟩
      · rw [laidOut] at step
        refine .inl ⟨_, step, fun index => ?_⟩
        cases index with
        | zero => exact mt refusedAt_zero.1 refused
        | succ index => exact mt refusedAt_succ.1 (sound index)
      · rw [failed] at step
        refine .inr ⟨index + 1, other, problem, found, step, refusedAt_succ.2 least, ?_⟩
        intro before fault
        cases before with
        | zero => exact absurd (refusedAt_zero.1 fault) refused
        | succ before => exact Nat.succ_le_succ (lower (refusedAt_succ.1 fault))

/-- All statements have words, or the first one without is named. -/
theorem emit_cases (labels : Labels) (placed : List Placed) :
    ((emit labels placed).error = none ∧
      ∀ p ∈ placed, ∃ words, encode labels p.statement = .ok words) ∨
      ∃ before p after problem, placed = before ++ p :: after ∧
        (emit labels placed).error = some ⟨p.statement.line, problem⟩ ∧
        (¬ ∃ words, encode labels p.statement = .ok words) ∧
        ∀ q ∈ before, ∃ words, encode labels q.statement = .ok words := by
  induction placed with
  | nil => exact .inl ⟨rfl, List.forall_mem_nil _⟩
  | cons p rest ih =>
    rw [emit]
    cases encoded : encode labels p.statement with
    | error problem =>
      exact .inr ⟨[], p, rest, problem, rfl, rfl, by simp [encoded], List.forall_mem_nil _⟩
    | ok words =>
      rcases ih with ⟨none, each⟩ | ⟨before, q, after, problem, rfl, failed, wordless, each⟩
      · exact .inl ⟨none, List.forall_mem_cons.2 ⟨⟨words, encoded⟩, each⟩⟩
      · exact .inr ⟨p :: before, q, after, problem, rfl, failed, wordless,
          List.forall_mem_cons.2 ⟨⟨words, encoded⟩, each⟩⟩

theorem layout_cases (source : List Char) :
    (∃ l, layout source = .ok l ∧ ∀ number, ¬ LineFault source number) ∨
      ∃ number problem, layout source = .error ⟨number, problem⟩ ∧
        IsLeast {number | LineFault source number} number := by
  have domain : ∀ name, (({} : Labels).find? name).isSome ↔ name ∈ ([] : List (List Char)) := by simp
  rcases layoutFrom_cases domain 0 (sourceLines source) with
    ⟨l, laidOut, sound⟩ | ⟨index, line, problem, found, failed, least, lower⟩
  · refine .inl ⟨l, laidOut, fun number fault => ?_⟩
    obtain ⟨index, -, refused⟩ := lineFault_iff.1 fault
    exact sound index refused
  · obtain ⟨body, -, same⟩ := exists_holds found
    rw [same] at failed
    refine .inr ⟨index + 1, problem, failed, lineFault_iff.2 ⟨index, rfl, least⟩, ?_⟩
    intro number fault
    obtain ⟨other, rfl, refused⟩ := lineFault_iff.1 fault
    exact Nat.succ_le_succ (lower refused)

theorem operandFault_iff (laidOut : layout source = .ok l) : OperandFault source number ↔
    ∃ p ∈ l.statements, p.statement.line = number ∧
      ¬ ∃ words, encode l.labels p.statement = .ok words := by
  have domain : ∀ name, (l.labels.find? name).isSome ↔ Defines source name := by
    intro name
    rw [isSome_of_layoutFrom laidOut, defines_iff]
    simp
  have listed (s : Statement) : (∃ line ∈ sourceLines source, line.stated = some s) ↔
      ∃ p ∈ l.statements, p.statement = s := by
    rw [← List.mem_filterMap, ← map_placedFrom 0 ((sourceLines source).filterMap _),
      ← statements_of_layoutFrom laidOut, List.mem_map]
  simp only [exists_encode_iff domain, not_not]
  constructor
  · rintro ⟨keyword, operands, states, misfit⟩
    obtain ⟨line, mem, s, stated, rfl, rfl, rfl⟩ := states_iff.1 states
    obtain ⟨p, placed, rfl⟩ := (listed s).1 ⟨line, mem, stated⟩
    exact ⟨p, placed, rfl, misfit⟩
  · rintro ⟨p, placed, rfl, misfit⟩
    obtain ⟨line, mem, stated⟩ := (listed p.statement).2 ⟨p, placed, rfl⟩
    exact ⟨_, _, states_iff.2 ⟨line, mem, _, stated, rfl, rfl, rfl⟩, misfit⟩

theorem ascending_statements (laidOut : layout source = .ok l) :
    l.statements.Pairwise fun p q => p.statement.line < q.statement.line := by
  rw [← List.pairwise_map (f := Placed.statement) (R := fun s t => s.line < t.line),
    statements_of_layoutFrom laidOut, map_placedFrom]
  apply (ascending_numbers source).filterMap
  intro line other less s stated t restated
  rwa [line_of_stated stated, line_of_stated restated]

theorem emit_layout_cases (laidOut : layout source = .ok l) :
    ((emit l.labels l.statements).error = none ∧ ∀ number, ¬ OperandFault source number) ∨
      ∃ number problem, (emit l.labels l.statements).error = some ⟨number, problem⟩ ∧
        IsLeast {number | OperandFault source number} number := by
  rcases emit_cases l.labels l.statements with
    ⟨none, each⟩ | ⟨before, p, after, problem, split, failed, wordless, each⟩
  · refine .inl ⟨none, fun number fault => ?_⟩
    obtain ⟨p, placed, -, wordless⟩ := (operandFault_iff laidOut).1 fault
    exact wordless (each p placed)
  · have inside : p ∈ l.statements := by simp [split]
    refine .inr ⟨_, problem, failed, (operandFault_iff laidOut).2 ⟨p, inside, rfl, wordless⟩, ?_⟩
    intro number fault
    obtain ⟨q, placed, rfl, wordless⟩ := (operandFault_iff laidOut).1 fault
    have ascending := ascending_statements laidOut
    rw [split] at placed ascending
    obtain ⟨-, later, -⟩ := List.pairwise_append.1 ascending
    rcases List.mem_append.1 placed with first | rest
    · exact absurd (each q first) wordless
    · rcases List.mem_cons.1 rest with rfl | behind
      · exact Nat.le_refl _
      · exact Nat.le_of_lt ((List.pairwise_cons.1 later).1 q behind)

/-- The line that the error of a source names. -/
def Blamed (source : List Char) (number : Nat) : Prop :=
  IsLeast {number | LineFault source number} number ∨
    (∀ number, ¬ LineFault source number) ∧ IsLeast {number | OperandFault source number} number

theorem Blamed.unique {number other : Nat} (one : Blamed source number) (two : Blamed source other) :
    number = other := by
  rcases one with first | ⟨none, second⟩
  · rcases two with again | ⟨none, -⟩
    · exact first.unique again
    · exact absurd first.1 (none number)
  · rcases two with first | ⟨-, again⟩
    · exact absurd first.1 (none other)
    · exact second.unique again

theorem blamed_or_faultless (source : List Char) :
    (∃ number problem, assemble source = .error ⟨number, problem⟩ ∧ Blamed source number) ∨
      (∃ words, assemble source = .ok words) ∧
        ∀ number, ¬ LineFault source number ∧ ¬ OperandFault source number := by
  rcases layout_cases source with ⟨l, laidOut, sound⟩ | ⟨number, problem, failed, least⟩
  · have whole : progress source = emit l.labels l.statements := by rw [progress, laidOut]
    rcases emit_layout_cases laidOut with ⟨none, fits⟩ | ⟨number, problem, failed, least⟩
    · exact .inr ⟨⟨_, by rw [assemble, whole, none]⟩, fun number => ⟨sound number, fits number⟩⟩
    · exact .inl ⟨number, problem, by rw [assemble, whole, failed], .inr ⟨sound, least⟩⟩
  · have whole : progress source = { error := some ⟨number, problem⟩ } := by rw [progress, failed]
    exact .inl ⟨number, problem, by rw [assemble, whole], .inl least⟩

/-- A source is rejected if and only if some line is at fault, and the error names the first one; faults
of labels and mnemonics go before faults of operands. -/
theorem rejected_iff (source : List Char) :
    ((∃ e, assemble source = .error e) ↔
      (∃ number, LineFault source number) ∨ ∃ number, OperandFault source number) ∧
    ∀ number, (∃ problem, assemble source = .error ⟨number, problem⟩) ↔ Blamed source number := by
  rcases blamed_or_faultless source with
    ⟨number, problem, failed, blamed⟩ | ⟨⟨words, assembled⟩, none⟩
  · constructor
    · refine iff_of_true ⟨_, failed⟩ ?_
      rcases blamed with first | ⟨-, second⟩
      · exact .inl ⟨number, first.1⟩
      · exact .inr ⟨number, second.1⟩
    · intro other
      rw [failed]
      constructor
      · rintro ⟨_, ⟨⟩⟩
        exact blamed
      · intro again
        exact ⟨problem, by rw [blamed.unique again]⟩
  · rw [assembled]
    constructor
    · apply iff_of_false
      · simp
      · rintro (⟨number, fault⟩ | ⟨number, fault⟩)
        · exact (none number).1 fault
        · exact (none number).2 fault
    · intro other
      apply iff_of_false
      · simp
      · rintro (first | ⟨-, second⟩)
        · exact (none other).1 first.1
        · exact (none other).2 second.1

-- the second line has an unknown label, but the fourth has an unknown mnemonic
example : assemble "; begin\nout nowhere\n\nend: stop".toList =
    .error ⟨4, .unknownMnemonic "stop".toList⟩ := by
  decide +kernel

end IntcodeVM.Assembly
