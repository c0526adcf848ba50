import IntcodeVM.Proofs.Monitor.Printed

/-! What the monitor says of waiting. It takes a word for an input instruction by its two low digits,
while decoding looks at the sign and at the mode first: the words 303 and -97 pass for an input and are
none. Main statement: after any commands, the machines that a step or a run is said to wait for are those
with no phase and no value whose word is an input instruction or passes for one, and every other machine
makes its step. -/
namespace IntcodeVM

namespace Instruction

variable {n index : Nat} {word : Int}

theorem modeDigit_le_iff : modeDigit n index ≤ 2 ↔ ∃ mode, modeOf n index = .ok mode := by
  simp only [modeOf_eq_ok_iff]
  constructor
  · intro small
    rcases digit : modeDigit n index with _ | _ | _ | more
    · exact ⟨.position, rfl⟩
    · exact ⟨.immediate, rfl⟩
    · exact ⟨.relative, rfl⟩
    · rw [digit] at small
      omega
  · rintro ⟨mode, digit⟩
    rw [digit]
    cases mode <;> decide

theorem decode_ofNat_of_code (code : n % 100 = Opcode.input.code) :
    decode (.ofNat n) = input <$> modeOf n 0 := by
  rw [decode, Opcode.ofCode?_eq_some_iff.2 code]
  rfl

/-- What makes an input instruction of a word with the code of one. -/
theorem decode_eq_input_iff :
    (∃ dst, decode word = .ok (.input dst)) ↔
      word % 100 = Opcode.input.code ∧ 0 ≤ word ∧ word / 100 % 10 ≤ 2 := by
  constructor
  · rintro ⟨dst, decoded⟩
    have code : word % 100 = Opcode.input.code := code_of_decode decoded
    refine ⟨code, ?_⟩
    cases word with
    | negSucc n => cases decoded
    | ofNat n =>
      rw [decode_ofNat_of_code (Int.ofNat.inj code), map_eq_ok_iff] at decoded
      obtain ⟨mode, known, -⟩ := decoded
      have small : n / 100 % 10 ≤ 2 := modeDigit_le_iff.2 ⟨mode, known⟩
      exact ⟨Int.natCast_nonneg n, Int.ofNat_le.2 small⟩
  · rintro ⟨code, positive, small⟩
    obtain ⟨n, rfl⟩ := Int.eq_ofNat_of_zero_le positive
    obtain ⟨mode, known⟩ := modeDigit_le_iff.1 (Int.ofNat_le.1 small : modeDigit n 0 ≤ 2)
    refine ⟨mode, (decode_ofNat_of_code (Int.ofNat.inj code)).trans ?_⟩
    rw [known]
    rfl

theorem eq_input_of_decode {i : Instruction Mode} (decoded : decode word = .ok i)
    (code : word % 100 = Opcode.input.code) : ∃ dst, i = .input dst := by
  have same : i.opcode.code = Opcode.input.code :=
    Int.ofNat.inj ((code_of_decode decoded).symm.trans code)
  cases i with
  | input dst => exact ⟨dst, rfl⟩
  | add | mul | output | jumpIfTrue | jumpIfFalse | lessThan | equals | adjustBase | halt =>
    cases same

end Instruction

namespace Monitor

open Machine

def waitingLine (ip : Int) : String := s!"Waiting for input at {ip}.  Use 'send <values>'."

def isWaiting (line : String) : Bool := "Waiting for input at ".toList.isPrefixOf line.toList

/-- The machine has not ended, and the monitor says that it waits. -/
def heldBack (m : Machine) : Bool := !(m.cpu.halted || m.cpu.fault.isSome) && starved m

def Unfed (m : Machine) : Prop := m.cpu.phase = none ∧ m.input.queue = []

def AsksInput (m : Machine) : Prop :=
  ∃ word dst, m.cpu.memory.read m.cpu.ip = .ok word ∧ Instruction.decode word = .ok (.input dst)

/-- The next word has the low digits of an input, but a minus sign or a mode that there is none. -/
def PassesForInput (m : Machine) : Prop :=
  ∃ word, m.cpu.memory.read m.cpu.ip = .ok word ∧ word % 100 = Opcode.input.code ∧
    (word < 0 ∨ 2 < word / 100 % 10)

variable {m : Machine} {word : Int} {cause : Cause} {line : String}

theorem starved_iff : starved m = true ↔
    Unfed m ∧ ∃ word, m.cpu.memory.read m.cpu.ip = .ok word ∧ word % 100 = Opcode.input.code := by
  have empty : m.input.pending = 0 ↔ m.input.queue = [] := by
    rw [← Channel.length_queue, List.length_eq_zero_iff]
  unfold starved
  cases m.cpu.memory.read m.cpu.ip with
  | error cause => simp
  | ok word =>
    simp only [lacksInput, Unfed, empty, Bool.and_eq_true, decide_eq_true_eq, Option.isNone_iff_eq_none,
      Except.ok.injEq, exists_eq_left']
    constructor
    · rintro ⟨⟨code, unprimed⟩, unqueued⟩
      exact ⟨⟨unprimed, unqueued⟩, code⟩
    · rintro ⟨⟨unprimed, unqueued⟩, code⟩
      exact ⟨⟨code, unprimed⟩, unqueued⟩

theorem low_digits_iff :
    (∃ word, m.cpu.memory.read m.cpu.ip = .ok word ∧ word % 100 = Opcode.input.code) ↔
      AsksInput m ∨ PassesForInput m := by
  constructor
  · rintro ⟨word, fetched, code⟩
    by_cases wellFormed : 0 ≤ word ∧ word / 100 % 10 ≤ 2
    · obtain ⟨dst, decoded⟩ := Instruction.decode_eq_input_iff.2 ⟨code, wellFormed⟩
      exact .inl ⟨word, dst, fetched, decoded⟩
    · exact .inr ⟨word, fetched, code, by omega⟩
  · rintro (⟨word, dst, fetched, decoded⟩ | ⟨word, fetched, code, -⟩)
    · exact ⟨word, fetched, Instruction.code_of_decode decoded⟩
    · exact ⟨word, fetched, code⟩

theorem heldBack_iff :
    heldBack m = true ↔ m.cpu.refusal? = none ∧ Unfed m ∧ (AsksInput m ∨ PassesForInput m) := by
  rw [← low_digits_iff, ← starved_iff, Cpu.live_iff]
  simp [heldBack]

theorem PassesForInput.not_decoded (passes : PassesForInput m) :
    ∃ word cause, m.cpu.memory.read m.cpu.ip = .ok word ∧ Instruction.decode word = .error cause := by
  obtain ⟨word, fetched, code, malformed⟩ := passes
  cases decoded : Instruction.decode word with
  | error cause => exact ⟨word, cause, fetched, decoded⟩
  | ok i =>
    obtain ⟨dst, rfl⟩ := Instruction.eq_input_of_decode decoded code
    obtain ⟨-, wellFormed⟩ := Instruction.decode_eq_input_iff.1 ⟨dst, decoded⟩
    omega

theorem not_waiting_of_head (other : line.toList[0]? ≠ some 'W') : isWaiting line = false := by
  cases told : isWaiting line with
  | false => rfl
  | true =>
    obtain ⟨rest, same⟩ := List.isPrefixOf_iff_prefix.1 told
    simp [← same] at other

theorem isWaiting_waitingLine (ip : Int) : isWaiting (waitingLine ip) = true := by
  have same : waitingLine ip =
      "Waiting for input at " ++ (toString ip ++ ".  Use 'send <values>'.") := String.append_assoc ..
  rw [isWaiting, same, String.toList_append, List.isPrefixOf_iff_prefix]
  exact List.prefix_append _ _

theorem advance_of_heldBack (held : heldBack m = true) :
    advance m = (.ok (.waiting m.cpu.ip), m) := by
  simp only [heldBack, Bool.and_eq_true, Bool.not_eq_true'] at held
  simp [advance, held]

theorem canStep_of_not_heldBack (live : m.cpu.refusal? = none) (free : heldBack m = false) :
    canStep m = true := by
  obtain ⟨going, sound⟩ := Cpu.live_iff.1 live
  simpa [heldBack, canStep, going, sound] using free

theorem not_waiting_of_outcome (later : Cpu) (outcome : Outcome) :
    ∀ line ∈ linesOf (Advance.ofOutcome later outcome), isWaiting line = false := by
  intro line mem
  apply not_waiting_of_head
  cases outcome with
  | stopped stop =>
    cases stop with
    | unworded => cases mem
    | fault | refused | waiting | unfinished =>
      rw [List.mem_singleton.1 mem]
      simp [toString]
  | ran op =>
    cases op with
    | halt =>
      rw [List.mem_singleton.1 mem]
      simp [toString]
    | output =>
      simp only [linesOf, Advance.ofOutcome, Option.mem_toList, Option.map_eq_some_iff] at mem
      obtain ⟨value, -, rfl⟩ := mem
      simp [toString]
    | add | mul | input | jumpIfTrue | jumpIfFalse | lessThan | equals | adjustBase => cases mem

theorem filter_printedBy (m : Machine) :
    (printedBy m).filter isWaiting = if heldBack m then [waitingLine m.cpu.ip] else [] := by
  cases live : m.cpu.refusal? with
  | some refusal =>
    have ended : (m.cpu.halted || m.cpu.fault.isSome) = true := by
      cases halted : m.cpu.halted <;> cases faulted : m.cpu.fault <;>
        simp [Cpu.refusal?, halted, faulted] at live ⊢
    have told : Advance.ended.printed.filter isWaiting = [] := by decide
    simpa [printedBy, linesOf, advance, heldBack, ended] using told
  | none =>
    cases held : heldBack m with
    | true =>
      rw [printedBy, advance_of_heldBack held]
      exact List.filter_cons_of_pos (isWaiting_waitingLine m.cpu.ip)
    | false =>
      rw [printedBy, advance_of_canStep (canStep_of_not_heldBack live held)]
      apply List.filter_eq_nil_iff.2
      simpa using not_waiting_of_outcome (stepOnce m).2.cpu (stepOnce m).1

theorem filter_tried (tried : List Machine) :
    (tried.flatMap printedBy).filter isWaiting =
      (tried.filter heldBack).map fun m => waitingLine m.cpu.ip := by
  induction tried with
  | nil => rfl
  | cons m rest ih =>
    rw [List.flatMap_cons, List.filter_append, ih, filter_printedBy, List.filter_cons]
    split <;> rfl

namespace Console

theorem filter_sayError (c : Console) (message : String) :
    (c.sayError message).1.printed.filter isWaiting = [] :=
  List.filter_cons_of_neg (by rw [not_waiting_of_head (by simp)]; decide)

theorem filter_step (c : Console) (argument : List Char) :
    (c.step argument).1.printed.filter isWaiting =
      ((c.tried (.act .step argument)).filter heldBack).map fun m => waitingLine m.cpu.ip := by
  unfold step
  cases asked : numberOr 1 (given? argument) with
  | error e =>
    simp only [tried, asked]
    exact c.filter_sayError e
  | ok count =>
    have unmarked (cpu : Cpu) : isWaiting (instructionLine cpu) = false :=
      not_waiting_of_head (by simp [instructionLine])
    simp only [stepMany_eq, tried, asked, Array.empty_append]
    rw [filter_shown unmarked, filter_tried]

theorem not_waiting_of_closing {budget : Int} {ending : Except Escape RunEnd}
    (mem : line ∈ (runClosing budget ending).1) : isWaiting line = false := by
  apply not_waiting_of_head
  cases ending with
  | error e => cases mem
  | ok ending =>
    have written := some_mem_of_cut mem
    cases ending with
    | budget | breakpoint =>
      obtain ⟨-, rfl⟩ := Text.lineOf?_eq_some_iff.1 (List.mem_singleton.1 written).symm
      simp [toString]
    | stopped => cases written

theorem filter_run (c : Console) (argument : List Char) :
    (c.run argument).1.printed.filter isWaiting =
      ((c.tried (.act .run argument)).filter heldBack).map fun m => waitingLine m.cpu.ip := by
  unfold run
  cases asked : numberOr defaultBudget (given? argument) with
  | error e =>
    simp only [tried, asked]
    exact c.filter_sayError e
  | ok budget =>
    have closing (ending : Except Escape RunEnd) :
        (runClosing budget ending).1.filter isWaiting = [] := by
      apply List.filter_eq_nil_iff.2
      intro line mem
      rw [not_waiting_of_closing mem]
      decide
    simp only [runMany_eq, tried, asked, Array.empty_append]
    rw [List.filter_append, closing, List.append_nil, filter_tried]

end Console

/-- What the monitor makes of a machine that has not ended. -/
structure Handled (m : Machine) : Prop where
  held : heldBack m = true ↔ Unfed m ∧ (AsksInput m ∨ PassesForInput m)
  stays : heldBack m = true → advance m = (.ok (.waiting m.cpu.ip), m)
  steps : heldBack m = false → StepsFreely m ∧
    advance m = (Advance.ofOutcome (stepOnce m).2.cpu (stepOnce m).1, (stepOnce m).2)
  passing : PassesForInput m →
    ∃ word cause, m.cpu.memory.read m.cpu.ip = .ok word ∧ Instruction.decode word = .error cause
  /-- A word that cannot be decoded is told as a fault, unless it passes for an input or is too long to be
  written. -/
  undecoded (word : Int) (cause : Cause) : m.cpu.memory.read m.cpu.ip = .ok word →
    Instruction.decode word = .error cause →
    (advance m).1 =
      if heldBack m then .ok ⟨[waitingLine m.cpu.ip], false⟩
      else if cause.isLegible then .ok ⟨[faultLine ⟨cause, some m.cpu.ip⟩], false⟩
      else .error .illegible

theorem step_of_undecoded (live : m.cpu.refusal? = none)
    (fetched : m.cpu.memory.read m.cpu.ip = .ok word)
    (undecoded : Instruction.decode word = .error cause) :
    (stepOnce m).1 = .stopped ((Snag.cause cause).stop (some m.cpu.ip)) := by
  have unprepared : m.cpu.prepare word = .error cause := by rw [Cpu.prepare, undecoded, error_bind]
  rw [stepOnce_of_cpu (Cpu.step_of_fails (.prepare live fetched unprepared))]

theorem handled (live : m.cpu.refusal? = none) (attended : canStep m = true → Attended m) :
    Handled m where
  held := heldBack_iff.trans (by simp [live])
  stays := advance_of_heldBack
  steps free := by
    have able := canStep_of_not_heldBack live free
    exact ⟨(attended able).stepsFreely able, advance_of_canStep able⟩
  passing := PassesForInput.not_decoded
  undecoded word cause fetched undecoded := by
    cases held : heldBack m with
    | true =>
      rw [advance_of_heldBack held]
      rfl
    | false =>
      rw [advance_of_canStep (canStep_of_not_heldBack live held),
        step_of_undecoded live fetched undecoded]
      cases legible : cause.isLegible with
      | true =>
        rw [Snag.stop_cause legible]
        rfl
      | false =>
        rw [Snag.stop, Snag.fault?, legible]
        rfl

/-- After any commands, the lines of a step or a run that say that the machine waits are those of the
machines held back, and a machine is held back with no phase and no value if its word has the low digits of
an input. Each other machine that has not ended makes its step. -/
theorem waits_by_low_digits (image : Memory) (inputs : List Int) (phase : Option Int)
    (commands : List Command) (argument : List Char) (command : Command)
    (stepping : command = .act .step argument ∨ command = .act .run argument) :
    let c := ((Session.opened image inputs phase).follow commands).console
    (c.execute command).1.printed.filter isWaiting =
        ((c.tried command).filter heldBack).map (fun m => waitingLine m.cpu.ip) ∧
      ∀ m ∈ c.tried command, m.cpu.refusal? = none → Handled m := by
  intro c
  have attended : Attended c.machine := Session.attended_follow image inputs phase commands
  constructor
  · rcases stepping with rfl | rfl
    · exact c.filter_step argument
    · exact c.filter_run argument
  · intro m tried live
    apply handled live
    intro able
    exact ((Console.attended_execute attended command).1 m (List.mem_filter.2 ⟨tried, able⟩)).1

/-- A run that takes a sent value, and waits at a word that no mode belongs to. -/
theorem waits_by_low_digits_sent :
    let c := ((Session.opened (.ofWords [3, 0, 303, 0, 99] 0) [] none).follow
      [.act .send ['7']]).console
    (c.execute (.act .run [])).1.printed.filter isWaiting = [waitingLine 2] ∧
      (c.tried (.act .run [])).map (fun m => (m.cpu.ip, heldBack m)) = [(0, false), (2, true)] ∧
      ∀ m ∈ c.tried (.act .run []), Handled m := by
  intro c
  obtain ⟨lines, each⟩ := waits_by_low_digits (.ofWords [3, 0, 303, 0, 99] 0) [] none
    [.act .send ['7']] [] (.act .run []) (.inr rfl)
  refine ⟨lines.trans (by decide +kernel), by decide +kernel, fun m tried => each m tried ?_⟩
  have live : ∀ m ∈ c.tried (.act .run []), m.cpu.refusal? = none := by decide +kernel
  exact live m tried

/-- The monitor waits for a word that cannot be decoded, until a value is there that it does not take. -/
theorem waits_for_unknown_mode :
    let c := Console.start (.ofWords [303, 0, 99] 0) [] none
    let fed := (c.execute (.act .send ['5'])).2
    (c.execute (.act .step [])).1.printed.filter isWaiting = [waitingLine 0] ∧
      c.machine.cpu.memory.read c.machine.cpu.ip = .ok 303 ∧
      Instruction.decode 303 = .error (.unknownMode 3 303) ∧
      (fed.execute (.act .step [])).1.printed.filter isFault =
        [faultLine ⟨.unknownMode 3 303, some 0⟩] ∧
      (fed.execute (.act .step [])).2.machine.cpu.ip = 1 := by
  decide +kernel

end Monitor

end IntcodeVM
