import IntcodeVM.Proofs.Instruction.Parameters
import IntcodeVM.Proofs.Machine.Transcript

namespace IntcodeVM

/-- The same cause at ports of these names. -/
def Cause.through (source sink : String) : Cause → Cause
  | sourceTerminated _ => .sourceTerminated source
  | sinkTerminated _ => .sinkTerminated sink
  | cause => cause

theorem Cause.through_of_family {cause : Cause} (inner : cause.family ≠ .port)
    (source sink : String) : cause.through source sink = cause := by
  cases cause with
  | sourceTerminated | sinkTerminated => exact absurd rfl inner
  | negativeWord | unknownOpcode | unknownMode | negativeAddress | outOfBounds | negativeOperand
  | missingTurn => rfl

theorem Cause.isLegible_through (cause : Cause) (source sink : String) :
    (cause.through source sink).isLegible = cause.isLegible := by
  cases cause <;> rfl

theorem Cause.message_through {cause : Cause} (source sink : String)
    (plain : cause.family ≠ .port ∨ cause = .sourceTerminated "") :
    (cause.through source sink).message =
      cause.message ++ if cause.family = .port then portLabel source else "" := by
  rcases plain with inner | rfl
  · rw [through_of_family inner, if_neg inner, String.append_empty]
  · rfl

/-- An attempt that can fail, but not on account of a port. -/
def Inward {α : Type} (x : Except Cause α) : Prop :=
  ∀ cause, x = .error cause → cause.family ≠ .port

namespace Inward

variable {α β : Type} {x : Except Cause α} {f : α → Except Cause β}

theorem ok (a : α) : Inward (.ok a) := by
  intro cause h
  cases h

theorem error {cause : Cause} (inner : cause.family ≠ .port) :
    Inward (.error cause : Except Cause α) := by
  intro other h
  cases h
  exact inner

theorem bind (first : Inward x) (then' : ∀ a, Inward (f a)) : Inward (x >>= f) := by
  intro cause h
  cases x with
  | error other =>
    cases h
    exact first _ rfl
  | ok a => exact then' a cause h

theorem map (first : Inward x) (f : α → β) : Inward (f <$> x) := by
  intro cause h
  cases x with
  | error other =>
    cases h
    exact first _ rfl
  | ok a => cases h

theorem mapM (each : ∀ a, Inward (f a)) (i : Instruction α) : Inward (i.mapM f) := by
  cases i with
  | halt => exact ok _
  | input a | output a | adjustBase a => exact map (each a) _
  | jumpIfTrue a b | jumpIfFalse a b => exact bind (each a) fun _ => map (each b) _
  | add a b c | mul a b c | lessThan a b c | equals a b c =>
    exact bind (each a) fun _ => bind (each b) fun _ => map (each c) _

theorem read (m : Memory) (addr : Int) : Inward (m.read addr) := by
  unfold Memory.read
  split
  · exact error (by simp [Cause.family])
  · split
    · exact ok _
    · exact error (by simp [Cause.family])

theorem index (m : Memory) (addr : Int) : Inward (m.index addr) := by
  unfold Memory.index
  split
  · exact error (by simp [Cause.family])
  · split
    · exact error (by simp [Cause.family])
    · exact ok _

theorem decode (word : Int) : Inward (Instruction.decode word) := by
  unfold Instruction.decode
  split
  · exact error (by simp [Cause.family])
  · split
    · exact error (by simp [Cause.family])
    · apply mapM
      intro place
      unfold Instruction.modeOf
      split
      · exact ok _
      · exact error (by simp [Cause.family])

theorem operandAddress (m : Memory) (base slot : Int) (place : Nat) (mode : Mode) :
    Inward (Cpu.operandAddress m base slot place mode) := by
  have checked (addr : Int) : Inward (if addr < 0 then .error (.negativeOperand addr mode place)
      else .ok addr) := by
    split
    · exact error (by simp [Cause.family])
    · exact ok addr
  cases mode with
  | position => exact bind (read m slot) checked
  | immediate => exact checked slot
  | relative => exact bind (map (read m slot) _) checked

theorem effect (m : Memory) (i : Instruction Int) : Inward (i.effect m) := by
  cases i with
  | halt | input _ => exact ok _
  | output a | adjustBase a => exact map (read m a) _
  | jumpIfTrue a b | jumpIfFalse a b =>
    apply bind (read m a)
    intro cond
    split
    · exact map (read m b) _
    · exact ok _
  | add a b c | mul a b c | lessThan a b c | equals a b c =>
    exact bind (read m a) fun _ => bind (read m b) fun _ => map (index m c) _

theorem locate (m : Memory) (base first : Int) (i : Instruction Mode) :
    Inward (Cpu.locate m base first i) :=
  mapM (fun _ => operandAddress m base _ _ _) i.numbered

theorem prepare (cpu : Cpu) (word : Int) : Inward (cpu.prepare word) := by
  apply bind (decode word)
  intro decoded
  apply bind (locate cpu.memory cpu.base (cpu.ip + 1) decoded)
  intro located
  exact map (effect cpu.memory located) _

end Inward

/-- Whatever ports of one kind would answer to the next request, but for a push that they accept or a
pull that would wait, those of another kind answer too, under their own names. -/
structure Wiring.Alike {σ τ : Type} (w : Wiring σ) (ports : σ) (other : Wiring τ) (there : τ)
    (source sink : String) : Prop where
  pulled {value : Int} {rest : σ} : w.pull ports = (.value value, rest) →
    ∃ left, other.pull there = (.value value, left)
  dry {cause : Cause} {rest : σ} : w.pull ports = (.refused cause, rest) →
    ∃ left, other.pull there = (.refused (cause.through source sink), left)
  shut {value : Int} {cause : Cause} {rest : σ} : w.push value ports = (some cause, rest) →
    ∃ left, other.push value there = (some (cause.through source sink), left)

theorem Cpu.Fails.elsewhere {σ τ : Type} {w : Wiring σ} {other : Wiring τ} {cpu met : Cpu}
    {ports after : σ} {there : τ} {cause : Cause} {wordRead : Bool} {source sink : String}
    (fails : Fails w cpu ports (.cause cause) wordRead met after)
    (alike : w.Alike ports other there source sink) (name : String) :
    ∃ met left, Fails other (cpu.renamed name) there (.cause (cause.through source sink)) wordRead met
      left := by
  cases fails with
  | fetch live unread =>
    rw [Cause.through_of_family (Inward.read _ _ _ unread)]
    exact ⟨_, _, .fetch ((refusal?_renamed name).2 live) unread⟩
  | prepare live fetched unprepared =>
    rw [Cause.through_of_family (Inward.prepare _ _ _ unprepared)]
    exact ⟨_, _, .prepare ((refusal?_renamed name).2 live) fetched unprepared⟩
  | lostPhase intends primed outside =>
    rw [Cause.through_of_family (Inward.index _ _ _ outside)]
    exact ⟨_, _, .lostPhase (intends.renamed name) primed outside⟩
  | lostInput intends unprimed outside pulled =>
    rw [Cause.through_of_family (Inward.index _ _ _ outside)]
    obtain ⟨left, pulled⟩ := alike.pulled pulled
    exact ⟨_, _, .lostInput (intends.renamed name) unprimed outside pulled⟩
  | noInput intends unprimed dry =>
    obtain ⟨left, dry⟩ := alike.dry dry
    exact ⟨_, _, .noInput (intends.renamed name) unprimed dry⟩
  | noOutput intends shut =>
    obtain ⟨left, shut⟩ := alike.shut shut
    exact ⟨_, _, .noOutput (intends.renamed name) shut⟩

end IntcodeVM
