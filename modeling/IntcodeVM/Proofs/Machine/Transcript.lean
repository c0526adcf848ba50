import IntcodeVM.Cpu.Run
import IntcodeVM.Proofs.Circuit.Settling
import IntcodeVM.Proofs.Machine.PortAction

namespace IntcodeVM

open Settling

variable {σ : Type}

/-- Steps that all run, with the actions that the ports have to answer. -/
abbrev Cpu.Transcript : List PortAction → Cpu → Cpu → Prop :=
  Path fun action cpu next => ∃ op, Cpu.Acts cpu op action next

/-- The ports carry out these actions one after the other. -/
abbrev PortAction.AllAnswered (w : Wiring σ) : List PortAction → σ → σ → Prop :=
  Path fun action => action.Answered w

namespace PortAction

def input? : PortAction → Option Int
  | took value => some value
  | _ => none

def output? : PortAction → Option Int
  | sent value => some value
  | _ => none

def inputs (actions : List PortAction) : List Int := actions.filterMap input?

def outputs (actions : List PortAction) : List Int := actions.filterMap output?

theorem inputs_cons (action : PortAction) (actions : List PortAction) :
    inputs (action :: actions) = inputs [action] ++ inputs actions := by
  rw [inputs, inputs, inputs, ← List.filterMap_append, List.singleton_append]

theorem outputs_cons (action : PortAction) (actions : List PortAction) :
    outputs (action :: actions) = outputs [action] ++ outputs actions := by
  rw [outputs, outputs, outputs, ← List.filterMap_append, List.singleton_append]

end PortAction

open PortAction

namespace Cpu

variable {cpu next : Cpu} {op : Opcode} {action : PortAction} {actions : List PortAction}
  {w : Wiring σ} {ports after : σ} {allowance larger count limit : Nat}
  {result : Except Stop Nat × Cpu × σ}

theorem Acts.fault_eq (acts : cpu.Acts op action next) : next.fault = cpu.fault := by
  cases acts <;> rfl

theorem Acts.going (acts : cpu.Acts op action next) : cpu.halted = false := by
  have live := acts.live
  unfold refusal? at live
  split at live
  · cases live
  · rename_i going
    simpa using going

theorem Acts.halted_iff (acts : cpu.Acts op action next) :
    next.halted = true ↔ action = .ended := by
  have going := acts.going
  cases acts with
  | halt => simp [advanced]
  | store | jump | fallThrough | shift | phase | take | emit => simp [advanced, going]

theorem Transcript.fault_eq (transcript : Transcript actions cpu next) :
    next.fault = cpu.fault := by
  induction transcript with
  | nil => rfl
  | cons acts _ ih =>
    obtain ⟨op, acts⟩ := acts
    exact ih.trans acts.fault_eq

theorem Transcript.of_halted (transcript : Transcript actions cpu next)
    (halted : cpu.halted = true) : actions = [] ∧ next = cpu := by
  cases transcript with
  | nil => exact ⟨rfl, rfl⟩
  | cons acts _ =>
    obtain ⟨op, acts⟩ := acts
    cases acts.going.symm.trans halted

theorem Transcript.of_ended {rest : List PortAction}
    (transcript : Transcript (.ended :: rest) cpu next) : rest = [] ∧ next.halted = true := by
  cases transcript with
  | cons acts rest =>
    obtain ⟨op, acts⟩ := acts
    have halted := acts.halted_iff.2 rfl
    obtain ⟨none, same⟩ := Transcript.of_halted rest halted
    exact ⟨none, same ▸ halted⟩

theorem Transcript.halted_iff (transcript : Transcript actions cpu next)
    (going : cpu.halted = false) : next.halted = true ↔ .ended ∈ actions := by
  induction transcript with
  | nil => simp [going]
  | @cons action rest cpu mid next acts later ih =>
    obtain ⟨op, acts⟩ := acts
    cases halts : mid.halted with
    | true =>
      obtain ⟨none, same⟩ := Transcript.of_halted later halts
      have ended := acts.halted_iff.1 halts
      simp [same, halts, ended]
    | false =>
      have other : action ≠ .ended := by
        intro ended
        cases halts.symm.trans (acts.halted_iff.2 ended)
      rw [ih halts, List.mem_cons]
      constructor
      · exact .inr
      · intro mem
        exact mem.resolve_left other.symm

theorem runFor_of_transcript (transcript : Transcript actions cpu next)
    (answered : AllAnswered w actions ports after) (limit count : Nat) :
    runFor w (actions.length + limit) count cpu ports =
      runFor w limit (count + actions.length) next after := by
  induction transcript generalizing ports count with
  | nil =>
    cases answered
    simp
  | cons acts _ ih =>
    obtain ⟨op, acts⟩ := acts
    cases answered with
    | cons first rest =>
      have stepped := step_of_acts acts first
      have order : ∀ n : Nat, n + 1 + limit = n + limit + 1 := by omega
      rw [List.length_cons, order, runFor, if_neg (by simp [acts.going]), stepped]
      dsimp only
      rw [ih rest]
      congr 1
      omega

theorem runFor_of_halted (halted : cpu.halted = true) :
    runFor w limit count cpu ports = (.ok count, cpu, ports) := by
  cases limit with
  | zero => rfl
  | succ limit => rw [runFor, if_pos halted]

/-- What a run within an allowance comes to, when so many steps have brought it to `next`. -/
inductive Ending (w : Wiring σ) (allowance taken : Nat) (next : Cpu) (after : σ) :
    Except Stop Nat × Cpu × σ → Prop
  | halted : taken ≤ allowance → next.halted = true →
      Ending w allowance taken next after (.ok taken, next, after)
  | spent : taken = allowance → next.halted = false →
      Ending w allowance taken next after (.error .unfinished, next, after)
  | stopped {stop : Stop} {last : Cpu} {left : σ} : taken < allowance → next.halted = false →
      next.step w after = (.stopped stop, last, left) →
      Ending w allowance taken next after (.error stop, last, left)

theorem run_of_ending (transcript : Transcript actions cpu next)
    (answered : AllAnswered w actions ports after)
    (ending : Ending w allowance actions.length next after result) :
    cpu.run w allowance ports = result := by
  have reached : runFor w allowance 0 cpu ports =
      runFor w (allowance - actions.length) actions.length next after := by
    have within : actions.length ≤ allowance := by
      cases ending with
      | halted within => exact within
      | spent same => exact Nat.le_of_eq same
      | stopped within => exact Nat.le_of_lt within
    have onward := runFor_of_transcript transcript answered (allowance - actions.length) 0
    rwa [Nat.add_sub_cancel' within, Nat.zero_add] at onward
  cases ending with
  | halted within halted =>
    rw [run, reached, runFor_of_halted halted]
    simp only [halted, if_true]
  | spent same going =>
    have none : allowance - actions.length = 0 := by omega
    rw [run, reached, none, runFor]
    simp [going]
  | stopped within going stepped =>
    obtain ⟨more, some⟩ := Nat.exists_eq_add_of_lt within
    have left : allowance - actions.length = more + 1 := by omega
    rw [run, reached, left, runFor, if_neg (by simp [going]), stepped]

theorem Ending.later (ending : Ending w allowance count next after result) :
    ∃ result, Ending w (allowance + 1) (count + 1) next after result := by
  cases ending with
  | halted within halted => exact ⟨_, .halted (Nat.succ_le_succ within) halted⟩
  | spent same going => exact ⟨_, .spent (congrArg Nat.succ same) going⟩
  | stopped within going stepped => exact ⟨_, .stopped (Nat.succ_lt_succ within) going stepped⟩

theorem exists_transcript (w : Wiring σ) (allowance : Nat) (cpu : Cpu) (ports : σ) :
    ∃ actions next after result, Transcript actions cpu next ∧ AllAnswered w actions ports after ∧
      Ending w allowance actions.length next after result := by
  induction allowance generalizing cpu ports with
  | zero =>
    refine ⟨[], cpu, ports, ?_⟩
    cases halts : cpu.halted with
    | true => exact ⟨_, .nil cpu, .nil ports, .halted (Nat.le_refl 0) halts⟩
    | false => exact ⟨_, .nil cpu, .nil ports, .spent rfl halts⟩
  | succ allowance ih =>
    cases halts : cpu.halted with
    | true => exact ⟨[], cpu, ports, _, .nil cpu, .nil ports, .halted (Nat.zero_le _) halts⟩
    | false =>
      rcases stepped : cpu.step w ports with ⟨outcome, mid, there⟩
      cases outcome with
      | stopped stop =>
        exact ⟨[], cpu, ports, _, .nil cpu, .nil ports,
          .stopped (Nat.succ_pos _) halts stepped⟩
      | ran op =>
        obtain ⟨action, acts, answered⟩ := step_ran_iff.1 stepped
        obtain ⟨actions, next, after, _, transcript, all, ending⟩ := ih mid there
        obtain ⟨result, later⟩ := ending.later
        exact ⟨action :: actions, next, after, result, .cons ⟨op, acts⟩ transcript,
          .cons answered all, later⟩

/-- Every run has a transcript, and an ending after it. -/
theorem exists_ending (w : Wiring σ) (allowance : Nat) (cpu : Cpu) (ports : σ) :
    ∃ actions next after, Transcript actions cpu next ∧ AllAnswered w actions ports after ∧
      Ending w allowance actions.length next after (cpu.run w allowance ports) := by
  obtain ⟨actions, next, after, result, transcript, answered, ending⟩ :=
    exists_transcript w allowance cpu ports
  rw [run_of_ending transcript answered ending]
  exact ⟨actions, next, after, transcript, answered, ending⟩

theorem Ending.mono (ending : Ending w allowance count next after result)
    (ended : result.1 ≠ .error .unfinished) (more : allowance ≤ larger) :
    Ending w larger count next after result := by
  cases ending with
  | halted within halted => exact .halted (Nat.le_trans within more) halted
  | spent same going => exact absurd rfl ended
  | stopped within going stepped => exact .stopped (Nat.lt_of_lt_of_le within more) going stepped

theorem run_mono (ended : (cpu.run w allowance ports).1 ≠ .error .unfinished)
    (more : allowance ≤ larger) : cpu.run w larger ports = cpu.run w allowance ports := by
  obtain ⟨actions, next, after, transcript, answered, ending⟩ :=
    exists_ending w allowance cpu ports
  exact run_of_ending transcript answered (ending.mono ended more)

def renamed (cpu : Cpu) (name : String) : Cpu := { cpu with name }

theorem refusal?_renamed (name : String) :
    (cpu.renamed name).refusal? = none ↔ cpu.refusal? = none := by
  unfold refusal? renamed
  cases cpu.halted <;> simp

theorem Intends.renamed {effect : Effect} (intends : cpu.Intends op effect) (name : String) :
    (cpu.renamed name).Intends op effect :=
  ⟨(refusal?_renamed name).2 intends.1, intends.2⟩

theorem Acts.renamed (acts : cpu.Acts op action next) (name : String) :
    (cpu.renamed name).Acts op action (next.renamed name) := by
  cases acts with
  | store h => exact .store (h.renamed name)
  | jump h => exact .jump (h.renamed name)
  | fallThrough h => exact .fallThrough (h.renamed name)
  | shift h => exact .shift (h.renamed name)
  | phase h primed inside => exact .phase (h.renamed name) primed inside
  | take value h unprimed inside => exact .take value (h.renamed name) unprimed inside
  | emit h => exact .emit (h.renamed name)
  | halt h => exact .halt (h.renamed name)

theorem Transcript.renamed (transcript : Transcript actions cpu next) (name : String) :
    Transcript actions (cpu.renamed name) (next.renamed name) := by
  induction transcript with
  | nil => exact .nil _
  | cons acts _ ih =>
    obtain ⟨op, acts⟩ := acts
    exact .cons ⟨op, acts.renamed name⟩ ih

end Cpu

end IntcodeVM
