import IntcodeVM.Proofs.Circuit.Exchange
import IntcodeVM.Proofs.Circuit.Settling

/-! Stages of a closed loop that step in any order. A stage can step unless it has ended or would
have to wait for a value; one whose step would break off stays where it is. Main statement: steps of
different stages can be exchanged, and no step mends what is going to fail in another stage. -/
namespace IntcodeVM.Amplifier.Circuit

/-- A stage carries out one instruction. -/
def Runs (stage : Nat) (c next : Circuit) : Prop :=
  ∃ op, c.onStage stage Cpu.step = (some (.ran op), next)

def Faults (stage : Nat) (c next : Circuit) : Prop :=
  ∃ fault, c.onStage stage Cpu.step = (some (.stopped (.fault fault)), next)

/-- The next step of a stage fails: it ends with a fault, or it breaks off. -/
def Raises (stage : Nat) (stop : Stop) (c : Circuit) : Prop :=
  stop.isFailure = true ∧ ∃ next, c.onStage stage Cpu.step = (some (.stopped stop), next)

abbrev Failing (stage : Nat) (c : Circuit) : Prop := ∃ stop, Raises stage stop c

/-- Steps of these stages in this order, faults among them. -/
inductive Interleaving : List Nat → Circuit → Circuit → Prop
  | nil (c : Circuit) : Interleaving [] c c
  | cons {stage : Nat} {order : List Nat} {c next last : Circuit} :
      Runs stage c next ∨ Faults stage c next → Interleaving order next last →
      Interleaving (stage :: order) c last

/-- The circuit after steps in this order, if they can be made. -/
def follow? : List Nat → Circuit → Option Circuit
  | [], c => some c
  | stage :: order, c =>
    match c.onStage stage Cpu.step with
    | (some (.ran _), next) | (some (.stopped (.fault _)), next) => follow? order next
    | _ => none

def Stuck (c : Circuit) : Prop := ∀ stage next, ¬ Runs stage c next ∧ ¬ Faults stage c next

def withStage (c : Circuit) (stage : Nat) (cpu : Cpu) (channels : Array (Channel Int)) : Circuit :=
  { c with stages := c.stages.setIfInBounds stage cpu, channels := channels }

variable {stage other : Nat} {c next a b : Circuit} {cpu : Cpu} {channels : Array (Channel Int)}

theorem withStage_outputOf (i : Nat) :
    (c.withStage stage cpu channels).outputOf i = c.outputOf i := by
  simp [withStage, outputOf]

theorem withStage_stages_ne (h : stage ≠ other) :
    (c.withStage stage cpu channels).stages[other]? = c.stages[other]? := by
  simp [withStage, Array.getElem?_setIfInBounds_ne h]

theorem withStage_stages_self (h : stage < c.stages.size) :
    (c.withStage stage cpu channels).stages[stage]? = some cpu := by
  simp [withStage, h]

theorem onStage_step_eq (h : c.stages[stage]? = some cpu) :
    c.onStage stage Cpu.step =
      (some (cpu.step (c.wiring stage) c.channels).1,
        c.withStage stage (cpu.step (c.wiring stage) c.channels).2.1
          (cpu.step (c.wiring stage) c.channels).2.2) :=
  onStage_eq_some h _

theorem onStage_step_iff {outcome : Outcome} :
    c.onStage stage Cpu.step = (some outcome, next) ↔
      ∃ cpu after channels, c.stages[stage]? = some cpu ∧
        cpu.step (c.wiring stage) c.channels = (outcome, after, channels) ∧
        next = c.withStage stage after channels := by
  cases h : c.stages[stage]? with
  | none => simp [onStage_eq_none h]
  | some cpu =>
    rw [onStage_step_eq h]
    constructor
    · intro same
      obtain ⟨answered, rfl⟩ := Prod.mk.inj same
      cases answered
      exact ⟨cpu, _, _, rfl, rfl, rfl⟩
    · rintro ⟨_, after, channels, found, stepped, rfl⟩
      cases found
      rw [stepped]

theorem runs_iff : Runs stage c next ↔
    ∃ cpu op action after channels, c.stages[stage]? = some cpu ∧ cpu.Acts op action after ∧
      action.Answered (c.wiring stage) c.channels channels ∧
      next = c.withStage stage after channels := by
  constructor
  · rintro ⟨op, h⟩
    obtain ⟨cpu, after, channels, found, stepped, rfl⟩ := onStage_step_iff.1 h
    obtain ⟨action, acts, answered⟩ := Cpu.step_ran_iff.1 stepped
    exact ⟨cpu, op, action, after, channels, found, acts, answered, rfl⟩
  · rintro ⟨cpu, op, action, after, channels, found, acts, answered, rfl⟩
    exact ⟨op, onStage_step_iff.2
      ⟨cpu, after, channels, found, Cpu.step_ran_iff.2 ⟨action, acts, answered⟩, rfl⟩⟩

theorem raises_iff {stop : Stop} : Raises stage stop c ↔
    ∃ cpu snag wordRead met channels, c.stages[stage]? = some cpu ∧
      Cpu.Fails (c.wiring stage) cpu c.channels snag wordRead met channels ∧
      stop = snag.stop (some cpu.ip) := by
  constructor
  · rintro ⟨failure, next, h⟩
    obtain ⟨cpu, after, channels, found, stepped, rfl⟩ := onStage_step_iff.1 h
    obtain ⟨snag, wordRead, met, left, fails, rfl, -⟩ := Cpu.fails_of_failure stepped failure
    exact ⟨cpu, snag, wordRead, met, left, found, fails, rfl⟩
  · rintro ⟨cpu, snag, wordRead, met, left, found, fails, rfl⟩
    exact ⟨snag.isFailure_stop _, _,
      onStage_step_iff.2 ⟨cpu, _, _, found, Cpu.step_of_fails fails, rfl⟩⟩

theorem failing_iff : Failing stage c ↔
    ∃ cpu snag wordRead met channels, c.stages[stage]? = some cpu ∧
      Cpu.Fails (c.wiring stage) cpu c.channels snag wordRead met channels := by
  constructor
  · rintro ⟨stop, raises⟩
    obtain ⟨cpu, snag, wordRead, met, left, found, fails, -⟩ := raises_iff.1 raises
    exact ⟨cpu, snag, wordRead, met, left, found, fails⟩
  · rintro ⟨cpu, snag, wordRead, met, left, found, fails⟩
    exact ⟨_, raises_iff.2 ⟨cpu, snag, wordRead, met, left, found, fails, rfl⟩⟩

theorem Faults.failing (h : Faults stage c next) : Failing stage c := by
  obtain ⟨fault, h⟩ := h
  exact ⟨.fault fault, rfl, next, h⟩

theorem runs_unique (h : Runs stage c a) (k : Runs stage c b) : a = b := by
  obtain ⟨op, h⟩ := h
  obtain ⟨other, k⟩ := k
  exact congrArg Prod.snd (h.symm.trans k)

theorem Runs.not_failing (h : Runs stage c a) : ¬ Failing stage c := by
  rintro ⟨stop, -, next, k⟩
  obtain ⟨op, h⟩ := h
  have outcomes := congrArg Prod.fst (h.symm.trans k)
  simp at outcomes

theorem follow?_cons_of_step {order : List Nat} (step : Runs stage c next ∨ Faults stage c next) :
    c.follow? (stage :: order) = next.follow? order := by
  rcases step with ⟨op, h⟩ | ⟨fault, h⟩ <;> rw [follow?, h]

theorem step_of_follow? {order : List Nat} {last : Circuit}
    (h : c.follow? (stage :: order) = some last) :
    ∃ next, (Runs stage c next ∨ Faults stage c next) ∧ next.follow? order = some last := by
  rw [follow?] at h
  split at h
  · rename_i op next ran
    exact ⟨next, .inl ⟨op, ran⟩, h⟩
  · rename_i fault next failed
    exact ⟨next, .inr ⟨fault, failed⟩, h⟩
  · cases h

theorem interleaving_iff {order : List Nat} {last : Circuit} :
    Interleaving order c last ↔ c.follow? order = some last := by
  constructor
  · intro steps
    induction steps with
    | nil => rfl
    | cons step _ ih => rw [follow?_cons_of_step step, ih]
  · intro h
    induction order generalizing c with
    | nil =>
      cases h
      exact .nil _
    | cons stage order ih =>
      obtain ⟨next, step, rest⟩ := step_of_follow? h
      exact .cons step (ih rest)

theorem Interleaving.append {order more : List Nat} {mid last : Circuit}
    (first : Interleaving order c mid) (second : Interleaving more mid last) :
    Interleaving (order ++ more) c last := by
  induction first with
  | nil => exact second
  | cons step _ ih => exact .cons step (ih second)

/-- Steps of other stages leave a stage as it is. -/
theorem Interleaving.others {order : List Nat} {last : Circuit} {i : Nat}
    (steps : Interleaving order c last) (apart : i ∉ order) :
    last.stages[i]? = c.stages[i]? := by
  induction steps with
  | nil => rfl
  | cons step _ ih =>
    rw [ih (List.not_mem_of_not_mem_cons apart)]
    rcases step with ⟨op, h⟩ | ⟨fault, h⟩
    all_goals
      obtain ⟨_, _, _, -, -, rfl⟩ := onStage_step_iff.1 h
      exact withStage_stages_ne (List.ne_of_not_mem_cons apart).symm

theorem succ_mod_eq {i n : Nat} (h : i < n) : (i + 1) % n = if i + 1 = n then 0 else i + 1 := by
  by_cases last : i + 1 = n
  · rw [if_pos last, last, Nat.mod_self]
  · rw [if_neg last, Nat.mod_eq_of_lt (by omega)]

theorem outputOf_ne (i : stage < c.stages.size) (j : other < c.stages.size) (h : stage ≠ other) :
    c.outputOf stage ≠ c.outputOf other := by
  unfold outputOf
  split
  · rw [succ_mod_eq i, succ_mod_eq j]
    split <;> split <;> omega
  · omega

theorem lt_size_of_getElem? (h : c.stages[stage]? = some cpu) : stage < c.stages.size :=
  (Array.getElem?_eq_some_iff.1 h).1

theorem withStage_comm {first second : Cpu} {left right both : Array (Channel Int)}
    (h : stage ≠ other) : (c.withStage stage first left).withStage other second both =
      (c.withStage other second right).withStage stage first both := by
  simp only [withStage, Array.setIfInBounds_comm first second h]

theorem Runs.commute (h : stage ≠ other) (first : Runs stage c a) (second : Runs other c b) :
    ∃ both, Runs other a both ∧ Runs stage b both := by
  obtain ⟨cpu, op, action, after, left, found, acts, answered, rfl⟩ := runs_iff.1 first
  obtain ⟨peer, peerOp, peerAction, peerAfter, right, peerFound, peerActs, peerAnswered, rfl⟩ :=
    runs_iff.1 second
  have outputs := outputOf_ne (lt_size_of_getElem? found) (lt_size_of_getElem? peerFound) h
  obtain ⟨both, later, earlier⟩ := answered.commute peerAnswered h outputs
  refine ⟨(c.withStage stage after left).withStage other peerAfter both,
    runs_iff.2 ⟨peer, peerOp, peerAction, peerAfter, both, ?_, peerActs, ?_, rfl⟩,
    runs_iff.2 ⟨cpu, op, action, after, both, ?_, acts, ?_, ?_⟩⟩
  · rw [withStage_stages_ne h, peerFound]
  · rw [wiring, withStage_outputOf]
    exact later
  · rw [withStage_stages_ne h.symm, found]
  · rw [wiring, withStage_outputOf]
    exact earlier
  · exact withStage_comm h

theorem fails_of_answered {input output otherInput otherOutput : Nat} {action : PortAction}
    {before after : Array (Channel Int)} {snag : Snag} {wordRead : Bool} {met : Cpu}
    (fails : Cpu.Fails (link input output) cpu before snag wordRead met channels)
    (answered : action.Answered (link otherInput otherOutput) before after)
    (inputs : input ≠ otherInput) (outputs : output ≠ otherOutput) :
    ∃ snag wordRead met left,
      Cpu.Fails (link input output) cpu after snag wordRead met left := by
  cases fails with
  | fetch live fetched => exact ⟨_, _, _, _, .fetch live fetched⟩
  | prepare live fetched prepared => exact ⟨_, _, _, _, .prepare live fetched prepared⟩
  | lostPhase intends hp hi => exact ⟨_, _, _, _, .lostPhase intends hp hi⟩
  | @lostInput _ _ value _ _ intends hp hi pulled =>
    -- the value is there before and after the other stage's action
    have took : (PortAction.took value).Answered (link input output) before channels := pulled
    obtain ⟨both, -, later⟩ := took.commute answered inputs outputs
    exact ⟨_, _, _, _, .lostInput intends hp hi later⟩
  | noInput intends hp pulled =>
    -- a closed channel takes no value any more, so it stays empty
    obtain ⟨front, closed, -, -⟩ := link_pull_refused_iff.1 pulled
    have stays : (channelAt after input).history[(channelAt after input).taken]? = none ∧
        (channelAt after input).closed = true :=
      answered.channelAt_induction (P := fun ch => ch.history[ch.taken]? = none ∧ ch.closed = true)
        ⟨front, closed⟩ fun _ on => ⟨on.stays_exhausted closed front, on.stays_closed closed⟩
    exact ⟨_, _, _, _, .noInput intends hp
      (link_pull_refused_iff.2 ⟨stays.1, stays.2, rfl, rfl⟩)⟩
  | noOutput intends pushed =>
    obtain ⟨closed, -, -⟩ := link_push_refused_iff.1 pushed
    have stays : (channelAt after output).closed = true :=
      answered.channelAt_induction (P := fun ch => ch.closed = true) closed
        fun _ on => on.stays_closed closed
    exact ⟨_, _, _, _, .noOutput intends (link_push_refused_iff.2 ⟨stays, rfl, rfl⟩)⟩
  | untold _ _ untold => cases (link_tells input output _).symm.trans untold

theorem Failing.persists (h : stage ≠ other) (failing : Failing stage c) (runs : Runs other c b) :
    Failing stage b := by
  obtain ⟨cpu, snag, wordRead, met, left, found, fails⟩ := failing_iff.1 failing
  obtain ⟨peer, op, action, after, right, peerFound, -, answered, rfl⟩ := runs_iff.1 runs
  have outputs := outputOf_ne (lt_size_of_getElem? found) (lt_size_of_getElem? peerFound) h
  obtain ⟨snag, wordRead, met, left, later⟩ := fails_of_answered fails answered h outputs
  refine failing_iff.2 ⟨cpu, snag, wordRead, met, left, ?_, ?_⟩
  · rw [withStage_stages_ne h.symm, found]
  · rw [wiring, withStage_outputOf]
    exact later

/-- Steps of different stages do not get into each other's way. -/
theorem commuting : Settling.Commuting Runs Failing where
  unique := runs_unique
  sound runs := runs.not_failing
  commute h first second := first.commute h second
  persists h failing runs := failing.persists h runs

end IntcodeVM.Amplifier.Circuit
