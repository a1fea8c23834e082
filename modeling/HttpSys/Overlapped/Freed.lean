import HttpSys.Overlapped.Custody

/-! What is over for good: wraps that nobody accounts for any more, and submissions whose task has let
go of its buffer. -/
namespace HttpSys.Overlapped
open Lib.Machine

/-- A wrap that is neither pooled nor some operation's has been freed, or was never made. -/
def State.Tight (s : State) : Prop :=
  ∀ address, address ∉ s.free → (∀ o op, s.ops o = some op → 0 < op.refs → op.address ≠ address) →
    (s.heap address).strong = 0

theorem init_tight (slots : Nat) : (State.init slots).Tight := fun _ _ _ => rfl

section
variable {s : State} (safe : s.Safe) (tight : s.Tight)
include tight

/-- One operation and its wrap change. -/
theorem replace_tight {o : Nat} {op op' : Op} (cell : Cell) (found : s.ops o = some op)
    (address : op'.address = op.address) (strong : cell.strong = op'.refs) :
    State.Tight { s with
      heap := Function.update s.heap op.address cell, ops := Function.update s.ops o (some op') } := by
  intro a outside unowned
  by_cases own : a = op.address
  · have idle : ¬ 0 < op'.refs := by
      intro active
      apply unowned o op' (Function.update_self ..) active
      rw [address, own]
    dsimp only
    rw [own, Function.update_self, strong]
    omega
  · dsimp only
    rw [Function.update_of_ne own]
    apply tight a outside
    intro i other at_ active
    by_cases same : i = o
    · subst same
      obtain rfl : op = other := Option.some.inj (found.symm.trans at_)
      exact Ne.symm own
    · exact unowned i other ((Function.update_of_ne same ..).trans at_) active

include safe

theorem openOp_tight (skip : Bool) : (s.openOp skip).Tight := by
  have vacant : s.ops s.opened = none := by
    cases found : s.ops s.opened with
    | none => rfl
    | some op => exact absurd (safe.opened _ op found) (Nat.lt_irrefl _)
  -- Every older operation is still in the table.
  have older : ∀ (new : Op) o op, s.ops o = some op → Function.update s.ops s.opened (some new) o = some op := by
    intro new o op found
    have other : o ≠ s.opened := by
      rintro rfl
      rw [vacant] at found
      cases found
    rw [Function.update_of_ne other, found]
  unfold State.openOp State.take
  cases listed : s.free with
  | cons address rest =>
    intro a outside unowned
    have differs : a ≠ address := fun same => unowned s.opened _ (Function.update_self ..) Nat.two_pos same.symm
    dsimp only
    rw [Function.update_of_ne differs]
    apply tight
    · rw [listed]
      exact fun member => (List.mem_cons.mp member).elim differs outside
    · exact fun o op found active => unowned o op (older _ o op found) active
  | nil =>
    intro a outside unowned
    have differs : a ≠ s.next := fun same => unowned s.opened _ (Function.update_self ..) Nat.two_pos same.symm
    dsimp only
    rw [Function.update_of_ne differs, Function.update_of_ne differs]
    apply tight
    · rw [listed]
      exact outside
    · exact fun o op found active => unowned o op (older _ o op found) active

theorem giveBack_tight {o : Nat} {op : Op} {result : Except Error UInt32} (found : s.ops o = some op)
    (settled : op.phase = .settled result) :
    State.Tight { s.giveBack op.address with
      ops := Function.update s.ops o (some { op with phase := .returned result }) } := by
  have busy : 0 < op.refs := by
    rw [Op.refs, settled]
    exact Nat.lt_of_lt_of_le Nat.zero_lt_one (Nat.le_add_right _ _)
  have strong := (safe.holds o op found busy).strong
  rw [Op.refs, settled] at strong
  have left : Op.refs { op with phase := .returned result } = (s.heap op.address).strong - 1 := by
    rw [strong]
    simp only [Op.refs, Phase.refs]
    omega
  unfold State.giveBack
  dsimp only
  split
  · rename_i unique
    have idle : Op.refs { op with phase := .returned result } = 0 := by omega
    split
    · -- The wrap is pooled, so it is none of those in question.
      intro a outside unowned
      have listed : a ∉ s.free ∧ a ≠ op.address := by simpa using outside
      dsimp only
      rw [Function.update_of_ne listed.2]
      apply tight a listed.1
      intro i other at_ active
      by_cases same : i = o
      · subst same
        obtain rfl : op = other := Option.some.inj (found.symm.trans at_)
        exact Ne.symm listed.2
      · exact unowned i other ((Function.update_of_ne same ..).trans at_) active
    · exact replace_tight tight { strong := 0 } found rfl idle.symm
  · exact replace_tight tight (s.heap op.address).drop found rfl left.symm

end

theorem step_tight {s t : State} {label : Label} (safe : s.Safe) (tight : s.Tight) (h : s.step label = some t) :
    t.Tight := by
  cases label with
  | new skip =>
    cases h
    exact openOp_tight safe tight skip
  | act o action =>
    simp only [State.step] at h
    split at h
    · cases h
    · rename_i op found
      obtain ⟨⟨op', cell⟩, acted, rfl⟩ := Option.map_eq_some_iff.mp h
      have kept := act_kept (safe.sane o op found) (safe.holds o op found (act_busy acted)) acted
      exact replace_tight tight cell found kept.address kept.holds.strong
  | giveBack o =>
    simp only [State.step] at h
    split at h
    · cases h
    · rename_i op found
      split at h
      · rename_i result settled
        cases h
        exact giveBack_tight safe tight found settled
      · cases h

/-! ### The buffer of an operation -/

/-- The buffer that the task handed to the kernel is still lent: the future has neither resolved nor come out of
its drop. -/
def Phase.lends : Phase → Bool
  | .created | .submitted | .awaiting | .registering | .cancelling => true
  | _ => false

theorem act_lends {op op' : Op} {cell cell' : Cell} {action : Action} (h : op.act cell action = some (op', cell'))
    (ended : op.phase.lends = false) : op'.phase.lends = false := by
  cases action with
  | submit | finish =>
    simp only [Op.act, Op.submit, Op.finish] at h
    split at h
    · rename_i phase
      rw [phase] at ended
      cases ended
    · cases h
  | write | post =>
    simp only [Op.act, Op.kernelStep] at h
    split at h <;> cases h
    exact ended
  | dequeue | storeErr | storeLen | publish | wake | release =>
    simp only [Op.act, Op.deliverStep] at h
    split at h <;> cases h
    exact ended
  | poll | recheck | cancel | unblock =>
    simp only [Op.act, Op.futureStep] at h
    split at h
    · rename_i phase
      rw [phase] at ended
      cases ended
    · cases h
  | dropFuture | abandon | leave =>
    simp only [Op.act, Op.futureStep] at h
    split at h <;> cases h
    rfl

theorem step_lends {s t : State} {label : Label} (safe : s.Safe) (h : s.step label = some t) {o : Nat} {op : Op}
    (found : s.ops o = some op) (ended : op.phase.lends = false) :
    ∃ op', t.ops o = some op' ∧ op'.phase.lends = false := by
  cases label with
  | new skip =>
    cases h
    have other : o ≠ s.opened := Nat.ne_of_lt (safe.opened o op found)
    refine ⟨op, ?_, ended⟩
    unfold State.openOp State.take
    cases s.free <;> exact (Function.update_of_ne other ..).trans found
  | act i action =>
    simp only [State.step] at h
    split at h
    · cases h
    · rename_i first at_
      obtain ⟨⟨next, cell⟩, acted, rfl⟩ := Option.map_eq_some_iff.mp h
      by_cases same : o = i
      · subst same
        obtain rfl : op = first := Option.some.inj (found.symm.trans at_)
        exact ⟨next, Function.update_self .., act_lends acted ended⟩
      · exact ⟨op, (Function.update_of_ne same ..).trans found, ended⟩
  | giveBack i =>
    simp only [State.step] at h
    split at h
    · cases h
    · rename_i first at_
      split at h
      · cases h
        by_cases same : o = i
        · subst same
          exact ⟨_, Function.update_self .., rfl⟩
        · exact ⟨op, (Function.update_of_ne same ..).trans found, ended⟩
      · cases h

theorem not_pending_of_ended {op : Op} (sane : op.Sane) (ended : op.phase.lends = false) : op.packet ≠ .pending := by
  intro pending
  have unpublished : op.packet.published ≠ true := by
    rw [pending]
    exact Bool.false_ne_true
  have matched := sane.phase
  cases phase : op.phase with
  | resolved result =>
    rw [phase] at matched
    exact unpublished matched.2.1
  | unblocked | leaving | dropped =>
    rw [phase] at matched
    exact unpublished matched.2
  | settled result | returned result =>
    rw [phase] at matched
    obtain ⟨matched, -⟩ := matched
    split at matched
    · exact unpublished matched
    · rw [pending] at matched
      cases matched
  | _ =>
    rw [phase] at ended
    cases ended

theorem kernelStep_of_not_pending {op : Op} {cell : Cell} {action : Action} (due : op.packet ≠ .pending) :
    op.kernelStep cell action = none := by
  cases action with
  | write | post => simp only [Op.kernelStep]
  | _ => rfl

/-- Once the future of an operation has resolved, or its drop has come back from waiting for the cancelled submission,
the kernel neither writes for that operation nor completes it, however the run goes on. -/
theorem kernel_never_writes_late (slots : Nat) (labels later : List Label) (s t : State) (o : Nat) (op : Op)
    (h : run State.step (State.init slots) labels = some s) (found : s.ops o = some op)
    (ended : op.phase.lends = false) (continued : run State.step s later = some t) :
    (∀ bytes inner, t.step (.act o (.write bytes inner)) = none) ∧
    ∀ err len, t.step (.act o (.post err len)) = none := by
  have safe := run_invariant step_safe (init_safe slots) h
  have end_ : t.Safe ∧ ∃ op', t.ops o = some op' ∧ op'.phase.lends = false := by
    refine run_invariant (P := fun t => t.Safe ∧ ∃ op', t.ops o = some op' ∧ op'.phase.lends = false) ?_
      ⟨safe, op, found, ended⟩ continued
    rintro s label t ⟨safe, op, found, ended⟩ taken
    exact ⟨step_safe s label t safe taken, step_lends safe taken found ended⟩
  obtain ⟨safe', op', found', ended'⟩ := end_
  have due := not_pending_of_ended (safe'.sane o op' found') ended'
  constructor
  · intro bytes inner
    simp only [State.step, found', Op.act, kernelStep_of_not_pending due, Option.map_none]
  · intro err len
    simp only [State.step, found', Op.act, kernelStep_of_not_pending due, Option.map_none]

/-- A receive whose future is dropped: the drop cancels it and waits for the completion. -/
def cancelledReceive : List Label :=
  [.new true, .act 0 (.submit errorIoPending 0), .act 0 .finish, .act 0 (.poll 3), .act 0 .recheck, .act 0 .cancel,
    .act 0 (.write 16 {}), .act 0 (.post errorOperationAborted 0), .act 0 .dequeue, .act 0 .storeErr, .act 0 .storeLen,
    .act 0 .publish, .act 0 .unblock]

theorem cancelled_receive_is_not_written_late : ∃ s t, run State.step (State.init 4) cancelledReceive = some s ∧
    run State.step s [.act 0 .abandon, .new true, .act 0 .wake] = some t ∧
    ∀ bytes inner, t.step (.act 0 (.write bytes inner)) = none := by
  have ended : ((run State.step (State.init 4) cancelledReceive).bind fun s => s.ops 0).map (fun op => op.phase.lends) =
      some false := by decide +kernel
  have longer : (run State.step (State.init 4) (cancelledReceive ++ [.act 0 .abandon, .new true, .act 0 .wake])).isSome := by
    decide +kernel
  obtain ⟨op, found, ended⟩ := Option.map_eq_some_iff.mp ended
  obtain ⟨s, ran, found⟩ := Option.bind_eq_some_iff.mp found
  obtain ⟨t, ran'⟩ := Option.isSome_iff_exists.mp longer
  obtain ⟨s', first, rest⟩ := run_append.mp ran'
  obtain rfl : s = s' := Option.some.inj (ran.symm.trans first)
  exact ⟨s, t, ran, rest, (kernel_never_writes_late 4 cancelledReceive _ s t 0 op ran found ended rest).1⟩

end HttpSys.Overlapped
