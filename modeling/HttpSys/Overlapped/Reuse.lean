import HttpSys.Overlapped.Custody
import HttpSys.Lib.Progress

/-! How many wraps have to be allocated. An operation takes one that is free if there is one, so new
ones are needed only for operations that are live at the same time and for wraps that were not given back. -/
namespace HttpSys.Overlapped
open Lib.Machine Lib.Progress

/-- Whether the task still has the wrap. -/
def Phase.lent : Phase → Nat
  | .returned _ => 0
  | .dropped => 0
  | _ => 1

def Op.lent (op : Op) : Nat := op.phase.lent

/-- The early drop of an operation ends with that of its wrap. -/
def Action.discards : Action → Bool
  | .leave => true
  | _ => false

namespace State

/-- How many operations are live. -/
def lent (s : State) : Nat := load Op.lent s.ops s.opened

/-- The step gives up a wrap that the pool does not get: a completion thread still has its reference, or the
operation is dropped early. -/
def discards (s : State) : Label → Bool
  | .new _ => false
  | .act _ action => action.discards
  | .giveBack o => ((s.ops o).map fun op => op.packet.outstanding).getD false

def discarded (s : State) : List Label → Nat
  | [] => 0
  | label :: labels =>
    (if s.discards label then 1 else 0) + ((s.step label).map fun t => t.discarded labels).getD 0

/-- The most operations that are live at one time. -/
def peak (s : State) : List Label → Nat
  | [] => s.lent
  | label :: labels => max s.lent (((s.step label).map fun t => t.peak labels).getD 0)

end State

theorem lent_le_peak (s : State) (labels : List Label) : s.lent ≤ s.peak labels := by
  cases labels with
  | nil => exact Nat.le_refl _
  | cons label labels => exact Nat.le_max_left _ _

/-! ### One step -/

theorem act_lent {op op' : Op} {cell cell' : Cell} {action : Action} (h : op.act cell action = some (op', cell')) :
    op'.lent + (if action.discards then 1 else 0) = op.lent := by
  cases action with
  | submit =>
    simp only [Op.act, Op.submit] at h
    split at h
    · rename_i phase
      cases h
      simp [Op.lent, phase, Phase.lent, Action.discards]
    · cases h
  | finish =>
    simp only [Op.act, Op.finish] at h
    split at h
    · rename_i phase
      split at h
      · cases h
        simp [Op.lent, phase, Phase.lent, Action.discards]
      · split at h <;> cases h
        · simp [Op.lent, phase, Phase.lent, Action.discards]
        · simp [Op.lent, phase, Phase.lent, Action.discards]
    · cases h
  | write | post =>
    simp only [Op.act, Op.kernelStep] at h
    split at h <;> cases h
    rfl
  | dequeue | storeErr | storeLen | publish | wake | release =>
    simp only [Op.act, Op.deliverStep] at h
    split at h <;> cases h
    rfl
  | poll | recheck =>
    simp only [Op.act, Op.futureStep] at h
    split at h
    · rename_i phase
      split at h <;> cases h
      · simp [Op.lent, phase, Phase.lent, Action.discards]
      · simp [Op.lent, phase, Phase.lent, Action.discards]
    · cases h
  | cancel =>
    simp only [Op.act, Op.futureStep] at h
    split at h
    · rename_i phase
      cases h
      split
      · simp [Op.lent, phase, Phase.lent, Action.discards]
      · simp [Op.lent, phase, Phase.lent, Action.discards]
    · cases h
  | unblock =>
    simp only [Op.act, Op.futureStep] at h
    split at h
    · rename_i phase
      obtain ⟨-, same⟩ := of_guard h
      cases same
      simp [Op.lent, phase, Phase.lent, Action.discards]
    · cases h
  | dropFuture | abandon | leave =>
    simp only [Op.act, Op.futureStep] at h
    split at h
    · rename_i phase
      cases h
      simp [Op.lent, phase, Phase.lent, Action.discards]
    · cases h

/-- A wrap that comes back is the last reference exactly if no completion thread still has one. -/
theorem strong_of_settled {op : Op} {cell : Cell} {result : Except Error UInt32} (sane : op.Sane) (holds : op.Holds cell)
    (settled : op.phase = .settled result) : cell.strong = 1 ↔ op.packet.outstanding = false := by
  have strong := holds.strong
  have matched := sane.phase
  rw [settled] at matched
  rw [Op.refs, settled] at strong
  have left : op.packet ≠ .leaked := by
    intro leaked
    obtain ⟨matched, -⟩ := matched
    rw [leaked] at matched
    split at matched <;> cases matched
  have refs : op.packet.refs = 0 ↔ op.packet.outstanding = false := by
    cases packet : op.packet with
    | leaked => exact (left packet).elim
    | _ => simp [Packet.refs, Packet.outstanding]
  rw [← refs, strong, Phase.refs]
  omega

theorem openOp_counts (s : State) (skip : Bool) :
    (s.openOp skip).lent = s.lent + 1 ∧
    ((s.openOp skip).next = s.next ∧ (s.openOp skip).free.length + 1 = s.free.length ∨
      (s.openOp skip).next = s.next + 1 ∧ (s.openOp skip).free = [] ∧ s.free = []) := by
  have lent : (s.openOp skip).lent = s.lent + 1 := by
    have fresh : ∀ op, load Op.lent (Function.update s.ops s.opened (some op)) (s.opened + 1) = s.lent + op.lent := by
      intro op
      have before : load Op.lent (Function.update s.ops s.opened (some op)) s.opened = s.lent := by
        apply load_congr
        intro o below
        exact Function.update_of_ne (Nat.ne_of_lt below) ..
      rw [load, before, Function.update_self]
      rfl
    unfold State.openOp State.take
    cases s.free with
    | nil => exact fresh _
    | cons address free => exact fresh _
  refine ⟨lent, ?_⟩
  unfold State.openOp State.take
  cases free : s.free with
  | nil => exact Or.inr ⟨rfl, rfl, rfl⟩
  | cons address rest => exact Or.inl ⟨rfl, rfl⟩

section
variable {s t : State} (safe : s.Safe)
include safe

theorem act_counts {o : Nat} {action : Action} (h : s.step (.act o action) = some t) :
    t.lent + (if action.discards then 1 else 0) = s.lent ∧ t.next = s.next ∧ t.free = s.free ∧ t.slots = s.slots := by
  simp only [State.step] at h
  split at h
  · cases h
  · rename_i op found
    obtain ⟨⟨op', cell⟩, acted, rfl⟩ := Option.map_eq_some_iff.mp h
    refine ⟨?_, rfl, rfl, rfl⟩
    have own := act_lent acted
    have all := load_update Op.lent op' (safe.opened o op found) found
    show load Op.lent (Function.update s.ops o (some op')) s.opened + _ = load Op.lent s.ops s.opened
    omega

theorem giveBack_counts {o : Nat} (h : s.step (.giveBack o) = some t) (room : s.free.length + s.lent ≤ s.slots) :
    t.lent + 1 = s.lent ∧ t.next = s.next ∧ t.slots = s.slots ∧
    t.free.length + (if s.discards (.giveBack o) then 1 else 0) = s.free.length + 1 := by
  simp only [State.step] at h
  split at h
  · cases h
  · rename_i op found
    split at h
    · rename_i result settled
      cases h
      have returned := load_update Op.lent { op with phase := .returned result } (safe.opened o op found) found
      have before : op.lent = 1 := by rw [Op.lent, settled]; rfl
      have after : Op.lent { op with phase := .returned result } = 0 := rfl
      have busy : 0 < op.refs := by
        rw [Op.refs, settled, Phase.refs]
        omega
      have unique := strong_of_settled (safe.sane o op found) (safe.holds o op found busy) settled
      have discards : s.discards (.giveBack o) = op.packet.outstanding := by simp [State.discards, found]
      rw [before, after] at returned
      have some_ : 1 ≤ s.lent := by
        show 1 ≤ load Op.lent s.ops s.opened
        omega
      unfold State.giveBack
      dsimp only
      split
      · rename_i last
        rw [if_pos (by omega : s.free.length < s.slots), discards, unique.mp last]
        refine ⟨returned, rfl, rfl, ?_⟩
        simp
      · rename_i shared
        have held : op.packet.outstanding = true := by
          by_contra alone
          exact shared (unique.mpr (by simpa using alone))
        rw [discards, held]
        exact ⟨returned, rfl, rfl, rfl⟩
    · cases h

end

/-- The wraps there are, by where they went. -/
structure State.Counted (n d : Nat) (s : State) : Prop where
  safe : s.Safe
  room : n ≤ s.slots
  wraps : s.next = s.free.length + s.lent + d
  bound : s.next ≤ n + d

theorem step_counted {n d : Nat} {s t : State} {label : Label} (counted : s.Counted n d) (few : t.lent ≤ n)
    (h : s.step label = some t) : t.Counted n (d + if s.discards label then 1 else 0) := by
  obtain ⟨safe, room, wraps, bound⟩ := counted
  have kept := step_safe s label t safe h
  cases label with
  | new skip =>
    obtain rfl : s.openOp skip = t := Option.some.inj h
    have slots : (s.openOp skip).slots = s.slots := by
      unfold State.openOp State.take
      cases s.free <;> rfl
    obtain ⟨lent, ⟨next, free⟩ | ⟨next, none_, none_'⟩⟩ := openOp_counts s skip
    · refine ⟨kept, slots ▸ room, ?_, ?_⟩
      · show _ = _ + (d + 0)
        omega
      · show _ ≤ n + (d + 0)
        omega
    · rw [none_'] at wraps
      simp only [List.length_nil] at wraps
      refine ⟨kept, slots ▸ room, ?_, ?_⟩
      · rw [none_]
        show _ = 0 + _ + (d + 0)
        omega
      · show _ ≤ n + (d + 0)
        omega
  | act o action =>
    obtain ⟨lent, next, free, slots⟩ := act_counts safe h
    have same : s.discards (.act o action) = action.discards := rfl
    refine ⟨kept, slots ▸ room, ?_, ?_⟩
    · rw [same, free]
      omega
    · omega
  | giveBack o =>
    obtain ⟨lent, next, slots, free⟩ := giveBack_counts safe h (by omega)
    refine ⟨kept, slots ▸ room, ?_, ?_⟩
    · omega
    · omega

theorem run_counted {n d : Nat} {s t : State} {labels : List Label} (counted : s.Counted n d)
    (few : s.peak labels ≤ n) (h : run State.step s labels = some t) : t.Counted n (d + s.discarded labels) := by
  induction labels generalizing s d with
  | nil =>
    cases h
    exact counted
  | cons label labels ih =>
    obtain ⟨m, first, rest⟩ := run_cons.mp h
    have later : m.peak labels ≤ n := by
      rw [State.peak, first] at few
      exact Nat.le_trans (Nat.le_max_right _ _) few
    have next := ih (step_counted counted (Nat.le_trans (lent_le_peak m labels) later) first) later rest
    rw [State.discarded, first, ← Nat.add_assoc]
    exact next

/-- As long as the pool has room for the operations that are live at one time, no more wraps are allocated than the most
that were, and one for each wrap that a completion thread still held when it came back or that an early drop took along. -/
theorem operations_reuse_wraps (slots : Nat) (labels : List Label) (s : State)
    (h : run State.step (State.init slots) labels = some s) (room : (State.init slots).peak labels ≤ max slots 1) :
    s.next ≤ (State.init slots).peak labels + (State.init slots).discarded labels ∧
    s.free.length + s.lent ≤ (State.init slots).peak labels := by
  have start : (State.init slots).Counted ((State.init slots).peak labels) 0 :=
    ⟨init_safe slots, room, rfl, Nat.zero_le _⟩
  have counted := run_counted start (Nat.le_refl _) h
  have wraps := counted.wraps
  have bound := counted.bound
  omega

/-- The wrap of the send serves two more operations, that of the receive was lost to the completion thread. -/
def fourOps : List Label :=
  receiveAndSend ++ [.act 0 .wake, .act 0 .release, .act 2 (.submit 0 9), .act 2 .finish, .giveBack 2, .new true]

theorem four_ops_reuse_wraps : ∃ s, run State.step (State.init 4) fourOps = some s ∧ s.next = 2 ∧
    s.next ≤ (State.init 4).peak fourOps + (State.init 4).discarded fourOps ∧
    s.free.length + s.lent ≤ (State.init 4).peak fourOps := by
  have two : (run State.step (State.init 4) fourOps).map (fun s => s.next) = some 2 := by decide +kernel
  obtain ⟨s, ran, next⟩ := Option.map_eq_some_iff.mp two
  exact ⟨s, ran, next, operations_reuse_wraps 4 fourOps s ran (by decide +kernel)⟩

end HttpSys.Overlapped
