import HttpSys.Queue.Teardown
import HttpSys.Lib.Progress

/-! The completion threads get done. Whatever the port and its threads have been through, a packet that
the kernel has queued is delivered after a number of their steps that is known beforehand. -/
namespace HttpSys
open Lib.Machine Lib.Tickets Lib.Progress Overlapped Iocp

/-- The steps of the completion threads. -/
def QueueStep.ofThread : QueueStep → Bool
  | .take .. | .complete .. | .release _ | .sentinel _ => true
  | .port (.dequeue ..) | .port (.endBatch _) => true
  | _ => false

def Overlapped.Packet.work : Packet → Nat
  | .posted => 6
  | .held .taken => 5
  | .held .errStored => 4
  | .held .lenStored => 3
  | .held .published => 2
  | .held .woken => 1
  | _ => 0

def Iocp.Thread.work : Thread → Nat
  | .delivering rest _ => rest.length + 1
  | _ => 0

def Iocp.Port.work (s : Port) : Nat := 3 * s.queue.length + listLoad Thread.work s.threads

namespace RequestQueue

/-- A bound on what the completion threads still have to do. -/
def work (s : RequestQueue) : Nat := load (·.packet.work) s.ops.ops s.ops.opened + s.io.work

/-- An operation has moved on. -/
theorem load_act {s ops : Overlapped.State} (safe : s.Safe) {o : Nat} {action : Action}
    (stepped : s.step (.act o action) = some ops) : ∃ op op' cell, s.ops o = some op ∧
      op.act (s.heap op.address) action = some (op', cell) ∧
      load (·.packet.work) ops.ops ops.opened + op.packet.work =
        load (·.packet.work) s.ops s.opened + op'.packet.work := by
  obtain ⟨op, op', cell, found, acted, rfl⟩ := step_act_cases stepped
  exact ⟨op, op', cell, found, acted, load_update _ op' (safe.opened o op found) found⟩

theorem deliver_work {io io' : Port} {i : Nat} (h : Iocp.step io (.deliver i) = some io') : io'.work < io.work := by
  have shorter : ∀ {entry rest stop stop'}, io.threads[i]? = some (.delivering (entry :: rest) stop) →
      listLoad Thread.work (io.threads.set i (.delivering rest stop')) < listLoad Thread.work io.threads := by
    intro entry rest stop stop' batch
    have moved := listLoad_set Thread.work (.delivering rest stop') batch
    simp only [Thread.work, List.length_cons] at moved
    omega
  rcases deliver_cases h with ⟨entry, rest, stop, batch, shutdown⟩ | ⟨entry, rest, stop, batch, -, rfl⟩
  · simp only [Iocp.step, batch, shutdown, if_true] at h
    cases h
    exact Nat.add_lt_add_left (shorter batch) _
  · exact Nat.add_lt_add_left (shorter batch) _

theorem dequeue_work {io io' : Port} {i removed : Nat} (h : Iocp.step io (.dequeue i removed) = some io') :
    io'.work < io.work := by
  simp only [Iocp.step] at h
  split at h
  · rename_i waits
    obtain ⟨⟨some_, -, there⟩, rfl⟩ := of_guard h
    have moved := listLoad_set Thread.work (.delivering (io.queue.take removed) false) waits
    simp only [Thread.work, List.length_take, Nat.min_eq_left there] at moved
    simp only [Port.work, List.length_drop]
    omega
  · cases h

theorem endBatch_work {io io' : Port} {i : Nat} (h : Iocp.step io (.endBatch i) = some io') : io'.work < io.work := by
  simp only [Iocp.step] at h
  split at h
  · rename_i stop batch
    cases h
    have idle : Thread.work (if stop then .returned else .waiting) = 0 := by cases stop <;> rfl
    have moved := listLoad_set Thread.work (if stop then .returned else .waiting) batch
    rw [idle] at moved
    simp only [Thread.work, List.length_nil] at moved
    simp only [Port.work]
    omega
  · cases h

theorem completes_work {op op' : Op} {cell cell' : Cell} {action : Action} (completes : action.completes = true)
    (h : op.act cell action = some (op', cell')) : op'.packet.work < op.packet.work := by
  cases action with
  | storeErr | storeLen | publish | wake =>
    simp only [Op.act, Op.deliverStep] at h
    split at h
    · rename_i held
      cases h
      rw [held]
      exact Nat.lt_succ_self _
    · cases h
  | _ => cases completes

/-- Every step of a completion thread uses up some of the work. -/
theorem thread_step_work {s t : RequestQueue} {e : QueueStep} (safe : s.ops.Safe) (ofThread : e.ofThread = true)
    (h : s.step e = some t) : t.work < s.work := by
  cases e with
  | take i o =>
    obtain ⟨-, -, -, -, ops, -, -, -, -, -, stepped, rfl⟩ := take_cases h
    obtain ⟨op, op', cell, -, acted, loads⟩ := load_act safe stepped
    obtain ⟨posted, shape⟩ := act_dequeue acted
    have before : op.packet.work = 6 := by rw [posted]; rfl
    have after : op'.packet.work = 5 := by rw [shape]; rfl
    simp only [work]
    omega
  | complete i action =>
    simp only [step] at h
    split at h
    · cases h
    · split at h
      · rename_i completes
        obtain ⟨ops, stepped, rfl⟩ := act_eq_some h
        obtain ⟨op, op', cell, -, acted, loads⟩ := load_act safe stepped
        have less := completes_work completes acted
        simp only [work]
        omega
      · cases h
  | release i =>
    simp only [step] at h
    split at h
    · cases h
    · split at h
      · rename_i m io acted delivered
        cases h
        obtain ⟨ops, stepped, rfl⟩ := act_eq_some acted
        obtain ⟨op, op', cell, -, acted, loads⟩ := load_act safe stepped
        obtain ⟨woken, shape⟩ := act_release acted
        have before : op.packet.work = 1 := by rw [woken]; rfl
        have after : op'.packet.work = 0 := by rw [shape]; rfl
        have less := deliver_work delivered
        simp only [work]
        omega
      · cases h
  | sentinel i =>
    simp only [step] at h
    split at h
    · split at h
      · obtain ⟨io, delivered, rfl⟩ := Option.map_eq_some_iff.mp h
        exact Nat.add_lt_add_left (deliver_work delivered) _
      · cases h
    · cases h
  | port event =>
    simp only [step] at h
    split at h
    · obtain ⟨io, stepped, rfl⟩ := Option.map_eq_some_iff.mp h
      cases event with
      | dequeue => exact Nat.add_lt_add_left (dequeue_work stepped) _
      | endBatch => exact Nat.add_lt_add_left (endBatch_work stepped) _
      | _ => cases ofThread
    · cases h
  | _ => cases ofThread

/-! ### A packet on the port is never stuck there -/

section
variable {s : RequestQueue} (tallied : s.Tallied) (ordered : s.Ordered)
include tallied

theorem batch_proceeds {i : Nat} {entry : Entry} {rest : List Entry} {stop : Bool}
    (batch : s.io.threads[i]? = some (.delivering (entry :: rest) stop)) :
    ∃ e t, e.ofThread = true ∧ s.step e = some t := by
  cases inHand : s.inHand i with
  | some o =>
    rcases busy_proceeds tallied inHand with ⟨action, t, taken⟩ | ⟨t, taken⟩
    · exact ⟨_, t, rfl, taken⟩
    · exact ⟨_, t, rfl, taken⟩
  | none =>
    by_cases shutdown : entry.isShutdown = true
    · refine ⟨.sentinel i, ?_⟩
      simp [step, batch, shutdown, Iocp.step, QueueStep.ofThread]
    · obtain ⟨o, ⟨t, taken⟩, -⟩ := take_unique tallied batch (by simpa using shutdown) inHand
      exact ⟨_, t, rfl, taken⟩

include ordered

theorem queue_proceeds {entry : Entry} (queued : entry ∈ s.io.queue) (ordinary : entry.isShutdown = false) :
    ∃ e t, e.ofThread = true ∧ s.step e = some t := by
  obtain ⟨thread, member⟩ := List.exists_mem_of_length_pos ordered.fifo.threads
  obtain ⟨i, found⟩ := List.mem_iff_getElem?.mp member
  cases thread with
  | waiting =>
    have some_ : 1 ≤ s.io.queue.length := List.length_pos_of_mem queued
    refine ⟨.port (.dequeue i 1), ?_⟩
    simp [step, QueueLife.allows, Iocp.step, found, some_, batch, QueueStep.ofThread]
  | delivering rest stop =>
    cases rest with
    | nil =>
      refine ⟨.port (.endBatch i), ?_⟩
      simp [step, QueueLife.allows, Iocp.step, found, QueueStep.ofThread]
    | cons entry rest => exact batch_proceeds tallied found
  | returned =>
    -- A thread has left, so there are only sentinels.
    have shutdown := ordered.fifo.drained _ member rfl entry queued
    rw [ordinary] at shutdown
    cases shutdown

theorem ported_proceeds {o : Nat} {op : Op} (found : s.ops.ops o = some op) (ported : op.packet.ported = true) :
    ∃ e t, e.ofThread = true ∧ s.step e = some t := by
  have counted := entries_count_of_ported tallied found ported
  have member := List.count_pos_iff.mp (counted ▸ Nat.one_pos)
  rcases List.mem_append.mp member with queued | batched
  · exact queue_proceeds tallied ordered queued (packet ..).property
  · obtain ⟨thread, inside, held⟩ := List.mem_flatMap.mp batched
    obtain ⟨i, found⟩ := List.mem_iff_getElem?.mp inside
    cases thread with
    | delivering rest stop =>
      cases rest with
      | nil => cases held
      | cons entry rest => exact batch_proceeds tallied found
    | _ => cases held

end

theorem released_of_accepted {packet : Packet} (accepted : packet.accepted = true) (off : packet.ported = false)
    (due : packet ≠ .pending) : packet = .released := by
  cases packet with
  | released => rfl
  | pending => exact (due rfl).elim
  | leaked | reclaimed => cases accepted
  | posted | held => cases off

theorem still_of_done {s : RequestQueue} {e : QueueStep} (tallied : s.Tallied) (done : s.work = 0)
    (ofThread : e.ofThread = true) : s.step e = none := by
  apply Option.eq_none_iff_forall_ne_some.mpr
  intro t taken
  have less := thread_step_work tallied.safe ofThread taken
  omega

/-- From every state of a queue on, the completion threads can take at most `work` steps, and where none of them can
take another one no packet is left on the port: whoever waits for an operation that the kernel is done with finds it
completed. -/
theorem queued_packets_complete (handle : QueueHandle) (skip : Bool) (ioThreads concurrency : Nat)
    (steps later : List QueueStep) (s t : RequestQueue)
    (h : run step (new handle skip ioThreads concurrency) steps = some s) (continued : run step s later = some t)
    (ofThreads : ∀ e ∈ later, e.ofThread = true) :
    later.length ≤ s.work ∧
    ((∀ e, e.ofThread = true → t.step e = none) → ∀ o op, t.ops.ops o = some op →
      op.packet.ported = false ∧
      (op.phase = .awaiting ∨ op.phase = .registering ∨ op.phase = .cancelling → op.packet ≠ .pending →
        (t.ops.heap op.address).wrap.completed = true)) := by
  obtain ⟨tallied, ordered⟩ := run_ordered (run_append.mpr ⟨s, h, continued⟩)
  constructor
  · have uses : ∀ s e t, Tallied s → e.ofThread = true → s.step e = some t → t.Tallied ∧ t.work < s.work := by
      intro s e t tallied ofThread taken
      exact ⟨moves_tallied tallied (step_moves taken), thread_step_work tallied.safe ofThread taken⟩
    have bound := length_add_work_le work uses (run_tallied h) ofThreads continued
    omega
  · intro stuck o op found
    have off : op.packet.ported = false := by
      by_contra ported
      obtain ⟨e, m, ofThread, taken⟩ := ported_proceeds tallied ordered found (by simpa using ported)
      rw [stuck e ofThread] at taken
      cases taken
    refine ⟨off, ?_⟩
    intro waits due
    have matched := (tallied.safe.sane o op found).phase
    have accepted : op.packet.accepted = true := by
      rcases waits with phase | phase | phase
      all_goals
        rw [phase] at matched
        exact matched.2
    have released := released_of_accepted accepted off due
    have busy : 0 < op.refs := by
      rcases waits with phase | phase | phase
      all_goals
        rw [Op.refs, phase]
        exact Nat.lt_of_lt_of_le Nat.two_pos (Nat.le_add_right _ _)
    rw [(tallied.safe.holds o op found busy).completed, released]
    rfl

/-- Both packets of a batch, worked off by one thread. -/
def workedOff : List QueueStep :=
  [.take 0 1, .complete 0 .storeErr, .complete 0 .storeLen, .complete 0 .publish, .complete 0 .wake, .release 0,
    .take 0 0, .complete 0 .storeErr, .complete 0 .storeLen, .complete 0 .publish, .complete 0 .wake, .release 0,
    .port (.endBatch 0)]

theorem two_receives_complete : ∃ s t, run step (new ⟨8, by decide⟩ true 2 4) twoReceives = some s ∧
    run step s workedOff = some t ∧ workedOff.length ≤ s.work ∧ (∀ e, e.ofThread = true → t.step e = none) ∧
    [0, 1].map (fun o => (t.ops.ops o).map fun op => (t.ops.heap op.address).wrap.completed) = [some true, some true] ∧
    ∀ o op, t.ops.ops o = some op → op.packet.ported = false ∧
      (op.phase = .awaiting ∨ op.phase = .registering ∨ op.phase = .cancelling → op.packet ≠ .pending →
        (t.ops.heap op.address).wrap.completed = true) := by
  have longer : (run step (new ⟨8, by decide⟩ true 2 4) (twoReceives ++ workedOff)).map (fun t => (t.work,
      [0, 1].map fun o => (t.ops.ops o).map fun op => (t.ops.heap op.address).wrap.completed)) =
        some (0, [some true, some true]) := by decide +kernel
  obtain ⟨t, ran, seen⟩ := Option.map_eq_some_iff.mp longer
  obtain ⟨done, flags⟩ := Prod.mk.inj seen
  obtain ⟨s, first, rest⟩ := run_append.mp ran
  have still : ∀ e, e.ofThread = true → t.step e = none := fun e => still_of_done (run_tallied ran) done
  obtain ⟨few, complete⟩ :=
    queued_packets_complete ⟨8, by decide⟩ true 2 4 twoReceives workedOff s t first rest (by decide)
  exact ⟨s, t, first, rest, few, still, flags, complete still⟩

end RequestQueue
end HttpSys
