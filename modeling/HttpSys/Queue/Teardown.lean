import HttpSys.Queue.Packets

/-! `RequestQueue::drop`. The handle is closed first, while the completion threads still run; then the pool
is dropped, and the port last. -/
namespace HttpSys
open Lib.Machine Lib.Tickets Overlapped Iocp

namespace RequestQueue

/-- How far the drop of the queue has come, and what that says of its operations and its port. -/
structure Ordered (s : RequestQueue) : Prop where
  fifo : Fifo s.io
  alive : s.life ≠ .emptied → s.io.dropper = .alive
  parked : s.life ≠ .serving → ∀ o op, s.ops.ops o = some op → op.phase.parked = true
  settled : s.life = .closed ∨ s.life = .emptied → ∀ o op, s.ops.ops o = some op → op.packet ≠ .pending
  pool : s.life = .emptied → s.ops.free = []

theorem every_iff {s : RequestQueue} (safe : s.ops.Safe) {p : Op → Bool} :
    s.every p = true ↔ ∀ o op, s.ops.ops o = some op → p op = true := by
  unfold every
  rw [List.all_eq_true]
  constructor
  · intro all o op found
    have here := all o (List.mem_range.mpr (safe.opened o op found))
    rw [found] at here
    exact here
  · intro all o _
    cases found : s.ops.ops o with
    | none => rfl
    | some op => exact all o op found

/-- The kernel and the completion threads leave the task and the pool alone, and make no submission. -/
theorem deliver_frame {s ops : Overlapped.State} {o : Nat} {action : Action} (apart : action.ofTask = false)
    (stepped : s.step (.act o action) = some ops) : ops.free = s.free ∧
      ∀ i op', ops.ops i = some op' → ∃ op, s.ops i = some op ∧ op'.phase = op.phase ∧
        (op'.packet = .pending → op.packet = .pending) := by
  obtain ⟨op, op', cell, found, acted, rfl⟩ := step_act_cases stepped
  refine ⟨rfl, ?_⟩
  intro i other at_
  rcases update_eq_some at_ with ⟨rfl, rfl⟩ | ⟨-, old⟩
  · refine ⟨op, found, ?_⟩
    cases action with
    | post err len =>
      obtain ⟨pending, rfl⟩ := act_post acted
      exact ⟨rfl, fun _ => pending⟩
    | dequeue =>
      obtain ⟨-, rfl⟩ := act_dequeue acted
      exact ⟨rfl, fun pending => by cases pending⟩
    | storeErr | storeLen | publish | wake =>
      obtain ⟨stage, stage', woken, -, rfl⟩ := act_completes rfl acted
      exact ⟨rfl, fun pending => by cases pending⟩
    | release =>
      obtain ⟨-, rfl⟩ := act_release acted
      exact ⟨rfl, fun pending => by cases pending⟩
    | _ => cases apart
  · exact ⟨other, old, rfl, id⟩

theorem completes_not_ofTask {action : Action} (completes : action.completes = true) : action.ofTask = false := by
  cases action <;> first | rfl | cases completes

theorem alive_kept {io io' : Port} {event : Event} (alive : io.dropper = .alive) (running : event ≠ .beginDrop)
    (h : Iocp.step io event = some io') : io'.dropper = .alive := by
  cases event with
  | arrive =>
    cases h
    exact alive
  | dequeue | deliver | endBatch =>
    simp only [Iocp.step] at h
    split at h
    · split at h <;> cases h <;> exact alive
    · cases h
  | beginDrop => exact (running rfl).elim
  | post | join =>
    simp only [Iocp.step, alive] at h
    cases h
  | fail | beginJoin | close => simp [Iocp.step, alive] at h

section
variable {s : RequestQueue} (ordered : s.Ordered)
include ordered

/-- A step of the kernel or of a completion thread, whatever it does to the port. -/
theorem deliver_ordered {o : Nat} {action : Action} {ops : Overlapped.State} {io : Port} {inHand : Nat → Option Nat}
    (apart : action.ofTask = false) (stepped : s.ops.step (.act o action) = some ops) (fifo : Fifo io)
    (alive : s.io.dropper = .alive → io.dropper = .alive) :
    Ordered { s with ops := ops, io := io, inHand := inHand } := by
  obtain ⟨pool, table⟩ := deliver_frame apart stepped
  refine ⟨fifo, fun early => alive (ordered.alive early), ?_, ?_, fun emptied => pool.trans (ordered.pool emptied)⟩
  · intro late i op' found'
    obtain ⟨op, found, phase, -⟩ := table i op' found'
    rw [phase]
    exact ordered.parked late i op found
  · intro late i op' found' pending
    obtain ⟨op, found, -, before⟩ := table i op' found'
    exact ordered.settled late i op found (before pending)

theorem port_ordered {event : Event} {io : Port} (arrives : ∀ c, event ≠ .arrive c)
    (begins : event = .beginDrop → s.life = .emptied) (stepped : Iocp.step s.io event = some io) :
    Ordered { s with io := io } := by
  have early : Early s.io event := by
    cases event with
    | arrive c => exact (arrives c rfl).elim
    | _ => trivial
  refine ⟨fifo_step ordered.fifo early stepped, ?_, ordered.parked, ordered.settled, ordered.pool⟩
  intro running
  exact alive_kept (ordered.alive running) (fun first => running (begins first)) stepped

theorem moves_ordered {t : RequestQueue} (tallied : s.Tallied) (moves : s.Moves t) : t.Ordered := by
  cases moves with
  | task serving =>
    have not_ : ∀ life : QueueLife, life ≠ .serving → s.life ≠ life := fun life differs same =>
      differs (same.symm.trans serving)
    refine ⟨ordered.fifo, ordered.alive, fun late => (late serving).elim, ?_, ?_⟩
    · rintro (closed | emptied)
      · exact (not_ _ (by simp) closed).elim
      · exact (not_ _ (by simp) emptied).elim
    · intro emptied
      exact (not_ _ (by simp) emptied).elim
  | @post o op err len ops found stepped =>
    -- A packet that is due keeps `HttpCloseRequestQueue` from returning, so the drop of the port has not begun.
    have running : s.life ≠ .emptied := by
      intro emptied
      obtain ⟨op', after, cell, found', acted, -⟩ := step_act_cases stepped
      exact ordered.settled (Or.inr emptied) o op' found' (act_post acted).1
    have alive := ordered.alive running
    exact deliver_ordered ordered rfl stepped (fifo_arrive ordered.fifo alive) (fun _ => alive)
  | take batch idle found ordinary names stepped => exact deliver_ordered ordered rfl stepped ordered.fifo id
  | complete inHand completes stepped =>
    exact deliver_ordered ordered (completes_not_ofTask completes) stepped ordered.fifo id
  | @release i o ops io inHand stepped delivered =>
    have early : Early s.io (.deliver i) := trivial
    exact deliver_ordered ordered rfl stepped (fifo_step ordered.fifo early delivered)
      (fun alive => alive_kept alive (by simp) delivered)
  | sentinel batch shutdown delivered =>
    exact port_ordered ordered (by simp) (fun first => by cases first) delivered
  | @port event io allowed stepped =>
    refine port_ordered ordered ?_ ?_ stepped
    · rintro c rfl
      cases allowed
    · rintro rfl
      exact beq_iff_eq.mp allowed
  | closeQueue serving parked =>
    refine ⟨ordered.fifo, fun _ => ordered.alive (by simp [serving]), ?_, ?_, fun emptied => by cases emptied⟩
    · intro _
      exact (every_iff tallied.safe).mp parked
    · rintro (closed | emptied)
      · cases closed
      · cases emptied
  | closeReturns closing settled =>
    refine ⟨ordered.fifo, fun _ => ordered.alive (by simp [closing]), ?_, ?_, fun emptied => by cases emptied⟩
    · intro _
      exact ordered.parked (by simp [closing])
    · intro _ o op found
      simpa using (every_iff tallied.safe).mp settled o op found
  | dropPool closed =>
    refine ⟨ordered.fifo, fun running => (running rfl).elim, ?_, ?_, fun _ => rfl⟩
    · intro _
      exact ordered.parked (by simp [closed])
    · intro _
      exact ordered.settled (Or.inl closed)

end

theorem new_ordered (handle : QueueHandle) (skip : Bool) (ioThreads concurrency : Nat) :
    (new handle skip ioThreads concurrency).Ordered := by
  refine ⟨new_fifo ioThreads [], fun _ => rfl, fun late => (late rfl).elim, ?_, fun emptied => by cases emptied⟩
  rintro (closed | emptied)
  · cases closed
  · cases emptied

theorem run_ordered {handle : QueueHandle} {skip : Bool} {ioThreads concurrency : Nat} {steps : List QueueStep}
    {s : RequestQueue} (h : run step (new handle skip ioThreads concurrency) steps = some s) :
    s.Tallied ∧ s.Ordered := by
  refine run_invariant (P := fun s => s.Tallied ∧ s.Ordered) ?_ ⟨new_tallied .., new_ordered ..⟩ h
  rintro s e t ⟨tallied, ordered⟩ taken
  exact ⟨moves_tallied tallied (step_moves taken), moves_ordered ordered tallied (step_moves taken)⟩

theorem parked_submitted {op : Op} (sane : op.Sane) (parked : op.phase.parked = true) : op.packet ≠ .leaked := by
  intro leaked
  have untaken : op.packet.taken = 0 := by
    rw [leaked]
    rfl
  cases phase : op.phase with
  | awaiting =>
    have matched := sane.phase
    rw [phase] at matched
    have accepted := matched.2
    rw [leaked] at accepted
    cases accepted
  | returned result =>
    have taken := taken_of_ended sane (by rw [phase]; rfl)
    omega
  | dropped =>
    have taken := taken_of_ended sane (by rw [phase]; rfl)
    omega
  | _ =>
    rw [phase] at parked
    cases parked

/-- A packet that is neither due nor on the port has been delivered or taken back. -/
theorem packet_over {s : RequestQueue} (tallied : s.Tallied) (ordered : s.Ordered) (closed : s.io.dropper = .closed)
    {o : Nat} {op : Op} (found : s.ops.ops o = some op) : op.packet = .released ∨ op.packet = .reclaimed := by
  have emptied : s.life = .emptied := by
    by_contra running
    rw [ordered.alive running] at closed
    cases closed
  have due := ordered.settled (Or.inr emptied) o op found
  have parked := ordered.parked (by simp [emptied]) o op found
  obtain ⟨sentinels, gone⟩ := fifo_closed ordered.fifo closed
  have offPort : op.packet.ported = false := by
    by_contra ported
    have counted := entries_count_of_ported tallied found (by simpa using ported)
    have ordinary := (packet s.handle op.address op.outcome.len).property
    rw [entries, List.count_append, ← inBags, closed_bags gone, Nat.add_zero] at counted
    have member := List.count_pos_iff.mp (counted ▸ Nat.one_pos)
    rw [sentinels _ member] at ordinary
    cases ordinary
  cases packet : op.packet with
  | released => exact Or.inl rfl
  | reclaimed => exact Or.inr rfl
  | leaked => exact (parked_submitted (tallied.safe.sane o op found) parked packet).elim
  | pending => exact (due packet).elim
  | posted | held =>
    rw [packet] at offPort
    cases offPort

/-- When the port of a dropped queue is closed, no packet is left on it or in the hands of a thread, and every
reference that an operation gave to the kernel has been taken back. The wraps that are still allocated are those of
futures that were forgotten while they waited, each with the two references of its future. -/
theorem drop_frees_every_wrap (handle : QueueHandle) (skip : Bool) (ioThreads concurrency : Nat)
    (steps : List QueueStep) (s : RequestQueue) (h : run step (new handle skip ioThreads concurrency) steps = some s)
    (closed : s.io.dropper = .closed) :
    (∀ e ∈ s.entries, e.isShutdown = true) ∧
    (∀ o op, s.ops.ops o = some op → op.packet.outstanding = false ∧ op.reclaims = 1) ∧
    (∀ o op, s.ops.ops o = some op → op.phase = .awaiting → (s.ops.heap op.address).strong = 2) ∧
    (∀ address, (∀ o op, s.ops.ops o = some op → op.phase = .awaiting → op.address ≠ address) →
      (s.ops.heap address).strong = 0) := by
  obtain ⟨tallied, ordered⟩ := run_ordered h
  have emptied : s.life = .emptied := by
    by_contra running
    rw [ordered.alive running] at closed
    cases closed
  have ended : ∀ o op, s.ops.ops o = some op → op.packet = .released ∨ op.packet = .reclaimed :=
    fun o op found => packet_over tallied ordered closed found
  have noRefs : ∀ o op, s.ops.ops o = some op → op.packet.refs = 0 := by
    intro o op found
    rcases ended o op found with released | reclaimed
    · rw [released]
      rfl
    · rw [reclaimed]
      rfl
  refine ⟨?_, ?_, ?_, ?_⟩
  · obtain ⟨sentinels, gone⟩ := fifo_closed ordered.fifo closed
    intro e member
    rcases List.mem_append.mp member with queued | batched
    · exact sentinels e queued
    · obtain ⟨thread, inside, held⟩ := List.mem_flatMap.mp batched
      rw [gone thread inside] at held
      cases held
  · intro o op found
    rw [(tallied.safe.sane o op found).reclaims]
    rcases ended o op found with released | reclaimed
    · rw [released]
      exact ⟨rfl, rfl⟩
    · rw [reclaimed]
      exact ⟨rfl, rfl⟩
  · intro o op found awaiting
    have refs : op.refs = 2 := by
      rw [Op.refs, awaiting, noRefs o op found]
      rfl
    rw [(tallied.safe.holds o op found (by omega)).strong, refs]
  · intro address forgotten
    apply tallied.tight
    · rw [ordered.pool emptied]
      exact List.not_mem_nil
    · intro o op found busy
      apply forgotten o op found
      have parked := ordered.parked (by simp [emptied]) o op found
      rw [Op.refs, noRefs o op found] at busy
      cases phase : op.phase with
      | awaiting => rfl
      | returned | dropped =>
        rw [phase] at busy
        cases busy
      | _ =>
        rw [phase] at parked
        cases parked

/-- A send that completes, and a receive whose future is forgotten and that the close of the queue cancels. -/
def sendAndForget : List QueueStep :=
  [.newOp, .task 0 (.submit errorIoPending 0), .task 0 .finish, .newOp, .task 1 (.submit 0 9), .task 1 .finish,
    .giveBack 1, .closeQueue, .post 0 errorOperationAborted 0, .closeReturns, .dropPool, .port .beginDrop, .port .post,
    .port (.dequeue 0 2), .take 0 0, .complete 0 .storeErr, .complete 0 .storeLen, .complete 0 .publish,
    .complete 0 .wake, .release 0, .sentinel 0, .port (.endBatch 0), .port .beginJoin, .port .join, .port .close]

theorem send_and_forget_frees_every_wrap : ∃ s, run step (new ⟨8, by decide⟩ true 1 4) sendAndForget = some s ∧
    s.io.dropper = .closed ∧ (s.ops.heap 0).strong = 2 ∧
    ∀ address, (∀ o op, s.ops.ops o = some op → op.phase = .awaiting → op.address ≠ address) →
      (s.ops.heap address).strong = 0 := by
  have ended : (run step (new ⟨8, by decide⟩ true 1 4) sendAndForget).map (fun s => s.io.dropper) = some .closed := by
    decide +kernel
  have first : ((run step (new ⟨8, by decide⟩ true 1 4) sendAndForget).bind fun s => s.ops.ops 0).map
      (fun op => (op.address, op.phase.parked, op.phase.refs)) = some (0, true, 2) := by decide +kernel
  obtain ⟨s, ran, closed⟩ := Option.map_eq_some_iff.mp ended
  rw [ran] at first
  obtain ⟨op, found, fields⟩ := Option.map_eq_some_iff.mp first
  obtain ⟨address, fields⟩ := Prod.mk.inj fields
  obtain ⟨parked, refs⟩ := Prod.mk.inj fields
  have awaiting : op.phase = .awaiting := by
    cases phase : op.phase with
    | awaiting => rfl
    | returned | dropped =>
      rw [phase] at refs
      cases refs
    | _ =>
      rw [phase] at parked
      cases parked
  obtain ⟨-, -, forgotten, freed⟩ := drop_frees_every_wrap ⟨8, by decide⟩ true 1 4 sendAndForget s ran closed
  refine ⟨s, ran, closed, ?_, freed⟩
  rw [← address]
  exact forgotten 0 op found awaiting

end RequestQueue
end HttpSys
