import HttpSys.Queue.Running
import HttpSys.Overlapped.Freed
import HttpSys.Iocp.Draining

/-! The packets on the port and the operations they belong to. `deliver_completion` turns the pointer
of an entry back into a reference without looking at anything else, so every entry has to name one
operation that still has a reference out for it. -/
namespace HttpSys
open Lib.Machine Lib.Tickets Overlapped Iocp

/-- The packet is on the port or in the hands of a completion thread. -/
def Overlapped.Packet.ported : Packet → Bool
  | .posted | .held _ => true
  | _ => false

def Overlapped.Label.quiet : Label → Bool
  | .act _ action => action.ofTask
  | _ => true

/-! ### What a step of an operation does to its packet -/

section
variable {op op' : Op} {cell cell' : Cell} {action : Action}

theorem act_ofTask (sane : op.Sane) (ofTask : action.ofTask = true) (h : op.act cell action = some (op', cell'))
    (ported : op.packet.ported = true ∨ op'.packet.ported = true) :
    op'.packet = op.packet ∧ op'.outcome = op.outcome := by
  cases action with
  | post | dequeue | storeErr | storeLen | publish | wake | release => cases ofTask
  | submit ec reported =>
    simp only [Op.act, Op.submit] at h
    split at h
    · rename_i created
      have leaked : op.packet = .leaked := by simpa [Op.Matches, created] using sane.phase
      cases h
      rw [leaked] at ported
      dsimp only at ported
      split at ported <;> simp [Packet.ported] at ported
    · cases h
  | write bytes inner =>
    simp only [Op.act, Op.kernelStep] at h
    split at h
    · cases h
      exact ⟨rfl, rfl⟩
    · cases h
  | finish =>
    simp only [Op.act, Op.finish, Op.reclaim] at h
    have takeBack : op.packet.ported = true ∨ op.packet.takeBack.ported = true → op.packet.takeBack = op.packet := by
      cases op.packet <;> simp [Packet.ported, Packet.takeBack]
    split at h
    · split at h
      · cases h
        exact ⟨takeBack ported, rfl⟩
      · split at h
        · cases h
          exact ⟨rfl, rfl⟩
        · cases h
          exact ⟨takeBack ported, rfl⟩
    · cases h
  | poll | recheck | dropFuture | cancel | unblock | abandon | leave =>
    simp only [Op.act, Op.futureStep] at h
    split at h <;> (try split at h) <;> cases h <;> exact ⟨rfl, rfl⟩

theorem act_post {err len : UInt32} (h : op.act cell (.post err len) = some (op', cell')) :
    op.packet = .pending ∧ op' = { op with packet := .posted, outcome := { op.outcome with err := err, len := len } } := by
  simp only [Op.act, Op.kernelStep] at h
  split at h
  · rename_i pending
    cases h
    exact ⟨pending, rfl⟩
  · cases h

theorem act_dequeue (h : op.act cell .dequeue = some (op', cell')) :
    op.packet = .posted ∧ op' = { op with packet := .held .taken, reclaims := op.reclaims + 1 } := by
  simp only [Op.act, Op.deliverStep] at h
  split at h
  · rename_i posted
    cases h
    exact ⟨posted, rfl⟩
  · cases h

theorem act_completes (completes : action.completes = true) (h : op.act cell action = some (op', cell')) :
    ∃ stage stage' woken, op.packet = .held stage ∧ op' = { op with packet := .held stage', woken := woken } := by
  cases action with
  | storeErr | storeLen | publish | wake =>
    simp only [Op.act, Op.deliverStep] at h
    split at h
    · rename_i held
      cases h
      exact ⟨_, _, _, held, rfl⟩
    · cases h
  | _ => cases completes

theorem act_release (h : op.act cell .release = some (op', cell')) :
    op.packet = .held .woken ∧ op' = { op with packet := .released } := by
  simp only [Op.act, Op.deliverStep] at h
  split at h
  · rename_i woken
    cases h
    exact ⟨woken, rfl⟩
  · cases h

theorem step_act_cases {s t : Overlapped.State} {o : Nat} (h : s.step (.act o action) = some t) :
    ∃ op op' cell, s.ops o = some op ∧ op.act (s.heap op.address) action = some (op', cell) ∧
      t = { s with heap := Function.update s.heap op.address cell, ops := Function.update s.ops o (some op') } := by
  simp only [State.step] at h
  split at h
  · cases h
  · rename_i op found
    obtain ⟨⟨op', cell⟩, acted, rfl⟩ := Option.map_eq_some_iff.mp h
    exact ⟨op, op', cell, found, acted, rfl⟩

end

namespace RequestQueue

/-- Everything a step can do. -/
inductive Moves (s : RequestQueue) : RequestQueue → Prop where
  | task {label ops} (serving : s.life = .serving) (quiet : label.quiet = true)
      (stepped : s.ops.step label = some ops) : Moves s { s with ops := ops }
  | post {o op err len ops} (found : s.ops.ops o = some op)
      (stepped : s.ops.step (.act o (.post err len)) = some ops) :
      Moves s { s with ops := ops, io := { s.io with queue := s.io.queue ++ [(packet s.handle op.address len).val] } }
  | take {i o op entry rest stop ops} (batch : s.io.threads[i]? = some (.delivering (entry :: rest) stop))
      (idle : s.inHand i = none) (found : s.ops.ops o = some op) (ordinary : entry.isShutdown = false)
      (names : entry.lpOverlapped = op.address) (stepped : s.ops.step (.act o .dequeue) = some ops) :
      Moves s { s with ops := ops, inHand := Function.update s.inHand i (some o) }
  | complete {i o action ops} (busy : s.inHand i = some o) (completes : action.completes = true)
      (stepped : s.ops.step (.act o action) = some ops) : Moves s { s with ops := ops }
  | release {i o ops io} (busy : s.inHand i = some o) (stepped : s.ops.step (.act o .release) = some ops)
      (delivered : Iocp.step s.io (.deliver i) = some io) :
      Moves s { s with ops := ops, io := io, inHand := Function.update s.inHand i none }
  | sentinel {i entry rest stop io} (batch : s.io.threads[i]? = some (.delivering (entry :: rest) stop))
      (shutdown : entry.isShutdown = true) (delivered : Iocp.step s.io (.deliver i) = some io) :
      Moves s { s with io := io }
  | port {e io} (allowed : s.life.allows e = true) (stepped : Iocp.step s.io e = some io) : Moves s { s with io := io }
  | closeQueue (serving : s.life = .serving) (parked : s.every (·.phase.parked) = true) :
      Moves s { s with life := .closing }
  | closeReturns (closing : s.life = .closing) (settled : s.every (·.packet != .pending) = true) :
      Moves s { s with life := .closed }
  | dropPool (closed : s.life = .closed) : Moves s { s with life := .emptied, ops := s.ops.dropPool }

theorem act_eq_some {s t : RequestQueue} {o : Nat} {action : Action} (h : s.act o action = some t) :
    ∃ ops, s.ops.step (.act o action) = some ops ∧ t = { s with ops := ops } := by
  obtain ⟨ops, stepped, rfl⟩ := Option.map_eq_some_iff.mp h
  exact ⟨ops, stepped, rfl⟩

theorem take_cases {s t : RequestQueue} {i o : Nat} (h : s.step (.take i o) = some t) : ∃ op entry rest stop ops,
    s.io.threads[i]? = some (.delivering (entry :: rest) stop) ∧ s.inHand i = none ∧ s.ops.ops o = some op ∧
    entry.isShutdown = false ∧ entry.lpOverlapped = op.address ∧ s.ops.step (.act o .dequeue) = some ops ∧
    t = { s with ops := ops, inHand := Function.update s.inHand i (some o) } := by
  simp only [step] at h
  split at h
  · rename_i entry rest stop op batch idle found
    split at h
    · rename_i guard
      obtain ⟨m, acted, rfl⟩ := Option.map_eq_some_iff.mp h
      obtain ⟨ops, stepped, rfl⟩ := act_eq_some acted
      exact ⟨op, entry, rest, stop, ops, batch, idle, found, guard.1, guard.2, stepped, rfl⟩
    · cases h
  · cases h

theorem step_moves {s t : RequestQueue} {e : QueueStep} (h : s.step e = some t) : s.Moves t := by
  cases e with
  | newOp =>
    simp only [step] at h
    split at h
    · rename_i serving
      obtain ⟨ops, stepped, rfl⟩ := Option.map_eq_some_iff.mp h
      exact .task serving rfl stepped
    · cases h
  | task o action =>
    simp only [step] at h
    split at h
    · rename_i guard
      have quiet : Label.quiet (.act o action) = true := guard.2
      obtain ⟨ops, stepped, rfl⟩ := act_eq_some h
      exact .task guard.1 quiet stepped
    · cases h
  | giveBack o =>
    simp only [step] at h
    split at h
    · rename_i serving
      obtain ⟨ops, stepped, rfl⟩ := Option.map_eq_some_iff.mp h
      exact .task serving rfl stepped
    · cases h
  | post o err len =>
    simp only [step] at h
    split at h
    · cases h
    · rename_i op found
      split at h
      · rename_i m io acted arrived
        cases h
        cases arrived
        obtain ⟨ops, stepped, rfl⟩ := act_eq_some acted
        exact .post found stepped
      · cases h
  | take i o =>
    obtain ⟨op, entry, rest, stop, ops, batch, idle, found, ordinary, names, stepped, rfl⟩ := take_cases h
    exact .take batch idle found ordinary names stepped
  | complete i action =>
    simp only [step] at h
    split at h
    · cases h
    · rename_i o busy
      split at h
      · rename_i completes
        obtain ⟨ops, stepped, rfl⟩ := act_eq_some h
        exact .complete busy completes stepped
      · cases h
  | release i =>
    simp only [step] at h
    split at h
    · cases h
    · rename_i o busy
      split at h
      · rename_i m io acted delivered
        cases h
        obtain ⟨ops, stepped, rfl⟩ := act_eq_some acted
        exact .release busy stepped delivered
      · cases h
  | sentinel i =>
    simp only [step] at h
    split at h
    · rename_i entry rest stop batch
      split at h
      · rename_i shutdown
        obtain ⟨io, delivered, rfl⟩ := Option.map_eq_some_iff.mp h
        exact .sentinel batch shutdown delivered
      · cases h
    · cases h
  | port e =>
    simp only [step] at h
    split at h
    · rename_i allowed
      obtain ⟨io, stepped, rfl⟩ := Option.map_eq_some_iff.mp h
      exact .port allowed stepped
    · cases h
  | closeQueue =>
    simp only [step] at h
    obtain ⟨guard, rfl⟩ := of_guard h
    exact .closeQueue guard.1 guard.2
  | closeReturns =>
    simp only [step] at h
    obtain ⟨guard, rfl⟩ := of_guard h
    exact .closeReturns guard.1 guard.2
  | dropPool =>
    simp only [step] at h
    obtain ⟨closed, rfl⟩ := of_guard h
    exact .dropPool closed

/-! ### Entries and operations, ticket for ticket -/

/-- The entry that is out for an operation. -/
def ticket (handle : QueueHandle) (op : Op) : Option Entry :=
  if op.packet.ported then some (packet handle op.address op.outcome.len).val else none

structure Tallied (s : RequestQueue) : Prop where
  safe : s.ops.Safe
  tight : s.ops.Tight
  tickets : ∀ e : Entry, e.isShutdown = false →
    s.io.queue.count e + inBags Thread.rest s.io.threads e = holders (ticket s.handle) s.ops.ops s.ops.opened e
  busy : ∀ i o, s.inHand i = some o → ∃ op stage rest stop, s.ops.ops o = some op ∧ op.packet = .held stage ∧
    s.io.threads[i]? = some (.delivering ((packet s.handle op.address op.outcome.len).val :: rest) stop)
  held : ∀ o op stage, s.ops.ops o = some op → op.packet = .held stage → ∃ i, s.inHand i = some o

theorem ticket_of_ported {handle : QueueHandle} {op : Op} (ported : op.packet.ported = true) :
    ticket handle op = some (packet handle op.address op.outcome.len).val := if_pos ported

theorem ticket_eq_some {handle : QueueHandle} {op : Op} {e : Entry} (out : ticket handle op = some e) :
    op.packet.ported = true ∧ e = (packet handle op.address op.outcome.len).val := by
  unfold ticket at out
  obtain ⟨ported, same⟩ := of_guard out
  exact ⟨ported, same.symm⟩

theorem ported_busy {op : Op} (ported : op.packet.ported = true) : 0 < op.refs := by
  have one : op.packet.refs = 1 := by
    cases found : op.packet <;> rw [found] at ported <;> first | rfl | cases ported
  rw [Op.refs, one]
  omega

/-- Operations that have a packet out have different wraps. -/
theorem ticket_unique {s : Overlapped.State} (safe : s.Safe) {handle : QueueHandle} {e : Entry} {o o' : Nat} {op op' : Op}
    (found : s.ops o = some op) (found' : s.ops o' = some op') (out : ticket handle op = some e)
    (out' : ticket handle op' = some e) : o = o' := by
  obtain ⟨ported, rfl⟩ := ticket_eq_some out
  obtain ⟨ported', same⟩ := ticket_eq_some out'
  apply safe.apart o o' op op' found found' (ported_busy ported) (ported_busy ported')
  exact congrArg Entry.lpOverlapped same

theorem holders_ticket_le_one {s : Overlapped.State} (safe : s.Safe) (handle : QueueHandle) (e : Entry) :
    holders (ticket handle) s.ops s.opened e ≤ 1 :=
  holders_le_one fun _ _ _ _ found found' out out' => ticket_unique safe found found' out out'

/-- A step of a task opens an operation that has no packet out yet, or leaves the packet of one alone. -/
theorem quiet_effect {s ops : Overlapped.State} {label : Label} (safe : s.Safe) (quiet : label.quiet = true)
    (stepped : s.step label = some ops) : ∃ o op', ops.ops = Function.update s.ops o (some op') ∧
      ((o = s.opened ∧ ops.opened = s.opened + 1 ∧ op'.packet.ported = false) ∨
        ∃ op, s.ops o = some op ∧ ops.opened = s.opened ∧ op'.address = op.address ∧
          (op.packet.ported = true ∨ op'.packet.ported = true → op'.packet = op.packet ∧ op'.outcome = op.outcome)) := by
  cases label with
  | new skip =>
    cases stepped
    unfold State.openOp State.take
    cases s.free with
    | cons => exact ⟨_, _, rfl, Or.inl ⟨rfl, rfl, rfl⟩⟩
    | nil => exact ⟨_, _, rfl, Or.inl ⟨rfl, rfl, rfl⟩⟩
  | act o action =>
    obtain ⟨op, op', cell, found, acted, rfl⟩ := step_act_cases stepped
    have sane := safe.sane o op found
    have kept := act_kept sane (safe.holds o op found (act_busy acted)) acted
    exact ⟨o, op', rfl, Or.inr ⟨op, found, rfl, kept.address, act_ofTask sane quiet acted⟩⟩
  | giveBack o =>
    simp only [State.step] at stepped
    split at stepped
    · cases stepped
    · rename_i op found
      split at stepped
      · rename_i result settled
        cases stepped
        have opened : (s.giveBack op.address).opened = s.opened := by
          unfold State.giveBack
          dsimp only
          split
          · split <;> rfl
          · rfl
        exact ⟨o, _, rfl, Or.inr ⟨op, found, opened, rfl, fun _ => ⟨rfl, rfl⟩⟩⟩
      · cases stepped

section
variable {s ops : Overlapped.State} (safe : s.Safe) {handle : QueueHandle}
include safe

/-- An operation changes and keeps its ticket. -/
theorem holders_keep {o : Nat} {op op' : Op} (found : s.ops o = some op) (same : ticket handle op' = ticket handle op)
    (e : Entry) : holders (ticket handle) (Function.update s.ops o (some op')) s.opened e =
      holders (ticket handle) s.ops s.opened e := by
  have moved := holders_update (ticket handle) op' e (safe.opened o op found) found
  rw [same] at moved
  omega

theorem quiet_holders {label : Label} (quiet : label.quiet = true) (stepped : s.step label = some ops) (e : Entry) :
    holders (ticket handle) ops.ops ops.opened e = holders (ticket handle) s.ops s.opened e := by
  obtain ⟨o, op', table, ⟨rfl, opened, fresh⟩ | ⟨op, found, opened, address, kept⟩⟩ := quiet_effect safe quiet stepped
  · have none_ : ticket handle op' = none := if_neg (by rw [fresh]; exact Bool.false_ne_true)
    rw [table, opened, holders_succ, Function.update_self, Option.bind_some, none_, if_neg (by simp)]
    apply holders_congr
    intro i below
    rw [Function.update_of_ne (Nat.ne_of_lt below)]
  · rw [table, opened]
    apply holders_keep safe found
    by_cases ported : op.packet.ported = true ∨ op'.packet.ported = true
    · obtain ⟨packet, outcome⟩ := kept ported
      simp only [ticket, packet, outcome, address]
    · obtain ⟨before, after⟩ := not_or.mp ported
      simp only [ticket, if_neg before, if_neg after]

theorem quiet_held {label : Label} (quiet : label.quiet = true) (stepped : s.step label = some ops) {o : Nat} {op : Op}
    {stage : Stage} (found : s.ops o = some op) (held : op.packet = .held stage) :
    ∃ op', ops.ops o = some op' ∧ op'.packet = .held stage ∧ op'.address = op.address ∧ op'.outcome = op.outcome := by
  obtain ⟨i, op', table, effect⟩ := quiet_effect safe quiet stepped
  rw [table]
  by_cases same : o = i
  · subst same
    rcases effect with ⟨rfl, -, -⟩ | ⟨op₀, found₀, -, address, kept⟩
    · exact absurd (safe.opened _ op found) (Nat.lt_irrefl _)
    · obtain rfl : op = op₀ := Option.some.inj (found.symm.trans found₀)
      obtain ⟨packet, outcome⟩ := kept (Or.inl (by rw [held]; rfl))
      exact ⟨op', Function.update_self .., packet.trans held, address, outcome⟩
  · exact ⟨op, (Function.update_of_ne same ..).trans found, held, rfl, rfl⟩

theorem quiet_held_before {label : Label} (quiet : label.quiet = true) (stepped : s.step label = some ops) {o : Nat}
    {op' : Op} {stage : Stage} (found : ops.ops o = some op') (held : op'.packet = .held stage) :
    ∃ op, s.ops o = some op ∧ op.packet = .held stage := by
  obtain ⟨i, new, table, effect⟩ := quiet_effect safe quiet stepped
  rw [table] at found
  rcases update_eq_some found with ⟨rfl, rfl⟩ | ⟨-, old⟩
  · rcases effect with ⟨-, -, fresh⟩ | ⟨op, found₀, -, -, kept⟩
    · rw [held] at fresh
      cases fresh
    · obtain ⟨packet, -⟩ := kept (Or.inr (by rw [held]; rfl))
      exact ⟨op, found₀, packet.symm.trans held⟩
  · exact ⟨op', old, held⟩

end

theorem own_of_allows {life : QueueLife} {event : Event} {io : Port} (allowed : life.allows event = true) :
    event.Own io := by
  cases event <;> trivial

/-! ### Every step keeps the tally -/

section
variable {s : RequestQueue} (tallied : s.Tallied)
include tallied

theorem task_tallied {label : Label} {ops : Overlapped.State} (quiet : label.quiet = true)
    (stepped : s.ops.step label = some ops) : Tallied { s with ops := ops } := by
  obtain ⟨safe, tight, tickets, busy, held⟩ := tallied
  refine ⟨step_safe _ _ _ safe stepped, step_tight safe tight stepped, ?_, ?_, ?_⟩
  · intro e ordinary
    dsimp only
    rw [quiet_holders safe quiet stepped]
    exact tickets e ordinary
  · intro i o inHand
    obtain ⟨op, stage, rest, stop, found, stored, batch⟩ := busy i o inHand
    obtain ⟨op', found', stored', address, outcome⟩ := quiet_held safe quiet stepped found stored
    refine ⟨op', stage, rest, stop, found', stored', ?_⟩
    rw [address, outcome]
    exact batch
  · intro o op' stage found' stored'
    obtain ⟨op, found, stored⟩ := quiet_held_before safe quiet stepped found' stored'
    exact held o op stage found stored

/-- The entry at the head of a batch is the ticket of an operation. -/
theorem entry_named {i : Nat} {entry : Entry} {rest : List Entry} {stop : Bool}
    (batch : s.io.threads[i]? = some (.delivering (entry :: rest) stop)) (ordinary : entry.isShutdown = false) :
    ∃ o op, s.ops.ops o = some op ∧ ticket s.handle op = some entry := by
  have inside := inBags_ge Thread.rest entry batch
  simp only [Thread.rest, List.count_cons_self] at inside
  have tally := tallied.tickets entry ordinary
  have some_ : 0 < holders (ticket s.handle) s.ops.ops s.ops.opened entry := by omega
  obtain ⟨o, op, -, found, out⟩ := exists_of_holders some_
  exact ⟨o, op, found, out⟩

/-- No two threads have the entry of one operation. -/
theorem entry_alone {i j : Nat} {entry : Entry} {rest rest' : List Entry} {stop stop' : Bool}
    (batch : s.io.threads[i]? = some (.delivering (entry :: rest) stop)) (ordinary : entry.isShutdown = false)
    (batch' : s.io.threads[j]? = some (.delivering (entry :: rest') stop')) : i = j := by
  by_contra apart
  have twice : 2 ≤ inBags Thread.rest s.io.threads entry :=
    inBags_two apart batch batch' List.mem_cons_self List.mem_cons_self
  have tally := tallied.tickets entry ordinary
  have single := holders_ticket_le_one tallied.safe s.handle entry
  omega

theorem busy_alone {i j o : Nat} (first : s.inHand i = some o) (second : s.inHand j = some o) : i = j := by
  obtain ⟨op, -, rest, stop, found, -, batch⟩ := tallied.busy i o first
  obtain ⟨op', -, rest', stop', found', -, batch'⟩ := tallied.busy j o second
  obtain rfl : op = op' := Option.some.inj (found.symm.trans found')
  exact entry_alone tallied batch (packet ..).property batch'

theorem post_tallied {o : Nat} {op : Op} {err len : UInt32} {ops : Overlapped.State} (found : s.ops.ops o = some op)
    (stepped : s.ops.step (.act o (.post err len)) = some ops) :
    Tallied { s with ops := ops, io := { s.io with queue := s.io.queue ++ [(packet s.handle op.address len).val] } } := by
  have safe' := step_safe _ _ _ tallied.safe stepped
  have tight' := step_tight tallied.safe tallied.tight stepped
  obtain ⟨op₀, op', cell, found₀, acted, rfl⟩ := step_act_cases stepped
  obtain rfl : op = op₀ := Option.some.inj (found.symm.trans found₀)
  obtain ⟨pending, shape⟩ := act_post acted
  refine ⟨safe', tight', ?_, ?_, ?_⟩
  · intro e ordinary
    have before : ticket s.handle op = none := if_neg (by simp [pending, Packet.ported])
    have after : ticket s.handle op' = some (packet s.handle op.address len).val := by
      rw [shape]
      rfl
    have moved := holders_update (ticket s.handle) op' e (tallied.safe.opened o op found) found
    have tally := tallied.tickets e ordinary
    rw [before, after, if_neg (by simp)] at moved
    simp only [Option.some.injEq] at moved
    simp only [List.count_append, List.count_singleton, beq_iff_eq]
    omega
  · intro i o' inHand
    obtain ⟨other, stage, rest, stop, found', stored, batch⟩ := tallied.busy i o' inHand
    have differs : o' ≠ o := by
      rintro rfl
      obtain rfl : op = other := Option.some.inj (found.symm.trans found')
      rw [pending] at stored
      cases stored
    exact ⟨other, stage, rest, stop, (Function.update_of_ne differs ..).trans found', stored, batch⟩
  · intro o' other stage found' stored
    rcases update_eq_some found' with ⟨-, rfl⟩ | ⟨-, old⟩
    · rw [shape] at stored
      cases stored
    · exact tallied.held o' other stage old stored

theorem take_tallied {i o : Nat} {op : Op} {entry : Entry} {rest : List Entry} {stop : Bool} {ops : Overlapped.State}
    (batch : s.io.threads[i]? = some (.delivering (entry :: rest) stop)) (idle : s.inHand i = none)
    (found : s.ops.ops o = some op) (ordinary : entry.isShutdown = false) (names : entry.lpOverlapped = op.address)
    (stepped : s.ops.step (.act o .dequeue) = some ops) :
    Tallied { s with ops := ops, inHand := Function.update s.inHand i (some o) } := by
  have safe' := step_safe _ _ _ tallied.safe stepped
  have tight' := step_tight tallied.safe tallied.tight stepped
  obtain ⟨op₀, op', cell, found₀, acted, rfl⟩ := step_act_cases stepped
  obtain rfl : op = op₀ := Option.some.inj (found.symm.trans found₀)
  obtain ⟨posted, shape⟩ := act_dequeue acted
  have ported : op.packet.ported = true := by
    rw [posted]
    rfl
  have kept : ticket s.handle op' = ticket s.handle op := by
    rw [ticket_of_ported ported, shape]
    rfl
  -- Among the operations that have a packet out the address tells which one it is.
  have own : entry = (packet s.handle op.address op.outcome.len).val := by
    obtain ⟨o', owner, found', out⟩ := entry_named tallied batch ordinary
    obtain ⟨ported', rfl⟩ := ticket_eq_some out
    have same := tallied.safe.apart o' o owner op found' found (ported_busy ported') (ported_busy ported) names
    subst same
    obtain rfl : op = owner := Option.some.inj (found.symm.trans found')
    rfl
  refine ⟨safe', tight', ?_, ?_, ?_⟩
  · intro e ordinary
    dsimp only
    rw [holders_keep tallied.safe found kept]
    exact tallied.tickets e ordinary
  · intro j o' inHand
    by_cases here : j = i
    · subst here
      obtain rfl : o = o' := by simpa using inHand
      refine ⟨op', .taken, rest, stop, Function.update_self .., by rw [shape], ?_⟩
      rw [shape]
      rw [own] at batch
      exact batch
    · have before : s.inHand j = some o' := by simpa [Function.update_of_ne here] using inHand
      obtain ⟨other, stage, rest', stop', found', stored, batch'⟩ := tallied.busy j o' before
      have differs : o' ≠ o := by
        rintro rfl
        obtain rfl : op = other := Option.some.inj (found.symm.trans found')
        rw [posted] at stored
        cases stored
      exact ⟨other, stage, rest', stop', (Function.update_of_ne differs ..).trans found', stored, batch'⟩
  · intro o' other stage found' stored
    rcases update_eq_some found' with ⟨rfl, -⟩ | ⟨-, old⟩
    · exact ⟨i, Function.update_self ..⟩
    · obtain ⟨j, inHand⟩ := tallied.held o' other stage old stored
      have differs : j ≠ i := by
        rintro rfl
        rw [idle] at inHand
        cases inHand
      exact ⟨j, (Function.update_of_ne differs ..).trans inHand⟩

theorem complete_tallied {i o : Nat} {action : Action} {ops : Overlapped.State} (inHand : s.inHand i = some o)
    (completes : action.completes = true) (stepped : s.ops.step (.act o action) = some ops) :
    Tallied { s with ops := ops } := by
  have safe' := step_safe _ _ _ tallied.safe stepped
  have tight' := step_tight tallied.safe tallied.tight stepped
  obtain ⟨op, op', cell, found, acted, rfl⟩ := step_act_cases stepped
  obtain ⟨stage, stage', woken, held, shape⟩ := act_completes completes acted
  have ported : op.packet.ported = true := by
    rw [held]
    rfl
  have kept : ticket s.handle op' = ticket s.handle op := by
    rw [ticket_of_ported ported, shape]
    rfl
  refine ⟨safe', tight', ?_, ?_, ?_⟩
  · intro e ordinary
    dsimp only
    rw [holders_keep tallied.safe found kept]
    exact tallied.tickets e ordinary
  · intro j o' busy
    obtain ⟨other, stage₁, rest, stop, found', stored, batch⟩ := tallied.busy j o' busy
    by_cases same : o' = o
    · subst same
      obtain rfl : op = other := Option.some.inj (found.symm.trans found')
      refine ⟨op', stage', rest, stop, Function.update_self .., by rw [shape], ?_⟩
      rw [shape]
      exact batch
    · exact ⟨other, stage₁, rest, stop, (Function.update_of_ne same ..).trans found', stored, batch⟩
  · intro o' other stage₁ found' stored
    rcases update_eq_some found' with ⟨rfl, -⟩ | ⟨-, old⟩
    · exact ⟨i, inHand⟩
    · exact tallied.held o' other stage₁ old stored

theorem release_tallied {i o : Nat} {ops : Overlapped.State} {io : Port} (inHand : s.inHand i = some o)
    (stepped : s.ops.step (.act o .release) = some ops) (delivered : Iocp.step s.io (.deliver i) = some io) :
    Tallied { s with ops := ops, io := io, inHand := Function.update s.inHand i none } := by
  have safe' := step_safe _ _ _ tallied.safe stepped
  have tight' := step_tight tallied.safe tallied.tight stepped
  obtain ⟨op, op', cell, found, acted, rfl⟩ := step_act_cases stepped
  obtain ⟨woken, shape⟩ := act_release acted
  obtain ⟨op₀, stage, rest, stop, found₀, -, batch⟩ := tallied.busy i o inHand
  obtain rfl : op = op₀ := Option.some.inj (found.symm.trans found₀)
  have ordinary := (packet s.handle op.address op.outcome.len).property
  simp only [Iocp.step, batch, ordinary] at delivered
  cases delivered
  refine ⟨safe', tight', ?_, ?_, ?_⟩
  · intro e ordinary'
    have before : ticket s.handle op = some (packet s.handle op.address op.outcome.len).val :=
      ticket_of_ported (by rw [woken]; rfl)
    have after : ticket s.handle op' = none := by
      rw [shape]
      rfl
    have moved := holders_update (ticket s.handle) op' e (tallied.safe.opened o op found) found
    have handed := inBags_set Thread.rest (.delivering rest stop) e batch
    have tally := tallied.tickets e ordinary'
    rw [before, after] at moved
    simp only [Option.some.injEq, reduceCtorEq, if_false] at moved
    simp only [Thread.rest, List.count_cons, beq_iff_eq] at handed
    dsimp only
    omega
  · intro j o' busy
    have apart : j ≠ i := by
      rintro rfl
      simp at busy
    have before : s.inHand j = some o' := by simpa [Function.update_of_ne apart] using busy
    obtain ⟨other, stage', rest', stop', found', stored, batch'⟩ := tallied.busy j o' before
    have differs : o' ≠ o := by
      rintro rfl
      exact apart (busy_alone tallied before inHand)
    refine ⟨other, stage', rest', stop', (Function.update_of_ne differs ..).trans found', stored, ?_⟩
    dsimp only
    rw [List.getElem?_set_ne (Ne.symm apart)]
    exact batch'
  · intro o' other stage' found' stored
    rcases update_eq_some found' with ⟨-, rfl⟩ | ⟨differs, old⟩
    · rw [shape] at stored
      cases stored
    · obtain ⟨j, busy⟩ := tallied.held o' other stage' old stored
      have apart : j ≠ i := by
        rintro rfl
        exact differs (Option.some.inj (busy.symm.trans inHand))
      exact ⟨j, (Function.update_of_ne apart ..).trans busy⟩

theorem port_tallied {event : Event} {io : Port} (own : event.Own s.io) (stepped : Iocp.step s.io event = some io) :
    Tallied { s with io := io } := by
  have keeps := own_step_keeps own stepped
  refine ⟨tallied.safe, tallied.tight, ?_, ?_, tallied.held⟩
  · intro e ordinary
    exact (keeps.entries e ordinary).trans (tallied.tickets e ordinary)
  · intro i o inHand
    obtain ⟨op, stage, rest, stop, found, held, batch⟩ := tallied.busy i o inHand
    exact ⟨op, stage, rest, stop, found, held, keeps.batches i _ rest stop (packet ..).property batch⟩

theorem dropPool_tallied : Tallied { s with life := .emptied, ops := s.ops.dropPool } := by
  obtain ⟨safe, tight, tickets, busy, held⟩ := tallied
  refine ⟨?_, ?_, tickets, busy, held⟩
  · refine ⟨safe.sane, ?_, safe.apart, fun _ _ _ _ => List.not_mem_nil, safe.allocated, safe.opened, ?_, List.nodup_nil⟩
    · intro o op found active
      show op.Holds (if op.address ∈ s.ops.free then {} else s.ops.heap op.address)
      rw [if_neg (safe.unpooled o op found active)]
      exact safe.holds o op found active
    · intro a member
      cases member
  · intro a _ unowned
    show (if a ∈ s.ops.free then ({} : Cell) else s.ops.heap a).strong = 0
    split
    · rfl
    · rename_i outside
      exact tight a outside unowned

theorem moves_tallied {t : RequestQueue} (moves : s.Moves t) : t.Tallied := by
  cases moves with
  | task _ quiet stepped => exact task_tallied tallied quiet stepped
  | post found stepped => exact post_tallied tallied found stepped
  | take batch idle found ordinary names stepped => exact take_tallied tallied batch idle found ordinary names stepped
  | complete inHand completes stepped => exact complete_tallied tallied inHand completes stepped
  | release inHand stepped delivered => exact release_tallied tallied inHand stepped delivered
  | sentinel batch shutdown delivered =>
    have own : (Event.deliver _).Own s.io := ⟨_, _, _, batch, shutdown⟩
    exact port_tallied tallied own delivered
  | port allowed stepped => exact port_tallied tallied (own_of_allows allowed) stepped
  | closeQueue | closeReturns =>
    exact ⟨tallied.safe, tallied.tight, tallied.tickets, tallied.busy, tallied.held⟩
  | dropPool => exact dropPool_tallied tallied

end

theorem new_tallied (handle : QueueHandle) (skip : Bool) (ioThreads concurrency : Nat) :
    (new handle skip ioThreads concurrency).Tallied := by
  refine ⟨init_safe _, init_tight _, ?_, ?_, ?_⟩
  · intro e _
    have idle : inBags Thread.rest (List.replicate (max ioThreads 1) .waiting) e = 0 := by
      simp [inBags, Thread.rest, List.flatMap_replicate]
    simp [new, Port.new, idle, holders, State.init]
  · intro i o inHand
    cases inHand
  · intro o op stage found
    cases found

theorem run_tallied {handle : QueueHandle} {skip : Bool} {ioThreads concurrency : Nat} {steps : List QueueStep}
    {s : RequestQueue} (h : run step (new handle skip ioThreads concurrency) steps = some s) : s.Tallied :=
  run_invariant (fun _ _ _ tallied taken => moves_tallied tallied (step_moves taken)) (new_tallied ..) h

theorem run_handle {handle : QueueHandle} {skip : Bool} {ioThreads concurrency : Nat} {steps : List QueueStep}
    {s : RequestQueue} (h : run step (new handle skip ioThreads concurrency) steps = some s) : s.handle = handle := by
  refine run_invariant (P := fun s => s.handle = handle) ?_ rfl h
  intro s e t same taken
  cases step_moves taken <;> exact same

/-- Entries that lie on the port or in the batch of a thread. -/
def entries (s : RequestQueue) : List Entry := s.io.queue ++ s.io.threads.flatMap Thread.rest

section
variable {s : RequestQueue} (tallied : s.Tallied)
include tallied

theorem entries_count {e : Entry} (ordinary : e.isShutdown = false) :
    s.entries.count e = holders (ticket s.handle) s.ops.ops s.ops.opened e := by
  rw [entries, List.count_append]
  exact tallied.tickets e ordinary

theorem entries_count_of_ported {o : Nat} {op : Op} (found : s.ops.ops o = some op) (ported : op.packet.ported = true) :
    s.entries.count (packet s.handle op.address op.outcome.len).val = 1 := by
  have counted := entries_count tallied (packet s.handle op.address op.outcome.len).property
  have single := holders_ticket_le_one tallied.safe s.handle (packet s.handle op.address op.outcome.len).val
  have out : ticket s.handle op = some (packet s.handle op.address op.outcome.len).val := ticket_of_ported ported
  have some_ := holders_pos (tallied.safe.opened o op found) found out
  omega

theorem owner_of_entry {e : Entry} (member : e ∈ s.entries) (ordinary : e.isShutdown = false) :
    ∃! o, ∃ op, s.ops.ops o = some op ∧ op.packet.ported = true ∧
      e = (packet s.handle op.address op.outcome.len).val := by
  have some_ := List.count_pos_iff.mpr member
  rw [entries_count tallied ordinary] at some_
  obtain ⟨o, op, -, found, out⟩ := exists_of_holders some_
  refine ⟨o, ⟨op, found, ticket_eq_some out⟩, ?_⟩
  rintro o' ⟨op', found', ported', rfl⟩
  exact ticket_unique tallied.safe found' found (ticket_of_ported ported') out

/-- The head of the batch of a thread that has nothing in hand has not been taken by anybody. -/
theorem head_posted {i o : Nat} {op : Op} {entry : Entry} {rest : List Entry} {stop : Bool}
    (batch : s.io.threads[i]? = some (.delivering (entry :: rest) stop)) (ordinary : entry.isShutdown = false)
    (idle : s.inHand i = none) (found : s.ops.ops o = some op) (ported : op.packet.ported = true)
    (own : entry = (packet s.handle op.address op.outcome.len).val) : op.packet = .posted := by
  cases packet : op.packet with
  | posted => rfl
  | held stage =>
    obtain ⟨j, busy⟩ := tallied.held o op stage found packet
    obtain ⟨op', -, rest', stop', found', -, batch'⟩ := tallied.busy j o busy
    obtain rfl : op = op' := Option.some.inj (found.symm.trans found')
    rw [← own] at batch'
    obtain rfl := entry_alone tallied batch ordinary batch'
    rw [idle] at busy
    cases busy
  | _ =>
    rw [packet] at ported
    cases ported

/-- The entry at the head of a batch can be turned back into the reference of one operation, and of no other. -/
theorem take_unique {i : Nat} {entry : Entry} {rest : List Entry} {stop : Bool}
    (batch : s.io.threads[i]? = some (.delivering (entry :: rest) stop)) (ordinary : entry.isShutdown = false)
    (idle : s.inHand i = none) : ∃! o, ∃ t, s.step (.take i o) = some t := by
  have member : entry ∈ s.entries := by
    apply List.mem_append_right
    exact List.mem_flatMap.mpr ⟨_, List.mem_of_getElem? batch, List.mem_cons_self⟩
  obtain ⟨o, ⟨op, found, ported, own⟩, only⟩ := owner_of_entry tallied member ordinary
  have posted := head_posted tallied batch ordinary idle found ported own
  have names : entry.lpOverlapped = op.address := congrArg Entry.lpOverlapped own
  refine ⟨o, ?_, ?_⟩
  · simp [step, batch, idle, found, ordinary, names, act, State.step, Op.act, Op.deliverStep, posted]
  · rintro o' ⟨t, taken⟩
    obtain ⟨op', entry', rest', stop', ops, batch', -, found', -, names', stepped, -⟩ := take_cases taken
    obtain ⟨op₀, after, cell, found₀, acted, -⟩ := step_act_cases stepped
    obtain rfl : op' = op₀ := Option.some.inj (found'.symm.trans found₀)
    have ported' : op'.packet.ported = true := by
      rw [(act_dequeue acted).1]
      rfl
    rw [batch] at batch'
    cases batch'
    exact tallied.safe.apart o' o op' op found' found (ported_busy ported') (ported_busy ported) (names'.symm.trans names)

theorem busy_proceeds {i o : Nat} (busy : s.inHand i = some o) :
    (∃ action t, s.step (.complete i action) = some t) ∨ ∃ t, s.step (.release i) = some t := by
  obtain ⟨op, stage, rest, stop, found, held, batch⟩ := tallied.busy i o busy
  by_cases last : stage = .woken
  · have ordinary := (packet s.handle op.address op.outcome.len).property
    right
    simp [step, busy, act, State.step, found, Op.act, Op.deliverStep, held, last, Iocp.step, batch, ordinary]
  · have next : ∃ action : Action, action.completes = true ∧
        ∃ after, op.act (s.ops.heap op.address) action = some after := by
      cases stage with
      | taken => exact ⟨.storeErr, rfl, by simp [Op.act, Op.deliverStep, held]⟩
      | errStored => exact ⟨.storeLen, rfl, by simp [Op.act, Op.deliverStep, held]⟩
      | lenStored => exact ⟨.publish, rfl, by simp [Op.act, Op.deliverStep, held]⟩
      | published => exact ⟨.wake, rfl, by simp [Op.act, Op.deliverStep, held]⟩
      | woken => exact (last rfl).elim
    obtain ⟨action, completes, after, acted⟩ := next
    left
    refine ⟨action, ?_⟩
    simp [step, busy, completes, act, State.step, found, acted]

end

/-- In every state of a queue, an entry on its port or in the batch of a completion thread carries the handle, the
wrap and the byte count of exactly one operation, that operation has its reference out, and no entry is there twice.
So `deliver_completion` can turn the pointer of an entry back into a reference, in one way, and goes on to the end. -/
theorem entries_belong_to_ops (handle : QueueHandle) (skip : Bool) (ioThreads concurrency : Nat)
    (steps : List QueueStep) (s : RequestQueue) (h : run step (new handle skip ioThreads concurrency) steps = some s) :
    (∀ e ∈ s.entries, e.isShutdown = false → ∃! o, ∃ op, s.ops.ops o = some op ∧ op.packet.ported = true ∧
      e = (packet handle op.address op.outcome.len).val) ∧
    (∀ o op, s.ops.ops o = some op → op.packet.ported = true →
      s.entries.count (packet handle op.address op.outcome.len).val = 1 ∧ 0 < (s.ops.heap op.address).strong) ∧
    (∀ (i : Nat) entry rest stop, s.io.threads[i]? = some (.delivering (entry :: rest) stop) →
      entry.isShutdown = false → s.inHand i = none → ∃! o, ∃ t, s.step (.take i o) = some t) ∧
    (∀ i o, s.inHand i = some o →
      (∃ action t, s.step (.complete i action) = some t) ∨ ∃ t, s.step (.release i) = some t) := by
  have tallied := run_tallied h
  obtain rfl := run_handle h
  refine ⟨fun e => owner_of_entry tallied, ?_, fun i entry rest stop => take_unique tallied, fun i o => busy_proceeds tallied⟩
  intro o op found ported
  refine ⟨entries_count_of_ported tallied found ported, ?_⟩
  have busy := ported_busy ported
  rw [(tallied.safe.holds o op found busy).strong]
  exact busy

/-- Two receives that the kernel completes in the other order. -/
def twoReceives : List QueueStep :=
  [.newOp, .task 0 (.submit errorIoPending 0), .task 0 .finish, .newOp, .task 1 (.submit errorIoPending 0), .task 1 .finish,
    .post 1 0 7, .post 0 0 5, .port (.dequeue 0 2)]

theorem two_receives_belong_to_ops : ∃ s, run step (new ⟨8, by decide⟩ true 2 4) twoReceives = some s ∧
    ∃! o, ∃ t, s.step (.take 0 o) = some t := by
  have batch : (run step (new ⟨8, by decide⟩ true 2 4) twoReceives).map (fun s => (s.io.threads[0]?, s.inHand 0)) =
      some (some (.delivering [⟨8, 1, 7⟩, ⟨8, 0, 5⟩] false), none) := by decide +kernel
  obtain ⟨s, ran, both⟩ := Option.map_eq_some_iff.mp batch
  obtain ⟨thread, idle⟩ := Prod.mk.inj both
  exact ⟨s, ran, (entries_belong_to_ops ⟨8, by decide⟩ true 2 4 twoReceives s ran).2.2.1 0 _ _ _ thread rfl idle⟩

end RequestQueue
end HttpSys
