import HttpSys.Iocp.Shutdown

/-! `RequestQueue::new` down to its completion threads. The thread that runs it acquires a queue
handle, a port and one completion thread after another, and any of these may fail; the threads it
has spawned run from then on, also while `IoPort::drop` waits for them. -/
namespace HttpSys
open Lib.Machine Iocp

/-- The call that fails. -/
inductive Fault where
  | createQueue
  | createPort
  | spawn (i : Nat)
  | associate
  deriving DecidableEq

inductive QueueCall where
  | openQueue
  | closeQueue
  | openPort
  | closePort
  | spawn (i : Nat)
  | stop
  | join (i : Nat)
  deriving DecidableEq

/-- `spawning` is the loop of `IoPort::new`, `unwinding` the drop of the port that an early return
causes. -/
inductive Progress where
  | start
  | queueOpen
  | spawning
  | associating
  | unwinding
  | failed
  | built
  deriving DecidableEq

structure Construction where
  progress : Progress := .start
  port : Port := { queue := [], threads := [] }
  trace : List QueueCall := []

namespace Construction

/-- The next access of `IoPort::drop`; a `join` is not enabled before its thread has returned. -/
def unwind (s : Construction) : Option Construction :=
  match s.port.dropper with
  | .alive => (Iocp.step s.port .beginDrop).map fun port => { s with port := port }
  | .posting (_ + 1) =>
    (Iocp.step s.port .post).map fun port => { s with port := port, trace := s.trace ++ [.stop] }
  | .posting 0 => (Iocp.step s.port .beginJoin).map fun port => { s with port := port }
  | .joining i =>
    if i < s.port.threads.length then
      (Iocp.step s.port .join).map fun port => { s with port := port, trace := s.trace ++ [.join i] }
    else
      (Iocp.step s.port .close).map fun port =>
        { s with port := port, trace := s.trace ++ [.closePort], progress := .failed }
  | .closed => none

/-- The constructing thread, with `io_threads` and the call that fails, if any. -/
def advance (ioThreads : Nat) (fault : Option Fault) (s : Construction) : Option Construction :=
  match s.progress with
  | .start =>
    some (if fault = some .createQueue then { s with progress := .failed }
      else { s with progress := .queueOpen, trace := s.trace ++ [.openQueue] })
  | .queueOpen =>
    -- The handle is a plain value here and nothing closes it.
    some (if fault = some .createPort then { s with progress := .failed }
      else { s with progress := .spawning, trace := s.trace ++ [.openPort] })
  | .spawning =>
    let i := s.port.threads.length
    some (if i < max ioThreads 1 then
        if fault = some (.spawn i) then { s with progress := .unwinding }
        else
          { s with
            port := { s.port with threads := s.port.threads ++ [.waiting] }
            trace := s.trace ++ [.spawn i] }
      else { s with progress := .associating })
  | .associating =>
    some (if fault = some .associate then { s with progress := .unwinding, trace := s.trace ++ [.closeQueue] }
      else { s with progress := .built })
  | .unwinding => s.unwind
  | .failed => none
  | .built => none

inductive Move where
  | advance
  | thread (e : Event)

/-- Of the events of a port only those of its threads: the others are steps of `IoPort::drop`, and
no operation has been issued on the queue whose packet could arrive. -/
def threadStep (s : Construction) (e : Event) : Option Construction :=
  match e with
  | .dequeue .. | .fail .. | .deliver .. | .endBatch .. => (Iocp.step s.port e).map fun port => { s with port := port }
  | _ => none

def step (ioThreads : Nat) (fault : Option Fault) (s : Construction) : Move → Option Construction
  | .advance => s.advance ioThreads fault
  | .thread e => s.threadStep e

/-! ### What is left behind -/

def isSpawn : QueueCall → Bool
  | .spawn _ => true
  | _ => false

/-- Every object that was acquired has been released once: the handle and the port are closed, and
every thread was told to stop and joined before the port was closed. -/
structure LeavesNothing (trace : List QueueCall) : Prop where
  queue : trace.count .closeQueue = if .openQueue ∈ trace then 1 else 0
  port : trace.count .closePort = if .openPort ∈ trace then 1 else 0
  stops : trace.count .stop = trace.countP isSpawn
  joins : ∀ i, trace.count (.join i) = if .spawn i ∈ trace then 1 else 0
  stopsFirst : ¬ [QueueCall.closePort, .stop].Sublist trace
  joinsFirst : ∀ i, ¬ [QueueCall.closePort, .join i].Sublist trace

theorem threadStep_frame {s t : Construction} {e : Event} (h : s.threadStep e = some t) :
    ∃ port, Iocp.step s.port e = some port ∧ t = { s with port := port } ∧ port.dropper = s.port.dropper ∧
      port.posted = s.port.posted := by
  have stepped : ∃ port, Iocp.step s.port e = some port ∧ { s with port := port } = t := by
    unfold threadStep at h
    split at h
    all_goals first | exact Option.map_eq_some_iff.mp h | cases h
  obtain ⟨port, moved, rfl⟩ := stepped
  refine ⟨port, moved, rfl, ?_⟩
  cases e with
  | dequeue i removed =>
    simp only [Iocp.step] at moved
    split at moved
    · obtain ⟨-, rfl⟩ := of_guard moved
      exact ⟨rfl, rfl⟩
    · cases moved
  | fail i =>
    obtain ⟨-, rfl⟩ := of_guard moved
    exact ⟨rfl, rfl⟩
  | deliver i =>
    simp only [Iocp.step] at moved
    split at moved
    · split at moved <;> obtain rfl := Option.some.inj moved <;> exact ⟨rfl, rfl⟩
    · cases moved
  | endBatch i =>
    simp only [Iocp.step] at moved
    split at moved
    · obtain rfl := Option.some.inj moved
      exact ⟨rfl, rfl⟩
    · cases moved
  | _ => cases h

/-! ### What the trace says at every point -/

def acquisitions (threads : Nat) : List QueueCall := [.openQueue, .openPort] ++ (List.range threads).map QueueCall.spawn

/-- What `IoPort::drop` has done so far. -/
def dropCalls (port : Port) : List QueueCall :=
  match port.dropper with
  | .alive => []
  | .posting _ => List.replicate port.posted .stop
  | .joining i => List.replicate port.posted .stop ++ (List.range i).map QueueCall.join
  | .closed =>
    List.replicate port.posted .stop ++ (List.range port.threads.length).map QueueCall.join ++ [.closePort]

/-- Only the branch for a failed `associate` closes the handle. -/
def handleCalls (fault : Option Fault) : List QueueCall := if fault = some .associate then [.closeQueue] else []

def UnwindsFrom (fault : Option Fault) : Prop := fault = some .associate ∨ ∃ i, fault = some (.spawn i)

def Traced (fault : Option Fault) (s : Construction) : Prop :=
  match s.progress with
  | .start => s.trace = [] ∧ s.port.threads.length = 0 ∧ s.port.dropper = .alive
  | .queueOpen => s.trace = [.openQueue] ∧ s.port.threads.length = 0 ∧ s.port.dropper = .alive
  | .spawning | .associating => s.trace = acquisitions s.port.threads.length ∧ s.port.dropper = .alive
  | .unwinding =>
    UnwindsFrom fault ∧ s.trace = acquisitions s.port.threads.length ++ handleCalls fault ++ dropCalls s.port
  | .failed =>
    (fault = some .createQueue ∧ s.trace = [] ∧ s.port.threads.length = 0) ∨
    (fault = some .createPort ∧ s.trace = [.openQueue] ∧ s.port.threads.length = 0) ∨
    (UnwindsFrom fault ∧ s.port.dropper = .closed ∧
      s.trace = acquisitions s.port.threads.length ++ handleCalls fault ++ dropCalls s.port)
  | .built => True

theorem dropCalls_frame {port next : Port} (dropper : next.dropper = port.dropper) (posted : next.posted = port.posted)
    (length : next.threads.length = port.threads.length) : dropCalls next = dropCalls port := by
  unfold dropCalls
  rw [dropper, posted, length]

theorem threadStep_traced {fault : Option Fault} {s t : Construction} {e : Event} (traced : s.Traced fault)
    (h : s.threadStep e = some t) : t.Traced fault := by
  obtain ⟨port, moved, rfl, dropper, posted⟩ := threadStep_frame h
  have length := Iocp.step_threads_length moved
  have calls := dropCalls_frame dropper posted length
  unfold Traced at traced ⊢
  rw [dropper, length, calls]
  exact traced

theorem acquisitions_succ (threads : Nat) : acquisitions (threads + 1) = acquisitions threads ++ [.spawn threads] := by
  simp [acquisitions, List.range_succ]

/-- One access of `IoPort::drop`: what it adds to the trace, and that only the last one ends it. -/
theorem unwind_cases {s t : Construction} (counted : Counted s.port) (h : s.unwind = some t) :
    Counted t.port ∧ t.port.threads.length = s.port.threads.length ∧
    ∃ calls, t.trace = s.trace ++ calls ∧ dropCalls t.port = dropCalls s.port ++ calls ∧
      (t.progress = s.progress ∨ t.progress = .failed ∧ t.port.dropper = .closed) := by
  unfold unwind at h
  split at h
  · rename_i alive
    obtain ⟨port, moved, rfl⟩ := Option.map_eq_some_iff.mp h
    refine ⟨counted_step counted moved, Iocp.step_threads_length moved, [], (List.append_nil _).symm, ?_, Or.inl rfl⟩
    obtain ⟨-, rfl⟩ := of_guard moved
    have none_ : s.port.posted = 0 := by simpa only [Counted, alive] using counted
    simp [dropCalls, alive, none_]
  · rename_i left posting
    obtain ⟨port, moved, rfl⟩ := Option.map_eq_some_iff.mp h
    refine ⟨counted_step counted moved, Iocp.step_threads_length moved, [.stop], rfl, ?_, Or.inl rfl⟩
    simp only [Iocp.step, posting, Option.some.injEq] at moved
    obtain rfl := moved
    simp [dropCalls, posting, List.replicate_succ']
  · rename_i posting
    obtain ⟨port, moved, rfl⟩ := Option.map_eq_some_iff.mp h
    refine ⟨counted_step counted moved, Iocp.step_threads_length moved, [], (List.append_nil _).symm, ?_, Or.inl rfl⟩
    obtain ⟨-, rfl⟩ := of_guard moved
    simp [dropCalls, posting]
  · rename_i i joining
    split at h
    · obtain ⟨port, moved, rfl⟩ := Option.map_eq_some_iff.mp h
      refine ⟨counted_step counted moved, Iocp.step_threads_length moved, [.join i], rfl, ?_, Or.inl rfl⟩
      simp only [Iocp.step, joining] at moved
      obtain ⟨-, rfl⟩ := of_guard moved
      simp [dropCalls, joining, List.range_succ]
    · obtain ⟨port, moved, rfl⟩ := Option.map_eq_some_iff.mp h
      refine ⟨counted_step counted moved, Iocp.step_threads_length moved, [.closePort], rfl, ?_, Or.inr ⟨rfl, ?_⟩⟩
      · obtain ⟨all, rfl⟩ := of_guard moved
        simp [dropCalls, all]
      · obtain ⟨-, rfl⟩ := of_guard moved
        rfl
  · cases h

theorem dropCalls_alive {port : Port} (alive : port.dropper = .alive) : dropCalls port = [] := by
  rw [dropCalls, alive]

theorem spawn_traced {fault : Option Fault} {s : Construction} (counted : Counted s.port)
    (spawning : s.progress = .spawning) (trace : s.trace = acquisitions s.port.threads.length) (alive : s.port.dropper = .alive) :
    let port := { s.port with threads := s.port.threads ++ [.waiting] }
    Counted port ∧ Traced fault { s with port := port, trace := s.trace ++ [.spawn s.port.threads.length] } := by
  have none_ : s.port.posted = 0 := by simpa only [Counted, alive] using counted
  have grown : s.trace ++ [.spawn s.port.threads.length] =
      acquisitions (s.port.threads ++ [Thread.waiting]).length := by
    rw [List.length_append, List.length_singleton, acquisitions_succ, trace]
  simp only [Counted, Traced, alive, spawning]
  exact ⟨none_, grown, trivial⟩

theorem unwind_traced {fault : Option Fault} {s t : Construction} (counted : Counted s.port) (traced : s.Traced fault)
    (unwinding : s.progress = .unwinding) (h : s.unwind = some t) : Counted t.port ∧ t.Traced fault := by
  unfold Traced at traced
  rw [unwinding] at traced
  obtain ⟨origin, trace⟩ := traced
  obtain ⟨kept, length, calls, added, dropped, ended⟩ := unwind_cases counted h
  have whole : t.trace = acquisitions t.port.threads.length ++ handleCalls fault ++ dropCalls t.port := by
    rw [added, trace, length, dropped, List.append_assoc]
  refine ⟨kept, ?_⟩
  unfold Traced
  rcases ended with same | ⟨failed, closed⟩
  · rw [same, unwinding]
    exact ⟨origin, whole⟩
  · rw [failed]
    exact Or.inr (Or.inr ⟨origin, closed, whole⟩)

theorem advance_traced {ioThreads : Nat} {fault : Option Fault} {s t : Construction} (counted : Counted s.port)
    (traced : s.Traced fault) (h : s.advance ioThreads fault = some t) : Counted t.port ∧ t.Traced fault := by
  have now := traced
  unfold advance at h
  unfold Traced at now
  split at h
  · rename_i start
    rw [start] at now
    obtain ⟨trace, none_, alive⟩ := now
    obtain rfl := Option.some.inj h
    split
    · rename_i fails
      exact ⟨counted, Or.inl ⟨fails, trace, none_⟩⟩
    · refine ⟨counted, ?_, none_, alive⟩
      show s.trace ++ [.openQueue] = [.openQueue]
      rw [trace]
      rfl
  · rename_i queueOpen
    rw [queueOpen] at now
    obtain ⟨trace, none_, alive⟩ := now
    obtain rfl := Option.some.inj h
    split
    · rename_i fails
      exact ⟨counted, Or.inr (Or.inl ⟨fails, trace, none_⟩)⟩
    · refine ⟨counted, ?_, alive⟩
      show s.trace ++ [.openPort] = acquisitions s.port.threads.length
      rw [trace, none_]
      rfl
  · rename_i spawning
    rw [spawning] at now
    obtain ⟨trace, alive⟩ := now
    obtain rfl := Option.some.inj h
    split
    · split
      · rename_i fails
        have other : fault ≠ some .associate := by rw [fails]; nofun
        refine ⟨counted, Or.inr ⟨_, fails⟩, ?_⟩
        show s.trace = acquisitions s.port.threads.length ++ handleCalls fault ++ dropCalls s.port
        rw [trace, handleCalls, if_neg other, dropCalls_alive alive, List.append_nil, List.append_nil]
      · exact spawn_traced counted spawning trace alive
    · exact ⟨counted, trace, alive⟩
  · rename_i associating
    rw [associating] at now
    obtain ⟨trace, alive⟩ := now
    obtain rfl := Option.some.inj h
    split
    · rename_i fails
      refine ⟨counted, Or.inl fails, ?_⟩
      show s.trace ++ [.closeQueue] = acquisitions s.port.threads.length ++ handleCalls fault ++ dropCalls s.port
      rw [trace, handleCalls, if_pos fails, dropCalls_alive alive, List.append_nil]
    · exact ⟨counted, trivial⟩
  · rename_i unwinding
    exact unwind_traced counted traced unwinding h
  · cases h
  · cases h

theorem run_traced {ioThreads : Nat} {fault : Option Fault} {moves : List Move} {s : Construction}
    (h : run (step ioThreads fault) {} moves = some s) : Counted s.port ∧ s.Traced fault := by
  apply run_invariant (P := fun s : Construction => Counted s.port ∧ s.Traced fault) _ _ h
  · rintro s move t ⟨counted, traced⟩ stepped
    cases move with
    | advance => exact advance_traced counted traced stepped
    | thread e =>
      obtain ⟨port, moved, rfl, -⟩ := threadStep_frame stepped
      exact ⟨counted_step counted moved, threadStep_traced traced stepped⟩
  · exact ⟨rfl, rfl, rfl, rfl⟩

/-! ### What a failed construction leaves -/

/-- Nothing comes after a call that is only made last. -/
theorem not_after_last {calls : List QueueCall} {last call : QueueCall} (once : last ∉ calls) :
    ¬ [last, call].Sublist (calls ++ [last]) := by
  intro sub
  obtain ⟨before, after, split, left, right⟩ := List.sublist_append_iff.mp sub
  cases before with
  | nil =>
    rw [List.nil_append] at split
    rw [← split] at right
    have short : 2 ≤ 1 := right.length_le
    omega
  | cons head rest =>
    obtain ⟨rfl, -⟩ := List.cons.inj split
    exact once (left.subset List.mem_cons_self)

/-- The calls of an unwinding, up to the one that closes the port. -/
def unwindCalls (fault : Option Fault) (threads : Nat) : List QueueCall :=
  acquisitions threads ++ handleCalls fault ++ (List.replicate threads .stop ++ (List.range threads).map QueueCall.join)

section
variable (fault : Option Fault) (threads : Nat)

theorem unwindCalls_closePort : .closePort ∉ unwindCalls fault threads := by
  simp [unwindCalls, acquisitions, handleCalls]

theorem count_join_range (i : Nat) :
    ((List.range threads).map QueueCall.join).count (.join i) = if i < threads then 1 else 0 := by
  induction threads with
  | zero => rfl
  | succ threads ih =>
    rw [List.range_succ, List.map_append, List.count_append, ih, List.map_singleton, List.count_singleton]
    simp only [beq_iff_eq, QueueCall.join.injEq]
    split <;> split <;> split <;> omega

theorem unwindCalls_handle : (unwindCalls fault threads).count .closeQueue = if fault = some .associate then 1 else 0 := by
  have spawns : QueueCall.closeQueue ∉ (List.range threads).map QueueCall.spawn := by simp
  have joins : QueueCall.closeQueue ∉ (List.range threads).map QueueCall.join := by simp
  simp only [unwindCalls, acquisitions, handleCalls, List.count_append, List.count_eq_zero_of_not_mem spawns,
    List.count_eq_zero_of_not_mem joins, List.count_replicate]
  split <;> rfl

theorem unwindCalls_stops : (unwindCalls fault threads).count .stop = threads := by
  have spawns : QueueCall.stop ∉ (List.range threads).map QueueCall.spawn := by simp
  have joins : QueueCall.stop ∉ (List.range threads).map QueueCall.join := by simp
  simp only [unwindCalls, acquisitions, handleCalls, List.count_append, List.count_eq_zero_of_not_mem spawns,
    List.count_eq_zero_of_not_mem joins, List.count_replicate]
  split <;> simp

theorem unwindCalls_spawns : (unwindCalls fault threads).countP isSpawn = threads := by
  have spawns : ((List.range threads).map QueueCall.spawn).countP isSpawn = threads := by
    rw [List.countP_eq_length.mpr (by simp [isSpawn]), List.length_map, List.length_range]
  have joins : ((List.range threads).map QueueCall.join).countP isSpawn = 0 := List.countP_eq_zero.mpr (by simp [isSpawn])
  have handle : (handleCalls fault).countP isSpawn = 0 := by
    unfold handleCalls
    split <;> rfl
  have stops : (List.replicate threads QueueCall.stop).countP isSpawn = 0 := List.countP_eq_zero.mpr (by simp [isSpawn])
  simp only [unwindCalls, acquisitions, List.countP_append, spawns, joins, handle, stops]
  exact Nat.zero_add threads

theorem unwindCalls_joins (i : Nat) : (unwindCalls fault threads).count (.join i) = if i < threads then 1 else 0 := by
  have spawns : QueueCall.join i ∉ (List.range threads).map QueueCall.spawn := by simp
  have handle : QueueCall.join i ∉ handleCalls fault := by simp [handleCalls]
  have stops : QueueCall.join i ∉ List.replicate threads QueueCall.stop := by simp
  have opened : QueueCall.join i ∉ [QueueCall.openQueue, .openPort] := by simp
  simp only [unwindCalls, acquisitions, List.count_append, List.count_eq_zero_of_not_mem spawns,
    List.count_eq_zero_of_not_mem handle, List.count_eq_zero_of_not_mem stops, List.count_eq_zero_of_not_mem opened,
    count_join_range, Nat.zero_add]

theorem mem_unwindCalls (i : Nat) : .spawn i ∈ unwindCalls fault threads ↔ i < threads := by
  simp [unwindCalls, acquisitions, handleCalls]

/-- An unwinding releases the port and its threads; the handle goes only where it is closed by hand. -/
theorem unwound_leaves_nothing_iff :
    LeavesNothing (unwindCalls fault threads ++ [.closePort]) ↔ fault = some .associate := by
  have handle : (unwindCalls fault threads ++ [QueueCall.closePort]).count .closeQueue = if fault = some .associate then 1 else 0 := by
    rw [List.count_append, unwindCalls_handle]
    rfl
  have opened : .openQueue ∈ unwindCalls fault threads ++ [.closePort] := List.mem_cons_self
  constructor
  · intro leaves
    have closed := leaves.queue
    rw [handle, if_pos opened] at closed
    by_contra other
    rw [if_neg other] at closed
    cases closed
  · intro fails
    refine ⟨?_, ?_, ?_, ?_, not_after_last (unwindCalls_closePort fault threads),
      fun i => not_after_last (unwindCalls_closePort fault threads)⟩
    · rw [handle, if_pos fails, if_pos opened]
    · rw [List.count_append, List.count_eq_zero_of_not_mem (unwindCalls_closePort fault threads)]
      exact (if_pos (List.mem_cons_of_mem _ List.mem_cons_self)).symm
    · rw [List.count_append, List.countP_append, unwindCalls_stops, unwindCalls_spawns]
      rfl
    · intro i
      have joined : (unwindCalls fault threads ++ [QueueCall.closePort]).count (.join i) = if i < threads then 1 else 0 := by
        rw [List.count_append, unwindCalls_joins]
        rfl
      simp only [joined, List.mem_append, mem_unwindCalls, List.mem_singleton, reduceCtorEq, or_false]

end

theorem traced_failed {fault : Option Fault} {s : Construction} (counted : Counted s.port) (traced : s.Traced fault)
    (failed : s.progress = .failed) :
    (∀ thread ∈ s.port.threads, thread = .returned) ∧
    ((fault = some .createQueue ∧ s.trace = []) ∨ (fault = some .createPort ∧ s.trace = [.openQueue]) ∨
      (UnwindsFrom fault ∧ s.trace = unwindCalls fault s.port.threads.length ++ [.closePort])) := by
  simp only [Traced, failed] at traced
  rcases traced with ⟨fails, trace, none_⟩ | ⟨fails, trace, none_⟩ | ⟨origin, closed, trace⟩
  · rw [List.length_eq_zero_iff.mp none_]
    exact ⟨nofun, Or.inl ⟨fails, trace⟩⟩
  · rw [List.length_eq_zero_iff.mp none_]
    exact ⟨nofun, Or.inr (Or.inl ⟨fails, trace⟩)⟩
  · simp only [Counted, closed] at counted
    obtain ⟨posted, returned⟩ := counted
    refine ⟨?_, Or.inr (Or.inr ⟨origin, ?_⟩)⟩
    · intro thread member
      obtain ⟨i, bound, rfl⟩ := List.getElem_of_mem member
      exact Option.some.inj ((List.getElem?_eq_getElem bound).symm.trans (returned i bound))
    · simp only [trace, dropCalls, closed, posted, unwindCalls, List.append_assoc]

/-- A failed `RequestQueue::new` has released what it acquired exactly when it is not `IoPort::new`
that failed: then the handle is still open and has no owner. -/
theorem construction_leaves_nothing_iff (ioThreads : Nat) (fault : Option Fault) (moves : List Move) (s : Construction)
    (h : run (step ioThreads fault) {} moves = some s) (failed : s.progress = .failed) :
    (∀ thread ∈ s.port.threads, thread = .returned) ∧
    (LeavesNothing s.trace ↔ fault ≠ some .createPort ∧ ∀ i, fault ≠ some (.spawn i)) := by
  obtain ⟨counted, traced⟩ := run_traced h
  obtain ⟨returned, outcome⟩ := traced_failed counted traced failed
  refine ⟨returned, ?_⟩
  rcases outcome with ⟨rfl, trace⟩ | ⟨rfl, trace⟩ | ⟨origin, trace⟩
  · rw [trace]
    exact ⟨fun _ => ⟨nofun, nofun⟩, fun _ => ⟨rfl, rfl, rfl, fun _ => rfl, nofun, nofun⟩⟩
  · rw [trace]
    refine ⟨fun leaves => ?_, fun other => (other.1 rfl).elim⟩
    have closed := leaves.queue
    cases closed
  · rw [trace, unwound_leaves_nothing_iff]
    rcases origin with rfl | ⟨i, rfl⟩
    · exact ⟨fun _ => ⟨nofun, nofun⟩, fun _ => rfl⟩
    · exact ⟨nofun, fun other => (other.2 i rfl).elim⟩

/-- Both threads are running when `associate` fails, and each of them takes one sentinel. -/
def associateFails : List Move :=
  List.replicate 9 .advance ++
    [.thread (.dequeue 1 1), .thread (.deliver 1), .thread (.endBatch 1), .thread (.dequeue 0 1), .thread (.deliver 0),
      .thread (.endBatch 0)] ++ List.replicate 4 .advance

theorem construction_leaves_nothing_unassociated : ∃ s, run (step 2 (some .associate)) {} associateFails = some s ∧
    s.progress = .failed ∧ (∀ thread ∈ s.port.threads, thread = .returned) ∧ LeavesNothing s.trace := by
  obtain ⟨s, ran, failed⟩ : ∃ s, run (step 2 (some .associate)) {} associateFails = some s ∧ s.progress = .failed :=
    ⟨_, rfl, rfl⟩
  obtain ⟨returned, leaves⟩ := construction_leaves_nothing_iff 2 (some .associate) associateFails s ran failed
  exact ⟨s, ran, failed, returned, leaves.mpr ⟨nofun, nofun⟩⟩

/-- The second of two threads cannot be spawned. -/
def spawnFails : List Move :=
  List.replicate 6 .advance ++
    [.thread (.dequeue 0 1), .thread (.deliver 0), .thread (.endBatch 0)] ++ List.replicate 3 .advance

theorem construction_leaves_queue_open : ¬ ∀ (ioThreads : Nat) (fault : Option Fault) (moves : List Move) (s : Construction),
    run (step ioThreads fault) {} moves = some s → s.progress = .failed → LeavesNothing s.trace := by
  intro leaves
  have nothing := leaves 2 (some (.spawn 1)) spawnFails _ rfl rfl
  exact absurd nothing.queue (by decide)

end Construction
end HttpSys
