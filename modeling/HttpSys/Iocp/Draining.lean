import HttpSys.Iocp.Shutdown
import HttpSys.Lib.Tickets

/-! What becomes of the packets that are queued when `IoPort::drop` begins. The port is first in, first out,
so they lie before the sentinels, and a thread that meets a sentinel finishes its batch before it leaves. -/
namespace HttpSys.Iocp
open Lib.Machine Lib.Tickets

def Thread.rest : Thread → List Entry
  | .delivering rest _ => rest
  | _ => []

/-- The steps in which a port only moves entries: none arrives and none is delivered. -/
def Event.Own (s : Port) : Event → Prop
  | .arrive _ => False
  | .deliver i => ∃ entry rest stop, s.threads[i]? = some (.delivering (entry :: rest) stop) ∧ entry.isShutdown = true
  | _ => True

/-- A thread that is delivering something else is replaced. -/
theorem set_batch {threads : List Thread} {i j : Nat} {old new thread : Thread} (found : threads[i]? = some old)
    (differs : old ≠ thread) (batch : threads[j]? = some thread) : (threads.set i new)[j]? = some thread := by
  have apart : i ≠ j := by
    rintro rfl
    exact differs (Option.some.inj (found.symm.trans batch))
  rw [List.getElem?_set_ne apart, batch]

/-- What a step of its own leaves of the completions on a port, those in the batches included. -/
structure Keeps (s t : Port) : Prop where
  delivered : t.delivered = s.delivered
  entries : ∀ e : Entry, e.isShutdown = false →
    t.queue.count e + inBags Thread.rest t.threads e = s.queue.count e + inBags Thread.rest s.threads e
  batches : ∀ (j : Nat) entry rest stop, entry.isShutdown = false →
    s.threads[j]? = some (.delivering (entry :: rest) stop) → t.threads[j]? = some (.delivering (entry :: rest) stop)

theorem own_step_keeps {s t : Port} {event : Event} (own : event.Own s) (h : step s event = some t) : Keeps s t := by
  cases event with
  | arrive => exact own.elim
  | dequeue i removed =>
    simp only [step] at h
    split at h
    · rename_i waits
      split at h
      · cases h
        refine ⟨rfl, ?_, fun j entry rest stop _ batch => set_batch waits (by simp) batch⟩
        intro e _
        have moved := inBags_set Thread.rest (.delivering (s.queue.take removed) false) e waits
        have split : (s.queue.take removed).count e + (s.queue.drop removed).count e = s.queue.count e := by
          rw [← List.count_append, List.take_append_drop]
        simp only [Thread.rest, List.count_nil] at moved ⊢
        omega
      · cases h
    · cases h
  | fail i =>
    obtain ⟨⟨-, waits⟩, rfl⟩ := of_guard h
    refine ⟨rfl, ?_, fun j entry rest stop _ batch => set_batch waits (by simp) batch⟩
    intro e _
    have moved := inBags_set Thread.rest .returned e waits
    simp only [Thread.rest] at moved ⊢
    omega
  | deliver i =>
    obtain ⟨entry, rest, stop, batch, shutdown⟩ := own
    simp only [step, batch, shutdown, if_true] at h
    cases h
    refine ⟨rfl, ?_, ?_⟩
    · intro e ordinary
      have moved := inBags_set Thread.rest (.delivering rest true) e batch
      have other : entry ≠ e := by
        rintro rfl
        rw [shutdown] at ordinary
        cases ordinary
      simp only [Thread.rest, List.count_cons_of_ne other] at moved ⊢
      omega
    · intro j entry' rest' stop' ordinary batch'
      refine set_batch batch ?_ batch'
      intro same
      cases same
      rw [shutdown] at ordinary
      cases ordinary
  | endBatch i =>
    simp only [step] at h
    split at h
    · rename_i stop batch
      cases h
      refine ⟨rfl, ?_, fun j entry rest stop' _ batch' => set_batch batch (by simp) batch'⟩
      intro e _
      have moved := inBags_set Thread.rest (if stop then .returned else .waiting) e batch
      have empty : Thread.rest (if stop then .returned else .waiting) = [] := by cases stop <;> rfl
      rw [empty] at moved
      simp only [Thread.rest] at moved ⊢
      omega
    · cases h
  | post =>
    simp only [step] at h
    split at h
    · cases h
      refine ⟨rfl, ?_, fun j entry rest stop _ batch => batch⟩
      intro e ordinary
      have other : sentinel ≠ e := by
        rintro rfl
        cases ordinary
      simp [List.count_append, other]
    · cases h
  | beginDrop | beginJoin | close =>
    obtain ⟨-, rfl⟩ := of_guard h
    exact ⟨rfl, fun _ _ => rfl, fun _ _ _ _ _ batch => batch⟩
  | join =>
    simp only [step] at h
    split at h
    · obtain ⟨-, rfl⟩ := of_guard h
      exact ⟨rfl, fun _ _ => rfl, fun _ _ _ _ _ batch => batch⟩
    · cases h

theorem deliver_cases {s t : Port} {i : Nat} (h : step s (.deliver i) = some t) :
    (Event.deliver i).Own s ∨ ∃ entry rest stop, s.threads[i]? = some (.delivering (entry :: rest) stop) ∧
      entry.isShutdown = false ∧
      t = { s with threads := s.threads.set i (.delivering rest stop), delivered := s.delivered ++ [entry] } := by
  simp only [step] at h
  split at h
  · rename_i entry rest stop batch
    split at h
    · rename_i shutdown
      exact Or.inl ⟨entry, rest, stop, batch, shutdown⟩
    · rename_i ordinary
      cases h
      exact Or.inr ⟨entry, rest, stop, batch, by simpa using ordinary, rfl⟩
  · cases h

/-! ### No completion is lost or delivered twice -/

/-- The completions that arrive in a schedule. -/
def arrivals (events : List Event) : List Entry :=
  events.filterMap fun
    | .arrive c => some c.val
    | _ => none

/-- Every copy of an entry there ever was. -/
def Port.copies (s : Port) (e : Entry) : Nat :=
  s.delivered.count e + (s.queue.count e + inBags Thread.rest s.threads e)

theorem step_copies {s t : Port} {event : Event} {e : Entry} (ordinary : e.isShutdown = false)
    (h : step s event = some t) : t.copies e = s.copies e + (arrivals [event]).count e := by
  have own : event.Own s → t.copies e = s.copies e := by
    intro own
    have keeps := own_step_keeps own h
    rw [Port.copies, Port.copies, keeps.delivered, keeps.entries e ordinary]
  cases event with
  | arrive c =>
    cases h
    simp only [Port.copies, arrivals, List.filterMap_cons, List.filterMap_nil, List.count_append]
    omega
  | deliver i =>
    rcases deliver_cases h with internal | ⟨entry, rest, stop, batch, -, rfl⟩
    · exact own internal
    · have moved := inBags_set Thread.rest (.delivering rest stop) e batch
      simp only [Thread.rest, List.count_cons] at moved
      simp only [Port.copies, arrivals, List.filterMap_cons, List.filterMap_nil, List.count_append, List.count_cons,
        List.count_nil]
      omega
  | _ => exact own trivial

theorem run_copies {s t : Port} {events : List Event} {e : Entry} (ordinary : e.isShutdown = false)
    (h : run step s events = some t) : t.copies e = s.copies e + (arrivals events).count e := by
  induction events generalizing s with
  | nil =>
    cases h
    rfl
  | cons event rest ih =>
    obtain ⟨m, first, later⟩ := run_cons.mp h
    have split : arrivals (event :: rest) = arrivals [event] ++ arrivals rest := by
      rw [arrivals, ← List.singleton_append, List.filterMap_append]
      rfl
    rw [ih later, step_copies ordinary first, split, List.count_append]
    omega

/-! ### No completion lies behind a sentinel -/

/-- Nothing arrives any more once the drop has begun. -/
def Early (s : Port) : Event → Prop
  | .arrive _ => s.dropper = .alive
  | _ => True

structure Fifo (s : Port) : Prop where
  counted : Counted s
  threads : 0 < s.threads.length
  sorted : s.queue.Pairwise fun x y => x.isShutdown = true → y.isShutdown = true
  drained : ∀ thread ∈ s.threads, thread.obtained = true → ∀ e ∈ s.queue, e.isShutdown = true
  early : s.dropper = .alive →
    (∀ e ∈ s.queue, e.isShutdown = false) ∧ ∀ thread ∈ s.threads, thread.obtained = false
  plain : ∀ e ∈ s.delivered, e.isShutdown = false

section
variable {s t : Port} (fifo : Fifo s)
include fifo

/-- A thread works off what it has. -/
theorem fifo_set {i : Nat} {old new : Thread} {log : List Entry} (found : s.threads[i]? = some old)
    (live : old ≠ .returned) (same : new.obtained = old.obtained) (plain : ∀ e ∈ log, e.isShutdown = false) :
    Fifo { s with threads := s.threads.set i new, delivered := log } := by
  have before : old ∈ s.threads := List.mem_of_getElem? found
  refine ⟨counted_set fifo.counted found live, ?_, fifo.sorted, ?_, ?_, plain⟩
  · dsimp only
    rw [List.length_set]
    exact fifo.threads
  · intro thread member obtained
    rcases List.mem_or_eq_of_mem_set member with kept | rfl
    · exact fifo.drained thread kept obtained
    · exact fifo.drained old before (same.symm.trans obtained)
  · intro alive
    obtain ⟨ordinary, none_⟩ := fifo.early alive
    refine ⟨ordinary, ?_⟩
    intro thread member
    rcases List.mem_or_eq_of_mem_set member with kept | rfl
    · exact none_ thread kept
    · exact same.trans (none_ old before)

theorem fifo_arrive {c : Completion} (alive : s.dropper = .alive) : Fifo { s with queue := s.queue ++ [c.val] } := by
  obtain ⟨ordinary, none_⟩ := fifo.early alive
  refine ⟨fifo.counted, fifo.threads, ?_, ?_, ?_, fifo.plain⟩
  · refine List.pairwise_append.mpr ⟨fifo.sorted, List.pairwise_singleton _ _, ?_⟩
    intro x member y _ shutdown
    rw [ordinary x member] at shutdown
    cases shutdown
  · intro thread member obtained
    rw [none_ thread member] at obtained
    cases obtained
  · intro _
    refine ⟨?_, none_⟩
    intro e member
    rcases List.mem_append.mp member with old | new
    · exact ordinary e old
    · rw [List.mem_singleton.mp new]
      exact c.property

theorem fifo_dequeue {i removed : Nat} (waits : s.threads[i]? = some .waiting) :
    Fifo { s with
      queue := s.queue.drop removed
      threads := s.threads.set i (.delivering (s.queue.take removed) false) } := by
  have sorted := fifo.sorted
  rw [← List.take_append_drop removed s.queue] at sorted
  obtain ⟨-, later, across⟩ := List.pairwise_append.mp sorted
  refine ⟨counted_set fifo.counted waits (by simp), ?_, later, ?_, ?_, fifo.plain⟩
  · dsimp only
    rw [List.length_set]
    exact fifo.threads
  · intro thread member obtained e queued
    rcases List.mem_or_eq_of_mem_set member with kept | rfl
    · exact fifo.drained thread kept obtained e (List.mem_of_mem_drop queued)
    · -- The batch holds a sentinel, so what it left behind is sentinels.
      obtain ⟨x, taken, shutdown⟩ := List.any_eq_true.mp (by simpa [Thread.obtained] using obtained)
      exact across x taken e queued shutdown
  · intro alive
    obtain ⟨ordinary, none_⟩ := fifo.early alive
    refine ⟨fun e queued => ordinary e (List.mem_of_mem_drop queued), ?_⟩
    intro thread member
    rcases List.mem_or_eq_of_mem_set member with kept | rfl
    · exact none_ thread kept
    · show (false || (s.queue.take removed).any Entry.isShutdown) = false
      rw [Bool.false_or, List.any_eq_false]
      intro e taken
      rw [ordinary e (List.mem_of_mem_take taken)]
      exact Bool.false_ne_true

theorem fifo_post {left posted : Nat} (counted : Counted { s with
      queue := s.queue ++ [sentinel], posted := posted, dropper := .posting left }) :
    Fifo { s with queue := s.queue ++ [sentinel], posted := posted, dropper := .posting left } := by
  refine ⟨counted, fifo.threads, ?_, ?_, fun alive => (by cases alive), fifo.plain⟩
  · refine List.pairwise_append.mpr ⟨fifo.sorted, List.pairwise_singleton _ _, ?_⟩
    intro x _ y last _
    rw [List.mem_singleton.mp last]
    rfl
  · intro thread member obtained e queued
    rcases List.mem_append.mp queued with old | new
    · exact fifo.drained thread member obtained e old
    · rw [List.mem_singleton.mp new]
      rfl

theorem fifo_dropper {d : Dropper} (counted : Counted { s with dropper := d }) (late : d ≠ .alive) :
    Fifo { s with dropper := d } :=
  ⟨counted, fifo.threads, fifo.sorted, fifo.drained, fun alive => (late alive).elim, fifo.plain⟩

theorem fifo_step {e : Event} (early : Early s e) (h : step s e = some t) : Fifo t := by
  have counted := counted_step fifo.counted h
  cases e with
  | arrive c =>
    cases h
    exact fifo_arrive fifo early
  | dequeue i removed =>
    simp only [step] at h
    split at h
    · rename_i waits
      obtain ⟨-, rfl⟩ := of_guard h
      exact fifo_dequeue fifo waits
    · cases h
  | fail i =>
    obtain ⟨⟨closed, waits⟩, -⟩ := of_guard h
    exact absurd waits (counted_closed fifo.counted closed)
  | deliver i =>
    rcases deliver_cases h with ⟨entry, rest, stop, batch, shutdown⟩ | ⟨entry, rest, stop, batch, ordinary, rfl⟩
    · simp only [step, batch, shutdown, if_true] at h
      cases h
      exact fifo_set fifo batch (by simp) (by simp [Thread.obtained, shutdown]) fifo.plain
    · refine fifo_set fifo batch (by simp) (by simp [Thread.obtained, ordinary]) ?_
      intro e member
      rcases List.mem_append.mp member with old | new
      · exact fifo.plain e old
      · rw [List.mem_singleton.mp new]
        exact ordinary
  | endBatch i =>
    simp only [step] at h
    split at h
    · rename_i stop batch
      cases h
      refine fifo_set fifo batch (by simp) ?_ fifo.plain
      cases stop <;> rfl
    · cases h
  | post =>
    simp only [step] at h
    split at h
    · cases h
      exact fifo_post fifo counted
    · cases h
  | beginDrop | beginJoin | close =>
    obtain ⟨-, rfl⟩ := of_guard h
    exact fifo_dropper fifo counted (by simp)
  | join =>
    simp only [step] at h
    split at h
    · obtain ⟨-, rfl⟩ := of_guard h
      exact fifo_dropper fifo counted (by simp)
    · cases h

/-- A closed port has nothing left but sentinels. -/
theorem fifo_closed (closed : s.dropper = .closed) :
    (∀ e ∈ s.queue, e.isShutdown = true) ∧ ∀ thread ∈ s.threads, thread = .returned := by
  have counted := fifo.counted
  simp only [Counted, closed] at counted
  have gone : ∀ thread ∈ s.threads, thread = .returned := by
    intro thread member
    obtain ⟨i, bound, rfl⟩ := List.getElem_of_mem member
    have returned := counted.2 i bound
    rw [List.getElem?_eq_getElem bound] at returned
    exact Option.some.inj returned
  obtain ⟨first, member⟩ := List.exists_mem_of_length_pos fifo.threads
  refine ⟨fifo.drained first member ?_, gone⟩
  rw [gone first member]
  rfl

end

theorem new_fifo (threads : Nat) (backlog : List Completion) : Fifo (Port.new threads backlog) := by
  have ordinary : ∀ e ∈ backlog.map Subtype.val, e.isShutdown = false := by
    intro e member
    obtain ⟨c, -, rfl⟩ := List.mem_map.mp member
    exact c.property
  have waiting : ∀ thread ∈ (Port.new threads backlog).threads, thread.obtained = false := by
    intro thread member
    rw [List.eq_of_mem_replicate member]
    rfl
  refine ⟨new_counted threads backlog, ?_, ?_, ?_, fun _ => ⟨ordinary, waiting⟩, fun e member => by cases member⟩
  · show 0 < (List.replicate (max threads 1) Thread.waiting).length
    rw [List.length_replicate]
    omega
  · apply List.Pairwise.imp_of_mem ?_ (List.pairwise_of_forall (fun _ _ => trivial : ∀ x y : Entry, True))
    intro x y member _ _ shutdown
    rw [ordinary x member] at shutdown
    cases shutdown
  · intro thread member obtained
    rw [waiting thread member] at obtained
    cases obtained

theorem closed_bags {s : Port} (gone : ∀ thread ∈ s.threads, thread = .returned) (e : Entry) :
    inBags Thread.rest s.threads e = 0 := by
  apply List.count_eq_zero_of_not_mem
  intro member
  obtain ⟨thread, inside, held⟩ := List.mem_flatMap.mp member
  rw [gone thread inside] at held
  cases held

/-- Once `IoPort::drop` has closed the port, every completion that was ever queued has been delivered, exactly once,
as long as none arrives after the drop has begun. -/
theorem drop_delivers_everything (threads : Nat) (backlog : List Completion) (events : List Event) (s : Port)
    (early : Meets step Early (Port.new threads backlog) events)
    (h : run step (Port.new threads backlog) events = some s) (closed : s.dropper = .closed) :
    s.delivered.Perm (backlog.map Subtype.val ++ arrivals events) := by
  have fifo : Fifo s := run_invariant_of_meets (fun _ _ _ fifo early taken => fifo_step fifo early taken)
    (new_fifo threads backlog) early h
  obtain ⟨sentinels, gone⟩ := fifo_closed fifo closed
  apply List.perm_iff_count.mpr
  intro e
  by_cases shutdown : e.isShutdown = true
  · have none_ : ∀ entries : List Entry, (∀ x ∈ entries, x.isShutdown = false) → entries.count e = 0 := by
      intro entries ordinary
      apply List.count_eq_zero_of_not_mem
      intro member
      rw [ordinary e member] at shutdown
      cases shutdown
    rw [none_ _ fifo.plain, none_]
    intro x member
    rcases List.mem_append.mp member with old | new
    · obtain ⟨c, -, rfl⟩ := List.mem_map.mp old
      exact c.property
    · obtain ⟨event, -, arrived⟩ := List.mem_filterMap.mp new
      cases event with
      | arrive c =>
        obtain rfl := Option.some.inj arrived
        exact c.property
      | _ => cases arrived
  · have ordinary : e.isShutdown = false := by simpa using shutdown
    have copies := run_copies ordinary h
    have queue : s.queue.count e = 0 := by
      apply List.count_eq_zero_of_not_mem
      intro member
      exact shutdown (sentinels e member)
    have start : (Port.new threads backlog).copies e = (backlog.map Subtype.val).count e := by
      have idle : inBags Thread.rest (List.replicate (max threads 1) .waiting) e = 0 := by
        simp [inBags, Thread.rest, List.flatMap_replicate]
      simp [Port.copies, Port.new, idle]
    rw [Port.copies, queue, closed_bags gone, start] at copies
    rw [List.count_append]
    omega

/-- One thread finds a sentinel behind two completions, the other one nothing but a sentinel. -/
def lastBatch : List Event :=
  [.arrive ⟨⟨8, 3, 40⟩, rfl⟩, .beginDrop, .post, .dequeue 0 3, .post, .deliver 0, .deliver 0, .deliver 0, .endBatch 0,
    .dequeue 1 1, .deliver 1, .endBatch 1, .beginJoin, .join, .join, .close]

theorem last_batch_is_delivered :
    ∃ s, run step (Port.new 2 [⟨⟨8, 5, 12⟩, rfl⟩]) lastBatch = some s ∧ s.dropper = .closed ∧
      s.delivered.Perm [⟨8, 5, 12⟩, ⟨8, 3, 40⟩] :=
  ⟨_, rfl, rfl, drop_delivers_everything 2 [⟨⟨8, 5, 12⟩, rfl⟩] lastBatch _
    (by simp [Meets, Early, lastBatch, Port.new]) rfl rfl⟩

end HttpSys.Iocp
