import HttpSys.Iocp.Model

/-! Which shutdowns of the port release every completion thread. A thread leaves
`completion_loop` on the first batch that holds a sentinel, however many it
holds, so the threads are all released exactly when no batch holds two. -/
namespace HttpSys.Iocp
open Lib.Machine

def Thread.obtained : Thread → Bool
  | .waiting => false
  | .delivering rest stop => stop || rest.any Entry.isShutdown
  | .returned => true

def OneSentinel (s : Port) : Event → Prop
  | .dequeue _ removed => (s.queue.take removed).countP Entry.isShutdown ≤ 1
  | _ => True

/-! ### What one step can do to the threads and the sentinels -/

/-- The move of `IoPort::drop` itself, which touches neither packets nor threads. -/
inductive Dropper.Moves (threads : List Thread) : Dropper → Dropper → Prop where
  | begin : Moves threads .alive (.posting threads.length)
  | posted : Moves threads (.posting 0) (.joining 0)
  | joined (i : Nat) (gone : threads[i]? = some Thread.returned) :
      Moves threads (.joining i) (.joining (i + 1))
  | close : Moves threads (.joining threads.length) .closed

/-- Everything a step can do. A batch in hand is only ever worked off, so the
third case leaves the sentinels a thread has obtained as they were. -/
theorem step_cases {s t : Port} {e : Event} (h : step s e = some t) :
    (∃ c : Completion, t = { s with queue := s.queue ++ [c.val] }) ∨
    (∃ i removed, e = .dequeue i removed ∧ s.threads[i]? = some .waiting ∧
      t = { s with
        queue := s.queue.drop removed
        threads := s.threads.set i (.delivering (s.queue.take removed) false) }) ∨
    (∃ i old new log, s.threads[i]? = some old ∧ old ≠ .returned ∧ old.obtained = new.obtained ∧
      t = { s with threads := s.threads.set i new, delivered := log }) ∨
    (∃ i, s.dropper = .closed ∧ s.threads[i]? = some .waiting ∧
      t = { s with threads := s.threads.set i .returned }) ∨
    (∃ left, s.dropper = .posting (left + 1) ∧
      t = { s with queue := s.queue ++ [sentinel], posted := s.posted + 1, dropper := .posting left }) ∨
    (∃ d, Dropper.Moves s.threads s.dropper d ∧ t = { s with dropper := d }) := by
  cases e with
  | arrive c => cases h; exact Or.inl ⟨c, rfl⟩
  | dequeue i removed =>
    simp only [step] at h
    split at h
    · split at h
      · cases h; exact Or.inr (Or.inl ⟨i, removed, rfl, by assumption, rfl⟩)
      · cases h
    · cases h
  | fail i =>
    simp only [step] at h
    split at h
    · rename_i guard
      cases h
      exact Or.inr (Or.inr (Or.inr (Or.inl ⟨i, guard.1, guard.2, rfl⟩)))
    · cases h
  | deliver i =>
    simp only [step] at h
    split at h
    · rename_i entry rest stop found
      have old : (Thread.delivering (entry :: rest) stop) ≠ .returned := by simp
      split at h
      · rename_i shutdown
        cases h
        exact Or.inr (Or.inr (Or.inl ⟨i, _, _, _, found, old, by simp [Thread.obtained, shutdown], rfl⟩))
      · rename_i ordinary
        cases h
        exact Or.inr (Or.inr (Or.inl ⟨i, _, _, _, found, old, by simp [Thread.obtained, ordinary], rfl⟩))
    · cases h
  | endBatch i =>
    simp only [step] at h
    split at h
    · rename_i stop found
      cases h
      refine Or.inr (Or.inr (Or.inl ⟨i, _, _, _, found, by simp, ?_, rfl⟩))
      cases stop <;> rfl
    · cases h
  | post =>
    simp only [step] at h
    split at h
    · rename_i left found
      cases h
      exact Or.inr (Or.inr (Or.inr (Or.inr (Or.inl ⟨left, found, rfl⟩))))
    · cases h
  | beginDrop =>
    simp only [step] at h
    split at h
    · rename_i alive
      cases h
      exact Or.inr (Or.inr (Or.inr (Or.inr (Or.inr ⟨_, alive ▸ .begin, rfl⟩))))
    · cases h
  | beginJoin =>
    simp only [step] at h
    split at h
    · rename_i done
      cases h
      exact Or.inr (Or.inr (Or.inr (Or.inr (Or.inr ⟨_, done ▸ .posted, rfl⟩))))
    · cases h
  | join =>
    simp only [step] at h
    split at h
    · rename_i i joining
      split at h
      · rename_i gone
        cases h
        exact Or.inr (Or.inr (Or.inr (Or.inr (Or.inr ⟨_, joining ▸ .joined i gone, rfl⟩))))
      · cases h
    · cases h
  | close =>
    simp only [step] at h
    split at h
    · rename_i done
      cases h
      exact Or.inr (Or.inr (Or.inr (Or.inr (Or.inr ⟨_, done ▸ .close, rfl⟩))))
    · cases h

theorem step_threads_length {s t : Port} {e : Event} (h : step s e = some t) :
    t.threads.length = s.threads.length := by
  rcases step_cases h with ⟨c, rfl⟩ | ⟨i, removed, -, -, rfl⟩ | ⟨i, old, new, log, -, -, -, rfl⟩ |
    ⟨i, -, -, rfl⟩ | ⟨left, -, rfl⟩ | ⟨d, -, rfl⟩ <;> simp

/-! ### The bookkeeping of `IoPort::drop` -/

def Counted (s : Port) : Prop :=
  match s.dropper with
  | .alive => s.posted = 0
  | .posting left => s.posted + left = s.threads.length
  | .joining next => s.posted = s.threads.length ∧ ∀ i < next, s.threads[i]? = some .returned
  | .closed => s.posted = s.threads.length ∧ ∀ i < s.threads.length, s.threads[i]? = some .returned

theorem counted_set {s : Port} {i : Nat} {old new : Thread} {queue log : List Entry} (counted : Counted s)
    (found : s.threads[i]? = some old) (live : old ≠ .returned) :
    Counted { s with queue := queue, threads := s.threads.set i new, delivered := log } := by
  have other : ∀ j : Nat, s.threads[j]? = some .returned → (s.threads.set i new)[j]? = some .returned := by
    intro j gone
    have different : i ≠ j := by
      rintro rfl
      exact live (Option.some.inj (found.symm.trans gone))
    rw [List.getElem?_set_ne different, gone]
  unfold Counted at counted ⊢
  cases dropper : s.dropper with
  | alive => simpa [dropper] using counted
  | posting left => simpa [dropper] using counted
  | joining next =>
    simp only [dropper, List.length_set] at counted ⊢
    exact ⟨counted.1, fun j below => other j (counted.2 j below)⟩
  | closed =>
    simp only [dropper, List.length_set] at counted ⊢
    exact ⟨counted.1, fun j below => other j (counted.2 j below)⟩

theorem counted_step {s t : Port} {e : Event} (counted : Counted s) (h : step s e = some t) : Counted t := by
  rcases step_cases h with ⟨c, rfl⟩ | ⟨i, removed, -, waits, rfl⟩ | ⟨i, old, new, log, found, live, -, rfl⟩ |
    ⟨i, -, waits, rfl⟩ | ⟨left, posting, rfl⟩ | ⟨d, moves, rfl⟩
  · exact counted
  · exact counted_set counted waits (by simp)
  · exact counted_set counted found live
  · exact counted_set counted waits (by simp)
  · simp only [Counted, posting] at counted ⊢
    omega
  · unfold Counted at counted ⊢
    generalize s.dropper = before at moves counted
    cases moves with
    | begin => simpa using counted
    | posted => exact ⟨by simpa using counted, by simp⟩
    | joined i gone =>
      refine ⟨counted.1, fun j below => ?_⟩
      rcases Nat.lt_succ_iff_lt_or_eq.mp below with earlier | rfl
      · exact counted.2 j earlier
      · exact gone
    | close => exact counted

theorem counted_posted_le {s : Port} (counted : Counted s) : s.posted ≤ s.threads.length := by
  unfold Counted at counted
  split at counted <;> omega

theorem counted_closed {s : Port} {i : Nat} (counted : Counted s) (closed : s.dropper = .closed) :
    s.threads[i]? ≠ some .waiting := by
  intro waits
  simp only [Counted, closed] at counted
  obtain ⟨bound, -⟩ := List.getElem?_eq_some_iff.mp waits
  have gone := counted.2 i bound
  rw [waits] at gone
  cases gone

/-! ### Where the sentinels are -/

/-- Every posted sentinel is queued or is the one a thread has obtained. -/
def Balanced (s : Port) : Prop :=
  s.queue.countP Entry.isShutdown + s.threads.countP Thread.obtained = s.posted

theorem balanced_step {s t : Port} {e : Event} (counted : Counted s) (balanced : Balanced s)
    (one : OneSentinel s e) (h : step s e = some t) : Balanced t := by
  unfold Balanced at balanced ⊢
  rcases step_cases h with ⟨c, rfl⟩ | ⟨i, removed, rfl, waits, rfl⟩ | ⟨i, old, new, log, found, -, same, rfl⟩ |
    ⟨i, closed, waits, rfl⟩ | ⟨left, -, rfl⟩ | ⟨d, -, rfl⟩
  · simpa [c.property] using balanced
  · -- The thread had no sentinel and the batch holds at most one.
    have split := congrArg (List.countP Entry.isShutdown) (List.take_append_drop removed s.queue)
    have moved := countP_set Thread.obtained (.delivering (s.queue.take removed) false) waits
    simp only [List.countP_append] at split
    simp only [OneSentinel] at one
    have held : (if (Thread.delivering (s.queue.take removed) false).obtained then 1 else 0) =
        (s.queue.take removed).countP Entry.isShutdown := by
      rcases Nat.le_one_iff_eq_zero_or_eq_one.mp one with none | single
      · rw [none, if_neg]
        simpa [Thread.obtained] using none
      · rw [single, if_pos]
        have some : 0 < (s.queue.take removed).countP Entry.isShutdown := by omega
        simpa [Thread.obtained] using List.countP_pos_iff.mp some
    rw [held, show Thread.waiting.obtained = false from rfl, if_neg Bool.false_ne_true] at moved
    dsimp only
    omega
  · have moved := countP_set Thread.obtained new found
    rw [same] at moved
    dsimp only
    omega
  · exact absurd waits (counted_closed counted closed)
  · simp only [List.countP_append, List.countP_singleton]
    have shutdown : sentinel.isShutdown = true := rfl
    rw [shutdown, if_pos rfl]
    omega
  · exact balanced

theorem new_counted (threads : Nat) (backlog : List Completion) : Counted (Port.new threads backlog) := rfl

theorem new_balanced (threads : Nat) (backlog : List Completion) : Balanced (Port.new threads backlog) := by
  have ordinary : (backlog.map Subtype.val).countP Entry.isShutdown = 0 := by
    simp only [List.countP_eq_zero, List.mem_map]
    rintro e ⟨c, -, rfl⟩
    simp [c.property]
  simp only [Balanced, Port.new, ordinary]
  simp [Thread.obtained]

theorem balanced_all_obtained {s : Port} (balanced : Balanced s) (all : s.posted = s.threads.length)
    (empty : s.queue = []) : ∀ thread ∈ s.threads, thread.obtained = true := by
  simp only [Balanced, empty, List.countP_nil, Nat.zero_add] at balanced
  exact List.countP_eq_length.mp (balanced.trans all)

theorem balanced_not_stranded {s : Port} (balanced : Balanced s) : ¬ Stranded s := by
  rintro ⟨all, empty, i, waits⟩
  have obtained := balanced_all_obtained balanced all empty _ (List.mem_of_getElem? waits)
  cases obtained

theorem queued_le_posted_step {s t : Port} {e : Event}
    (bound : s.queue.countP Entry.isShutdown ≤ s.posted) (h : step s e = some t) :
    t.queue.countP Entry.isShutdown ≤ t.posted := by
  rcases step_cases h with ⟨c, rfl⟩ | ⟨i, removed, rfl, waits, rfl⟩ | ⟨i, old, new, log, -, -, -, rfl⟩ |
    ⟨i, -, -, rfl⟩ | ⟨left, -, rfl⟩ | ⟨d, -, rfl⟩
  · simpa [c.property] using bound
  · have sub := (List.drop_sublist removed s.queue).countP_le (p := Entry.isShutdown)
    exact Nat.le_trans sub bound
  · exact bound
  · exact bound
  · have shutdown : sentinel.isShutdown = true := rfl
    simp only [List.countP_append, List.countP_singleton, shutdown, if_pos]
    omega
  · exact bound

theorem run_balanced {threads : Nat} {backlog : List Completion} {es : List Event} {s : Port}
    (one : Meets step OneSentinel (Port.new threads backlog) es)
    (h : run step (Port.new threads backlog) es = some s) : Balanced s := by
  have both : Counted s ∧ Balanced s := by
    refine run_invariant_of_meets (P := fun s => Counted s ∧ Balanced s) ?_
      ⟨new_counted threads backlog, new_balanced threads backlog⟩ one h
    rintro s e t ⟨counted, balanced⟩ single taken
    exact ⟨counted_step counted taken, balanced_step counted balanced single taken⟩
  exact both.2

theorem single_thread_one_sentinel {threads : Nat} {backlog : List Completion} {es : List Event} {s : Port}
    (single : threads ≤ 1) (h : run step (Port.new threads backlog) es = some s) :
    Meets step OneSentinel (Port.new threads backlog) es := by
  refine meets_of_invariant (P := fun s => Counted s ∧ s.threads.length = 1 ∧
    s.queue.countP Entry.isShutdown ≤ s.posted) ?_ ?_ ?_ h
  · rintro s e t ⟨counted, length, bound⟩ taken
    exact ⟨counted_step counted taken, (step_threads_length taken).trans length, queued_le_posted_step bound taken⟩
  · rintro s e t ⟨counted, length, bound⟩ -
    have posted := counted_posted_le counted
    cases e with
    | dequeue i removed =>
      have sub := (List.take_sublist removed s.queue).countP_le (p := Entry.isShutdown)
      simp only [OneSentinel]
      omega
    | _ => trivial
  · have balanced := new_balanced threads backlog
    refine ⟨new_counted threads backlog, ?_, ?_⟩
    · simp only [Port.new, List.length_replicate]
      omega
    · unfold Balanced at balanced
      omega

/-! ### A schedule that strands a thread

Thread 0 works off the backlog, takes the first two sentinels in one batch, and
each later sentinel goes to the next thread; the last thread gets none. -/

theorem drain_backlog (n : Nat) (backlog : List Completion) (log : List Entry) :
    ∃ log', Reachable step
      { queue := backlog.map Subtype.val, threads := List.replicate (n + 1) .waiting, delivered := log }
      { queue := [], threads := List.replicate (n + 1) .waiting, delivered := log' } := by
  induction backlog generalizing log with
  | nil => exact ⟨log, reachable_refl⟩
  | cons c rest ih =>
    obtain ⟨log', later⟩ := ih (log ++ [c.val])
    refine ⟨log', reachable_trans ?_ later⟩
    refine ⟨[.dequeue 0 1, .deliver 0, .endBatch 0], ?_⟩
    simp [run, step, batch, List.replicate_succ, c.property]

/-- Sentinels `0` and `1` went to thread 0 and sentinel `j + 1` to thread `j`. -/
structure Handed (m j : Nat) (s : Port) : Prop where
  queue : s.queue = []
  posted : s.posted = j + 2
  dropper : s.dropper = .posting (m - j)
  length : s.threads.length = m + 2
  waiting : ∀ i, j < i → i < m + 2 → s.threads[i]? = some .waiting

theorem handed_first {m : Nat} {log : List Entry} : ∃ s, Handed m 0 s ∧ Reachable step
    { queue := [], threads := List.replicate (m + 2) .waiting, delivered := log } s := by
  refine ⟨{ queue := [], posted := 2, dropper := .posting m, delivered := log
            threads := .delivering [sentinel, sentinel] false :: List.replicate (m + 1) .waiting },
    ⟨rfl, rfl, rfl, by simp, ?_⟩, ⟨[.beginDrop, .post, .post, .dequeue 0 2], ?_⟩⟩
  · intro i positive bound
    obtain ⟨i, rfl⟩ := Nat.exists_eq_succ_of_ne_zero (Nat.ne_of_gt positive)
    simp [List.getElem?_replicate]
    omega
  · simp [run, step, batch, List.replicate_succ]

theorem handed_next {m j : Nat} {s : Port} (handed : Handed m j s) (room : j < m) :
    ∃ t, Handed m (j + 1) t ∧ Reachable step s t := by
  obtain ⟨queue, posted, dropper, length, waiting⟩ := handed
  have next : m - j = (m - (j + 1)) + 1 := by omega
  rw [next] at dropper
  have waits := waiting (j + 1) (by omega) (by omega)
  refine ⟨{ s with
      queue := []
      posted := s.posted + 1
      dropper := .posting (m - (j + 1))
      threads := s.threads.set (j + 1) (.delivering [sentinel] false) },
    ⟨rfl, by simp [posted], rfl, by simp [length], ?_⟩, ⟨[.post, .dequeue (j + 1) 1], ?_⟩⟩
  · intro i above below
    rw [List.getElem?_set_ne (by omega)]
    exact waiting i (by omega) below
  · simp [run, step, batch, dropper, queue, waits]

theorem handed_all {m : Nat} (log : List Entry) (j : Nat) (bound : j ≤ m) : ∃ s, Handed m j s ∧
    Reachable step { queue := [], threads := List.replicate (m + 2) .waiting, delivered := log } s := by
  induction j with
  | zero => exact handed_first
  | succ j ih =>
    obtain ⟨s, handed, before⟩ := ih (by omega)
    obtain ⟨t, next, after⟩ := handed_next handed (by omega)
    exact ⟨t, next, reachable_trans before after⟩

theorem two_threads_strand {threads : Nat} (several : 2 ≤ threads) (backlog : List Completion) :
    ∃ s, Reachable step (Port.new threads backlog) s ∧ Stranded s := by
  obtain ⟨m, rfl⟩ : ∃ m, threads = m + 2 := ⟨threads - 2, by omega⟩
  obtain ⟨log, drained⟩ := drain_backlog (m + 1) backlog []
  obtain ⟨s, handed, reached⟩ := handed_all log m (Nat.le_refl m)
  refine ⟨s, ?_, ?_, handed.queue, m + 1, handed.waiting (m + 1) (by omega) (by omega)⟩
  · have count : max (m + 2) 1 = m + 1 + 1 := by omega
    simp only [Port.new, count]
    exact reachable_trans drained reached
  · rw [handed.posted, handed.length]

/-- `IoPort::drop` releases every thread on every schedule only when there is one
thread; with more, it does so on the schedules where no batch holds two sentinels. -/
theorem drop_strands_no_thread_iff (threads : Nat) (backlog : List Completion) :
    ((∀ s, Reachable step (Port.new threads backlog) s → ¬ Stranded s) ↔ threads ≤ 1) ∧
    ∀ es s, Meets step OneSentinel (Port.new threads backlog) es →
      run step (Port.new threads backlog) es = some s →
      ¬ Stranded s ∧ (s.posted = s.threads.length → s.queue = [] →
        ∀ thread ∈ s.threads, thread.obtained = true) := by
  refine ⟨⟨?_, ?_⟩, ?_⟩
  · intro safe
    by_contra several
    obtain ⟨s, reached, stranded⟩ := two_threads_strand (Nat.lt_of_not_le several) backlog
    exact safe s reached stranded
  · rintro single s ⟨es, ran⟩
    exact balanced_not_stranded (run_balanced (single_thread_one_sentinel single ran) ran)
  · intro es s one ran
    have balanced := run_balanced one ran
    exact ⟨balanced_not_stranded balanced, balanced_all_obtained balanced⟩

theorem drop_releases_both_threads :
    ∃ s, run step (Port.new 2 []) [.beginDrop, .post, .dequeue 0 1, .post, .dequeue 1 1] = some s ∧
      ¬ Stranded s :=
  ⟨_, rfl, ((drop_strands_no_thread_iff 2 []).2 [.beginDrop, .post, .dequeue 0 1, .post, .dequeue 1 1] _
    (by simp [Meets, OneSentinel, step, Port.new, batch]; decide) rfl).1⟩

theorem drop_strands_second_thread :
    ¬ ∀ s, Reachable step (Port.new 2 []) s → ¬ Stranded s := by
  intro safe
  refine safe _ ⟨[.beginDrop, .post, .post, .dequeue 0 2, .deliver 0, .deliver 0, .endBatch 0], rfl⟩ ?_
  exact ⟨rfl, rfl, 1, rfl⟩

end HttpSys.Iocp
