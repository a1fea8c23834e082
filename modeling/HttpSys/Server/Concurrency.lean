import HttpSys.Server.Model

/-! How many request slots a server has left. A handler runs on the task of its slot, so
a panic ends that task, and `serve` looks at its `JoinSet` only after a shutdown. -/
namespace HttpSys
open Lib Lib.Machine

variable {H : Type}

/-- The task unwinds here: a handler panics, or a receive buffer cannot be allocated. -/
def SlotInput.panics : SlotInput → Bool
  | .take none => true
  | .received none => true
  | .handled none => true
  | _ => false

def SlotInput.terminal : SlotInput → Bool
  | .received (some (.error e, _, _)) => isTerminal e
  | _ => false

def ServerStep.panics : ServerStep → Bool
  | .slot _ input => input.panics
  | _ => false

/-- A shutdown request, or a receive that fails with a terminal error. -/
def ServerStep.stops : ServerStep → Bool
  | .shutdown => true
  | .drop => true
  | .slot _ input => input.terminal
  | _ => false

def SlotPc.isPanicked : SlotPc H → Bool
  | .panicked => true
  | _ => false

namespace Server

def running (s : Server H) : Nat := s.slots.countP fun slot => !slot.pc.finished

def panicked (s : Server H) : Nat := s.slots.countP fun slot => slot.pc.isPanicked

end Server

/-! ### One slot -/

theorem afterReceive_pc (routes : UInt64 → Option H) (slot : Slot H) (result : Except Error Unit) (buffer : RequestBuffer) :
    (slot.afterReceive routes result buffer).pc.isPanicked = false ∧
    ((slot.afterReceive routes result buffer).pc = .returned → ∃ e, result = .error e ∧ isTerminal e = true) := by
  unfold Slot.afterReceive
  split
  · split
    · exact ⟨rfl, fun returned => by cases returned⟩
    · exact ⟨rfl, fun returned => by cases returned⟩
  · unfold Slot.reply
    split
    · exact ⟨rfl, fun returned => by cases returned⟩
    · exact ⟨rfl, fun returned => by cases returned⟩
  · split
    · rename_i terminal
      exact ⟨rfl, fun _ => ⟨_, rfl, terminal⟩⟩
    · exact ⟨rfl, fun returned => by cases returned⟩

/-- A step unwinds the task exactly when its input is a panic, and it returns from `slot_loop`
only on the stop flag or a terminal error. -/
theorem slot_step_end {routes : UInt64 → Option H} {slot next : Slot H} {input : SlotInput}
    (h : slot.step routes input = some next) :
    slot.pc.isPanicked = false ∧ next.pc.isPanicked = input.panics ∧
    (next.pc = .returned → input = .load true ∨ input.terminal = true) := by
  unfold Slot.step at h
  split at h <;> rename_i pc <;> cases h
  all_goals rw [pc]
  · exact ⟨rfl, rfl, fun _ => Or.inl rfl⟩
  · exact ⟨rfl, rfl, fun returned => by cases returned⟩
  · exact ⟨rfl, rfl, fun returned => by cases returned⟩
  · exact ⟨rfl, rfl, fun returned => by cases returned⟩
  · exact ⟨rfl, rfl, fun returned => by cases returned⟩
  · rename_i result buffer mode
    obtain ⟨panicked, returned⟩ := afterReceive_pc routes { slot with mode := mode } result buffer
    refine ⟨rfl, panicked, fun back => Or.inr ?_⟩
    obtain ⟨e, rfl, terminal⟩ := returned back
    exact terminal
  · exact ⟨rfl, rfl, fun returned => by cases returned⟩
  · exact ⟨rfl, rfl, fun returned => by cases returned⟩
  · exact ⟨rfl, rfl, fun returned => by cases returned⟩
  · exact ⟨rfl, rfl, fun returned => by cases returned⟩

/-! ### All slots -/

namespace Server

theorem step_panicked {concurrency : Nat} {routes : UInt64 → Option H} {s t : Server H} {label : ServerStep}
    (h : s.step concurrency routes label = some t) :
    t.panicked = s.panicked + if label.panics then 1 else 0 := by
  cases label <;> simp only [step] at h
  case slot i input =>
    obtain ⟨-, -, slot, next, found, stepped, rfl⟩ := stepSlot_cases h
    obtain ⟨before, after, -⟩ := slot_step_end stepped
    have counted := countP_set (fun slot : Slot H => slot.pc.isPanicked) next found
    simp only [before, after, Bool.false_eq_true, if_false] at counted
    exact counted
  case spawn =>
    obtain ⟨-, rfl⟩ := of_guard h
    unfold panicked
    rw [List.countP_append]
    rfl
  case timedOut =>
    split at h
    · cases h
      have kept : ∀ slot : Slot H, (slot.pc.isPanicked && slot.pc.finished) = slot.pc.isPanicked := by
        intro slot
        cases slot.pc <;> rfl
      simp only [panicked, leave, List.countP_filter, kept]
      rfl
    · cases h
  case run | subscribe | shutdown | join | joined | drop | dropped =>
    obtain ⟨-, rfl⟩ := of_guard h
    rfl
  case build ok =>
    split at h
    · cases ok <;> cases h <;> rfl
    · cases h
  case recv =>
    split at h
    · obtain ⟨_, -, rfl⟩ := Option.map_eq_some_iff.mp h
      rfl
    · cases h
  case storeStop | queueShutdown result =>
    split at h
    · cases h
      rfl
    · cases h
  case drained =>
    split at h
    · obtain ⟨-, rfl⟩ := of_guard h
      rfl
    · cases h

theorem run_panicked {concurrency : Nat} {routes : UInt64 → Option H} {s t : Server H} {labels : List ServerStep}
    (h : run (step concurrency routes) s labels = some t) :
    t.panicked = s.panicked + labels.countP ServerStep.panics := by
  induction labels generalizing s with
  | nil =>
    cases h
    rfl
  | cons label labels ih =>
    obtain ⟨m, first, rest⟩ := run_cons.mp h
    rw [ih rest, step_panicked first, List.countP_cons]
    omega

/-- A server that nobody has told to stop: the channel is empty, and no slot has returned. -/
structure Calm (concurrency : Nat) (s : Server H) : Prop where
  owner : s.owner = .building ∨ s.owner = .owning ∨ s.owner = .joining
  running : s.stop = false
  serve : s.serve = .idle ∨ s.serve = .building ∨ s.serve = .spawning ∨ s.serve = .exited ∨
    ∃ receiver, s.serve = .waiting receiver ∧ s.channel.CaughtUp receiver ∧ s.slots.length = concurrency
  senders : s.serve = .idle ∨ s.serve = .exited ∨ s.channel.senders ≠ 0
  few : s.slots.length ≤ concurrency
  looping : ∀ slot ∈ s.slots, slot.pc ≠ .returned

theorem step_calm (concurrency : Nat) (routes : UInt64 → Option H) (s : Server H) (label : ServerStep)
    (t : Server H) (calm : Calm concurrency s) (quiet : label.stops = false)
    (h : s.step concurrency routes label = some t) : Calm concurrency t := by
  obtain ⟨owner, running, serve, senders, few, looping⟩ := calm
  cases label <;> simp only [step] at h
  case shutdown | drop => cases quiet
  case run =>
    obtain ⟨-, rfl⟩ := of_guard h
    refine ⟨.inr (.inl rfl), running, .inr (.inl rfl), .inr (.inr ?_), few, looping⟩
    exact Nat.succ_ne_zero 1
  case build ok =>
    split at h
    · rename_i building
      cases ok with
      | true =>
        cases h
        refine ⟨owner, running, .inr (.inr (.inl rfl)), .inr (.inr ?_), few, looping⟩
        simpa [building] using senders
      | false =>
        cases h
        exact ⟨owner, running, .inr (.inr (.inr (.inl rfl))), .inr (.inl rfl), few, looping⟩
    · cases h
  case spawn =>
    obtain ⟨⟨spawning, room⟩, rfl⟩ := of_guard h
    refine ⟨owner, running, .inr (.inr (.inl spawning)), senders, ?_, ?_⟩
    · rw [List.length_append]
      exact room
    · intro slot member
      rcases List.mem_append.mp member with old | new
      · exact looping slot old
      · obtain rfl := List.mem_singleton.mp new
        intro returned
        cases returned
  case subscribe =>
    obtain ⟨⟨spawning, full⟩, rfl⟩ := of_guard h
    have all : s.slots.length = concurrency := by omega
    refine ⟨owner, running, .inr (.inr (.inr (.inr ⟨_, rfl, s.channel.subscribe_caughtUp, all⟩))), .inr (.inr ?_), few,
      looping⟩
    change s.channel.senders ≠ 0
    simpa [spawning] using senders
  case recv =>
    rcases serve with serve | serve | serve | serve | ⟨receiver, serve, upToDate, -⟩
    all_goals rw [serve] at h
    · cases h
    · cases h
    · cases h
    · cases h
    · have alive : s.channel.senders ≠ 0 := by simpa [serve] using senders
      dsimp only at h
      rw [s.channel.recv_of_caughtUp upToDate alive] at h
      cases h
  case storeStop | queueShutdown result | drained | timedOut =>
    rcases serve with serve | serve | serve | serve | ⟨receiver, serve, -⟩
    all_goals
      rw [serve] at h
      cases h
  case slot i input =>
    obtain ⟨-, reads, slot, next, found, stepped, rfl⟩ := stepSlot_cases h
    refine ⟨owner, running, ?_, senders, ?_, ?_⟩
    · simpa using serve
    · simpa using few
    · intro other member
      rcases List.mem_or_eq_of_mem_set member with old | rfl
      · exact looping other old
      · intro returned
        rcases (slot_step_end stepped).2.2 returned with rfl | terminal
        · rw [mayRead, running] at reads
          cases reads
        · rw [ServerStep.stops, terminal] at quiet
          cases quiet
  case join =>
    obtain ⟨-, rfl⟩ := of_guard h
    exact ⟨.inr (.inr rfl), running, serve, senders, few, looping⟩
  case joined =>
    obtain ⟨-, rfl⟩ := of_guard h
    exact ⟨.inr (.inl rfl), running, serve, senders, few, looping⟩
  case dropped =>
    obtain ⟨⟨dropping, -⟩, -⟩ := of_guard h
    rw [dropping] at owner
    simp at owner

theorem running_add_panicked {s : Server H} (looping : ∀ slot ∈ s.slots, slot.pc ≠ .returned) :
    s.running + s.panicked = s.slots.length := by
  have ended : s.panicked = s.slots.countP fun slot => slot.pc.finished := by
    apply List.countP_congr
    intro slot member
    have unreturned := looping slot member
    cases pc : slot.pc <;> simp_all [SlotPc.isPanicked, SlotPc.finished]
  have split := List.length_eq_countP_add_countP (l := s.slots) fun slot => !slot.pc.finished
  rw [ended, split]
  simp [running]

end Server

/-- While nobody asks a serving server to stop and no receive fails terminally, it has all of its slots
exactly if nothing has panicked on one of them. -/
theorem slots_kept_iff (concurrency : Nat) (routes : UInt64 → Option H) (labels : List ServerStep) (s : Server H)
    (h : run (Server.step concurrency routes) {} labels = some s) (quiet : ∀ label ∈ labels, label.stops = false)
    (serving : ∃ receiver, s.serve = .waiting receiver) :
    s.running = concurrency ↔ ∀ label ∈ labels, label.panics = false := by
  have start : Server.Calm concurrency ({} : Server H) :=
    ⟨.inl rfl, rfl, .inl rfl, .inl rfl, Nat.zero_le _, by simp⟩
  have calm := run_invariant_of_meets (Server.step_calm concurrency routes) start (meets_of_forall quiet) h
  have all : s.slots.length = concurrency := by
    obtain ⟨receiver, waiting⟩ := serving
    rcases calm.serve with serve | serve | serve | serve | ⟨_, -, -, all⟩
    all_goals first
      | exact all
      | rw [waiting] at serve
        cases serve
  have counted := Server.run_panicked h
  have split := Server.running_add_panicked calm.looping
  have none_ : s.panicked = labels.countP ServerStep.panics := by
    rw [counted]
    exact Nat.zero_add _
  calc s.running = concurrency ↔ labels.countP ServerStep.panics = 0 := by omega
    _ ↔ ∀ label ∈ labels, label.panics = false := by simp [List.countP_eq_zero]

def startOne : List ServerStep := [.run, .build true, .spawn, .subscribe]

def serveOne : List ServerStep :=
  [.slot 0 (.load false), .slot 0 (.take (some greeting.prepare)), .slot 0 (.received (some (.ok (), greeting, {}))),
    .slot 0 (.handled (some (Response.okText [104, 105]))), .slot 0 (.sent (.ok ()))]

theorem slots_kept_after_greeting : ∃ s : Server Unit,
    run (Server.step 1 fun _ => some ()) {} (startOne ++ serveOne) = some s ∧ s.running = 1 :=
  ⟨_, rfl, (slots_kept_iff 1 (fun _ => some ()) (startOne ++ serveOne) _ rfl (by decide) ⟨1, rfl⟩).mpr (by decide)⟩

def panicOne : List ServerStep :=
  [.slot 0 (.load false), .slot 0 (.take (some greeting.prepare)), .slot 0 (.received (some (.ok (), greeting, {}))),
    .slot 0 (.handled none)]

theorem panic_leaves_no_slot : ¬ ∀ (concurrency : Nat) (routes : UInt64 → Option Unit) (labels : List ServerStep)
    (s : Server Unit), run (Server.step concurrency routes) {} labels = some s →
    (∀ label ∈ labels, label.stops = false) → (∃ receiver, s.serve = .waiting receiver) →
    s.running = concurrency := by
  intro kept
  have one := kept 1 (fun _ => some ()) (startOne ++ panicOne) _ rfl (by decide) ⟨1, rfl⟩
  exact absurd one (by decide)

end HttpSys
