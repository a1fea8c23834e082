import HttpSys.Server.Answers
import HttpSys.Server.Signal
import HttpSys.Lib.Progress

/-! The end of `serve`. Once the queue is shut down its receives fail with a terminal error, and
then a slot has only a few steps left, whatever its relaxed loads of the stop flag return. -/
namespace HttpSys
open Lib Lib.Machine Lib.Progress

variable {H : Type}

/-- What the kernel may still answer after the shutdown of its queue. -/
def SlotInput.closed : SlotInput → Bool
  | .received (some (.error e, _, _)) => isTerminal e
  | .received (some (.ok (), _, _)) => false
  | _ => true

def ServerStep.closed : ServerStep → Bool
  | .slot _ input => input.closed
  | _ => true

/-- The steps that a slot has left. -/
def SlotPc.left : SlotPc H → Nat
  | .top => 3
  | .taking => 2
  | .receiving _ => 1
  | .handling _ _ => 5
  | .responding => 4
  | .replying => 4
  | .returned => 0
  | .panicked => 0

def Slot.left (slot : Slot H) : Nat := slot.pc.left

theorem Slot.left_le (slot : Slot H) : slot.left ≤ 5 := by
  unfold Slot.left SlotPc.left
  split <;> omega

theorem left_of_finished {slot : Slot H} (finished : slot.pc.finished = true) : slot.left = 0 := by
  unfold Slot.left
  cases pc : slot.pc with
  | returned => rfl
  | panicked => rfl
  | _ =>
    rw [pc] at finished
    cases finished

theorem afterReceive_terminal (routes : UInt64 → Option H) (slot : Slot H) {e : Error} (buffer : RequestBuffer)
    (terminal : isTerminal e = true) : (slot.afterReceive routes (.error e) buffer).pc = .returned := by
  unfold Slot.afterReceive
  cases e with
  | headersTooLarge needed => cases terminal
  | _ =>
    dsimp only
    rw [if_pos terminal]
    rfl

theorem slot_step_left {routes : UInt64 → Option H} {slot next : Slot H} {input : SlotInput} (closed : input.closed = true)
    (h : slot.step routes input = some next) : next.left < slot.left := by
  unfold Slot.step at h
  split at h <;> rename_i pc <;> cases h
  case h_6 result buffer mode =>
    cases result with
    | ok done => cases closed
    | error e =>
      rw [Slot.left, Slot.left, pc, afterReceive_terminal routes _ buffer closed]
      exact Nat.lt_succ_self 0
  all_goals
    rw [Slot.left, Slot.left, pc]
    show _ < _
    simp [Slot.goto, SlotPc.left]

/-- A slot that has not ended can go on: with a load that still reads `false`, a buffer, the failure of its receive, the
response of its handler or the end of its send. -/
theorem slot_proceeds (routes : UInt64 → Option H) {slot : Slot H} (busy : slot.pc.finished = false) :
    ∃ input next, input.closed = true ∧ input.panics = false ∧ input ≠ .load true ∧ slot.step routes input = some next := by
  unfold Slot.step
  cases pc : slot.pc with
  | top => exact ⟨.load false, _, rfl, rfl, by simp, rfl⟩
  | taking => exact ⟨.take (some greeting), _, rfl, rfl, by simp, rfl⟩
  | receiving buffer =>
    exact ⟨.received (some (.error (.win32 errorOperationAborted), buffer, slot.mode)), _, rfl, rfl, by simp, rfl⟩
  | handling requestId handler => exact ⟨.handled (some (Response.new Status.notFound)), _, rfl, rfl, by simp, rfl⟩
  | responding => exact ⟨.sent (.ok ()), _, rfl, rfl, by simp, rfl⟩
  | replying => exact ⟨.sent (.ok ()), _, rfl, rfl, by simp, rfl⟩
  | returned =>
    rw [pc] at busy
    cases busy
  | panicked =>
    rw [pc] at busy
    cases busy

theorem slot_step_of_finished (routes : UInt64 → Option H) {slot : Slot H} (finished : slot.pc.finished = true)
    (input : SlotInput) : slot.step routes input = none := by
  unfold Slot.step
  cases pc : slot.pc with
  | returned => rfl
  | panicked => rfl
  | _ =>
    rw [pc] at finished
    cases finished

namespace Server

/-- Slots that have all ended take no step. -/
theorem still_of_finished (concurrency : Nat) (routes : UInt64 → Option H) {s : Server H}
    (finished : ∀ slot ∈ s.slots, slot.pc.finished = true) (i : Nat) (input : SlotInput) :
    s.step concurrency routes (.slot i input) = none := by
  apply Option.eq_none_iff_forall_ne_some.mpr
  intro t stepped
  obtain ⟨-, -, slot, next, found, moved, -⟩ := stepSlot_cases stepped
  rw [slot_step_of_finished routes (finished slot (List.mem_of_getElem? found))] at moved
  cases moved

def left (s : Server H) : Nat := listLoad Slot.left s.slots

/-- `serve` is past the shutdown of the queue. -/
structure Ending (concurrency : Nat) (receiver : Nat) (s : Server H) : Prop where
  owner : s.owner ≠ .building
  serve : s.serve = .draining receiver ∨ s.serve = .exited
  few : s.slots.length ≤ concurrency
  done : s.serve = .exited → ∀ slot ∈ s.slots, slot.pc.finished = true

theorem Ending.left_le {concurrency receiver : Nat} {s : Server H} (ending : s.Ending concurrency receiver) :
    s.left ≤ 5 * concurrency := by
  have load : listLoad Slot.left s.slots ≤ 5 * s.slots.length := listLoad_le fun slot _ => slot.left_le
  have few := ending.few
  unfold left
  omega

theorem step_ending {concurrency receiver : Nat} {routes : UInt64 → Option H} {s t : Server H} {label : ServerStep}
    (ending : s.Ending concurrency receiver) (h : s.step concurrency routes label = some t) :
    t.Ending concurrency receiver ∧ label ≠ .spawn := by
  obtain ⟨owner, serve, few, done⟩ := ending
  cases label <;> simp only [step] at h
  case run =>
    obtain ⟨building, -⟩ := of_guard h
    exact (owner building).elim
  case build | recv | storeStop | queueShutdown =>
    rcases serve with serve | serve
    all_goals
      rw [serve] at h
      cases h
  case spawn | subscribe =>
    obtain ⟨⟨spawning, -⟩, -⟩ := of_guard h
    rw [spawning] at serve
    simp at serve
  case drained =>
    split at h
    · obtain ⟨all, rfl⟩ := of_guard h
      exact ⟨⟨owner, Or.inr rfl, few, fun _ => List.all_eq_true.mp all⟩, by simp⟩
    · cases h
  case timedOut =>
    split at h
    · cases h
      refine ⟨⟨owner, Or.inr rfl, Nat.le_trans (List.length_filter_le _ _) few, ?_⟩, by simp⟩
      intro _ slot member
      exact (List.mem_filter.mp member).2
    · cases h
  case slot i input =>
    obtain ⟨alive, -, slot, next, -, -, rfl⟩ := stepSlot_cases h
    exact ⟨⟨owner, serve, by simpa using few, fun exited => (alive exited).elim⟩, by simp⟩
  case shutdown =>
    obtain ⟨-, rfl⟩ := of_guard h
    exact ⟨⟨owner, serve, few, done⟩, by simp⟩
  case join | joined | drop | dropped =>
    obtain ⟨-, rfl⟩ := of_guard h
    exact ⟨⟨by simp, serve, few, done⟩, by simp⟩

theorem step_left {concurrency receiver : Nat} {routes : UInt64 → Option H} {s t : Server H} {label : ServerStep}
    (ending : s.Ending concurrency receiver) (closed : label.closed = true) (h : s.step concurrency routes label = some t) :
    t.left + (if label.ofSlot then 1 else 0) ≤ s.left := by
  obtain ⟨-, steady⟩ := step_ending ending h
  cases step_moved h with
  | @slot i input slot next alive reads found stepped moved =>
    subst moved
    have fewer := slot_step_left closed stepped
    have load := listLoad_set Slot.left next found
    show listLoad Slot.left (s.slots.set i next) + 1 ≤ listLoad Slot.left s.slots
    omega
  | spawned => exact (steady rfl).elim
  | aborted owner draining exited moved =>
    have none_ : listLoad Slot.left t.slots ≤ 0 * t.slots.length := by
      apply listLoad_le
      intro slot member
      rw [moved] at member
      exact Nat.le_of_eq (left_of_finished (List.mem_filter.mp member).2)
    show listLoad Slot.left t.slots + 0 ≤ s.left
    omega
  | kept elsewhere keeps =>
    rw [elsewhere, left, keeps.slots]
    exact Nat.le_refl _

/-- While `serve` drains, a slot that has not ended can go on. -/
theorem busy_proceeds (concurrency : Nat) (routes : UInt64 → Option H) {s : Server H} {receiver : Nat} {slot : Slot H}
    (draining : s.serve = .draining receiver) (member : slot ∈ s.slots) (busy : slot.pc.finished = false) :
    ∃ i input t, input.closed = true ∧ input.panics = false ∧ input ≠ .load true ∧
      s.step concurrency routes (.slot i input) = some t := by
  obtain ⟨i, found⟩ := List.mem_iff_getElem?.mp member
  obtain ⟨input, next, closed, calm, other, stepped⟩ := slot_proceeds routes busy
  have reads : s.mayRead input = true := by
    unfold mayRead
    split
    · exact (other rfl).elim
    · rfl
  refine ⟨i, input, { s with slots := s.slots.set i next }, closed, calm, other, ?_⟩
  simp [step, stepSlot, draining, reads, found, stepped]

/-- Before `run` nothing is served, and no more slots are spawned than there may be. -/
structure Bounded (concurrency : Nat) (s : Server H) : Prop where
  unstarted : s.owner = .building → s.serve = .idle
  few : s.slots.length ≤ concurrency

theorem step_bounded (concurrency : Nat) (routes : UInt64 → Option H) (s : Server H) (label : ServerStep) (t : Server H)
    (bounded : s.Bounded concurrency) (h : s.step concurrency routes label = some t) : t.Bounded concurrency := by
  obtain ⟨unstarted, few⟩ := bounded
  cases step_moved h with
  | slot alive reads found stepped moved =>
    subst moved
    exact ⟨unstarted, by simpa using few⟩
  | spawned spawning room moved =>
    subst moved
    refine ⟨unstarted, ?_⟩
    rw [List.length_append]
    exact room
  | aborted owner draining exited moved =>
    refine ⟨fun building => (draining (unstarted (owner ▸ building))).elim, ?_⟩
    rw [moved]
    exact Nat.le_trans (List.length_filter_le _ _) few
  | kept elsewhere keeps =>
    refine ⟨?_, by rw [keeps.slots]; exact few⟩
    intro building
    obtain ⟨before, idle⟩ := keeps.unstarted building
    exact idle (unstarted before)

end Server

/-- After the shutdown of the queue the slots take at most five steps each, even if none of them ever reads the stop
flag as set. When they can take no more, the `JoinSet` is empty, and `serve` returns without the timeout. -/
theorem drain_completes (concurrency : Nat) (routes : UInt64 → Option H) (before after : List ServerStep)
    (s t : Server H) (receiver : Nat) (h : run (Server.step concurrency routes) {} before = some s)
    (draining : s.serve = .draining receiver) (continued : run (Server.step concurrency routes) s after = some t)
    (closed : ∀ label ∈ after, label.closed = true) :
    after.countP ServerStep.ofSlot ≤ 5 * concurrency ∧
    ((∀ i input, input.closed = true → input.panics = false → input ≠ .load true →
        t.step concurrency routes (.slot i input) = none) →
      ∃ u, (u = t ∨ t.step concurrency routes .drained = some u) ∧ u.serve = .exited ∧
        ∀ slot ∈ u.slots, slot.pc.finished = true) := by
  have start : Server.Bounded concurrency ({} : Server H) := ⟨fun _ => rfl, Nat.zero_le _⟩
  have bounded := run_invariant (Server.step_bounded concurrency routes) start h
  have ending : s.Ending concurrency receiver := by
    refine ⟨?_, Or.inl draining, bounded.few, fun exited => (by cases draining.symm.trans exited)⟩
    intro building
    cases (bounded.unstarted building).symm.trans draining
  refine ⟨?_, ?_⟩
  · have keep : ∀ s label t, Server.Ending concurrency receiver s → label.closed = true →
        Server.step concurrency routes s label = some t →
        t.Ending concurrency receiver ∧ t.left + (if label.ofSlot then 1 else 0) ≤ s.left := by
      intro s label t ending closed step
      exact ⟨(Server.step_ending ending step).1, Server.step_left ending closed step⟩
    have bound := countP_add_work_le ServerStep.ofSlot Server.left keep ending closed continued
    have most := ending.left_le
    omega
  · intro stuck
    have still : t.Ending concurrency receiver := by
      refine run_invariant ?_ ending continued
      intro s label t ending step
      exact (Server.step_ending ending step).1
    rcases still.serve with draining | exited
    · have all : ∀ slot ∈ t.slots, slot.pc.finished = true := by
        intro slot member
        by_contra busy
        obtain ⟨i, input, next, closed, calm, other, stepped⟩ :=
          Server.busy_proceeds concurrency routes draining member (by simpa using busy)
        rw [stuck i input closed calm other] at stepped
        cases stepped
      refine ⟨t.leave receiver, Or.inr ?_, rfl, all⟩
      simp only [Server.step, draining]
      exact if_pos (List.all_eq_true.mpr all)
    · exact ⟨t, Or.inl rfl, exited, still.done exited⟩

/-- One slot has just been woken with the error of an aborted receive, the other reads a stale flag once more. -/
def busyTwo : List ServerStep :=
  [.run, .build true, .spawn, .spawn, .subscribe, .slot 0 (.load false), .slot 0 (.take (some greeting.prepare)),
    .shutdown, .recv, .storeStop, .queueShutdown (.ok ())]

def lastSteps : List ServerStep :=
  [.slot 1 (.load false), .slot 0 (.received (some (.error (.win32 errorOperationAborted), greeting, {}))),
    .slot 1 (.take (some greeting.prepare)), .slot 1 (.received (some (.error (.win32 errorInvalidHandle), greeting, {})))]

theorem two_slots_drain : ∃ s t u : Server Unit, run (Server.step 2 fun _ => some ()) {} busyTwo = some s ∧
    run (Server.step 2 fun _ => some ()) s lastSteps = some t ∧ lastSteps.countP ServerStep.ofSlot ≤ 10 ∧
    (u = t ∨ t.step 2 (fun _ => some ()) .drained = some u) ∧ u.serve = .exited ∧
    ∀ slot ∈ u.slots, slot.pc.finished = true := by
  obtain ⟨s, ready⟩ : ∃ s, run (Server.step 2 fun _ => some ()) {} busyTwo = some s := ⟨_, rfl⟩
  obtain ⟨t, ended, finished⟩ : ∃ t, run (Server.step 2 fun _ => some ()) s lastSteps = some t ∧
      ∀ slot ∈ t.slots, slot.pc.finished = true := by
    cases ready
    exact ⟨_, rfl, by decide⟩
  have draining : s.serve = .draining 1 := by
    cases ready
    rfl
  have drains := drain_completes 2 (fun _ => some ()) busyTwo lastSteps s t 1 ready draining ended (by decide)
  obtain ⟨u, returns⟩ := drains.2 fun i input _ _ _ => Server.still_of_finished 2 _ finished i input
  exact ⟨s, t, u, ready, ended, drains.1, returns⟩

/-! ### From the call to the return -/

/-- The steps of `serve` after it has subscribed. -/
def ServerStep.ofServe : ServerStep → Bool
  | .recv | .storeStop | .queueShutdown _ | .drained | .timedOut => true
  | _ => false

/-- A step that waits neither for the owner nor for a request or a timeout. -/
def ServerStep.urgent : ServerStep → Bool
  | .recv | .storeStop | .queueShutdown _ | .drained => true
  | .slot _ input => input.closed && !input.panics
  | _ => false

def ServePc.left : ServePc → Nat
  | .waiting _ => 4
  | .woken _ => 3
  | .stopping _ => 2
  | .draining _ => 1
  | _ => 0

namespace Server

structure Subscribed (s : Server H) : Prop where
  owner : s.owner ≠ .building
  serve : s.serve.subscribed = true

theorem step_serve_left {concurrency : Nat} {routes : UInt64 → Option H} {s t : Server H} {label : ServerStep}
    (subscribed : s.Subscribed) (h : s.step concurrency routes label = some t) :
    t.Subscribed ∧ t.serve.left + (if label.ofServe then 1 else 0) ≤ s.serve.left := by
  obtain ⟨owner, serve⟩ := subscribed
  cases label <;> simp only [step] at h
  case run =>
    obtain ⟨building, -⟩ := of_guard h
    exact (owner building).elim
  case build ok =>
    split at h
    · rename_i building
      rw [building] at serve
      cases serve
    · cases h
  case spawn | subscribe =>
    obtain ⟨⟨spawning, -⟩, -⟩ := of_guard h
    rw [spawning] at serve
    cases serve
  case recv =>
    split at h
    · rename_i receiver waiting
      obtain ⟨_, -, rfl⟩ := Option.map_eq_some_iff.mp h
      exact ⟨⟨owner, rfl⟩, by rw [waiting]; exact Nat.le_refl 4⟩
    · cases h
  case storeStop =>
    split at h
    · rename_i receiver woken
      cases h
      exact ⟨⟨owner, rfl⟩, by rw [woken]; exact Nat.le_refl 3⟩
    · cases h
  case queueShutdown result =>
    split at h
    · rename_i receiver stopping
      cases h
      exact ⟨⟨owner, rfl⟩, by rw [stopping]; exact Nat.le_refl 2⟩
    · cases h
  case drained =>
    split at h
    · rename_i receiver draining
      obtain ⟨-, rfl⟩ := of_guard h
      exact ⟨⟨owner, rfl⟩, by rw [draining]; exact Nat.le_refl 1⟩
    · cases h
  case timedOut =>
    split at h
    · rename_i receiver draining
      cases h
      exact ⟨⟨owner, rfl⟩, by rw [draining]; exact Nat.le_refl 1⟩
    · cases h
  case slot i input =>
    obtain ⟨-, -, slot, next, -, -, rfl⟩ := stepSlot_cases h
    exact ⟨⟨owner, serve⟩, Nat.le_refl _⟩
  case shutdown =>
    obtain ⟨-, rfl⟩ := of_guard h
    exact ⟨⟨owner, serve⟩, Nat.le_refl _⟩
  case join | joined | drop | dropped =>
    obtain ⟨-, rfl⟩ := of_guard h
    exact ⟨⟨by simp, serve⟩, Nat.le_refl _⟩

/-- While slots are busy, one of them can go on; when none is, the drain is over. -/
theorem draining_proceeds {receiver : Nat} (concurrency : Nat) (routes : UInt64 → Option H) {s : Server H}
    (draining : s.serve = .draining receiver) :
    ∃ label t, label.urgent = true ∧ s.step concurrency routes label = some t := by
  by_cases all : ∀ slot ∈ s.slots, slot.pc.finished = true
  · refine ⟨.drained, s.leave receiver, rfl, ?_⟩
    simp only [step, draining]
    exact if_pos (List.all_eq_true.mpr all)
  · obtain ⟨slot, member, busy⟩ : ∃ slot ∈ s.slots, slot.pc.finished = false := by simpa using all
    obtain ⟨i, input, next, closed, calm, -, stepped⟩ := busy_proceeds concurrency routes draining member busy
    exact ⟨.slot i input, next, by simp only [ServerStep.urgent, closed, calm, Bool.not_false, Bool.and_self], stepped⟩

theorem Heard.subscribed {s : Server H} (heard : Heard s) (called : 1 ≤ s.calls) : s.serve.subscribed = true := by
  by_contra early
  have none_ := heard.early (by simpa using early)
  omega

/-- Once shutdown was called and heard, `serve` or a slot can go on until `serve` has returned. -/
theorem heard_proceeds (concurrency : Nat) (routes : UInt64 → Option H) {s : Server H} (heard : Heard s)
    (called : 1 ≤ s.calls) (running : s.serve ≠ .exited) :
    ∃ label t, label.urgent = true ∧ s.step concurrency routes label = some t := by
  have subscribed := heard.subscribed called
  cases serve : s.serve with
  | idle | building | spawning =>
    rw [serve] at subscribed
    cases subscribed
  | waiting receiver =>
    obtain ⟨next, position, -, behind⟩ := heard.waiting receiver serve
    obtain ⟨got, channel, received⟩ := s.channel.recv_of_behind position (behind called)
    exact ⟨.recv, { s with serve := .woken receiver, channel := channel }, rfl, by
      simp only [Server.step, serve, received, Option.map_some]⟩
  | woken receiver =>
    exact ⟨.storeStop, { s with serve := .stopping receiver, stop := true }, rfl, by simp only [Server.step, serve]⟩
  | stopping receiver =>
    exact ⟨.queueShutdown (.ok ()), { s with serve := .draining receiver }, rfl, by simp only [Server.step, serve]⟩
  | draining receiver => exact draining_proceeds concurrency routes serve
  | exited => exact (running serve).elim

end Server

/-- A shutdown that is called after `serve` has subscribed gets through: from then on `serve` takes at most four steps,
and until it has returned either it or a slot can take one without help from the owner, a new request or the timeout. -/
theorem late_shutdown_gets_through (concurrency : Nat) (routes : UInt64 → Option H) (before : List ServerStep)
    (s : Server H) (late : Meets (Server.step concurrency routes) Server.CallsLate {} before)
    (h : run (Server.step concurrency routes) {} before = some s) (called : 1 ≤ s.calls) :
    (∀ after t, run (Server.step concurrency routes) s after = some t → after.countP ServerStep.ofServe ≤ 4) ∧
    (s.serve ≠ .exited → ∃ label t, label.urgent = true ∧ s.step concurrency routes label = some t) := by
  have heard := run_invariant_of_meets (Server.step_heard concurrency routes) Server.heard_start late h
  have subscribed := heard.subscribed called
  have owner : s.owner ≠ .building := by
    intro building
    rw [heard.fresh building] at subscribed
    cases subscribed
  refine ⟨?_, Server.heard_proceeds concurrency routes heard called⟩
  intro after t continued
  have bound := countP_add_work_le ServerStep.ofServe (fun s : Server H => s.serve.left)
    (fun s label t subscribed (_ : True) step => Server.step_serve_left subscribed step) ⟨owner, subscribed⟩ (fun _ _ => trivial)
    continued
  have most : s.serve.left ≤ 4 := by
    unfold ServePc.left
    split <;> omega
  omega

def calledInTime : List ServerStep := [.run, .build true, .spawn, .subscribe, .shutdown]

theorem called_in_time_gets_through : ∃ s : Server Unit, run (Server.step 1 fun _ => none) {} calledInTime = some s ∧
    (∀ after t, run (Server.step 1 fun _ => none) s after = some t → after.countP ServerStep.ofServe ≤ 4) ∧
    (s.serve ≠ .exited → ∃ label t, label.urgent = true ∧ s.step 1 (fun _ => none) label = some t) := by
  refine ⟨_, rfl, late_shutdown_gets_through 1 (fun _ => none) calledInTime _ ?_ rfl (Nat.le_refl 1)⟩
  have split : calledInTime = [.run, .build true, .spawn, .subscribe] ++ .shutdown :: [] := rfl
  rw [split]
  refine Server.meets_of_one_call (by decide) ?_
  rintro _ ⟨⟩
  rfl

end HttpSys
