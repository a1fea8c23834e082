import HttpSys.Overlapped.Model

/-! The handshake of one `OverlappedWrap`, one atomic access at a time. A completion thread runs
`complete` once; the task polls as often as it likes and may wait in `block_until_complete` in
between. The first load of a poll and its registration are two steps here, so the completion may
come between any two accesses. -/
namespace HttpSys.Overlapped
open Lib.Machine

/-- The access that the task makes next. -/
inductive Await where
  | idle
  | registering
  | rechecking
  | readingErr
  | readingLen
  | blocking
  deriving DecidableEq

inductive Poll where
  | ready (result : Except Error UInt32)
  | pending

/-- `stage` is how far `complete` has come. `polls` numbers the calls of `poll_complete`; `waker`
belongs to the latest of them, and `last` is what it returned, if it has. -/
structure Handshake where
  wrap : Wrap := {}
  stage : Stage := .taken
  task : Await := .idle
  polls : Nat := 0
  waker : Nat := 0
  registrant : Nat := 0
  last : Option Poll := none
  woken : List (Nat × Nat) := []
  unblocked : Bool := false

inductive Access where
  | storeErr
  | storeLen
  | publish
  | wake
  | poll (waker : Nat)
  | register
  | recheck
  | loadErr
  | loadLen
  | block
  | spin

namespace Handshake

/-- `OverlappedWrap::complete`. -/
def completeStep (err len : UInt32) (s : Handshake) : Access → Option Handshake
  | .storeErr =>
    if s.stage = .taken then some { s with stage := .errStored, wrap := { s.wrap with err := err } } else none
  | .storeLen =>
    if s.stage = .errStored then some { s with stage := .lenStored, wrap := { s.wrap with len := len } } else none
  | .publish =>
    if s.stage = .lenStored then some { s with stage := .published, wrap := { s.wrap with completed := true } } else none
  | .wake =>
    if s.stage = .published then
      some { s with
        stage := .woken
        woken := s.woken ++ s.wrap.waker.toList.map fun waker => (s.registrant, waker)
        wrap := { s.wrap with waker := none } }
    else none
  | _ => none

/-- `poll_complete` and `block_until_complete`. -/
def awaitStep (s : Handshake) : Access → Option Handshake
  | .poll waker =>
    if s.task = .idle then
      let begun := { s with polls := s.polls + 1, waker := waker, last := none }
      some (if s.wrap.completed then { begun with task := .readingErr } else { begun with task := .registering })
    else none
  | .register =>
    if s.task = .registering then
      some { s with task := .rechecking, registrant := s.polls, wrap := { s.wrap with waker := some s.waker } }
    else none
  | .recheck =>
    if s.task = .rechecking then
      some (if s.wrap.completed then { s with task := .readingErr } else { s with task := .idle, last := some .pending })
    else none
  | .loadErr =>
    if s.task = .readingErr then
      some (if s.wrap.err = 0 then { s with task := .readingLen }
        else { s with task := .idle, last := some (.ready (.error (.win32 s.wrap.err))) })
    else none
  | .loadLen =>
    if s.task = .readingLen then some { s with task := .idle, last := some (.ready (.ok s.wrap.len)) } else none
  | .block => if s.task = .idle then some { s with task := .blocking } else none
  | .spin =>
    if s.task = .blocking then
      some (if s.wrap.completed then { s with task := .idle, unblocked := true } else s)
    else none
  | _ => none

def step (err len : UInt32) (s : Handshake) (access : Access) : Option Handshake :=
  match access with
  | .storeErr | .storeLen | .publish | .wake => s.completeStep err len access
  | _ => s.awaitStep access

end Handshake

/-- Both values have been stored. -/
def Stage.stored : Stage → Bool
  | .taken | .errStored => false
  | .lenStored | .published | .woken => true

def Stage.visible : Stage → Bool
  | .published | .woken => true
  | _ => false

/-- The waker of the latest poll is in the slot, under the number of that poll. -/
def Handshake.Armed (s : Handshake) : Prop := s.wrap.waker = some s.waker ∧ s.registrant = s.polls

/-- What holds between any two accesses. A poll that has registered is armed until `wake` takes the
slot; one that still rechecks after that will find the completion. -/
structure Handshake.Sound (err len : UInt32) (s : Handshake) : Prop where
  errStored : s.stage ≠ .taken → s.wrap.err = err
  lenStored : s.stage.stored = true → s.wrap.len = len
  completed : s.wrap.completed = s.stage.visible
  reading : s.task = .readingErr ∨ s.task = .readingLen → s.stage.visible = true
  success : s.task = .readingLen → err = 0
  midway : s.task ≠ .idle → s.task ≠ .blocking → s.last = none
  ready : ∀ r, s.last = some (.ready r) → r = wrapResult err len
  rechecking : s.task = .rechecking → s.stage ≠ .woken → s.Armed
  pending : s.last = some .pending → s.stage ≠ .woken → s.Armed
  reached : s.last = some .pending → s.stage = .woken → (s.polls, s.waker) ∈ s.woken
  unblocked : s.unblocked = true → s.stage.visible = true

theorem Stage.stored_of_visible {stage : Stage} (visible : stage.visible = true) : stage.stored = true := by
  cases stage <;> first | rfl | cases visible

namespace Handshake
variable {err len : UInt32} {s t : Handshake} {access : Access}

theorem start_sound : Sound err len {} :=
  ⟨fun moved => (moved rfl).elim, nofun, rfl, nofun, nofun, fun busy => (busy rfl).elim, nofun, nofun, nofun, nofun, nofun⟩

theorem visible_stored (sound : s.Sound err len) (visible : s.stage.visible = true) :
    s.stage.stored = true ∧ s.wrap.err = err ∧ s.wrap.len = len := by
  have stored := Stage.stored_of_visible visible
  refine ⟨stored, ?_, sound.lenStored stored⟩
  apply sound.errStored
  intro taken
  rw [taken] at visible
  cases visible

/-- A poll that has not returned has left no result behind. -/
theorem Sound.unreturned {task : Await} (sound : s.Sound err len) (at_ : s.task = task)
    (inside : task ≠ .idle ∧ task ≠ .blocking) : s.last = none := by
  apply sound.midway
  · rw [at_]
    exact inside.1
  · rw [at_]
    exact inside.2

theorem Sound.returns (sound : s.Sound err len) :
    Sound err len { s with task := .idle, last := some (.ready (wrapResult err len)) } := by
  have ⟨errStored, lenStored, completed, _, _, _, _, _, _, _, unblocked⟩ := sound
  refine ⟨errStored, lenStored, completed, nofun, nofun, fun busy => (busy rfl).elim, ?_, nofun, nofun, nofun, unblocked⟩
  intro r same
  exact (Poll.ready.inj (Option.some.inj same)).symm

theorem completeStep_sound (sound : s.Sound err len) (h : s.completeStep err len access = some t) : t.Sound err len := by
  obtain ⟨errStored, lenStored, completed, reading, success, midway, ready, rechecking, pending, -, unblocked⟩ := sound
  cases access with
  | storeErr =>
    obtain ⟨stage, rfl⟩ := of_guard h
    rw [stage] at completed reading rechecking pending unblocked
    exact ⟨fun _ => rfl, nofun, completed, reading, success, midway, ready, fun again _ => rechecking again nofun,
      fun waits _ => pending waits nofun, fun _ => nofun, unblocked⟩
  | storeLen =>
    obtain ⟨stage, rfl⟩ := of_guard h
    rw [stage] at errStored completed reading rechecking pending unblocked
    exact ⟨fun _ => errStored nofun, fun _ => rfl, completed, reading, success, midway, ready,
      fun again _ => rechecking again nofun, fun waits _ => pending waits nofun, fun _ => nofun, unblocked⟩
  | publish =>
    obtain ⟨stage, rfl⟩ := of_guard h
    rw [stage] at errStored lenStored rechecking pending
    exact ⟨fun _ => errStored nofun, fun _ => lenStored rfl, rfl, fun _ => rfl, success, midway, ready,
      fun again _ => rechecking again nofun, fun waits _ => pending waits nofun, fun _ => nofun, fun _ => rfl⟩
  | wake =>
    obtain ⟨stage, rfl⟩ := of_guard h
    rw [stage] at errStored lenStored completed pending
    refine ⟨fun _ => errStored nofun, fun _ => lenStored rfl, completed, fun _ => rfl, success, midway, ready,
      fun _ unwoken => (unwoken rfl).elim, fun _ unwoken => (unwoken rfl).elim, ?_, fun _ => rfl⟩
    intro waits _
    obtain ⟨slot, own⟩ := pending waits nofun
    show (s.polls, s.waker) ∈ s.woken ++ s.wrap.waker.toList.map fun waker => (s.registrant, waker)
    rw [slot, own]
    exact List.mem_append_right _ List.mem_cons_self
  | _ => cases h

theorem awaitStep_sound (sound : s.Sound err len) (h : s.awaitStep access = some t) : t.Sound err len := by
  have ⟨errStored, lenStored, completed, reading, success, midway, ready, rechecking, pending, reached, unblocked⟩ := sound
  have seen : s.wrap.completed = true → s.stage.visible = true := fun done => completed.symm.trans done
  cases access with
  | poll waker =>
    obtain ⟨idle, rfl⟩ := of_guard h
    by_cases done : s.wrap.completed = true
    · rw [if_pos done]
      exact ⟨errStored, lenStored, completed, fun _ => seen done, nofun, fun _ _ => rfl, nofun, nofun, nofun, nofun,
        unblocked⟩
    · rw [if_neg done]
      exact ⟨errStored, lenStored, completed, nofun, nofun, fun _ _ => rfl, nofun, nofun, nofun, nofun, unblocked⟩
  | register =>
    obtain ⟨registering, rfl⟩ := of_guard h
    have running := sound.unreturned registering (by decide)
    exact ⟨errStored, lenStored, completed, nofun, nofun, fun _ _ => running, ready, fun _ _ => ⟨rfl, rfl⟩,
      fun _ _ => ⟨rfl, rfl⟩, reached, unblocked⟩
  | recheck =>
    obtain ⟨again, rfl⟩ := of_guard h
    by_cases done : s.wrap.completed = true
    · rw [if_pos done]
      have running := sound.unreturned again (by decide)
      exact ⟨errStored, lenStored, completed, fun _ => seen done, nofun, fun _ _ => running, ready, nofun, pending,
        reached, unblocked⟩
    · -- Nothing was published by the second load, so `wake` is still to come and will find this poll's waker.
      rw [if_neg done]
      have unwoken : s.stage ≠ .woken := by
        intro woken
        rw [woken] at completed
        exact done completed
      exact ⟨errStored, lenStored, completed, nofun, nofun, fun busy => (busy rfl).elim, nofun, nofun,
        fun _ => rechecking again, fun _ woken => (unwoken woken).elim, unblocked⟩
  | loadErr =>
    obtain ⟨reads, rfl⟩ := of_guard h
    have visible := reading (Or.inl reads)
    obtain ⟨-, value, -⟩ := visible_stored sound visible
    by_cases zero : s.wrap.err = 0
    · rw [if_pos zero]
      have running := sound.unreturned reads (by decide)
      exact ⟨errStored, lenStored, completed, fun _ => visible, fun _ => value.symm.trans zero, fun _ _ => running, ready,
        nofun, pending, reached, unblocked⟩
    · rw [if_neg zero]
      rw [value] at zero ⊢
      have failed : wrapResult err len = .error (.win32 err) := if_neg zero
      rw [← failed]
      exact sound.returns
  | loadLen =>
    obtain ⟨reads, rfl⟩ := of_guard h
    obtain ⟨-, -, value⟩ := visible_stored sound (reading (Or.inr reads))
    have succeeded : wrapResult err len = .ok len := if_pos (success reads)
    rw [value, ← succeeded]
    exact sound.returns
  | block =>
    obtain ⟨idle, rfl⟩ := of_guard h
    exact ⟨errStored, lenStored, completed, nofun, nofun, fun _ free => (free rfl).elim, ready, nofun, pending, reached,
      unblocked⟩
  | spin =>
    obtain ⟨blocking, rfl⟩ := of_guard h
    by_cases done : s.wrap.completed = true
    · rw [if_pos done]
      exact ⟨errStored, lenStored, completed, nofun, nofun, fun busy => (busy rfl).elim, ready, nofun, pending, reached,
        fun _ => seen done⟩
    · rw [if_neg done]
      exact sound
  | _ => cases h

theorem step_sound (sound : s.Sound err len) (h : s.step err len access = some t) : t.Sound err len := by
  unfold step at h
  split at h
  all_goals first | exact completeStep_sound sound h | exact awaitStep_sound sound h

theorem run_sound {accesses : List Access} (h : run (step err len) {} accesses = some s) : s.Sound err len :=
  run_invariant (fun _ _ _ sound stepped => step_sound sound stepped) start_sound h

/-- Whatever the interleaving, a result is only read once both values are there, so what a poll
returns is the completion's; a task that was told to wait is woken; and the blocking wait does not
end early. -/
theorem handshake_keeps_results_and_wakers (err len : UInt32) (accesses : List Access) (s : Handshake)
    (h : run (step err len) {} accesses = some s) :
    (s.task = .readingErr ∨ s.task = .readingLen → s.stage.stored = true ∧ s.wrap.err = err ∧ s.wrap.len = len) ∧
    (∀ result, s.last = some (.ready result) → result = if err = 0 then .ok len else .error (.win32 err)) ∧
    (s.stage = .woken → s.last = some .pending → (s.polls, s.waker) ∈ s.woken) ∧
    (s.unblocked = true → s.stage.stored = true ∧ s.wrap.err = err ∧ s.wrap.len = len) := by
  have sound := run_sound h
  exact ⟨fun reads => visible_stored sound (sound.reading reads), sound.ready, fun woken waits => sound.reached waits woken,
    fun ended => visible_stored sound (sound.unblocked ended)⟩

/-- The completion comes between the registration of the second poll and its second load. -/
def raced : List Access :=
  [.poll 1, .register, .recheck, .storeErr, .poll 2, .register, .storeLen, .publish, .wake, .recheck, .loadErr, .loadLen]

theorem handshake_keeps_raced_result : ∃ s, run (step 0 42) {} raced = some s ∧ s.last = some (.ready (.ok 42)) ∧
    (s.task = .readingErr ∨ s.task = .readingLen → s.stage.stored = true ∧ s.wrap.err = 0 ∧ s.wrap.len = 42) ∧
    (∀ result, s.last = some (.ready result) → result = if (0 : UInt32) = 0 then .ok 42 else .error (.win32 0)) ∧
    (s.stage = .woken → s.last = some .pending → (s.polls, s.waker) ∈ s.woken) ∧
    (s.unblocked = true → s.stage.stored = true ∧ s.wrap.err = 0 ∧ s.wrap.len = 42) :=
  ⟨_, rfl, rfl, handshake_keeps_results_and_wakers 0 42 raced _ rfl⟩

end Handshake
end HttpSys.Overlapped
