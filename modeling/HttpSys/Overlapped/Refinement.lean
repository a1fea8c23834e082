import HttpSys.Overlapped.Handshake

/-! The operations of the heap model and the handshake of a single wrap describe the same code at two
grains. What a completion thread or a poll does to an operation in one step there is a run of single
accesses here. -/
namespace HttpSys.Overlapped
open Lib.Machine

/-- How far `complete` has come for an operation. -/
def Packet.stage : Packet → Stage
  | .held stage => stage
  | .released => .woken
  | _ => .taken

/-- The fields of a wrap that the handshake shares; the others are the kernel's. -/
def Wrap.shared (wrap : Wrap) : Wrap := { wrap with inner := {}, bytes := 0 }

/-- The steps of an operation that are accesses to its wrap. -/
def Action.handshakes : Action → Bool
  | .dequeue | .storeErr | .storeLen | .publish | .wake | .release | .poll _ | .recheck | .cancel | .unblock => true
  | _ => false

def Phase.Shown (s : Handshake) : Phase → Prop
  | .awaiting => s.task = .idle
  | .registering => s.task = .rechecking
  | .resolved result => s.task = .idle ∧ s.last = some (.ready result)
  | .cancelling => s.task = .blocking
  | .unblocked => s.task = .idle ∧ s.unblocked = true
  | _ => True

structure Shows (op : Op) (cell : Cell) (s : Handshake) : Prop where
  stage : s.stage = op.packet.stage
  wrap : s.wrap = cell.wrap.shared
  woken : s.woken.map Prod.snd = op.woken
  phase : op.phase.Shown s

/-- A wrap is handed out reset, so an operation whose future has not been polled shows the start. -/
theorem shows_start {op : Op} {cell : Cell} (early : op.packet.stage = .taken) (reset : cell.wrap.shared = {})
    (unwoken : op.woken = []) (awaiting : op.phase = .awaiting) : Shows op cell {} := by
  constructor
  · exact early.symm
  · exact reset.symm
  · exact unwoken.symm
  · rw [awaiting]
    rfl

variable {op op' : Op} {cell cell' : Cell} {s : Handshake} {action : Action} {err len : UInt32}

/-- The two loads behind a completion that was seen. -/
theorem reads_result (err len : UInt32) (reads : s.task = .readingErr) :
    ∃ accesses, run (Handshake.step err len) s accesses =
      some { s with task := .idle, last := some (.ready s.wrap.result) } := by
  by_cases zero : s.wrap.err = 0
  · have result : s.wrap.result = .ok s.wrap.len := if_pos zero
    have first : s.step err len .loadErr = some { s with task := .readingLen } := by
      simp only [Handshake.step, Handshake.awaitStep, reads, if_true, zero]
    refine ⟨[.loadErr, .loadLen], run_cons.mpr ⟨_, first, ?_⟩⟩
    rw [result]
    rfl
  · have result : s.wrap.result = .error (.win32 s.wrap.err) := if_neg zero
    refine ⟨[.loadErr], run_cons.mpr ⟨_, ?_, rfl⟩⟩
    simp only [Handshake.step, Handshake.awaitStep, reads, if_true, zero, if_false, result]

/-- `complete` leaves what the task has seen alone. -/
theorem Phase.Shown.frame {phase : Phase} {t : Handshake} (shown : phase.Shown s) (task : t.task = s.task)
    (last : t.last = s.last) (unblocked : t.unblocked = s.unblocked) : phase.Shown t := by
  unfold Phase.Shown at shown ⊢
  rw [task, last, unblocked]
  exact shown

theorem deliverStep_simulated (shows : Shows op cell s) (h : op.deliverStep cell action = some (op', cell')) :
    ∃ accesses t, run (Handshake.step op.outcome.err op.outcome.len) s accesses = some t ∧ Shows op' cell' t := by
  obtain ⟨stage, wrap, woken, phase⟩ := shows
  unfold Op.deliverStep at h
  split at h
  · split at h
    · rename_i posted
      rw [posted] at stage
      cases h
      exact ⟨[], s, rfl, stage, wrap, woken, phase⟩
    · cases h
  · split at h
    · rename_i taken
      rw [taken] at stage
      cases h
      refine ⟨[.storeErr], _, run_cons.mpr ⟨_, if_pos stage, rfl⟩, rfl, ?_, woken, phase.frame rfl rfl rfl⟩
      dsimp only
      rw [wrap]
      rfl
    · cases h
  · split at h
    · rename_i errStored
      rw [errStored] at stage
      cases h
      refine ⟨[.storeLen], _, run_cons.mpr ⟨_, if_pos stage, rfl⟩, rfl, ?_, woken, phase.frame rfl rfl rfl⟩
      dsimp only
      rw [wrap]
      rfl
    · cases h
  · split at h
    · rename_i lenStored
      rw [lenStored] at stage
      cases h
      refine ⟨[.publish], _, run_cons.mpr ⟨_, if_pos stage, rfl⟩, rfl, ?_, woken, phase.frame rfl rfl rfl⟩
      dsimp only
      rw [wrap]
      rfl
    · cases h
  · split at h
    · rename_i published
      rw [published] at stage
      cases h
      refine ⟨[.wake], _, run_cons.mpr ⟨_, if_pos stage, rfl⟩, rfl, ?_, ?_, phase.frame rfl rfl rfl⟩
      · dsimp only
        rw [wrap]
        rfl
      · dsimp only
        rw [List.map_append, woken, List.map_map, wrap]
        exact congrArg (op.woken ++ ·) (List.map_id _)
    · cases h
  · split at h
    · rename_i last
      rw [last] at stage
      cases h
      exact ⟨[], s, rfl, stage, wrap, woken, phase⟩
    · cases h
  · cases h

/-- A poll that has seen the completion goes on to return the result. -/
theorem resolve_simulated (err len : UInt32) (stage : s.stage = op.packet.stage) (wrap : s.wrap = cell.wrap.shared)
    (woken : s.woken.map Prod.snd = op.woken) (reads : s.task = .readingErr) :
    ∃ accesses t, run (Handshake.step err len) s accesses = some t ∧
      Shows { op with phase := .resolved cell.wrap.result } cell t := by
  obtain ⟨accesses, loads⟩ := reads_result err len reads
  refine ⟨accesses, _, loads, stage, wrap, woken, rfl, ?_⟩
  rw [wrap]
  rfl

theorem poll_simulated (shows : Shows op cell s) (awaiting : op.phase = .awaiting) (waker : Nat)
    (h : op.futureStep cell (.poll waker) = some (op', cell')) :
    ∃ accesses t, run (Handshake.step err len) s accesses = some t ∧ Shows op' cell' t := by
  obtain ⟨stage, wrap, woken, phase⟩ := shows
  rw [awaiting] at phase
  have idle : s.task = .idle := phase
  have completed : s.wrap.completed = cell.wrap.completed := by rw [wrap]; rfl
  have first : s.step err len (.poll waker) = some (
      let begun := { s with polls := s.polls + 1, waker := waker, last := none }
      if s.wrap.completed then { begun with task := .readingErr } else { begun with task := .registering }) := if_pos idle
  simp only [Op.futureStep, awaiting] at h
  rw [completed] at first
  split at h
  · rename_i done
    cases h
    rw [if_pos done] at first
    obtain ⟨accesses, t, loads, shown⟩ := resolve_simulated err len
      (s := { s with polls := s.polls + 1, waker := waker, last := none, task := .readingErr }) stage wrap woken rfl
    exact ⟨_, t, run_cons.mpr ⟨_, first, loads⟩, shown⟩
  · rename_i done
    cases h
    rw [if_neg done] at first
    refine ⟨[.poll waker, .register], _, run_cons.mpr ⟨_, first, rfl⟩, stage, ?_, woken, rfl⟩
    dsimp only
    rw [wrap]
    rfl

theorem recheck_simulated (shows : Shows op cell s) (registering : op.phase = .registering)
    (h : op.futureStep cell .recheck = some (op', cell')) :
    ∃ accesses t, run (Handshake.step err len) s accesses = some t ∧ Shows op' cell' t := by
  obtain ⟨stage, wrap, woken, phase⟩ := shows
  rw [registering] at phase
  have again : s.task = .rechecking := phase
  have completed : s.wrap.completed = cell.wrap.completed := by rw [wrap]; rfl
  have first : s.step err len .recheck = some (
      if s.wrap.completed then { s with task := .readingErr } else { s with task := .idle, last := some .pending }) :=
    if_pos again
  simp only [Op.futureStep, registering] at h
  rw [completed] at first
  split at h
  · rename_i done
    cases h
    rw [if_pos done] at first
    obtain ⟨accesses, t, loads, shown⟩ := resolve_simulated err len (s := { s with task := .readingErr }) stage wrap
      woken rfl
    exact ⟨_, t, run_cons.mpr ⟨_, first, loads⟩, shown⟩
  · rename_i done
    cases h
    rw [if_neg done] at first
    exact ⟨[.recheck], _, run_cons.mpr ⟨_, first, rfl⟩, stage, wrap, woken, rfl⟩

/-- The blocking wait of an early drop, which ends at once or is left spinning. -/
theorem spin_simulated (err len : UInt32) (stage : s.stage = op.packet.stage) (wrap : s.wrap = cell.wrap.shared)
    (woken : s.woken.map Prod.snd = op.woken) (blocking : s.task = .blocking) (done : cell.wrap.completed = true) :
    ∃ t, s.step err len .spin = some t ∧ Shows { op with phase := .unblocked } cell t := by
  have completed : s.wrap.completed = true := by rw [wrap]; exact done
  have ends : s.step err len .spin = some (if s.wrap.completed then { s with task := .idle, unblocked := true } else s) :=
    if_pos blocking
  rw [if_pos completed] at ends
  exact ⟨_, ends, stage, wrap, woken, rfl, rfl⟩

theorem cancel_simulated (shows : Shows op cell s) (awaiting : op.phase = .awaiting)
    (h : op.futureStep cell .cancel = some (op', cell')) :
    ∃ accesses t, run (Handshake.step err len) s accesses = some t ∧ Shows op' cell' t := by
  obtain ⟨stage, wrap, woken, phase⟩ := shows
  rw [awaiting] at phase
  have idle : s.task = .idle := phase
  have first : s.step err len .block = some { s with task := .blocking } := if_pos idle
  simp only [Op.futureStep, awaiting] at h
  cases h
  by_cases done : cell.wrap.completed = true
  · rw [if_pos done]
    obtain ⟨t, ends, shown⟩ := spin_simulated err len (s := { s with task := .blocking }) stage wrap woken rfl done
    exact ⟨[.block, .spin], t, run_cons.mpr ⟨_, first, run_cons.mpr ⟨_, ends, rfl⟩⟩, shown⟩
  · rw [if_neg done]
    exact ⟨[.block], _, run_cons.mpr ⟨_, first, rfl⟩, stage, wrap, woken, rfl⟩

/-- What an operation does to its wrap in one step is a run of accesses of the handshake. -/
theorem act_simulated (shows : Shows op cell s) (touches : action.handshakes = true)
    (h : op.act cell action = some (op', cell')) :
    ∃ accesses t, run (Handshake.step op.outcome.err op.outcome.len) s accesses = some t ∧ Shows op' cell' t := by
  cases action with
  | dequeue | storeErr | storeLen | publish | wake | release =>
    simp only [Op.act] at h
    exact deliverStep_simulated shows h
  | poll waker =>
    cases phase : op.phase with
    | awaiting => exact poll_simulated shows phase waker h
    | _ => simp only [Op.act, Op.futureStep, phase] at h; cases h
  | recheck =>
    cases phase : op.phase with
    | registering => exact recheck_simulated shows phase h
    | _ => simp only [Op.act, Op.futureStep, phase] at h; cases h
  | cancel =>
    cases phase : op.phase with
    | awaiting => exact cancel_simulated shows phase h
    | _ => simp only [Op.act, Op.futureStep, phase] at h; cases h
  | unblock =>
    simp only [Op.act, Op.futureStep] at h
    split at h
    · rename_i cancelling
      split at h
      · rename_i done
        cases h
        obtain ⟨stage, wrap, woken, phase⟩ := shows
        rw [cancelling] at phase
        obtain ⟨t, ends, shown⟩ := spin_simulated op.outcome.err op.outcome.len stage wrap woken phase done
        exact ⟨[.spin], t, run_cons.mpr ⟨_, ends, rfl⟩, shown⟩
      · cases h
    · cases h
  | _ => cases touches

theorem act_outcome (touches : action.handshakes = true) (h : op.act cell action = some (op', cell')) :
    op'.outcome = op.outcome := by
  cases action with
  | dequeue | storeErr | storeLen | publish | wake | release =>
    simp only [Op.act, Op.deliverStep] at h
    split at h <;> cases h
    rfl
  | poll waker | recheck | unblock =>
    simp only [Op.act, Op.futureStep] at h
    split at h
    · split at h <;> cases h <;> rfl
    · cases h
  | cancel =>
    simp only [Op.act, Op.futureStep] at h
    split at h <;> cases h
    rfl
  | _ => cases touches

def Op.actOn (state : Op × Cell) (action : Action) : Option (Op × Cell) := state.1.act state.2 action

theorem acts_simulated {actions : List Action} (shows : Shows op cell s)
    (touch : ∀ action ∈ actions, action.handshakes = true) (h : run Op.actOn (op, cell) actions = some (op', cell')) :
    ∃ accesses t, run (Handshake.step op.outcome.err op.outcome.len) s accesses = some t ∧ Shows op' cell' t := by
  induction actions generalizing op cell s with
  | nil =>
    cases h
    exact ⟨[], s, rfl, shows⟩
  | cons action actions ih =>
    obtain ⟨⟨between, middle⟩, first, rest⟩ := run_cons.mp h
    have touches := touch action List.mem_cons_self
    obtain ⟨accesses, t, reached, shown⟩ := act_simulated shows touches first
    obtain ⟨more, u, later, last⟩ := ih shown (fun action member => touch action (List.mem_cons_of_mem _ member)) rest
    rw [act_outcome touches first] at later
    exact ⟨accesses ++ more, u, run_append.mpr ⟨t, reached, later⟩, last⟩

/-- What holds between any two accesses of the handshake holds of an operation: a poll resolves with the
result of the packet. -/
theorem resolved_result {actions : List Action} {result : Except Error UInt32} (early : op.packet.stage = .taken)
    (reset : cell.wrap.shared = {}) (unwoken : op.woken = []) (awaiting : op.phase = .awaiting)
    (touch : ∀ action ∈ actions, action.handshakes = true) (h : run Op.actOn (op, cell) actions = some (op', cell'))
    (resolved : op'.phase = .resolved result) : result = wrapResult op.outcome.err op.outcome.len := by
  obtain ⟨accesses, t, reached, shown⟩ := acts_simulated (shows_start early reset unwoken awaiting) touch h
  have phase := shown.phase
  rw [resolved] at phase
  exact (Handshake.run_sound reached).ready result phase.2

end HttpSys.Overlapped
