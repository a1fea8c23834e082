import Mathlib.Data.List.Basic

/-! The sweep of `sweep.rs`. For each engine one child process serves the points of the concurrency sweep and
another those of the size sweep. The answers of the operating system are functions of all that has happened so
far, so what holds for every `System` holds however the sweep fails. -/
namespace HttpSys.Bench

inductive Engine where
  | httpsys
  | axum
  deriving DecidableEq

def engines : List Engine := [.httpsys, .axum]

structure SweepOptions where
  ports : List UInt16
  duration : Nat
  warmup : Nat
  connections : List Nat
  sizes : List Nat
  sizeSweepConnections : Nat
  concurrencySweepBytes : Nat

/-- What one measurement asks of the load generator, and where it goes on the x axis. -/
structure Point where
  x : Nat
  bodyBytes : Nat
  connections : Nat
  deriving DecidableEq

/-- Children are numbered in the order they are spawned in. -/
inductive SweepEvent where
  | spawn (child : Nat) (engine : Engine) (port : UInt16)
  | openCpu (child : Nat)
  | ready (port : UInt16)
  | load (port : UInt16) (bodyBytes connections duration : Nat)
  | snapshot (child : Nat)
  | shutdown (port : UInt16)
  | polled (child : Nat)
  | kill (child : Nat)
  | wait (child : Nat)
  | closeCpu (child : Nat)
  deriving DecidableEq

abbrev History := List SweepEvent

def SweepEvent.isSpawn : SweepEvent → Bool
  | .spawn .. => true
  | _ => false

/-- What the calls of the sweep return; `R` is the result of a load and `C` a reading of a process's CPU time. -/
structure System (R C : Type) where
  currentExe : History → Bool
  spawn : History → Bool
  openCpu : History → Bool
  ready : History → Bool
  snapshot : History → Option C
  load : History → R
  tryWait : History → Except Unit Bool

inductive SweepError where
  | noPort
  | noExe
  | notSpawned
  | noCpu
  | notReady
  | noSnapshot
  deriving DecidableEq

structure Sample (R C : Type) where
  engine : Engine
  point : Point
  before : C
  result : R
  after : C

section
variable {R C : Type} (sys : System R C) (options : SweepOptions)

/-- `measure`; the load generator itself never fails. -/
def measure (child : Nat) (engine : Engine) (port : UInt16) (point : Point) (h : History) :
    Except SweepError (Sample R C) × History :=
  let h := if options.warmup ≠ 0 then h ++ [.load port point.bodyBytes point.connections options.warmup] else h
  match sys.snapshot h with
  | none => (.error .noSnapshot, h)
  | some before =>
    let h := h ++ [.snapshot child]
    let result := sys.load h
    let h := h ++ [.load port point.bodyBytes point.connections options.duration]
    match sys.snapshot h with
    | none => (.error .noSnapshot, h)
    | some after =>
      (.ok { engine := engine, point := point, before := before, result := result, after := after },
        h ++ [.snapshot child])

def measureAll (child : Nat) (engine : Engine) (port : UInt16) : List Point → History →
    Except SweepError (List (Sample R C)) × History
  | [], h => (.ok [], h)
  | point :: points, h =>
    match measure sys options child engine port point h with
    | (.error e, h) => (.error e, h)
    | (.ok sample, h) =>
      match measureAll child engine port points h with
      | (.error e, h) => (.error e, h)
      | (.ok samples, h) => (.ok (sample :: samples), h)

/-- `ServerProcess::drop`, with the drop of its fields. -/
def dropServer (child : Nat) (h : History) : History := h ++ [.kill child, .wait child, .closeCpu child]

/-- `ServerProcess::spawn`. The child of a failed `ProcessCpu::open` is dropped as it is. -/
def spawnServer (engine : Engine) (port : UInt16) (h : History) : Except SweepError Nat × History :=
  if sys.currentExe h then
    if sys.spawn h then
      let child := h.countP SweepEvent.isSpawn
      let h := h ++ [.spawn child engine port]
      if sys.openCpu h then
        let h := h ++ [.openCpu child]
        if sys.ready h then (.ok child, h ++ [.ready port]) else (.error .notReady, dropServer child h)
      else (.error .noCpu, h)
    else (.error .notSpawned, h)
  else (.error .noExe, h)

/-- The polls of `stop`; `true` when the child has exited by itself. -/
def pollExit (child : Nat) : Nat → History → Bool × History
  | 0, h => (false, h)
  | polls + 1, h =>
    match sys.tryWait h with
    | .ok true => (true, h ++ [.polled child])
    | .ok false => pollExit child polls (h ++ [.polled child])
    | .error () => (false, h)

/-- `ServerProcess::stop`. It consumes the server, so the drop comes on top of what it does itself. -/
def stop (child : Nat) (port : UInt16) (h : History) : History :=
  let (exited, h) := pollExit sys child 40 (h ++ [.shutdown port])
  dropServer child (if exited then h else h ++ [.kill child, .wait child])

/-- What `concurrency_sweep` and `size_sweep` have in common. -/
def sweepPoints (engine : Engine) (port : UInt16) (points : List Point) (h : History) :
    Except SweepError (List (Sample R C)) × History :=
  match spawnServer sys engine port h with
  | (.error e, h) => (.error e, h)
  | (.ok child, h) =>
    match measureAll sys options child engine port points h with
    | (.error e, h) => (.error e, dropServer child h)
    | (.ok samples, h) => (.ok samples, stop sys child port h)

def concurrencyPoints : List Point :=
  options.connections.map fun connections =>
    { x := connections, bodyBytes := options.concurrencySweepBytes, connections := connections }

def sizePoints : List Point :=
  options.sizes.map fun size => { x := size, bodyBytes := size, connections := options.sizeSweepConnections }

def concurrencySweep (engine : Engine) (port : UInt16) (h : History) : Except SweepError (List (Sample R C)) × History :=
  sweepPoints sys options engine port (concurrencyPoints options) h

def sizeSweep (engine : Engine) (port : UInt16) (h : History) : Except SweepError (List (Sample R C)) × History :=
  sweepPoints sys options engine port (sizePoints options) h

/-- The loop of `run`. -/
def sweepEngines : List (Engine × Nat) → History →
    Except SweepError (List (Sample R C) × List (Sample R C)) × History
  | [], h => (.ok ([], []), h)
  | (engine, index) :: rest, h =>
    match options.ports[index]? with
    | none => (.error .noPort, h)
    | some port =>
      match concurrencySweep sys options engine port h with
      | (.error e, h) => (.error e, h)
      | (.ok concurrency, h) =>
        match sizeSweep sys options engine port h with
        | (.error e, h) => (.error e, h)
        | (.ok size, h) =>
          match sweepEngines rest h with
          | (.error e, h) => (.error e, h)
          | (.ok (concurrency', size'), h) => (.ok (concurrency ++ concurrency', size ++ size'), h)

def runSweep : Except SweepError (List (Sample R C) × List (Sample R C)) × History :=
  sweepEngines sys options engines.zipIdx []

end

/-! ### Histories -/

def Waited (h : History) : Prop := ∀ child engine port, .spawn child engine port ∈ h → .wait child ∈ h

/-- Every child was spawned after all children before it had been waited for. -/
inductive OneAtATime : History → Prop where
  | start : OneAtATime []
  | quiet {h : History} {event : SweepEvent} (before : OneAtATime h) (quiet : event.isSpawn = false) :
    OneAtATime (h ++ [event])
  | spawn {h : History} (before : OneAtATime h) (waited : Waited h) (child : Nat) (engine : Engine) (port : UInt16) :
    OneAtATime (h ++ [.spawn child engine port])

/-- No child is running and no handle is open. -/
structure Tidy (h : History) : Prop where
  waited : Waited h
  closed : ∀ child, .openCpu child ∈ h → .closeCpu child ∈ h
  numbered : ∀ child, .wait child ∈ h → child < h.countP SweepEvent.isSpawn
  alone : OneAtATime h

theorem tidy_start : Tidy [] :=
  ⟨fun _ _ _ member => (by cases member), fun _ member => (by cases member), fun _ member => (by cases member), .start⟩

def Quiet (events : History) : Prop := ∀ event ∈ events, event.isSpawn = false

theorem quiet_append {events events' : History} (quiet : Quiet events) (quiet' : Quiet events') : Quiet (events ++ events') := by
  intro event member
  rcases List.mem_append.mp member with first | second
  · exact quiet event first
  · exact quiet' event second

theorem quiet_count {events : History} (quiet : Quiet events) (h : History) :
    (h ++ events).countP SweepEvent.isSpawn = h.countP SweepEvent.isSpawn := by
  have none_ : events.countP SweepEvent.isSpawn = 0 :=
    List.countP_eq_zero.mpr fun event member => by simp [quiet event member]
  rw [List.countP_append, none_, Nat.add_zero]

theorem alone_append {h events : History} (alone : OneAtATime h) (quiet : Quiet events) : OneAtATime (h ++ events) := by
  induction events generalizing h with
  | nil =>
    rw [List.append_nil]
    exact alone
  | cons event events ih =>
    rw [List.append_cons]
    apply ih (.quiet alone (quiet event List.mem_cons_self))
    exact fun other member => quiet other (List.mem_cons_of_mem _ member)

/-- The child is running, and the handle of it may be open. -/
structure Serving (child : Nat) (h : History) : Prop where
  waited : ∀ other engine port, .spawn other engine port ∈ h → other = child ∨ .wait other ∈ h
  closed : ∀ other, .openCpu other ∈ h → other = child ∨ .closeCpu other ∈ h
  numbered : ∀ other, .wait other ∈ h → other < h.countP SweepEvent.isSpawn
  known : child < h.countP SweepEvent.isSpawn
  alone : OneAtATime h

/-- Events that neither spawn nor open anything, nor wait for another child. -/
structure Minds (child : Nat) (events : History) : Prop where
  quiet : Quiet events
  opens : ∀ other, .openCpu other ∈ events → other = child
  waits : ∀ other, .wait other ∈ events → other = child

theorem minds_append {child : Nat} {events events' : History} (minds : Minds child events) (minds' : Minds child events') :
    Minds child (events ++ events') := by
  refine ⟨quiet_append minds.quiet minds'.quiet, ?_, ?_⟩
  · intro other member
    exact (List.mem_append.mp member).elim (minds.opens other) (minds'.opens other)
  · intro other member
    exact (List.mem_append.mp member).elim (minds.waits other) (minds'.waits other)

theorem serving_append {child : Nat} {h events : History} (serving : Serving child h) (minds : Minds child events) :
    Serving child (h ++ events) := by
  obtain ⟨waited, closed, numbered, known, alone⟩ := serving
  have count := quiet_count minds.quiet h
  refine ⟨?_, ?_, ?_, by omega, alone_append alone minds.quiet⟩
  · intro other engine port member
    rcases List.mem_append.mp member with before | later
    · exact (waited other engine port before).imp id (List.mem_append_left _)
    · cases minds.quiet _ later
  · intro other member
    rcases List.mem_append.mp member with before | later
    · exact (closed other before).imp id (List.mem_append_left _)
    · exact Or.inl (minds.opens other later)
  · intro other member
    rcases List.mem_append.mp member with before | later
    · have below := numbered other before
      omega
    · obtain rfl := minds.waits other later
      omega

/-- A fresh child gets the next number, which nobody has waited for yet. -/
theorem serving_spawn {h : History} (tidy : Tidy h) (engine : Engine) (port : UInt16) :
    Serving (h.countP SweepEvent.isSpawn) (h ++ [.spawn (h.countP SweepEvent.isSpawn) engine port]) := by
  have count : (h ++ [SweepEvent.spawn (h.countP SweepEvent.isSpawn) engine port]).countP SweepEvent.isSpawn =
      h.countP SweepEvent.isSpawn + 1 := by
    rw [List.countP_append]
    rfl
  refine ⟨?_, ?_, ?_, by omega, .spawn tidy.alone tidy.waited _ engine port⟩
  · intro other engine' port' member
    rcases List.mem_append.mp member with before | new
    · exact Or.inr (List.mem_append_left _ (tidy.waited other engine' port' before))
    · cases List.mem_singleton.mp new
      exact Or.inl rfl
  · intro other member
    rcases List.mem_append.mp member with before | new
    · exact Or.inr (List.mem_append_left _ (tidy.closed other before))
    · cases List.mem_singleton.mp new
  · intro other member
    rcases List.mem_append.mp member with before | new
    · have below := tidy.numbered other before
      omega
    · cases List.mem_singleton.mp new

theorem tidy_dropServer {child : Nat} {h : History} (serving : Serving child h) : Tidy (dropServer child h) := by
  have minds : Minds child [.kill child, .wait child, .closeCpu child] :=
    ⟨by simp [Quiet, SweepEvent.isSpawn], by simp, by simp⟩
  obtain ⟨waited, closed, numbered, -, alone⟩ := serving_append serving minds
  refine ⟨?_, ?_, numbered, alone⟩
  · intro other engine port member
    rcases waited other engine port member with rfl | done
    · simp [dropServer]
    · exact done
  · intro other member
    rcases closed other member with rfl | done
    · simp [dropServer]
    · exact done

/-! ### One child -/

section
variable {R C : Type} (sys : System R C) (options : SweepOptions)

theorem measure_spec (child : Nat) (engine : Engine) (port : UInt16) (point : Point) (h : History) :
    (∃ events, (measure sys options child engine port point h).2 = h ++ events ∧ Minds child events) ∧
    (measure sys options child engine port point h).1 ≠ .error .noCpu ∧
    ∀ sample, (measure sys options child engine port point h).1 = .ok sample →
      sample.engine = engine ∧ sample.point = point := by
  have warmed : ∃ warmup, (if options.warmup ≠ 0 then
      h ++ [.load port point.bodyBytes point.connections options.warmup] else h) = h ++ warmup ∧ Minds child warmup := by
    split
    · exact ⟨_, rfl, by simp [Quiet, SweepEvent.isSpawn], by simp, by simp⟩
    · exact ⟨[], (List.append_nil h).symm, by simp [Quiet], by simp, by simp⟩
  obtain ⟨warmup, before, minds⟩ := warmed
  unfold measure
  dsimp only
  rw [before]
  split
  · exact ⟨⟨warmup, rfl, minds⟩, by simp, by simp⟩
  · split
    · refine ⟨⟨warmup ++ [.snapshot child, .load port point.bodyBytes point.connections options.duration], by simp,
        minds_append minds ?_⟩, by simp, by simp⟩
      exact ⟨by simp [Quiet, SweepEvent.isSpawn], by simp, by simp⟩
    · refine ⟨⟨warmup ++ [.snapshot child, .load port point.bodyBytes point.connections options.duration,
        .snapshot child], by simp, minds_append minds ?_⟩, by simp, ?_⟩
      · exact ⟨by simp [Quiet, SweepEvent.isSpawn], by simp, by simp⟩
      · intro sample same
        cases same
        exact ⟨rfl, rfl⟩

theorem measureAll_spec (child : Nat) (engine : Engine) (port : UInt16) (points : List Point) (h : History)
    (serving : Serving child h) :
    Serving child (measureAll sys options child engine port points h).2 ∧
    (measureAll sys options child engine port points h).1 ≠ .error .noCpu ∧
    ∀ samples, (measureAll sys options child engine port points h).1 = .ok samples →
      samples.map (fun sample => (sample.engine, sample.point)) = points.map fun point => (engine, point) := by
  induction points generalizing h with
  | nil =>
    refine ⟨serving, by simp [measureAll], ?_⟩
    intro samples same
    cases same
    rfl
  | cons point points ih =>
    obtain ⟨⟨events, history, minds⟩, noCpu, own⟩ := measure_spec sys options child engine port point h
    unfold measureAll
    generalize measure sys options child engine port point h = first at history noCpu own
    obtain ⟨result, after⟩ := first
    obtain rfl : after = h ++ events := history
    have still := serving_append serving minds
    cases result with
    | error e => exact ⟨still, by simpa using noCpu, by simp⟩
    | ok sample =>
      obtain ⟨last, noCpu', rest⟩ := ih _ still
      dsimp only
      generalize measureAll sys options child engine port points (h ++ events) = later at last noCpu' rest
      obtain ⟨result', after'⟩ := later
      cases result' with
      | error e => exact ⟨last, by simpa using noCpu', by simp⟩
      | ok samples =>
        refine ⟨last, by simp, ?_⟩
        intro all same
        cases same
        obtain ⟨engine_, point_⟩ := own sample rfl
        rw [List.map_cons, List.map_cons, rest samples rfl, engine_, point_]

theorem pollExit_minds (child polls : Nat) (h : History) :
    ∃ events, (pollExit sys child polls h).2 = h ++ events ∧ Minds child events := by
  induction polls generalizing h with
  | zero => exact ⟨[], (List.append_nil h).symm, by simp [Quiet], by simp, by simp⟩
  | succ polls ih =>
    have polled : Minds child [.polled child] := ⟨by simp [Quiet, SweepEvent.isSpawn], by simp, by simp⟩
    unfold pollExit
    split
    · exact ⟨_, rfl, polled⟩
    · obtain ⟨events, history, minds⟩ := ih (h ++ [.polled child])
      refine ⟨[.polled child] ++ events, ?_, minds_append polled minds⟩
      rw [history, List.append_assoc]
    · exact ⟨[], (List.append_nil h).symm, by simp [Quiet], by simp, by simp⟩

theorem tidy_stop {child : Nat} (port : UInt16) {h : History} (serving : Serving child h) :
    Tidy (stop sys child port h) := by
  have asked : Minds child [.shutdown port] := ⟨by simp [Quiet, SweepEvent.isSpawn], by simp, by simp⟩
  have killed : Minds child [.kill child, .wait child] := ⟨by simp [Quiet, SweepEvent.isSpawn], by simp, by simp⟩
  obtain ⟨events, history, minds⟩ := pollExit_minds sys child 40 (h ++ [.shutdown port])
  have polled := serving_append (serving_append serving asked) minds
  unfold stop
  dsimp only
  rw [history]
  split
  · exact tidy_dropServer polled
  · exact tidy_dropServer (serving_append polled killed)

/-- The one way to lose a child: `ProcessCpu::open` fails after the spawn. -/
def Lost (h : History) : Prop :=
  ∃ before engine port, Tidy before ∧
    h = before ++ [.spawn (before.countP SweepEvent.isSpawn) engine port]

theorem spawnServer_spec (engine : Engine) (port : UInt16) {h : History} (tidy : Tidy h) :
    (∃ child after, spawnServer sys engine port h = (.ok child, after) ∧ Serving child after) ∨
    (∃ e after, spawnServer sys engine port h = (.error e, after) ∧ e ≠ .noCpu ∧ Tidy after) ∨
    ∃ after, spawnServer sys engine port h = (.error .noCpu, after) ∧ Lost after := by
  have spawned := serving_spawn tidy engine port
  generalize count : h.countP SweepEvent.isSpawn = child at spawned
  have opened : Minds child [.openCpu child] := ⟨by simp [Quiet, SweepEvent.isSpawn], by simp, by simp⟩
  have ready : Minds child [.ready port] := ⟨by simp [Quiet, SweepEvent.isSpawn], by simp, by simp⟩
  have serving := serving_append spawned opened
  unfold spawnServer
  dsimp only
  rw [count]
  split
  · split
    · split
      · split
        · exact Or.inl ⟨child, _, rfl, serving_append serving ready⟩
        · exact Or.inr (Or.inl ⟨_, _, rfl, by simp, tidy_dropServer serving⟩)
      · exact Or.inr (Or.inr ⟨_, rfl, h, engine, port, tidy, by rw [count]⟩)
    · exact Or.inr (Or.inl ⟨_, _, rfl, by simp, tidy⟩)
  · exact Or.inr (Or.inl ⟨_, _, rfl, by simp, tidy⟩)

/-- How a sweep or a part of it ends; `key` is what the samples are about. -/
structure Ends {α : Type} (key : α → Prop) (result : Except SweepError α) (h : History) : Prop where
  tidy : result ≠ .error .noCpu → Tidy h
  lost : result = .error .noCpu → Lost h
  done : ∀ a, result = .ok a → key a

theorem ends_error {α β : Type} {key : α → Prop} {key' : β → Prop} {e : SweepError} {h : History}
    (ends : Ends key (.error e) h) : Ends key' (.error e) h :=
  ⟨fun other => ends.tidy (by simpa using other), fun same => ends.lost (by simpa using same), fun _ same => by cases same⟩

def About (engine : Engine) (points : List Point) (samples : List (Sample R C)) : Prop :=
  samples.map (fun sample => (sample.engine, sample.point)) = points.map fun point => (engine, point)

theorem sweepPoints_ends (engine : Engine) (port : UInt16) (points : List Point) {h : History} (tidy : Tidy h) :
    Ends (About engine points) (sweepPoints sys options engine port points h).1
      (sweepPoints sys options engine port points h).2 := by
  unfold sweepPoints
  rcases spawnServer_spec sys engine port tidy with ⟨child, after, spawned, serving⟩ | ⟨e, after, failed, other, clean⟩ |
    ⟨after, failed, lost⟩
  · rw [spawned]
    obtain ⟨still, noCpu, own⟩ := measureAll_spec sys options child engine port points after serving
    dsimp only
    generalize measureAll sys options child engine port points after = measured at still noCpu own
    obtain ⟨result, after⟩ := measured
    cases result with
    | error e =>
      refine ⟨fun _ => tidy_dropServer still, ?_, fun _ same => (by cases same)⟩
      intro same
      exact (noCpu (by simpa using same)).elim
    | ok samples =>
      refine ⟨fun _ => tidy_stop sys port still, fun same => (by cases same), ?_⟩
      intro all same
      exact own all (by simpa using same)
  · rw [failed]
    exact ⟨fun _ => clean, fun same => (other (by simpa using same)).elim, fun _ same => by cases same⟩
  · rw [failed]
    exact ⟨fun noCpu => (noCpu rfl).elim, fun _ => lost, fun _ same => by cases same⟩

/-- The points of all engines, in order. -/
def AboutAll (engines : List Engine) (points : List Point) (samples : List (Sample R C)) : Prop :=
  samples.map (fun sample => (sample.engine, sample.point)) =
    engines.flatMap fun engine => points.map fun point => (engine, point)

theorem sweepEngines_ends (rest : List (Engine × Nat)) {h : History} (tidy : Tidy h) :
    Ends (fun all => AboutAll (rest.map Prod.fst) (concurrencyPoints options) all.1 ∧
        AboutAll (rest.map Prod.fst) (sizePoints options) all.2)
      (sweepEngines sys options rest h).1 (sweepEngines sys options rest h).2 := by
  induction rest generalizing h with
  | nil =>
    refine ⟨fun _ => tidy, fun same => (by cases same), ?_⟩
    intro all same
    cases same
    exact ⟨rfl, rfl⟩
  | cons next rest ih =>
    obtain ⟨engine, index⟩ := next
    unfold sweepEngines
    split
    · exact ⟨fun _ => tidy, fun same => (by cases same), fun _ same => by cases same⟩
    · rename_i port found
      have first := sweepPoints_ends sys options engine port (concurrencyPoints options) tidy
      unfold concurrencySweep
      generalize sweepPoints sys options engine port (concurrencyPoints options) h = swept at first
      obtain ⟨result, h⟩ := swept
      cases result with
      | error e => exact ends_error first
      | ok concurrency =>
        have second := sweepPoints_ends sys options engine port (sizePoints options) (first.tidy (by simp))
        unfold sizeSweep
        dsimp only
        generalize sweepPoints sys options engine port (sizePoints options) h = swept at second
        obtain ⟨result, h⟩ := swept
        cases result with
        | error e => exact ends_error second
        | ok size =>
          have later := ih (second.tidy (by simp))
          dsimp only
          generalize sweepEngines sys options rest h = swept at later
          obtain ⟨result, h⟩ := swept
          cases result with
          | error e => exact ends_error later
          | ok all =>
            obtain ⟨concurrency', size'⟩ := all
            refine ⟨fun _ => later.tidy (by simp), fun same => (by cases same), ?_⟩
            intro all same
            cases same
            obtain ⟨one, two⟩ := later.done _ rfl
            refine ⟨?_, ?_⟩
            · rw [AboutAll, List.map_append, first.done _ rfl, one]
              rfl
            · rw [AboutAll, List.map_append, second.done _ rfl, two]
              rfl

theorem not_waited_of_lost {h : History} (lost : Lost h) : ¬ Waited h := by
  obtain ⟨before, engine, port, tidy, rfl⟩ := lost
  intro waited
  have done := waited _ engine port (List.mem_append_right _ (List.mem_singleton_self _))
  rcases List.mem_append.mp done with early | other
  · exact Nat.lt_irrefl _ (tidy.numbered _ early)
  · cases List.mem_singleton.mp other

end

/-- However a sweep ends, it has waited for every child that it spawned, unless `ProcessCpu::open` failed: then one child
goes on running. At no time are there two, every handle is closed, and a sweep that succeeds has one sample for each
engine and point, in order. -/
theorem sweep_leaves_no_child_iff {R C : Type} (sys : System R C) (options : SweepOptions) :
    (Waited (runSweep sys options).2 ↔ (runSweep sys options).1 ≠ .error .noCpu) ∧
    OneAtATime (runSweep sys options).2 ∧
    (∀ child, .openCpu child ∈ (runSweep sys options).2 → .closeCpu child ∈ (runSweep sys options).2) ∧
    ∀ concurrency size, (runSweep sys options).1 = .ok (concurrency, size) →
      AboutAll engines (concurrencyPoints options) concurrency ∧ AboutAll engines (sizePoints options) size := by
  have ends := sweepEngines_ends sys options engines.zipIdx tidy_start
  change Ends _ (runSweep sys options).1 (runSweep sys options).2 at ends
  have whole : OneAtATime (runSweep sys options).2 ∧
      ∀ child, .openCpu child ∈ (runSweep sys options).2 → .closeCpu child ∈ (runSweep sys options).2 := by
    by_cases noCpu : (runSweep sys options).1 = .error .noCpu
    · obtain ⟨before, engine, port, tidy, history⟩ := ends.lost noCpu
      rw [history]
      refine ⟨.spawn tidy.alone tidy.waited _ engine port, ?_⟩
      intro child member
      rcases List.mem_append.mp member with early | new
      · exact List.mem_append_left _ (tidy.closed child early)
      · cases List.mem_singleton.mp new
    · have tidy := ends.tidy noCpu
      exact ⟨tidy.alone, tidy.closed⟩
  refine ⟨?_, whole.1, whole.2, ?_⟩
  · constructor
    · intro waited noCpu
      exact not_waited_of_lost (ends.lost noCpu) waited
    · intro other
      exact (ends.tidy other).waited
  · intro concurrency size succeeded
    exact ends.done _ succeeded

/-- Everything works but the handle of the child. -/
def deniedSystem : System Unit Unit where
  currentExe := fun _ => true
  spawn := fun _ => true
  openCpu := fun _ => false
  ready := fun _ => true
  snapshot := fun _ => some ()
  load := fun _ => ()
  tryWait := fun _ => .ok true

def shortSweep : SweepOptions where
  ports := [8080, 8081]
  duration := 3
  warmup := 1
  connections := [1, 2]
  sizes := [1024]
  sizeSweepConnections := 32
  concurrencySweepBytes := 0

example : (runSweep deniedSystem shortSweep).2 = [.spawn 0 .httpsys 8080] := rfl

end HttpSys.Bench
