import HttpSys.Lib.Ownership
import HttpSys.Queue.Construction

/-! What a server acquires of http.sys and in which order it gives it back, on every way
its life can go: `with_config` fails, a builder is dropped, or a server is run and stopped.
The order is nowhere written down as such. It follows from the order of locals, of
fields and of the last clones. -/
namespace HttpSys
open Lib.Ownership Lib.Machine

/-- `library` is the use of http.sys that `HttpInitialize` begins and `HttpTerminate` ends. -/
inductive HttpObject where
  | library | session | group | queue | port
  deriving DecidableEq, Repr

inductive HttpCall where
  | acquire (o : HttpObject)
  | release (o : HttpObject)
  | addUrl (status : UInt32)
  | shutdownQueue
  deriving DecidableEq, Repr

/-- The contents of the three `Arc`s. -/
inductive Cell where
  | session | group | queue
  deriving DecidableEq, Repr

abbrev HttpOwned := Owned Cell HttpCall

abbrev HttpHeap := Heap Cell HttpCall

def httpInitializer : HttpOwned := .value [.release .library] []

def serverSession : HttpOwned := .shared .session (.value [.release .session] [])

-- The field `_session` goes after `UrlGroup::drop` has closed the group.
def urlGroup : HttpOwned := .shared .group (.value [.release .group] [serverSession])

def ioPort : HttpOwned := .value [.release .port] []

def requestQueue : HttpOwned := .shared .queue (.value [.release .queue] [ioPort])

/-! ### `ServerBuilder::with_config` -/

inductive BuildStep where
  | httpInit | createSession | createGroup | createQueue | createPort | spawnThread | associate | bindGroup | setLength
  deriving DecidableEq, Repr

/-- A call whose failure returns at once; locals are dropped latest first. -/
def attempt (failure : Option BuildStep) (step : BuildStep) (locals : List HttpOwned) (h : HttpHeap) :
    Except HttpHeap HttpHeap :=
  if failure = some step then .error (dropAll locals h) else .ok h

def unwinding (locals : List HttpOwned) : Except HttpHeap HttpHeap → Except HttpHeap HttpHeap
  | .error h => .error (dropAll locals h)
  | .ok h => .ok h

/-- `IoPort::new`; its guard closes the port when a thread cannot be spawned. -/
def ioPortNew (failure : Option BuildStep) (h : HttpHeap) : Except HttpHeap HttpHeap := do
  let h ← attempt failure .createPort [] h
  attempt failure .spawnThread [ioPort] (h.emit [.acquire .port])

/-- `RequestQueue::new`. The handle is a plain value until the queue is built: only the branch
for a failed `associate` closes it. -/
def requestQueueNew (failure : Option BuildStep) (h : HttpHeap) : Except HttpHeap HttpHeap := do
  let h ← attempt failure .createQueue [] h
  let h ← ioPortNew failure (h.emit [.acquire .queue])
  if failure = some .associate then .error (dropAll [ioPort] (h.emit [.release .queue])) else .ok h

def Fault.buildStep : Fault → BuildStep
  | .createQueue => .createQueue
  | .createPort => .createPort
  | .spawn _ => .spawnThread
  | .associate => .associate

/-- Of the calls of a construction, those that acquire or release an object. -/
def httpCall : QueueCall → Option HttpCall
  | .openQueue => some (.acquire .queue)
  | .closeQueue => some (.release .queue)
  | .openPort => some (.acquire .port)
  | .closePort => some (.release .port)
  | _ => none

theorem unwindCalls_httpCalls (fault : Option Fault) (threads : Nat) :
    (Construction.unwindCalls fault threads ++ [QueueCall.closePort]).filterMap httpCall =
      [.acquire .queue, .acquire .port] ++ (if fault = some .associate then [.release .queue] else []) ++
        [.release .port] := by
  have spawns : ((List.range threads).map QueueCall.spawn).filterMap httpCall = [] := by simp [httpCall]
  have joins : ((List.range threads).map QueueCall.join).filterMap httpCall = [] := by simp [httpCall]
  have stops : (List.replicate threads QueueCall.stop).filterMap httpCall = [] := by simp [httpCall]
  have handle : (Construction.handleCalls fault).filterMap httpCall =
      if fault = some .associate then [.release .queue] else [] := by
    unfold Construction.handleCalls
    split <;> rfl
  simp only [Construction.unwindCalls, Construction.acquisitions, List.filterMap_append, spawns, joins, stops, handle,
    List.append_nil]
  rfl

/-- Whatever the completion threads do, a construction that fails makes the calls of `requestQueueNew`. -/
theorem requestQueueNew_of_failed {ioThreads : Nat} {fault : Fault} {moves : List Construction.Move} {s : Construction}
    (ran : run (Construction.step ioThreads (some fault)) {} moves = some s) (failed : s.progress = .failed)
    (h : HttpHeap) : requestQueueNew (some fault.buildStep) h = .error (h.emit (s.trace.filterMap httpCall)) := by
  obtain ⟨counted, traced⟩ := Construction.run_traced ran
  obtain ⟨-, outcome⟩ := Construction.traced_failed counted traced failed
  have dropped : ∀ h : HttpHeap, dropAll [ioPort] h = h.emit [.release .port] := fun _ => rfl
  rcases outcome with ⟨fails, trace⟩ | ⟨fails, trace⟩ | ⟨origin, trace⟩
  · obtain rfl := Option.some.inj fails
    rw [trace, List.filterMap_nil, h.emit_nil]
    rfl
  · obtain rfl := Option.some.inj fails
    rw [trace]
    rfl
  · rw [trace, unwindCalls_httpCalls]
    rcases origin with fails | ⟨i, fails⟩
    · obtain rfl := Option.some.inj fails
      show Except.error (dropAll [ioPort] (((h.emit [.acquire .queue]).emit [.acquire .port]).emit [.release .queue])) = _
      rw [dropped, h.emit_emit, h.emit_emit, h.emit_emit]
      rfl
    · obtain rfl := Option.some.inj fails
      show Except.error (dropAll [ioPort] ((h.emit [.acquire .queue]).emit [.acquire .port])) = _
      rw [dropped, h.emit_emit, h.emit_emit]
      rfl

/-- The heap of a failed call has dropped everything; that of a successful one still holds the builder. -/
def withConfig (failure : Option BuildStep) : Except HttpHeap HttpHeap := do
  let h ← attempt failure .httpInit [] { clones := fun _ => 0, trace := [] }
  let h ← attempt failure .createSession [httpInitializer] (h.emit [.acquire .library])
  let h := (h.emit [.acquire .session]).clone .session
  let h ← attempt failure .createGroup [serverSession, httpInitializer] h
  let h := ((h.emit [.acquire .group]).clone .session).clone .group
  let h ← unwinding [urlGroup, serverSession, httpInitializer] (requestQueueNew failure h)
  let h := h.clone .queue
  let h ← attempt failure .bindGroup [requestQueue, urlGroup, serverSession, httpInitializer] h
  attempt failure .setLength [requestQueue, urlGroup, serverSession, httpInitializer] h

/-- The fields of `ServerBuilder` that hold anything of http.sys. -/
def builderFields : List HttpOwned := [httpInitializer, serverSession, urlGroup, requestQueue]

/-- The fields of `OwnedHandles`. -/
def ownedHandles : List HttpOwned := [requestQueue, urlGroup, serverSession, httpInitializer]

/-! ### Serving -/

/-- What the slots do with their clones of the queue while the server runs. -/
inductive ServeStep where
  | spawnSlot
  | receive
  | dropRequest
  | endSlot
  | shutdown
  deriving DecidableEq, Repr

structure Serving where
  heap : HttpHeap
  slots : Nat := 0
  requests : Nat := 0

def serveStep (s : Serving) : ServeStep → Option Serving
  | .spawnSlot => some { s with heap := s.heap.clone .queue, slots := s.slots + 1 }
  | .receive => if 0 < s.slots then some { s with heap := s.heap.clone .queue, requests := s.requests + 1 } else none
  | .dropRequest =>
    if 0 < s.requests then some { s with heap := drop requestQueue s.heap, requests := s.requests - 1 } else none
  | .endSlot => if 0 < s.slots then some { s with heap := drop requestQueue s.heap, slots := s.slots - 1 } else none
  | .shutdown => some { s with heap := s.heap.emit [.shutdownQueue] }

inductive Life where
  | failed (step : BuildStep)
  | dropped (routes : List UInt32)
  | ran (routes : List UInt32) (serving : List ServeStep)

/-- Routing acquires nothing that is released on its own: prefixes go with their group. -/
def routed (h : HttpHeap) (routes : List UInt32) : HttpHeap := h.emit (routes.map HttpCall.addUrl)

/-- The thread returns from `serve` once every slot is joined, then `serve` has dropped its own
clone of the queue and the handles go. `none` when the schedule is not one of a stopped server
whose requests are all dropped. -/
def stop (s : Serving) : Option HttpHeap :=
  if s.slots = 0 ∧ s.requests = 0 then some (dropAll ownedHandles (drop requestQueue s.heap)) else none

def Life.trace : Life → Option (List HttpCall)
  | .failed step =>
    match withConfig (some step) with
    | .error h => some h.trace
    | .ok _ => none
  | .dropped routes =>
    match withConfig none with
    | .error _ => none
    | .ok h => some (dropAll builderFields (routed h routes)).trace
  | .ran routes serving =>
    match withConfig none with
    | .error _ => none
    | .ok h => do
      let s ← run serveStep { heap := (routed h routes).clone .queue } serving
      let h ← stop s
      some h.trace

/-! ### What a trace gives back -/

def acquired (trace : List HttpCall) : List HttpObject :=
  trace.filterMap fun
    | .acquire o => some o
    | _ => none

def released (trace : List HttpCall) : List HttpObject :=
  trace.filterMap fun
    | .release o => some o
    | _ => none

/-- No `x` comes after a `y`. -/
def Before (x y : HttpObject) (order : List HttpObject) : Prop := ¬ [y, x].Sublist order
  deriving Decidable

/-- Everything acquired is closed once, and nothing else is. The group goes before its session, and
the library after all that was made with it. -/
structure TornDown (trace : List HttpCall) : Prop where
  once : ∀ o, (released trace).count o = if o ∈ acquired trace then 1 else 0
  groupFirst : Before .group .session (released trace)
  libraryLast : ∀ o ∈ [HttpObject.queue, .group, .session], Before o .library (released trace)

theorem acquired_append (before after : List HttpCall) :
    acquired (before ++ after) = acquired before ++ acquired after :=
  List.filterMap_append

theorem released_append (before after : List HttpCall) :
    released (before ++ after) = released before ++ released after :=
  List.filterMap_append

theorem acquired_routes (routes : List UInt32) : acquired (routes.map HttpCall.addUrl) = [] := by
  rw [acquired, List.filterMap_eq_nil_iff]
  intro call member
  obtain ⟨status, -, rfl⟩ := List.mem_map.mp member
  rfl

theorem released_routes (routes : List UInt32) : released (routes.map HttpCall.addUrl) = [] := by
  rw [released, List.filterMap_eq_nil_iff]
  intro call member
  obtain ⟨status, -, rfl⟩ := List.mem_map.mp member
  rfl

/-- In the order `with_config` acquires them. -/
def allObjects : List HttpObject := [.library, .session, .group, .queue, .port]

theorem mem_allObjects (o : HttpObject) : o ∈ allObjects := by
  cases o <;> decide

/-- Whether the trace is in order is read off the two projections. -/
theorem tornDown_iff {trace : List HttpCall} {objects order : List HttpObject} (took : acquired trace = objects)
    (gave : released trace = order) :
    TornDown trace ↔ (∀ o ∈ allObjects, order.count o = if o ∈ objects then 1 else 0) ∧ Before .group .session order ∧
      ∀ o ∈ [HttpObject.queue, .group, .session], Before o .library order := by
  subst took gave
  constructor
  · rintro ⟨once, groupFirst, libraryLast⟩
    exact ⟨fun o _ => once o, groupFirst, libraryLast⟩
  · rintro ⟨once, groupFirst, libraryLast⟩
    exact ⟨fun o => once o (mem_allObjects o), groupFirst, libraryLast⟩

instance (trace : List HttpCall) : Decidable (TornDown trace) := decidable_of_iff _ (tornDown_iff rfl rfl).symm

/-! ### The builder -/

def counts (session group queue : Nat) : Cell → Nat
  | .session => session
  | .group => group
  | .queue => queue

theorem clone_queue (session group queue : Nat) (trace : List HttpCall) :
    (⟨counts session group queue, trace⟩ : HttpHeap).clone .queue = ⟨counts session group (queue + 1), trace⟩ := by
  simp only [Heap.clone, Heap.mk.injEq, and_true]
  funext cell
  cases cell <;> rfl

/-- A clone of the queue that is not the last one goes without a call. -/
theorem drop_queue_clone {session group queue : Nat} (more : 2 ≤ queue) (trace : List HttpCall) :
    drop requestQueue ⟨counts session group queue, trace⟩ = ⟨counts session group (queue - 1), trace⟩ := by
  have others : (⟨counts session group queue, trace⟩ : HttpHeap).clones .queue ≠ 1 := by
    show queue ≠ 1
    omega
  rw [requestQueue, drop_clone others]
  simp only [Heap.release, Heap.mk.injEq, and_true]
  funext cell
  cases cell <;> rfl

/-- The group holds the second clone of the session. -/
theorem withConfig_built :
    withConfig none = .ok ⟨counts 2 1 1, allObjects.map HttpCall.acquire⟩ := by
  show Except.ok (Heap.mk _ _) = _
  congr 2
  funext cell
  cases cell <;> rfl

/-- The calls the two structs make when they go, from what is left of the clones. -/
theorem dropAll_builderFields (trace : List HttpCall) :
    (dropAll builderFields ⟨counts 2 1 1, trace⟩).trace =
      trace ++ [HttpObject.library, .group, .session, .queue, .port].map HttpCall.release := by
  have adds := congrArg Heap.trace (dropAll_adds builderFields (counts 2 1 1) trace)
  exact adds

theorem dropAll_ownedHandles (trace : List HttpCall) :
    (dropAll ownedHandles ⟨counts 2 1 1, trace⟩).trace =
      trace ++ [HttpObject.queue, .port, .group, .session, .library].map HttpCall.release := by
  have adds := congrArg Heap.trace (dropAll_adds ownedHandles (counts 2 1 1) trace)
  exact adds

/-! ### Serving changes clones of the queue only -/

/-- Every slot and every request has its clone, `serve` and the handles have two more. -/
def Held (s : Serving) : Prop :=
  ∃ trace, s.heap = ⟨counts 2 1 (s.slots + s.requests + 2), trace⟩ ∧ acquired trace = allObjects ∧ released trace = []

theorem serveStep_held {s t : Serving} {e : ServeStep} (held : Held s) (h : serveStep s e = some t) : Held t := by
  obtain ⟨trace, heap, took, gave⟩ := held
  cases e with
  | spawnSlot =>
    obtain rfl := Option.some.inj h
    refine ⟨trace, ?_, took, gave⟩
    show s.heap.clone .queue = ⟨counts 2 1 (s.slots + 1 + s.requests + 2), trace⟩
    rw [heap, clone_queue, Nat.add_right_comm s.slots 1]
  | receive =>
    obtain ⟨-, rfl⟩ := of_guard h
    refine ⟨trace, ?_, took, gave⟩
    show s.heap.clone .queue = ⟨counts 2 1 (s.slots + s.requests + 1 + 2), trace⟩
    rw [heap, clone_queue]
  | dropRequest =>
    obtain ⟨pending, rfl⟩ := of_guard h
    refine ⟨trace, ?_, took, gave⟩
    show drop requestQueue s.heap = ⟨counts 2 1 (s.slots + (s.requests - 1) + 2), trace⟩
    have left : s.slots + s.requests + 2 - 1 = s.slots + (s.requests - 1) + 2 := by omega
    rw [heap, drop_queue_clone (Nat.le_add_left _ _), left]
  | endSlot =>
    obtain ⟨running, rfl⟩ := of_guard h
    refine ⟨trace, ?_, took, gave⟩
    show drop requestQueue s.heap = ⟨counts 2 1 (s.slots - 1 + s.requests + 2), trace⟩
    have left : s.slots + s.requests + 2 - 1 = s.slots - 1 + s.requests + 2 := by omega
    rw [heap, drop_queue_clone (Nat.le_add_left _ _), left]
  | shutdown =>
    obtain rfl := Option.some.inj h
    refine ⟨trace ++ [.shutdownQueue], ?_, ?_, ?_⟩
    · show s.heap.emit [.shutdownQueue] = _
      rw [heap]
      rfl
    · rw [acquired_append, took]
      rfl
    · rw [released_append, gave]
      rfl

theorem held_start (routes : List UInt32) :
    Held { heap := (routed ⟨counts 2 1 1, allObjects.map HttpCall.acquire⟩ routes).clone .queue } := by
  refine ⟨allObjects.map HttpCall.acquire ++ routes.map HttpCall.addUrl, ?_, ?_, ?_⟩
  · exact clone_queue 2 1 1 _
  · rw [acquired_append, acquired_routes]
    rfl
  · rw [released_append, released_routes]
    rfl

theorem stop_trace {s : Serving} {after : HttpHeap} (held : Held s) (h : stop s = some after) :
    acquired after.trace = allObjects ∧ released after.trace = [.queue, .port, .group, .session, .library] := by
  obtain ⟨trace, heap, took, gave⟩ := held
  obtain ⟨⟨ended, dropped⟩, rfl⟩ := of_guard h
  have last : drop requestQueue s.heap = ⟨counts 2 1 1, trace⟩ := by
    rw [heap, ended, dropped]
    exact drop_queue_clone (Nat.le_refl 2) trace
  rw [last, dropAll_ownedHandles]
  constructor
  · rw [acquired_append, took]
    rfl
  · rw [released_append, gave]
    rfl

/-! ### Every life -/

/-- The lives on which nothing is left open or closed too late: construction does not fail inside
`IoPort::new`, and a builder that was built is run. -/
def Life.Orderly : Life → Prop
  | .failed step => step ≠ .createPort ∧ step ≠ .spawnThread
  | .dropped _ => False
  | .ran _ _ => True

theorem failed_tornDown_iff (step : BuildStep) {trace : List HttpCall} (h : (Life.failed step).trace = some trace) :
    TornDown trace ↔ (Life.failed step).Orderly := by
  show _ ↔ step ≠ .createPort ∧ step ≠ .spawnThread
  cases step <;> obtain rfl := Option.some.inj h <;> decide

theorem dropped_not_tornDown (routes : List UInt32) {trace : List HttpCall} (h : (Life.dropped routes).trace = some trace) :
    ¬ TornDown trace := by
  simp only [Life.trace, withConfig_built, routed, Heap.emit, dropAll_builderFields, Option.some.injEq] at h
  have gave : released trace = [.library, .group, .session, .queue, .port] := by
    rw [← h, released_append, released_append, released_routes]
    rfl
  intro tornDown
  have late := tornDown.libraryLast .queue List.mem_cons_self
  rw [gave] at late
  exact absurd late (by decide)

theorem ran_tornDown {routes : List UInt32} {serving : List ServeStep} {trace : List HttpCall}
    (h : (Life.ran routes serving).trace = some trace) : TornDown trace := by
  simp only [Life.trace, withConfig_built, Option.bind_eq_bind, Option.bind_eq_some_iff, Option.some.injEq] at h
  obtain ⟨s, served, after, stopped, rfl⟩ := h
  have held := run_invariant (fun _ _ _ held step => serveStep_held held step) (held_start routes) served
  obtain ⟨took, gave⟩ := stop_trace held stopped
  rw [tornDown_iff took gave]
  decide

/-- http.sys is given back in order on exactly the orderly lives: `OwnedHandles` declares the queue first and the
initializer last, `ServerBuilder` the initializer first, and a queue handle has no owner while its port is made. -/
theorem server_torn_down_iff {life : Life} {trace : List HttpCall} (h : life.trace = some trace) :
    TornDown trace ↔ life.Orderly := by
  cases life with
  | failed step => exact failed_tornDown_iff step h
  | dropped routes => exact ⟨dropped_not_tornDown routes h, False.elim⟩
  | ran routes serving => exact ⟨fun _ => trivial, fun _ => ran_tornDown h⟩

theorem server_torn_down_after_serving :
    ∃ trace, (Life.ran [0, 5] [.spawnSlot, .receive, .shutdown, .dropRequest, .endSlot]).trace = some trace ∧
      TornDown trace := by
  let life : Life := .ran [0, 5] [.spawnSlot, .receive, .shutdown, .dropRequest, .endSlot]
  have ran : life.trace = some (allObjects.map HttpCall.acquire ++ [.addUrl 0, .addUrl 5, .shutdownQueue] ++
      [HttpObject.queue, .port, .group, .session, .library].map HttpCall.release) := rfl
  exact ⟨_, ran, (server_torn_down_iff ran).mpr trivial⟩

/-- A builder that is dropped terminates http.sys before it closes anything, and a port that cannot be
created leaves the queue open. -/
theorem builder_not_torn_down :
    (Life.dropped [0]).trace = some (allObjects.map HttpCall.acquire ++ [.addUrl 0] ++
      [HttpObject.library, .group, .session, .queue, .port].map HttpCall.release) ∧
    (Life.failed .createPort).trace = some ([HttpObject.library, .session, .group, .queue].map HttpCall.acquire ++
      [HttpObject.group, .session, .library].map HttpCall.release) ∧
    ¬ ∀ (life : Life) (trace : List HttpCall), life.trace = some trace → TornDown trace := by
  have dropped : (Life.dropped [0]).trace = some (allObjects.map HttpCall.acquire ++ [.addUrl 0] ++
      [HttpObject.library, .group, .session, .queue, .port].map HttpCall.release) := rfl
  refine ⟨dropped, rfl, ?_⟩
  intro always
  exact absurd (always _ _ dropped) (by decide)

end HttpSys
