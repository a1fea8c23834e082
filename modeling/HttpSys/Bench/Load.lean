import HttpSys.Lib.Interleaving
import HttpSys.Lib.Machine
import HttpSys.Lib.Strings
import Mathlib.Data.List.Sort

/-! The load generator of `load.rs`: every connection is a task that runs `connection_loop`, and `run`
spawns the tasks and awaits them in the order it spawned them. A label of a run is one thing that
happens to one of them, so a schedule says in which order the connections make progress, what the
server answers on each and when the deadline is noticed. Instants are nanoseconds. -/
namespace HttpSys.Bench
open Lib.Machine Lib.Strings Lib.Interleaving

structure LoadSpec where
  connections : Nat
  duration : Nat

/-- What `connection_loop` fails with. -/
inductive LoadError where
  | caused (message : Text)
  | serverReplied (status : UInt16)
  deriving DecidableEq

structure LoadResult where
  elapsed : Nat := 0
  errors : Nat := 0
  latencies : List UInt64 := []
  deriving DecidableEq

def LoadResult.requests (r : LoadResult) : Nat := r.latencies.length

/-- `StatusCode::is_success`. -/
def isSuccess (status : UInt16) : Bool := 200 ≤ status && status < 300

/-- How one turn of the loop ends: no request could be built, none could be sent, the body broke off, or
the whole response came `nanos` after the request was sent. -/
inductive Exchange where
  | buildFailed (message : Text)
  | sendFailed (message : Text)
  | bodyFailed (message : Text)
  | complete (status : UInt16) (nanos : Nat)

inductive ConnectionEvent where
  | connect (result : Except Text Unit)
  | now (instant : Nat)
  | exchange (outcome : Exchange)
  | pumped
  | panic

/-- Where `connection_loop` is. -/
inductive Connection where
  | connecting
  | testing (latencies : List UInt64)
  | exchanging (latencies : List UInt64)
  | draining (latencies : List UInt64)
  | returned (result : Except LoadError (List UInt64))
  | panicked
  deriving DecidableEq

namespace Connection

/-- One turn of the loop from its request on; every `?` leaves `connection_loop` with the error alone. -/
def turn (latencies : List UInt64) : Exchange → Connection
  | .buildFailed message => .returned (.error (.caused message))
  | .sendFailed message => .returned (.error (.caused message))
  | .bodyFailed message => .returned (.error (.caused message))
  | .complete status nanos =>
    if isSuccess status then .testing (latencies ++ [UInt64.ofNat nanos])
    else .returned (.error (.serverReplied status))

def step (deadline : Nat) : Connection → ConnectionEvent → Option Connection
  | .connecting, .connect (.ok ()) => some (.testing [])
  | .connecting, .connect (.error message) => some (.returned (.error (.caused message)))
  | .testing latencies, .now instant =>
    some (if instant < deadline then .exchanging latencies else .draining latencies)
  | .exchanging latencies, .exchange outcome => some (turn latencies outcome)
  | .draining latencies, .pumped => some (.returned (.ok latencies))
  | .returned _, _ => none
  | .panicked, _ => none
  | _, .panic => some .panicked
  | _, _ => none

end Connection

/-- Where `run` is: `awaiting next result` is before the `await` of handle `next`. -/
inductive LoadMain where
  | spawning
  | awaiting (next : Nat) (result : LoadResult)
  | returned (result : LoadResult)
  deriving DecidableEq

structure Load where
  main : LoadMain := .spawning
  tasks : List Connection := []
  deriving DecidableEq

inductive LoadStep where
  | spawn
  | spawned
  | task (i : Nat) (event : ConnectionEvent)
  | await
  | finish (elapsed : Nat)

/-- One arm of the `match` on an awaited handle; a task that has not ended keeps `run` waiting. -/
def LoadResult.add (r : LoadResult) : Connection → Option LoadResult
  | .returned (.ok samples) => some { r with latencies := r.latencies ++ samples }
  | .returned (.error _) => some { r with errors := r.errors + 1 }
  | .panicked => some { r with errors := r.errors + 1 }
  | _ => none

namespace Load

def step (spec : LoadSpec) (started : Nat) (s : Load) : LoadStep → Option Load
  | .spawn =>
    if s.main = .spawning ∧ s.tasks.length < max spec.connections 1 then
      some { s with tasks := s.tasks ++ [.connecting] }
    else none
  | .spawned =>
    if s.main = .spawning ∧ s.tasks.length = max spec.connections 1 then some { s with main := .awaiting 0 {} }
    else none
  | .task i event => do
    let task ← s.tasks[i]?
    let next ← task.step (started + spec.duration) event
    return { s with tasks := s.tasks.set i next }
  | .await =>
    match s.main with
    | .awaiting i r => do
      let task ← s.tasks[i]?
      let r ← r.add task
      return { s with main := .awaiting (i + 1) r }
    | _ => none
  | .finish elapsed =>
    match s.main with
    | .awaiting i r =>
      if i = s.tasks.length then
        some { s with main := .returned { r with elapsed := elapsed, latencies := r.latencies.mergeSort } }
      else none
    | _ => none

end Load

/-! ### What a schedule asks for -/

/-- The latency of a request that received a whole success response. -/
def ConnectionEvent.succeeded : ConnectionEvent → Option UInt64
  | .exchange (.complete status nanos) => if isSuccess status then some (UInt64.ofNat nanos) else none
  | _ => none

def ConnectionEvent.fails : ConnectionEvent → Bool
  | .connect (.error _) => true
  | .exchange (.complete status _) => !isSuccess status
  | .exchange _ => true
  | .panic => true
  | _ => false

def happened (labels : List LoadStep) : List (Nat × ConnectionEvent) :=
  labels.filterMap fun
    | .task i event => some (i, event)
    | _ => none

/-- The latencies of all requests that received a whole success response, as they came in. -/
def completed (labels : List LoadStep) : List UInt64 := (happened labels).filterMap fun entry => entry.2.succeeded

def completedBy (i : Nat) (labels : List LoadStep) : List UInt64 :=
  (only i (happened labels)).filterMap ConnectionEvent.succeeded

def failedBy (i : Nat) (labels : List LoadStep) : Bool := (only i (happened labels)).any ConnectionEvent.fails

/-! ### One connection -/

namespace Connection

/-- The samples `connection_loop` holds or has returned. -/
def samples : Connection → List UInt64
  | .connecting => []
  | .testing latencies => latencies
  | .exchanging latencies => latencies
  | .draining latencies => latencies
  | .returned (.ok latencies) => latencies
  | .returned (.error _) => []
  | .panicked => []

def failed : Connection → Bool
  | .returned (.error _) => true
  | .panicked => true
  | _ => false

def ended : Connection → Bool
  | .returned _ => true
  | .panicked => true
  | _ => false

theorem turn_spec (latencies : List UInt64) (outcome : Exchange) :
    (turn latencies outcome).failed = (ConnectionEvent.exchange outcome).fails ∧
    (turn latencies outcome).samples = if (ConnectionEvent.exchange outcome).fails then [] else
      latencies ++ (ConnectionEvent.exchange outcome).succeeded.toList := by
  cases outcome with
  | buildFailed message => exact ⟨rfl, rfl⟩
  | sendFailed message => exact ⟨rfl, rfl⟩
  | bodyFailed message => exact ⟨rfl, rfl⟩
  | complete status nanos =>
    cases success : isSuccess status with
    | true =>
      simp only [turn, ConnectionEvent.fails, ConnectionEvent.succeeded, success]
      exact ⟨rfl, rfl⟩
    | false =>
      simp only [turn, ConnectionEvent.fails, success]
      exact ⟨rfl, rfl⟩

/-- A step is taken only by a task that has not ended; it fails the task when its event is a failure, which costs it
all samples, and else adds the sample of its event. -/
theorem step_spec {deadline : Nat} {c c' : Connection} {event : ConnectionEvent} (h : c.step deadline event = some c') :
    c.ended = false ∧ c'.failed = event.fails ∧
    c'.samples = if event.fails then [] else c.samples ++ event.succeeded.toList := by
  unfold step at h
  split at h <;> cases h
  · exact ⟨rfl, rfl, rfl⟩
  · exact ⟨rfl, rfl, rfl⟩
  · split
    · exact ⟨rfl, rfl, (List.append_nil _).symm⟩
    · exact ⟨rfl, rfl, (List.append_nil _).symm⟩
  · exact ⟨rfl, turn_spec _ _⟩
  · exact ⟨rfl, rfl, (List.append_nil _).symm⟩
  · rename_i running live
    refine ⟨?_, rfl, rfl⟩
    cases c with
    | returned result => exact absurd rfl (running result)
    | panicked => exact absurd rfl live
    | _ => rfl

/-- The task is where the events of its own take it. -/
structure Follows (c : Connection) (events : List ConnectionEvent) : Prop where
  failed : c.failed = events.any ConnectionEvent.fails
  samples : c.samples = if events.any ConnectionEvent.fails then [] else events.filterMap ConnectionEvent.succeeded

theorem follows_start : Follows .connecting [] := ⟨rfl, rfl⟩

theorem failed_of_running {c : Connection} (running : c.ended = false) : c.failed = false := by
  cases c with
  | returned result => cases running
  | panicked => cases running
  | _ => rfl

theorem follows_step {deadline : Nat} {c c' : Connection} {events : List ConnectionEvent} {event : ConnectionEvent}
    (follows : Follows c events) (h : c.step deadline event = some c') : Follows c' (events ++ [event]) := by
  obtain ⟨running, failed, samples⟩ := step_spec h
  have none_ : events.any ConnectionEvent.fails = false := follows.failed.symm.trans (failed_of_running running)
  have held : c.samples = events.filterMap ConnectionEvent.succeeded := by
    rw [follows.samples, none_, if_neg Bool.false_ne_true]
  have fails : (events ++ [event]).any ConnectionEvent.fails = event.fails := by
    rw [List.any_append, none_, Bool.false_or]
    exact Bool.or_false _
  have succeeded : (events ++ [event]).filterMap ConnectionEvent.succeeded =
      events.filterMap ConnectionEvent.succeeded ++ event.succeeded.toList := by
    rw [List.filterMap_append, List.filterMap_cons, List.filterMap_nil]
    cases event.succeeded <;> rfl
  constructor
  · rw [fails, failed]
  · rw [fails, succeeded, samples, held]

end Connection

/-! ### Merging -/

theorem add_cases {r r' : LoadResult} {c : Connection} (h : r.add c = some r') :
    c.ended = true ∧ r'.latencies = r.latencies ++ c.samples ∧ r'.errors = r.errors + if c.failed then 1 else 0 := by
  unfold LoadResult.add at h
  split at h <;> cases h
  · exact ⟨rfl, rfl, rfl⟩
  · exact ⟨rfl, (List.append_nil _).symm, rfl⟩
  · exact ⟨rfl, (List.append_nil _).symm, rfl⟩

/-- What `run` has after it awaited the tasks. -/
theorem merge_spec {r r' : LoadResult} {tasks : List Connection} (h : run LoadResult.add r tasks = some r') :
    (∀ c ∈ tasks, c.ended = true) ∧ r'.latencies = r.latencies ++ tasks.flatMap Connection.samples ∧
    r'.errors = r.errors + tasks.countP Connection.failed := by
  induction tasks generalizing r with
  | nil =>
    cases h
    exact ⟨fun c member => (nomatch member), (List.append_nil _).symm, rfl⟩
  | cons c tasks ih =>
    obtain ⟨between, first, rest⟩ := run_cons.mp h
    obtain ⟨ended, latencies, errors⟩ := add_cases first
    obtain ⟨allEnded, allLatencies, allErrors⟩ := ih rest
    refine ⟨?_, ?_, ?_⟩
    · intro d member
      rcases List.mem_cons.mp member with rfl | member
      · exact ended
      · exact allEnded d member
    · rw [allLatencies, latencies, List.flatMap_cons, List.append_assoc]
    · rw [allErrors, errors, List.countP_cons]
      omega

/-! ### A whole run -/

theorem happened_concat (labels : List LoadStep) (label : LoadStep) :
    happened (labels ++ [label]) = happened labels ++ happened [label] := List.filterMap_append

namespace Load

/-- What `run` has so far is what the handles it awaited hold. -/
def Merged (spec : LoadSpec) (s : Load) : Prop :=
  match s.main with
  | .spawning => True
  | .awaiting next r =>
    s.tasks.length = max spec.connections 1 ∧ next ≤ s.tasks.length ∧ run LoadResult.add {} (s.tasks.take next) = some r
  | .returned r =>
    s.tasks.length = max spec.connections 1 ∧
    ∃ merged elapsed, run LoadResult.add {} s.tasks = some merged ∧
      r = { merged with elapsed := elapsed, latencies := merged.latencies.mergeSort }

structure Traced (spec : LoadSpec) (s : Load) (labels : List LoadStep) : Prop where
  bounded : ∀ entry ∈ happened labels, entry.1 < s.tasks.length
  follows : ∀ i (c : Connection), s.tasks[i]? = some c → c.Follows (only i (happened labels))
  merged : s.Merged spec

theorem traced_start (spec : LoadSpec) : Traced spec {} [] where
  bounded := fun _ member => (nomatch member)
  follows := fun _ _ found => by cases found
  merged := trivial

/-- A step of `run` itself that touches no task. -/
theorem Traced.silent {spec : LoadSpec} {s : Load} {labels : List LoadStep} {label : LoadStep}
    (traced : Traced spec s labels) (silent : happened [label] = []) {main : LoadMain} (merged : Merged spec { s with main := main }) :
    Traced spec { s with main := main } (labels ++ [label]) := by
  have same : happened (labels ++ [label]) = happened labels := by rw [happened_concat, silent, List.append_nil]
  constructor
  · rw [same]
    exact traced.bounded
  · rw [same]
    exact traced.follows
  · exact merged

theorem Traced.spawn {spec : LoadSpec} {s : Load} {labels : List LoadStep} (traced : Traced spec s labels)
    (spawning : s.main = .spawning) :
    Traced spec { s with tasks := s.tasks ++ [.connecting] } (labels ++ [.spawn]) := by
  have same : happened (labels ++ [.spawn]) = happened labels := by
    rw [happened_concat]
    exact List.append_nil _
  constructor
  · rw [same]
    intro entry member
    have small := traced.bounded entry member
    rw [List.length_append]
    omega
  · rw [same]
    intro i c found
    by_cases old : i < s.tasks.length
    · apply traced.follows i c
      rwa [List.getElem?_append_left old] at found
    · -- nothing has happened to the new task
      rw [List.getElem?_append_right (by omega), List.getElem?_singleton] at found
      obtain ⟨-, rfl⟩ := of_guard found
      rw [only_of_absent]
      · exact Connection.follows_start
      · intro entry member
        have small := traced.bounded entry member
        omega
  · unfold Merged
    rw [spawning]
    trivial

/-- A task that `run` has awaited takes no step any more. -/
theorem take_set_of_running {tasks : List Connection} {k i : Nat} {r : LoadResult} {c : Connection}
    (merged : run LoadResult.add {} (tasks.take k) = some r) (found : tasks[i]? = some c) (running : c.ended = false)
    (c' : Connection) : (tasks.set i c').take k = tasks.take k := by
  have later : k ≤ i := by
    by_contra awaited
    have member : c ∈ tasks.take k := by
      have same : (tasks.take k)[i]? = tasks[i]? := List.getElem?_take_of_lt (by omega)
      exact List.mem_of_getElem? (same.trans found)
    have ended := (merge_spec merged).1 c member
    rw [running] at ended
    cases ended
  exact List.take_set_of_le later

theorem Traced.task {spec : LoadSpec} {s : Load} {labels : List LoadStep} {deadline i : Nat} {event : ConnectionEvent}
    {c c' : Connection} (traced : Traced spec s labels) (found : s.tasks[i]? = some c)
    (stepped : c.step deadline event = some c') :
    Traced spec { s with tasks := s.tasks.set i c' } (labels ++ [.task i event]) := by
  have more : happened (labels ++ [.task i event]) = happened labels ++ [(i, event)] := happened_concat _ _
  obtain ⟨small, -⟩ := List.getElem?_eq_some_iff.mp found
  have running := (Connection.step_spec stepped).1
  constructor
  · rw [more, List.length_set]
    intro entry member
    rcases List.mem_append.mp member with member | member
    · exact traced.bounded entry member
    · rw [List.mem_singleton.mp member]
      exact small
  · rw [more]
    intro j d entry
    rw [only_concat]
    rw [List.getElem?_set] at entry
    by_cases same : i = j
    · subst same
      rw [if_pos rfl, if_pos small] at entry
      cases entry
      rw [if_pos rfl]
      exact Connection.follows_step (traced.follows i c found) stepped
    · rw [if_neg same] at entry ⊢
      exact traced.follows j d entry
  · have before := traced.merged
    unfold Merged at before ⊢
    rw [List.length_set]
    dsimp only
    split at before
    · trivial
    · obtain ⟨all, some_, merged⟩ := before
      rw [take_set_of_running merged found running c']
      exact ⟨all, some_, merged⟩
    · obtain ⟨all, merged, elapsed, whole, rfl⟩ := before
      have awaited := whole
      rw [← List.take_length (l := s.tasks)] at awaited
      have kept := take_set_of_running awaited found running c'
      rw [List.take_length, List.take_of_length_le (by rw [List.length_set])] at kept
      rw [kept]
      exact ⟨all, merged, elapsed, whole, rfl⟩

theorem stepTask_cases {spec : LoadSpec} {started i : Nat} {s t : Load} {event : ConnectionEvent}
    (h : s.step spec started (.task i event) = some t) :
    ∃ c c', s.tasks[i]? = some c ∧ c.step (started + spec.duration) event = some c' ∧
      t = { s with tasks := s.tasks.set i c' } := by
  obtain ⟨c, found, h⟩ := Option.bind_eq_some_iff.mp h
  obtain ⟨c', stepped, h⟩ := Option.bind_eq_some_iff.mp h
  exact ⟨c, c', found, stepped, (Option.some.inj h).symm⟩

theorem stepAwait_cases {spec : LoadSpec} {started : Nat} {s t : Load} (h : s.step spec started .await = some t) :
    ∃ next r c r', s.main = .awaiting next r ∧ s.tasks[next]? = some c ∧ r.add c = some r' ∧
      t = { s with main := .awaiting (next + 1) r' } := by
  simp only [step] at h
  split at h
  · rename_i next r main
    obtain ⟨c, found, h⟩ := Option.bind_eq_some_iff.mp h
    obtain ⟨r', added, h⟩ := Option.bind_eq_some_iff.mp h
    exact ⟨next, r, c, r', main, found, added, (Option.some.inj h).symm⟩
  · cases h

theorem stepFinish_cases {spec : LoadSpec} {started elapsed : Nat} {s t : Load}
    (h : s.step spec started (.finish elapsed) = some t) :
    ∃ r, s.main = .awaiting s.tasks.length r ∧
      t = { s with main := .returned { r with elapsed := elapsed, latencies := r.latencies.mergeSort } } := by
  simp only [step] at h
  split at h
  · rename_i next r main
    obtain ⟨rfl, rfl⟩ := of_guard h
    exact ⟨r, main, rfl⟩
  · cases h

theorem traced_step {spec : LoadSpec} {started : Nat} {s t : Load} {labels : List LoadStep} {label : LoadStep}
    (traced : Traced spec s labels) (h : s.step spec started label = some t) : Traced spec t (labels ++ [label]) := by
  cases label with
  | spawn =>
    obtain ⟨⟨spawning, -⟩, rfl⟩ := of_guard h
    exact traced.spawn spawning
  | spawned =>
    obtain ⟨⟨-, all⟩, rfl⟩ := of_guard h
    apply traced.silent rfl
    exact ⟨all, Nat.zero_le _, rfl⟩
  | task i event =>
    obtain ⟨c, c', found, stepped, rfl⟩ := stepTask_cases h
    exact traced.task found stepped
  | await =>
    obtain ⟨next, r, c, r', main, found, added, rfl⟩ := stepAwait_cases h
    have before := traced.merged
    simp only [Merged, main] at before
    obtain ⟨all, -, merged⟩ := before
    obtain ⟨small, -⟩ := List.getElem?_eq_some_iff.mp found
    apply traced.silent rfl
    refine ⟨all, small, ?_⟩
    dsimp only
    rw [List.take_add_one, found, Option.toList_some]
    exact run_append.mpr ⟨r, merged, run_cons.mpr ⟨r', added, rfl⟩⟩
  | finish elapsed =>
    obtain ⟨r, main, rfl⟩ := stepFinish_cases h
    have before := traced.merged
    simp only [Merged, main] at before
    obtain ⟨all, -, merged⟩ := before
    rw [List.take_length] at merged
    apply traced.silent rfl
    exact ⟨all, r, elapsed, merged, rfl⟩

theorem traced_run {spec : LoadSpec} {started : Nat} {s t : Load} {before labels : List LoadStep}
    (traced : Traced spec s before) (h : run (step spec started) s labels = some t) :
    Traced spec t (before ++ labels) := by
  induction labels generalizing s before with
  | nil =>
    cases h
    rwa [List.append_nil]
  | cons label labels ih =>
    obtain ⟨m, first, rest⟩ := run_cons.mp h
    have after := ih (traced_step traced first) rest
    rwa [List.append_assoc, List.singleton_append] at after

/-! `run` does return: it is left waiting by nothing but a task that has not ended. -/

theorem add_of_ended {c : Connection} (ended : c.ended = true) (r : LoadResult) : ∃ r', r.add c = some r' := by
  cases c with
  | returned result => cases result <;> exact ⟨_, rfl⟩
  | panicked => exact ⟨_, rfl⟩
  | _ => cases ended

theorem awaits_return (spec : LoadSpec) (started : Nat) {s : Load} (ended : ∀ c ∈ s.tasks, c.ended = true)
    {next : Nat} {r : LoadResult} (left : Nat) (awaiting : s.main = .awaiting next r)
    (short : next + left = s.tasks.length) :
    ∃ t r, run (step spec started) s (List.replicate left .await ++ [.finish 0]) = some t ∧ t.main = .returned r := by
  induction left generalizing s next r with
  | zero =>
    have finished : s.step spec started (.finish 0) =
        some { s with main := .returned { r with elapsed := 0, latencies := r.latencies.mergeSort } } := by
      simp only [step, awaiting]
      exact if_pos short
    exact ⟨_, _, run_cons.mpr ⟨_, finished, rfl⟩, rfl⟩
  | succ left ih =>
    have found : s.tasks[next]? = some s.tasks[next] := List.getElem?_eq_getElem (by omega)
    obtain ⟨r', added⟩ := add_of_ended (ended _ (List.mem_of_getElem? found)) r
    have awaited : s.step spec started .await = some { s with main := .awaiting (next + 1) r' } := by
      simp only [step, awaiting, found, Option.bind_eq_bind, Option.bind_some, added]
      rfl
    have fewer : next + 1 + left = s.tasks.length := by omega
    obtain ⟨t, last, rest, returned⟩ := ih (s := { s with main := .awaiting (next + 1) r' }) ended rfl fewer
    exact ⟨t, last, run_cons.mpr ⟨_, awaited, rest⟩, returned⟩

theorem load_returns {spec : LoadSpec} {started : Nat} {labels : List LoadStep} {s : Load}
    (reached : run (step spec started) {} labels = some s) (all : s.tasks.length = max spec.connections 1)
    (ended : ∀ c ∈ s.tasks, c.ended = true) :
    ∃ more t r, run (step spec started) {} (labels ++ more) = some t ∧ t.main = .returned r := by
  have merged := (traced_run (traced_start spec) reached).merged
  unfold Merged at merged
  split at merged
  · rename_i spawning
    have first : s.step spec started .spawned = some { s with main := .awaiting 0 {} } := if_pos ⟨spawning, all⟩
    obtain ⟨t, r, rest, returned⟩ := awaits_return spec started
      (s := { s with main := .awaiting 0 {} }) ended s.tasks.length rfl (Nat.zero_add _)
    exact ⟨_, t, r, run_append.mpr ⟨s, reached, run_cons.mpr ⟨_, first, rest⟩⟩, returned⟩
  · rename_i next r awaiting
    obtain ⟨-, short, -⟩ := merged
    obtain ⟨t, r, rest, returned⟩ := awaits_return spec started ended (s.tasks.length - next)
      awaiting (by omega)
    exact ⟨_, t, r, run_append.mpr ⟨s, reached, rest⟩, returned⟩
  · rename_i r returned
    exact ⟨[], s, r, by rwa [List.append_nil], returned⟩

end Load

/-- What is left of the successes of a connection. -/
def keptOf (labels : List LoadStep) (i : Nat) : List UInt64 := if failedBy i labels then [] else completedBy i labels

theorem keptOf_length_le (labels : List LoadStep) (i : Nat) :
    (keptOf labels i).length ≤ (completedBy i labels).length := by
  unfold keptOf
  split
  · exact Nat.zero_le _
  · exact Nat.le_refl _

theorem keptOf_eq {labels : List LoadStep} {i : Nat} (spared : failedBy i labels = true → completedBy i labels = []) :
    keptOf labels i = completedBy i labels := by
  unfold keptOf
  split
  · rename_i fails
    exact (spared fails).symm
  · rfl

theorem completedBy_beyond {labels : List LoadStep} {n i : Nat} (bounded : ∀ entry ∈ happened labels, entry.1 < n)
    (beyond : n ≤ i) : completedBy i labels = [] := by
  have absent : only i (happened labels) = [] := by
    apply only_of_absent
    intro entry member
    have below := bounded entry member
    omega
  rw [completedBy, absent]
  rfl

/-- A load run returns the samples of the connections that did not fail, sorted, and counts the others. -/
theorem Load.returned_spec {spec : LoadSpec} {started : Nat} {labels : List LoadStep} {s : Load} {r : LoadResult}
    (reached : run (Load.step spec started) {} labels = some s) (returned : s.main = .returned r) :
    (∀ entry ∈ happened labels, entry.1 < max spec.connections 1) ∧ r.latencies.Pairwise (· ≤ ·) ∧
    r.latencies.Perm ((List.range (max spec.connections 1)).flatMap (keptOf labels)) ∧
    r.errors = (List.range (max spec.connections 1)).countP (failedBy · labels) := by
  have traced := traced_run (traced_start spec) reached
  rw [List.nil_append] at traced
  have merged := traced.merged
  simp only [Merged, returned] at merged
  obtain ⟨all, merged, elapsed, whole, rfl⟩ := merged
  obtain ⟨-, latencies, errors⟩ := merge_spec whole
  have samples : s.tasks.map Connection.samples = (List.range (max spec.connections 1)).map (keptOf labels) := by
    rw [← all]
    exact map_eq_of_entries fun i c found => (traced.follows i c found).samples
  have failed : s.tasks.map Connection.failed = (List.range (max spec.connections 1)).map (failedBy · labels) := by
    rw [← all]
    exact map_eq_of_entries fun i c found => (traced.follows i c found).failed
  refine ⟨?_, ?_, ?_, ?_⟩
  · rw [← all]
    exact traced.bounded
  · exact List.pairwise_mergeSort' _ merged.latencies
  · apply (List.mergeSort_perm _ _).trans
    rw [latencies, List.flatMap_def, samples]
    exact List.Perm.refl _
  · show merged.errors = _
    have counted := congrArg (List.countP id) failed
    rw [List.countP_map, List.countP_map] at counted
    rw [errors]
    exact (Nat.zero_add _).trans counted

/-- Every success is counted exactly when no connection failed after one. -/
theorem load_counts_iff {spec : LoadSpec} {started : Nat} {labels : List LoadStep} {s : Load} {r : LoadResult}
    (reached : run (Load.step spec started) {} labels = some s) (returned : s.main = .returned r) :
    r.latencies.Pairwise (· ≤ ·) ∧ r.errors = (List.range (max spec.connections 1)).countP (failedBy · labels) ∧
    ((r.latencies.Perm (completed labels) ∧ r.requests = (completed labels).length) ↔
      ∀ i, failedBy i labels = true → completedBy i labels = []) := by
  obtain ⟨bounded, sorted, kept, errors⟩ := Load.returned_spec reached returned
  have all : (completed labels).Perm ((List.range (max spec.connections 1)).flatMap (completedBy · labels)) :=
    filterMap_perm_processes ConnectionEvent.succeeded bounded
  refine ⟨sorted, errors, ?_, ?_⟩
  · intro counted i fails
    by_cases small : i < max spec.connections 1
    · have total := (kept.symm.trans (counted.1.trans all)).length_eq
      have same := flatMap_length_eq (fun i _ => keptOf_length_le labels i) total i (List.mem_range.mpr small)
      rw [keptOf, if_pos fails] at same
      exact List.eq_nil_of_length_eq_zero same.symm
    · -- no event is of a connection that was never spawned
      exact completedBy_beyond bounded (by omega)
  · intro spared
    have same : (List.range (max spec.connections 1)).flatMap (keptOf labels) =
        (List.range (max spec.connections 1)).flatMap (completedBy · labels) := by
      apply List.flatMap_congr
      intro i _
      exact keptOf_eq (spared i)
    have perm : r.latencies.Perm (completed labels) := by
      rw [same] at kept
      exact kept.trans all.symm
    exact ⟨perm, perm.length_eq⟩

/-- Two connections: the first answers twice, the second is refused. -/
def mixedRun : List LoadStep :=
  [.spawn, .task 0 (.connect (.ok ())), .spawn, .task 0 (.now 5), .spawned, .task 0 (.exchange (.complete 200 30)),
    .task 1 (.connect (.error "connection refused".toList)), .task 0 (.now 50), .task 0 (.exchange (.complete 204 10)),
    .task 0 (.now 100), .task 0 .pumped, .await, .await, .finish 101]

theorem mixedRun_counts :
    ∃ s r, run (Load.step ⟨2, 100⟩ 0) {} mixedRun = some s ∧ s.main = .returned r ∧
      r.latencies.Pairwise (· ≤ ·) ∧ r.latencies.Perm [30, 10] ∧ r.errors = 1 := by
  have spared : ∀ i, failedBy i mixedRun = true → completedBy i mixedRun = [] := by
    intro i fails
    match i with
    | 0 => cases fails
    | 1 => rfl
    | i + 2 => rfl
  have reached : run (Load.step ⟨2, 100⟩ 0) {} mixedRun = some _ := rfl
  obtain ⟨sorted, errors, counts⟩ := load_counts_iff reached rfl
  exact ⟨_, _, reached, rfl, sorted, (counts.mpr spared).1, errors⟩

/-- One connection that answers once and then with an error. -/
def lostRun : List LoadStep :=
  [.spawn, .spawned, .task 0 (.connect (.ok ())), .task 0 (.now 5), .task 0 (.exchange (.complete 200 30)),
    .task 0 (.now 50), .task 0 (.exchange (.complete 500 10)), .await, .finish 60]

theorem lostRun_drops_sample :
    ∃ s r, run (Load.step ⟨1, 100⟩ 0) {} lostRun = some s ∧ s.main = .returned r ∧
      completed lostRun = [30] ∧ r.requests = 0 ∧ ¬ r.latencies.Perm (completed lostRun) := by
  refine ⟨_, _, rfl, rfl, rfl, ?_, ?_⟩
  · exact List.length_mergeSort ..
  · intro perm
    have same := perm.length_eq
    rw [List.length_mergeSort] at same
    cases same

end HttpSys.Bench
