import HttpSys.Body.Pool
import HttpSys.Queue.Bounds
import HttpSys.Lib.Progress

/-! The memory that `serve` keeps from one request to the next: a pool of one receive buffer for each slot, and one pool
of body buffers for all of them. -/
namespace HttpSys
open Lib.Lending Lib.Machine Lib.Progress

/-- The timeout is in seconds. -/
structure ServerConfig where
  concurrency : Nat
  ioThreads : Nat
  requestBufferBytes : Nat
  maxRequestBufferBytes : Nat
  queueLength : UInt32
  maxPooledBodyBytes : Nat
  shutdownTimeout : Nat

namespace ServerConfig

def default (availableParallelism : Option Nat) : ServerConfig :=
  let cores := availableParallelism.getD 2
  { concurrency := cores * 32
    ioThreads := max (cores / 2) 2
    requestBufferBytes := 16 * 1024
    maxRequestBufferBytes := 128 * 1024
    queueLength := 3000
    maxPooledBodyBytes := 1024 * 1024
    shutdownTimeout := 30 }

/-- The receive buffers can be measured in a `u32`. -/
structure Narrow (config : ServerConfig) : Prop where
  small : config.requestBufferBytes ≤ 2 ^ 32 - 8
  most : config.maxRequestBufferBytes ≤ 2 ^ 32 - 8

theorem default_narrow (availableParallelism : Option Nat) : (default availableParallelism).Narrow :=
  ⟨by simp [default], by simp [default]⟩

theorem default_consistent {availableParallelism : Option Nat} (positive : availableParallelism ≠ some 0) :
    32 ≤ (default availableParallelism).concurrency ∧ 2 ≤ (default availableParallelism).ioThreads ∧
    4096 ≤ (default availableParallelism).requestBufferBytes ∧
    (default availableParallelism).requestBufferBytes ≤ (default availableParallelism).maxRequestBufferBytes ∧
    0 < (default availableParallelism).queueLength ∧
    (default availableParallelism).requestBufferBytes ≤ (default availableParallelism).maxPooledBodyBytes := by
  refine ⟨?_, Nat.le_max_right _ _, by simp [default], by simp [default], by simp [default], by simp [default]⟩
  cases availableParallelism with
  | none => decide
  | some cores =>
    have some_ : cores ≠ 0 := fun zero => positive (congrArg some zero)
    show 32 ≤ cores * 32
    omega

/-- The pool that each slot gets. -/
def buffers (config : ServerConfig) : BufferPool := .new 1 config.requestBufferBytes config.maxRequestBufferBytes

/-- How many body buffers the pool that all slots share may keep. -/
def bodySlots (config : ServerConfig) : Nat := max (min config.concurrency 64) 1

end ServerConfig

structure Memory where
  buffers : List BufferLedger
  bodies : BodyLedger := {}

inductive MemoryStep where
  | buffer (i : Nat) (event : BufferEvent)
  | body (event : PoolEvent)

namespace Memory
variable {config : ServerConfig}

def start (config : ServerConfig) : Memory := { buffers := List.replicate config.concurrency {} }

def step (config : ServerConfig) (s : Memory) : MemoryStep → Option Memory
  | .buffer i event =>
    match s.buffers[i]? with
    | some pool => (config.buffers.step pool event).map fun pool => { s with buffers := s.buffers.set i pool }
    | none => none
  | .body event =>
    (BodyPool.poolStep config.bodySlots config.maxPooledBodyBytes s.bodies event).map fun bodies =>
      { s with bodies := bodies }

def bufferBytes (items : List (Nat × RequestBuffer)) : Nat := listLoad (fun item => 8 * item.2.words) items

/-- The bytes that nobody uses between two requests. -/
def idleBytes (s : Memory) : Nat :=
  listLoad (fun pool => bufferBytes pool.free) s.buffers + listLoad (fun item => item.2.capacity) s.bodies.free

/-- The bytes of all receive buffers, idle or in use. -/
def receiveBytes (s : Memory) : Nat := listLoad (fun pool => bufferBytes pool.items) s.buffers

/-- A slot whose last buffer has come back before it takes the next one. -/
def TakesOne (s : Memory) (label : MemoryStep) : Prop :=
  ∀ i pool, label = .buffer i .take → s.buffers[i]? = some pool → pool.held = []

theorem step_cases {s t : Memory} {label : MemoryStep} (h : s.step config label = some t) :
    (∃ i event pool after, label = .buffer i event ∧ s.buffers[i]? = some pool ∧
      config.buffers.step pool event = some after ∧ t = { s with buffers := s.buffers.set i after }) ∨
    (∃ event after, label = .body event ∧
      BodyPool.poolStep config.bodySlots config.maxPooledBodyBytes s.bodies event = some after ∧
      t = { s with bodies := after }) := by
  cases label with
  | buffer i event =>
    simp only [step] at h
    split at h
    · rename_i pool found
      obtain ⟨after, stepped, rfl⟩ := Option.map_eq_some_iff.mp h
      exact Or.inl ⟨i, event, pool, after, rfl, found, stepped, rfl⟩
    · cases h
  | body event =>
    obtain ⟨after, stepped, rfl⟩ := Option.map_eq_some_iff.mp h
    exact Or.inr ⟨event, after, rfl, stepped, rfl⟩

/-! ### Every pool by itself -/

structure Sound (config : ServerConfig) (s : Memory) : Prop where
  slots : s.buffers.length = config.concurrency
  buffers : ∀ pool ∈ s.buffers, pool.Sound 1 config.buffers.Bounded config.buffers.Bounded
  bodies : s.bodies.Sound config.bodySlots (BodyPool.Idle config.maxPooledBodyBytes) fun loan =>
    BodyPool.Lent config.maxPooledBodyBytes loan ∧ BodyPool.Pledged (fun _ _ => True) loan

theorem sound_start (config : ServerConfig) : Sound config (start config) where
  slots := List.length_replicate
  buffers := by
    intro pool member
    rw [List.eq_of_mem_replicate member]
    exact Ledger.sound_empty
  bodies := Ledger.sound_empty

theorem step_sound (narrow : config.Narrow) (s : Memory) (label : MemoryStep) (t : Memory) (sound : Sound config s)
    (h : s.step config label = some t) : Sound config t := by
  rcases step_cases h with ⟨i, event, pool, after, -, found, stepped, rfl⟩ | ⟨event, after, -, stepped, rfl⟩
  · refine ⟨(List.length_set ..).trans sound.slots, ?_, sound.bodies⟩
    intro pool' member
    rcases List.mem_or_eq_of_mem_set member with other | rfl
    · exact sound.buffers pool' other
    · have before := sound.buffers pool (List.mem_of_getElem? found)
      exact (BufferPool.step_sound (BufferPool.narrow_new 1 narrow.small narrow.most) before stepped).1
  · refine ⟨sound.slots, sound.buffers, ?_⟩
    exact BodyPool.poolStep_sound sound.bodies (fun _ _ => trivial) stepped

/-- One buffer for each slot, which it gets back every time. -/
def Snug (s : Memory) : Prop := ∀ pool ∈ s.buffers, Ledger.Snug 1 pool

theorem snug_start (config : ServerConfig) : Snug (start config) := by
  intro pool member
  rw [List.eq_of_mem_replicate member]
  exact Ledger.snug_empty

theorem step_snug (s : Memory) (label : MemoryStep) (t : Memory) (snug : Snug s) (one : s.TakesOne label)
    (h : s.step config label = some t) : Snug t := by
  rcases step_cases h with ⟨i, event, pool, after, rfl, found, stepped, rfl⟩ | ⟨event, after, -, stepped, rfl⟩
  · intro pool' member
    rcases List.mem_or_eq_of_mem_set member with other | rfl
    · exact snug pool' other
    · have before := snug pool (List.mem_of_getElem? found)
      rcases BufferPool.step_cases stepped with ⟨fresh, rfl, -, rfl⟩ |
        ⟨holder, http, skip, mode, number, buffer, result, received, mode', -, held, -, rfl⟩ |
        ⟨holder, number, buffer, -, held, rfl⟩
      · apply Ledger.snug_lend fresh id before
        rw [one i pool rfl found]
        exact Nat.one_pos
      · exact Ledger.snug_update received before held
      · exact Ledger.snug_giveBack buffer before held (Nat.le_refl 1)
  · exact snug

theorem bufferBytes_le {items : List (Nat × RequestBuffer)} {n : Nat}
    (bounded : ∀ item ∈ items, config.buffers.Bounded item.2) (few : items.length ≤ n) :
    bufferBytes items ≤ config.buffers.ceiling * n :=
  Nat.le_trans (listLoad_le bounded) (Nat.mul_le_mul_left _ few)

end Memory

/-- What a server keeps while it is idle is bounded by its configuration: a buffer of at most the ceiling for each slot,
and at most 64 body buffers of the size that may be pooled. If no handler keeps its request after the response, a slot
allocates one buffer for all of its requests, and all receive buffers together stay within the first bound. -/
theorem server_memory_bounded (config : ServerConfig) (narrow : config.Narrow) (labels : List MemoryStep) (s : Memory)
    (h : run (Memory.step config) (Memory.start config) labels = some s) :
    s.idleBytes ≤ config.buffers.ceiling * config.concurrency + config.maxPooledBodyBytes * config.bodySlots ∧
    (Meets (Memory.step config) Memory.TakesOne (Memory.start config) labels →
      s.receiveBytes ≤ config.buffers.ceiling * config.concurrency ∧
      ∀ pool ∈ s.buffers, pool.made ≤ 1 ∧ pool.freed = []) := by
  have sound : Memory.Sound config s := run_invariant (Memory.step_sound narrow) (Memory.sound_start config) h
  have slots := sound.slots
  constructor
  · have buffers : ∀ pool ∈ s.buffers, Memory.bufferBytes pool.free ≤ config.buffers.ceiling := by
      intro pool member
      have kept := sound.buffers pool member
      simpa using Memory.bufferBytes_le kept.idle kept.bounded
    have receiving := listLoad_le buffers
    have bodies : ∀ item ∈ s.bodies.free, item.2.capacity ≤ config.maxPooledBodyBytes :=
      fun item member => (sound.bodies.idle item member).2
    have pooled := Nat.le_trans (listLoad_le bodies) (Nat.mul_le_mul_left _ sound.bodies.bounded)
    rw [slots] at receiving
    exact Nat.add_le_add receiving pooled
  · intro one
    have snug : Memory.Snug s :=
      run_invariant_of_meets Memory.step_snug (Memory.snug_start config) one h
    refine ⟨?_, fun pool member => ⟨(snug pool member).few, (snug pool member).kept⟩⟩
    have buffers : ∀ pool ∈ s.buffers, Memory.bufferBytes pool.items ≤ config.buffers.ceiling := by
      intro pool member
      have kept := sound.buffers pool member
      have bounded : ∀ item ∈ pool.items, config.buffers.Bounded item.2 := by
        intro item member
        rcases List.mem_append.mp member with idle | out
        · exact kept.idle item idle
        · exact kept.lent item out
      have sizes := (snug pool member).accounted.length
      have few := (snug pool member).few
      have one : pool.items.length ≤ 1 := by
        rw [Ledger.items, List.length_append]
        omega
      simpa using Memory.bufferBytes_le bounded one
    have all := listLoad_le buffers
    rw [slots] at all
    exact all

def twoSlots : ServerConfig := { ServerConfig.default none with concurrency := 2 }

theorem twoSlots_narrow : twoSlots.Narrow :=
  ⟨(ServerConfig.default_narrow none).small, (ServerConfig.default_narrow none).most⟩

/-- The buffer of the second slot grows for an upload, and the slot takes it again. -/
def uploadThenTake : List MemoryStep :=
  [.buffer 1 .take, .buffer 1 (.receive 0 uploadKernel true {}), .buffer 1 (.drop 0), .buffer 1 .take]

theorem uploadThenTake_takesOne : Meets (Memory.step twoSlots) Memory.TakesOne (Memory.start twoSlots) uploadThenTake := by
  have idle : ∀ s : Memory, s.TakesOne (.buffer 1 .take) ↔ ∀ pool, s.buffers[1]? = some pool → pool.held = [] := by
    intro s
    constructor
    · exact fun one pool found => one 1 pool rfl found
    · intro empty i pool same found
      cases same
      exact empty pool found
  have other : ∀ (s : Memory) label, (∀ i, label ≠ .buffer i .take) → s.TakesOne label :=
    fun s label different i pool same _ => (different i same).elim
  refine ⟨(idle _).mpr ?_, ?_⟩
  · rintro _ ⟨⟩
    rfl
  rintro _ ⟨⟩
  refine ⟨other _ _ (by simp), ?_⟩
  rintro _ ⟨⟩
  refine ⟨other _ _ (by simp), ?_⟩
  rintro _ ⟨⟩
  refine ⟨(idle _).mpr ?_, fun _ _ => trivial⟩
  rintro _ ⟨⟩
  rfl

theorem upload_memory_bounded : ∃ s, run (Memory.step twoSlots) (Memory.start twoSlots) uploadThenTake = some s ∧
    s.idleBytes ≤ 131072 * 2 + 1048576 * 2 ∧ s.receiveBytes ≤ 131072 * 2 ∧
    ∀ pool ∈ s.buffers, pool.made ≤ 1 ∧ pool.freed = [] := by
  have ran : (run (Memory.step twoSlots) (Memory.start twoSlots) uploadThenTake).isSome = true := by decide +kernel
  obtain ⟨s, final⟩ := Option.isSome_iff_exists.mp ran
  obtain ⟨idle, one⟩ := server_memory_bounded twoSlots twoSlots_narrow uploadThenTake s final
  exact ⟨s, final, idle, one uploadThenTake_takesOne⟩

end HttpSys
