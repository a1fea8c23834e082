import HttpSys.Request
import HttpSys.Overlapped.Outcome
import HttpSys.Lib.ByteVec

/-! `Request::body`, the pool its buffers come from and the system call that fills
them. Each call of the read loop is also logged, for what has to hold of it. -/
namespace HttpSys
open Lib

/-! ### Body buffers -/

/-- The free list is a queue of at most `slots` buffers, oldest first. -/
structure BodyPool where
  free : List ByteVec := []
  slots : Nat := 1
  maxRetained : Nat
  cleared : ∀ vec ∈ free, vec.data = [] := by simp

namespace BodyPool

def new (slots maxRetained : Nat) : BodyPool := { slots := max slots 1, maxRetained := maxRetained }

def take (pool : BodyPool) (fill : Nat → UInt8) (capacity : Nat) : ByteVec × BodyPool :=
  let vec := pool.free.head?.getD {}
  (vec.reserveExact fill (capacity - vec.capacity),
    { pool with free := pool.free.tail, cleared := fun vec member => pool.cleared vec (List.mem_of_mem_tail member) })

theorem cleared_push (pool : BodyPool) (vec : ByteVec) : ∀ v ∈ pool.free ++ [vec.clear], v.data = [] := by
  intro v member
  rcases List.mem_append.mp member with old | fresh
  · exact pool.cleared v old
  · obtain rfl := List.mem_singleton.mp fresh
    rfl

/-- `PooledVec::drop`. -/
def drop (pool : BodyPool) (vec : ByteVec) : BodyPool :=
  if vec.capacity ≤ pool.maxRetained ∧ pool.free.length < pool.slots then
    { pool with free := pool.free ++ [vec.clear], cleared := pool.cleared_push vec }
  else pool

def oldest (pool : BodyPool) : ByteVec := pool.free.head?.getD {}

theorem oldest_data (pool : BodyPool) : pool.oldest.data = [] := by
  unfold oldest
  cases found : pool.free.head? with
  | none => rfl
  | some vec => exact pool.cleared vec (List.mem_of_head? found)

theorem take_oldest (pool : BodyPool) (fill : Nat → UInt8) (capacity : Nat) :
    (pool.take fill capacity).1 = pool.oldest.reserveExact fill (capacity - pool.oldest.capacity) := rfl

theorem take_data (pool : BodyPool) (fill : Nat → UInt8) (capacity : Nat) : (pool.take fill capacity).1.data = [] := by
  rw [take_oldest, ByteVec.reserveExact_data, pool.oldest_data]

/-- `reserve_exact` counts from the length, which is 0, and not from the capacity. -/
theorem take_capacity (pool : BodyPool) (fill : Nat → UInt8) (capacity : Nat) :
    (pool.take fill capacity).1.capacity = max pool.oldest.capacity (capacity - pool.oldest.capacity) := by
  have empty : pool.oldest.len = 0 := by rw [ByteVec.len, pool.oldest_data, List.length_nil]
  rw [take_oldest, ByteVec.reserveExact_capacity, empty, Nat.zero_add]

end BodyPool

/-! ### Reading entity bytes -/

structure EntityReceipt (σ : Type) where
  outcome : Outcome
  written : List UInt8 := []
  next : σ

/-- `HttpReceiveRequestEntityBody`, from the state of the queue, the request id and the buffer length. -/
abbrev EntityKernel (σ : Type) := σ → UInt64 → UInt32 → EntityReceipt σ

structure ReadResult (σ : Type) where
  result : Except Error (Option Nat)
  written : List UInt8 := []
  next : σ

abbrev Reader (σ : Type) := σ → UInt64 → (dst : Nat) → ReadResult σ

variable {σ : Type}

def readEntityBody (http : EntityKernel σ) (skip : Bool) : Reader σ := fun k requestId dst =>
  if dst = 0 then { result := .ok (some 0), next := k }
  else
    let receipt := http k requestId (UInt32.ofNat dst)
    let result := match receipt.outcome.finish skip with
      | .ok read => .ok (some read.toNat)
      | .error e => if e = .win32 errorHandleEof then .ok none else .error e
    { result := result, written := receipt.written, next := receipt.next }

/-! ### The read loop -/

def maxBodyReserve : Nat := 8 * 1024 * 1024

def bodyChunkBytes : Nat := 256 * 1024

structure Iteration where
  dst : Nat
  filled : Nat
  capacity : Nat
  result : Except Error (Option Nat)

def Iteration.read (it : Iteration) : Nat :=
  match it.result with
  | .ok (some n) => n
  | _ => 0

structure LoopEnd (σ : Type) where
  result : Except Error Unit
  body : ByteVec
  kernel : σ
  log : List Iteration

def withRoom (fill : Nat → UInt8) (body : ByteVec) : ByteVec :=
  if body.len = body.capacity then body.reserve fill bodyChunkBytes else body

def readSpare (read : Reader σ) (requestId : UInt64) (body : ByteVec) (k : σ) : ReadResult σ :=
  read k requestId (body.capacity - body.len)

def iteration (body : ByteVec) (result : Except Error (Option Nat)) : Iteration :=
  { dst := body.capacity - body.len, filled := body.len, capacity := body.capacity, result := result }

/-- `none` when the loop is still running after `fuel` iterations. -/
def readRemainingBodyInto (read : Reader σ) (fill : Nat → UInt8) (requestId : UInt64) :
    Nat → ByteVec → σ → Option (LoopEnd σ)
  | 0, _, _ => none
  | fuel + 1, body, k =>
    let body := withRoom fill body
    let answer := readSpare read requestId body k
    let filled := body.overwrite answer.written
    let it := iteration body answer.result
    match answer.result with
    | .error e => some { result := .error e, body := filled, kernel := answer.next, log := [it] }
    | .ok none => some { result := .ok (), body := filled, kernel := answer.next, log := [it] }
    | .ok (some 0) => some { result := .ok (), body := filled, kernel := answer.next, log := [it] }
    | .ok (some (n + 1)) =>
      (readRemainingBodyInto read fill requestId fuel (filled.setLen (body.len + (n + 1))) answer.next).map
        fun rest => { rest with log := it :: rest.log }

structure Body where
  inline : List UInt8
  owned : Option ByteVec := none

def Body.isInline (b : Body) : Bool := b.owned.isNone

def Body.deref (b : Body) : List UInt8 :=
  match b.owned with
  | some owned => owned.data
  | none => b.inline

def RequestBuffer.bodyCapacity (request : RequestBuffer) : Nat :=
  let inline := request.inlineBody
  let declared := min (request.contentLength.getD 0) maxBodyReserve
  if inline.length < declared then declared else inline.length + bodyChunkBytes

structure BodyCall (σ : Type) where
  result : Except Error Body
  pool : BodyPool
  kernel : σ
  log : List Iteration := []

def RequestBuffer.body (request : RequestBuffer) (read : Reader σ) (fill : Nat → UInt8) (fuel : Nat)
    (pool : BodyPool) (k : σ) : Option (BodyCall σ) :=
  let inline := request.inlineBody
  if request.hasMoreBody then
    let (vec, pool) := pool.take fill request.bodyCapacity
    (readRemainingBodyInto read fill request.requestId fuel (vec.extendFromSlice fill inline) k).map fun done =>
      match done.result with
      | .ok () =>
        { result := .ok { inline := inline, owned := some done.body }, pool := pool, kernel := done.kernel
          log := done.log }
      | .error e =>
        { result := .error e, pool := pool.drop done.body, kernel := done.kernel, log := done.log }
  else some { result := .ok { inline := inline }, pool := pool, kernel := k }

end HttpSys
