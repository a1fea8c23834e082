import HttpSys.Body.Growth
import Mathlib.Algebra.Group.Nat.Defs

/-! The length of the spare room is narrowed to 32 bits on its way to the kernel. Room
that is a multiple of 4 GiB arrives there as 0, and a read of length 0 looks like the end
of the body. Where this first happens depends on the buffer the loop starts with only. -/
namespace HttpSys
open Lib

variable {σ : Type}

/-- The first capacity of at least 4 GiB that the loop grows a full buffer of this capacity to. -/
def wideCapacity (capacity : Nat) : Nat :=
  if capacity < 2 ^ 32 then wideCapacity (max (2 * capacity) (capacity + bodyChunkBytes)) else capacity
termination_by 2 ^ 32 - capacity
decreasing_by
  unfold bodyChunkBytes
  omega

/-- The length at which the spare room first is a multiple of 4 GiB. -/
def readLimit (len capacity : Nat) : Nat :=
  if 2 ^ 32 ≤ capacity - len then len + (capacity - len) % 2 ^ 32
  else wideCapacity capacity + wideCapacity capacity % 2 ^ 32

theorem wideCapacity_of_narrow {capacity : Nat} (narrow : capacity < 2 ^ 32) :
    wideCapacity capacity = wideCapacity (max (2 * capacity) (capacity + bodyChunkBytes)) := by
  rw [wideCapacity, if_pos narrow]

theorem wideCapacity_of_wide {capacity : Nat} (wide : 2 ^ 32 ≤ capacity) : wideCapacity capacity = capacity := by
  rw [wideCapacity, if_neg (by omega)]

theorem le_wideCapacity (capacity : Nat) : capacity ≤ wideCapacity capacity := by
  induction capacity using wideCapacity.induct with
  | case1 capacity narrow ih =>
    rw [wideCapacity_of_narrow narrow]
    omega
  | case2 capacity wide => rw [wideCapacity_of_wide (by omega)]

/-- Growing a full buffer does not move the limit. -/
theorem readLimit_grown (len : Nat) : readLimit len (max (2 * len) (len + bodyChunkBytes)) = readLimit len len := by
  have chunk : bodyChunkBytes < 2 ^ 32 := by decide
  have full : readLimit len len = wideCapacity len + wideCapacity len % 2 ^ 32 := if_neg (by omega)
  rw [full]
  by_cases narrow : len < 2 ^ 32
  · rw [wideCapacity_of_narrow narrow]
    exact if_neg (by omega)
  · rw [wideCapacity_of_wide (by omega)]
    have twice : max (2 * len) (len + bodyChunkBytes) - len = len := by omega
    unfold readLimit
    rw [twice]
    exact if_pos (by omega)

/-- Nor does a read, which takes no more than the narrowed length. -/
theorem readLimit_read {len capacity n : Nat} (within : n ≤ (capacity - len) % 2 ^ 32) :
    readLimit (len + n) capacity = readLimit len capacity := by
  have quotient := Nat.div_add_mod (capacity - len) (2 ^ 32)
  unfold readLimit
  by_cases wide : 2 ^ 32 ≤ capacity - len
  · rw [if_pos wide, if_pos (by omega)]
    omega
  · rw [if_neg wide, if_neg (by omega)]

theorem readLimit_eq {len capacity : Nat} (room : len < capacity) (stuck : (capacity - len) % 2 ^ 32 = 0) :
    readLimit len capacity = len := by
  unfold readLimit
  rw [if_pos (by omega)]
  omega

theorem readLimit_gt {len capacity : Nat} (moves : (capacity - len) % 2 ^ 32 ≠ 0) : len < readLimit len capacity := by
  unfold readLimit
  split
  · omega
  · have grows := le_wideCapacity capacity
    omega

theorem readLimit_withRoom (fill : Nat → UInt8) (body : ByteVec) :
    readLimit (withRoom fill body).len (withRoom fill body).capacity = readLimit body.len body.capacity := by
  rw [withRoom_len, withRoom_capacity]
  split
  · rename_i full
    rw [readLimit_grown, ← full]
  · rfl

section
variable {http : EntityKernel σ} {skip : Bool} {remaining : σ → List UInt8}

/-- One iteration: it passes length 0 exactly at the limit, and before that it either moves on
under the same limit or is told that the body has ended. -/
theorem iteration_limit (transfers : Transfers http skip remaining) (fill : Nat → UInt8) (requestId : UInt64)
    (body : ByteVec) (k : σ) {room : ByteVec} {answer : ReadResult σ} (roomy : room = withRoom fill body)
    (answered : answer = readSpare (readEntityBody http skip) requestId room k) :
    ((room.capacity - room.len) % 2 ^ 32 = 0 ∧ readLimit body.len body.capacity = body.len) ∨
    ((room.capacity - room.len) % 2 ^ 32 ≠ 0 ∧ body.len < readLimit body.len body.capacity ∧
      ((∃ n vec, answer.result = .ok (some (n + 1)) ∧
        vec = (room.overwrite answer.written).setLen (room.len + (n + 1)) ∧ vec.len = body.len + (n + 1) ∧
        (remaining k).length = n + 1 + (remaining answer.next).length ∧
        vec.data ++ remaining answer.next = body.data ++ remaining k ∧
        readLimit vec.len vec.capacity = readLimit body.len body.capacity) ∨
      (remaining k = [] ∧ (answer.result = .ok none ∨ answer.result = .ok (some 0)) ∧
        (room.overwrite answer.written).data = body.data))) := by
  have spare : 0 < room.capacity - room.len := by
    rw [roomy]
    exact withRoom_room fill body
  have len : room.len = body.len := by rw [roomy, withRoom_len]
  have data : room.data = body.data := by rw [roomy, withRoom_data]
  have limit : readLimit room.len room.capacity = readLimit body.len body.capacity := by
    rw [roomy, readLimit_withRoom]
  by_cases stuck : (room.capacity - room.len) % 2 ^ 32 = 0
  · exact Or.inl ⟨stuck, by rw [← limit, readLimit_eq (by omega) stuck, len]⟩
  · have below := readLimit_gt stuck
    refine Or.inr ⟨stuck, by omega, ?_⟩
    rcases readEntityBody_transfers transfers k requestId spare answered with
      ⟨-, n, result, within, progress, written, next, size, short⟩ | ⟨empty, result, -, -⟩
    · obtain ⟨m, rfl⟩ : ∃ m, n = m + 1 := ⟨n - 1, by omega⟩
      have fits : m + 1 ≤ room.capacity - room.len := Nat.le_trans within (Nat.mod_le _ _)
      have counted : ((remaining k).take (m + 1)).length = m + 1 := by
        rw [List.length_take]
        omega
      refine Or.inl ⟨m, _, result, rfl, ?_, size, ?_, ?_⟩
      · rw [written, room.overwrite_setLen_len short fits, len]
      · rw [written, room.overwrite_setLen_data _ (by rw [counted]), next, data, List.append_assoc,
          List.take_append_drop]
      · rw [written, room.overwrite_setLen_len short fits, room.overwrite_setLen_capacity short, readLimit_read within,
          limit]
    · exact Or.inr ⟨empty, result, data⟩

theorem narrowed_eq_zero {dst : Nat} : UInt32.ofNat dst = 0 ↔ dst % 2 ^ 32 = 0 := by
  rw [← UInt32.toNat_inj, UInt32.toNat_ofNat']
  rfl

theorem readIterations_nonzero (transfers : Transfers http skip remaining) (fill : Nat → UInt8) (requestId : UInt64)
    (fuel : Nat) (body : ByteVec) (k : σ)
    (below : body.len + (remaining k).length < readLimit body.len body.capacity) :
    ∀ it ∈ readIterations (readEntityBody http skip) fill requestId fuel body k, UInt32.ofNat it.dst ≠ 0 := by
  induction fuel generalizing body k with
  | zero =>
    intro it member
    cases member
  | succ fuel ih =>
    intro it member
    rcases iteration_limit transfers fill requestId body k rfl rfl with ⟨-, limit⟩ | ⟨moves, -, continues⟩
    · omega
    rcases readIterations_cases (readEntityBody http skip) fill requestId fuel body k rfl rfl with
      ⟨n, got, shape⟩ | ⟨-, shape⟩
    · rw [shape] at member
      rcases List.mem_cons.mp member with rfl | later
      · exact fun zero => moves (narrowed_eq_zero.mp zero)
      · rcases continues with ⟨m, vec, result, exposed, len, size, -, limit⟩ | ⟨-, none_ | zero, -⟩
        · obtain rfl : n = m := by
            rw [got] at result
            simpa using result
          rw [← exposed] at later
          exact ih vec _ (by omega) it later
        · rw [got] at none_
          cases none_
        · rw [got] at zero
          cases zero
    · rw [shape] at member
      obtain rfl := List.mem_singleton.mp member
      exact fun zero => moves (narrowed_eq_zero.mp zero)

theorem readIterations_stuck (transfers : Transfers http skip remaining) (fill : Nat → UInt8) (requestId : UInt64)
    (fuel : Nat) (body : ByteVec) (k : σ) (enough : (remaining k).length < fuel)
    (above : readLimit body.len body.capacity ≤ body.len + (remaining k).length) :
    ∃ it ∈ readIterations (readEntityBody http skip) fill requestId fuel body k, UInt32.ofNat it.dst = 0 := by
  induction fuel generalizing body k with
  | zero => omega
  | succ fuel ih =>
    have shape := readIterations_cases (readEntityBody http skip) fill requestId fuel body k rfl rfl
    rcases iteration_limit transfers fill requestId body k rfl rfl with ⟨stuck, -⟩ | ⟨-, below, continues⟩
    · refine ⟨iteration (withRoom fill body) (readSpare (readEntityBody http skip) requestId (withRoom fill body) k).result,
        ?_, narrowed_eq_zero.mpr stuck⟩
      rcases shape with ⟨n, -, shape⟩ | ⟨-, shape⟩
      · rw [shape]
        exact List.mem_cons_self
      · rw [shape]
        exact List.mem_singleton_self _
    · rcases continues with ⟨n, vec, result, exposed, len, size, -, limit⟩ | ⟨empty, -⟩
      · obtain ⟨it, member, zero⟩ := ih vec
          (readSpare (readEntityBody http skip) requestId (withRoom fill body) k).next (by omega) (by omega)
        rcases shape with ⟨m, got, shape⟩ | ⟨ended, -⟩
        · obtain rfl : n = m := by
            rw [got] at result
            simpa using result.symm
          rw [shape, ← exposed]
          exact ⟨it, List.mem_cons_of_mem _ member, zero⟩
        · exact (ended n result).elim
      · rw [empty, List.length_nil] at above
        omega

theorem readRemaining_through (transfers : Transfers http skip remaining) (fill : Nat → UInt8) (requestId : UInt64)
    {fuel : Nat} {start : ByteVec} {k : σ} (enough : (remaining k).length < fuel)
    (below : start.len + (remaining k).length < readLimit start.len start.capacity) :
    ∃ done, readRemainingBodyInto (readEntityBody http skip) fill requestId fuel start k = some done ∧
      done.result = .ok () ∧ done.body.data = start.data ++ remaining k := by
  refine readRemaining_ends
    (I := fun vec rest => vec.len + (remaining rest).length < readLimit vec.len vec.capacity ∧
      vec.data ++ remaining rest = start.data ++ remaining k)
    (Q := fun result vec _ => result = .ok () ∧ vec.data = start.data ++ remaining k)
    (fun k => (remaining k).length) ?_ fuel start k ⟨below, rfl⟩ enough
  rintro vec rest ⟨below, bytes⟩ room answer roomy answered
  rcases iteration_limit transfers fill requestId vec rest roomy answered with ⟨-, limit⟩ | ⟨-, -, continues⟩
  · omega
  rcases continues with ⟨n, next, result, exposed, len, size, moved, limit⟩ | ⟨empty, result, data⟩
  · refine Or.inl ⟨n, result, by omega, ?_⟩
    rw [← exposed]
    exact ⟨by omega, moved.trans bytes⟩
  · rw [empty, List.append_nil] at bytes
    exact Or.inr (Or.inl ⟨result, rfl, data.trans bytes⟩)

end

/-- `Request::body` gives the kernel room in every read and returns the whole body exactly when
the body ends before the spare room can be a multiple of 4 GiB. -/
theorem body_reads_to_end_iff (request : RequestBuffer) (pool : BodyPool) (fill : Nat → UInt8) (http : EntityKernel σ)
    (skip : Bool) (remaining : σ → List UInt8) (k : σ) (start : ByteVec) (transfers : Transfers http skip remaining)
    (more : request.hasMoreBody = true)
    (started : start = (pool.take fill request.bodyCapacity).1.extendFromSlice fill request.inlineBody) :
    (∃ bound, ∀ fuel, bound ≤ fuel → ∃ call body, request.body (readEntityBody http skip) fill fuel pool k = some call ∧
      (∀ it ∈ call.log, UInt32.ofNat it.dst ≠ 0) ∧ call.result = .ok body ∧
      body.deref = request.inlineBody ++ remaining k) ↔
    start.len + (remaining k).length < readLimit start.len start.capacity := by
  have iterations : ∀ fuel, request.bodyIterations (readEntityBody http skip) fill fuel pool k =
      readIterations (readEntityBody http skip) fill request.requestId fuel start k := by
    intro fuel
    rw [RequestBuffer.bodyIterations, if_pos more, started]
  constructor
  · rintro ⟨bound, reads⟩
    obtain ⟨call, body, called, nonzero, -⟩ := reads (bound + ((remaining k).length + 1)) (by omega)
    by_contra above
    obtain ⟨it, member, zero⟩ := readIterations_stuck transfers fill request.requestId
      (bound + ((remaining k).length + 1)) start k (by omega) (by omega)
    rw [← iterations, ← body_log called] at member
    exact nonzero it member zero
  · intro below
    refine ⟨(remaining k).length + 1, fun fuel enough => ?_⟩
    obtain ⟨done, ran, ok, data⟩ := readRemaining_through transfers fill request.requestId enough below
    obtain ⟨call, called, result⟩ := body_of_ok more (by rw [← started]; exact ran) ok
    refine ⟨call, _, called, ?_, result, ?_⟩
    · intro it member
      rw [body_log called, iterations] at member
      exact readIterations_nonzero transfers fill request.requestId fuel start k below it member
    · show done.body.data = request.inlineBody ++ remaining k
      rw [data, started, ByteVec.extendFromSlice_data, BodyPool.take_data, List.nil_append]

/-- A chunked upload, none of which has arrived with the headers. -/
def chunkedRequest : RequestBuffer where
  words := 2048
  request := { flags := 1, requestId := 42 }
  room := defaultRoom

def chunkedStart : ByteVec :=
  ((BodyPool.new 1 1024).take (fun _ => 0) chunkedRequest.bodyCapacity).1.extendFromSlice (fun _ => 0)
    chunkedRequest.inlineBody

theorem wideCapacity_chunk : wideCapacity bodyChunkBytes = 2 ^ 32 := by
  simp [wideCapacity, bodyChunkBytes]

theorem chunkedStart_limit : chunkedStart.len = 0 ∧ readLimit chunkedStart.len chunkedStart.capacity = 2 ^ 32 := by
  have asked : chunkedRequest.bodyCapacity = bodyChunkBytes := by decide
  have empty : chunkedRequest.inlineBody.length = 0 := by decide
  have fresh : (BodyPool.new 1 1024).oldest.capacity = 0 := rfl
  have len : chunkedStart.len = 0 := by
    unfold chunkedStart
    rw [extend_taken_len, empty]
  have capacity : chunkedStart.capacity = bodyChunkBytes := by
    unfold chunkedStart
    rw [extend_taken_capacity, empty, if_neg (Nat.not_lt_zero _), asked, BodyPool.take_capacity, fresh]
    omega
  refine ⟨len, ?_⟩
  unfold readLimit
  rw [len, capacity, if_neg (by decide), wideCapacity_chunk, Nat.mod_self, Nat.add_zero]

theorem body_reads_chunked_to_end : ∃ bound, ∀ fuel, bound ≤ fuel → ∃ call body,
    chunkedRequest.body (readEntityBody fillKernel true) (fun _ => 0) fuel (.new 1 1024) [7, 8, 9] = some call ∧
    (∀ it ∈ call.log, UInt32.ofNat it.dst ≠ 0) ∧ call.result = .ok body ∧
    body.deref = chunkedRequest.inlineBody ++ [7, 8, 9] := by
  refine (body_reads_to_end_iff chunkedRequest (.new 1 1024) (fun _ => 0) fillKernel true id [7, 8, 9] chunkedStart
    fillKernel_fills.transfers rfl rfl).mpr ?_
  rw [chunkedStart_limit.2, chunkedStart_limit.1]
  decide

/-- A chunked upload of one byte more than 4 GiB is cut off there. -/
theorem body_stops_at_4GiB : ¬ ∀ (request : RequestBuffer) (pool : BodyPool) (fill : Nat → UInt8)
    (http : EntityKernel (List UInt8)) (skip : Bool) (remaining : List UInt8 → List UInt8) (k : List UInt8),
    Transfers http skip remaining → request.hasMoreBody = true →
    ∃ bound, ∀ fuel, bound ≤ fuel → ∃ call body, request.body (readEntityBody http skip) fill fuel pool k = some call ∧
      (∀ it ∈ call.log, UInt32.ofNat it.dst ≠ 0) ∧ call.result = .ok body ∧
      body.deref = request.inlineBody ++ remaining k := by
  intro reads
  obtain ⟨k, length⟩ : ∃ k : List UInt8, k.length = 2 ^ 32 + 1 :=
    ⟨List.replicate (2 ^ 32 + 1) 7, List.length_replicate⟩
  obtain ⟨bound, reads⟩ := reads chunkedRequest (.new 1 1024) (fun _ => 0) fillKernel true id k
    fillKernel_fills.transfers rfl
  obtain ⟨call, body, called, nonzero, -⟩ := reads (bound + (2 ^ 32 + 2)) (by omega)
  obtain ⟨len, limit⟩ := chunkedStart_limit
  have above : readLimit chunkedStart.len chunkedStart.capacity ≤ chunkedStart.len + (id k).length := by
    rw [limit, len, id, length]
    omega
  obtain ⟨it, member, zero⟩ := readIterations_stuck fillKernel_fills.transfers (fun _ => 0) chunkedRequest.requestId
    (bound + (2 ^ 32 + 2)) chunkedStart k (by rw [id, length]; omega) above
  rw [body_log called, RequestBuffer.bodyIterations, if_pos (by decide)] at nonzero
  exact nonzero it member zero

end HttpSys
