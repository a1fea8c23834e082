import HttpSys.Body.Pool
import HttpSys.Body.Whole

/-! How the buffer of `Request::body` grows: what its capacity is bounded by at every
iteration of the read loop, and when the loop leaves the buffer alone. -/
namespace HttpSys
open Lib

variable {σ : Type}

/-! ### Rules for the loop -/

/-- The first `fuel` iterations, whether or not the loop has ended by then. -/
def readIterations (read : Reader σ) (fill : Nat → UInt8) (requestId : UInt64) :
    Nat → ByteVec → σ → List Iteration
  | 0, _, _ => []
  | fuel + 1, body, k =>
    let body := withRoom fill body
    let answer := readSpare read requestId body k
    match answer.result with
    | .ok (some (n + 1)) =>
      iteration body answer.result ::
        readIterations read fill requestId fuel ((body.overwrite answer.written).setLen (body.len + (n + 1))) answer.next
    | _ => [iteration body answer.result]

theorem readIterations_cases (read : Reader σ) (fill : Nat → UInt8) (requestId : UInt64) (fuel : Nat) (body : ByteVec)
    (k : σ) {room : ByteVec} {answer : ReadResult σ} (roomy : room = withRoom fill body)
    (answered : answer = readSpare read requestId room k) :
    (∃ n, answer.result = .ok (some (n + 1)) ∧ readIterations read fill requestId (fuel + 1) body k =
      iteration room answer.result :: readIterations read fill requestId fuel
        ((room.overwrite answer.written).setLen (room.len + (n + 1))) answer.next) ∨
    ((∀ n, answer.result ≠ .ok (some (n + 1))) ∧
      readIterations read fill requestId (fuel + 1) body k = [iteration room answer.result]) := by
  subst roomy answered
  rw [readIterations]
  split
  · rename_i n got
    exact Or.inl ⟨n, got, rfl⟩
  · rename_i ended
    exact Or.inr ⟨ended, rfl⟩

theorem readRemaining_log {read : Reader σ} {fill : Nat → UInt8} {requestId : UInt64} {fuel : Nat} {body : ByteVec}
    {k : σ} {done : LoopEnd σ} (h : readRemainingBodyInto read fill requestId fuel body k = some done) :
    done.log = readIterations read fill requestId fuel body k := by
  induction fuel generalizing body k done with
  | zero => cases h
  | succ fuel ih =>
    unfold readRemainingBodyInto at h
    unfold readIterations
    dsimp only at h ⊢
    split at h
    · rename_i e failed
      obtain rfl := Option.some.inj h
      simp only [failed]
    · rename_i ended
      obtain rfl := Option.some.inj h
      simp only [ended]
    · rename_i ended
      obtain rfl := Option.some.inj h
      simp only [ended]
    · rename_i n got
      obtain ⟨rest, ran, rfl⟩ := Option.map_eq_some_iff.mp h
      simp only [got, ih ran]

/-- An iteration that keeps the invariant uses up some of a measure of the kernel's state;
every other one ends the loop. -/
theorem readRemaining_ends {read : Reader σ} {fill : Nat → UInt8} {requestId : UInt64} {I : ByteVec → σ → Prop}
    {Q : Except Error Unit → ByteVec → σ → Prop} (left : σ → Nat)
    (turn : ∀ body k, I body k → ∀ room answer, room = withRoom fill body → answer = readSpare read requestId room k →
      (∃ n, answer.result = .ok (some (n + 1)) ∧ left answer.next < left k ∧
        I ((room.overwrite answer.written).setLen (room.len + (n + 1))) answer.next) ∨
      ((answer.result = .ok none ∨ answer.result = .ok (some 0)) ∧
        Q (.ok ()) (room.overwrite answer.written) answer.next) ∨
      (∃ e, answer.result = .error e ∧ Q (.error e) (room.overwrite answer.written) answer.next))
    (fuel : Nat) (body : ByteVec) (k : σ) (start : I body k) (enough : left k < fuel) :
    ∃ done, readRemainingBodyInto read fill requestId fuel body k = some done ∧
      Q done.result done.body done.kernel := by
  induction fuel generalizing body k with
  | zero => omega
  | succ fuel ih =>
    unfold readRemainingBodyInto
    dsimp only
    rcases turn body k start _ _ rfl rfl with ⟨n, got, fewer, keeps⟩ | ⟨none_ | zero, ended⟩ | ⟨e, failed, ended⟩
    · obtain ⟨done, ran, holds⟩ := ih _ _ keeps (by omega)
      simp only [got]
      rw [ran, Option.map_some]
      exact ⟨_, rfl, holds⟩
    · simp only [none_]
      exact ⟨_, rfl, ended⟩
    · simp only [zero]
      exact ⟨_, rfl, ended⟩
    · simp only [failed]
      exact ⟨_, rfl, ended⟩

theorem withRoom_len (fill : Nat → UInt8) (body : ByteVec) : (withRoom fill body).len = body.len := by
  rw [ByteVec.len, withRoom_data, ByteVec.len]

theorem withRoom_capacity (fill : Nat → UInt8) (body : ByteVec) : (withRoom fill body).capacity =
    if body.len = body.capacity then max (2 * body.len) (body.len + bodyChunkBytes) else body.capacity := by
  unfold withRoom
  split
  · rename_i full
    have spare : body.spare.length = 0 := by
      unfold ByteVec.len ByteVec.capacity at full
      omega
    rw [ByteVec.reserve_capacity, if_pos (by rw [spare]; decide), full]
    unfold bodyChunkBytes
    omega
  · rfl

/-! ### A bound at every iteration -/

/-- http.sys writes and reports no more bytes than it was given room for. -/
def Within (http : EntityKernel σ) (skip : Bool) : Prop :=
  ∀ k id length, (http k id length).written.length ≤ length.toNat ∧
    ∀ n, (http k id length).outcome.finish skip = .ok n → n ≤ length

theorem readEntityBody_within {http : EntityKernel σ} {skip : Bool} (within : Within http skip) (k : σ) (id : UInt64)
    {dst : Nat} (room : 0 < dst) :
    (readEntityBody http skip k id dst).written.length ≤ dst ∧
      ∀ n, (readEntityBody http skip k id dst).result = .ok (some n) → n ≤ dst := by
  have narrowed := narrowed_le dst
  obtain ⟨written, reported⟩ := within k id (UInt32.ofNat dst)
  unfold readEntityBody
  rw [if_neg (by omega)]
  refine ⟨Nat.le_trans written narrowed, ?_⟩
  intro n result
  dsimp only at result
  split at result
  · rename_i read finished
    have size : read.toNat ≤ (UInt32.ofNat dst).toNat := UInt32.le_iff_toNat_le.mp (reported read finished)
    obtain rfl : read.toNat = n := by simpa using result
    omega
  · split at result <;> cases result

/-- The bound, with the bytes received so far as the length. -/
def Modest (maxRetained : Nat) (body : ByteVec) : Prop :=
  body.capacity ≤ max (max maxRetained maxBodyReserve) (2 * body.len + bodyChunkBytes)

theorem modest_withRoom {maxRetained : Nat} {body : ByteVec} (fill : Nat → UInt8) (modest : Modest maxRetained body) :
    Modest maxRetained (withRoom fill body) := by
  unfold Modest at modest ⊢
  rw [withRoom_len, withRoom_capacity]
  split <;> omega

theorem modest_filled {maxRetained n : Nat} {body : ByteVec} {bytes : List UInt8} (modest : Modest maxRetained body)
    (written : bytes.length ≤ body.capacity - body.len) (reported : n ≤ body.capacity - body.len) :
    Modest maxRetained ((body.overwrite bytes).setLen (body.len + n)) ∧
      ((body.overwrite bytes).setLen (body.len + n)).len = body.len + n := by
  have capacity := body.overwrite_setLen_capacity written (body.len + n)
  have len := body.overwrite_setLen_len written reported
  refine ⟨?_, len⟩
  unfold Modest at modest ⊢
  rw [capacity, len]
  omega

def bytesRead : List Iteration → Nat
  | [] => 0
  | it :: rest => it.read + bytesRead rest

theorem readIterations_bounded {http : EntityKernel σ} {skip : Bool} (within : Within http skip) (fill : Nat → UInt8)
    (requestId : UInt64) {maxRetained : Nat} (fuel : Nat) (body : ByteVec) (k : σ) (modest : Modest maxRetained body)
    (i : Nat) (it : Iteration)
    (found : (readIterations (readEntityBody http skip) fill requestId fuel body k)[i]? = some it) :
    it.capacity ≤ max (max maxRetained maxBodyReserve) (2 * (body.len +
      bytesRead ((readIterations (readEntityBody http skip) fill requestId fuel body k).take i)) + bodyChunkBytes) := by
  induction fuel generalizing body k i with
  | zero => simp [readIterations] at found
  | succ fuel ih =>
    have room := withRoom_room fill body
    have grown := modest_withRoom fill modest
    have same := withRoom_len fill body
    have shape := readIterations_cases (readEntityBody http skip) fill requestId fuel body k rfl rfl
    generalize withRoom fill body = vec at room grown same shape
    obtain ⟨written, reported⟩ := readEntityBody_within within k requestId room
    have answer : readEntityBody http skip k requestId (vec.capacity - vec.len) =
      readSpare (readEntityBody http skip) requestId vec k := rfl
    rw [answer] at written reported
    generalize readSpare (readEntityBody http skip) requestId vec k = read at written reported shape
    have first : (iteration vec read.result).capacity ≤
        max (max maxRetained maxBodyReserve) (2 * body.len + bodyChunkBytes) := by
      rw [← same]
      exact grown
    rcases shape with ⟨n, got, shape⟩ | ⟨-, shape⟩
    · rw [shape] at found ⊢
      obtain ⟨keeps, len⟩ := modest_filled grown written (reported (n + 1) got)
      cases i with
      | zero =>
        obtain rfl := Option.some.inj found
        exact first
      | succ i =>
        have later := ih _ _ keeps i found
        have count : (iteration vec read.result).read = n + 1 := by rw [got]; rfl
        rw [len, Nat.add_assoc] at later
        rw [List.take_succ_cons, bytesRead, count, ← same]
        exact later
    · rw [shape] at found ⊢
      cases i with
      | zero =>
        obtain rfl := Option.some.inj found
        exact first
      | succ i => cases found

theorem readIterations_first (read : Reader σ) (fill : Nat → UInt8) (requestId : UInt64) (fuel : Nat) (body : ByteVec)
    (k : σ) : ∃ result, (readIterations read fill requestId (fuel + 1) body k)[0]? =
      some (iteration (withRoom fill body) result) := by
  rcases readIterations_cases read fill requestId fuel body k rfl rfl with ⟨n, -, more⟩ | ⟨-, last⟩
  · exact ⟨_, by rw [more]; rfl⟩
  · exact ⟨_, by rw [last]; rfl⟩

/-- The iterations of `Request::body`; none when the body arrived whole. -/
def RequestBuffer.bodyIterations (request : RequestBuffer) (read : Reader σ) (fill : Nat → UInt8) (fuel : Nat)
    (pool : BodyPool) (k : σ) : List Iteration :=
  if request.hasMoreBody then
    readIterations read fill request.requestId fuel
      ((pool.take fill request.bodyCapacity).1.extendFromSlice fill request.inlineBody) k
  else []

theorem body_log {request : RequestBuffer} {read : Reader σ} {fill : Nat → UInt8} {fuel : Nat} {pool : BodyPool} {k : σ}
    {call : BodyCall σ} (h : request.body read fill fuel pool k = some call) :
    call.log = request.bodyIterations read fill fuel pool k := by
  unfold RequestBuffer.body at h
  unfold RequestBuffer.bodyIterations
  dsimp only at h
  split at h
  · rename_i more
    obtain ⟨done, ran, rfl⟩ := Option.map_eq_some_iff.mp h
    rw [if_pos more, ← readRemaining_log ran]
    split <;> rfl
  · rename_i whole
    obtain rfl := Option.some.inj h
    rw [if_neg whole]

theorem bodyCapacity_bound (request : RequestBuffer) :
    request.bodyCapacity ≤ max maxBodyReserve (request.inlineBody.length + bodyChunkBytes) := by
  unfold RequestBuffer.bodyCapacity
  dsimp only
  split <;> omega

theorem extend_taken_capacity (pool : BodyPool) (fill : Nat → UInt8) (capacity : Nat) (bytes : List UInt8) :
    ((pool.take fill capacity).1.extendFromSlice fill bytes).capacity =
      if (pool.take fill capacity).1.capacity < bytes.length then
        max (max (2 * (pool.take fill capacity).1.capacity) bytes.length) 8
      else (pool.take fill capacity).1.capacity := by
  have spare : (pool.take fill capacity).1.capacity = (pool.take fill capacity).1.spare.length := by
    rw [ByteVec.capacity, BodyPool.take_data, List.length_nil, Nat.zero_add]
  have len : (pool.take fill capacity).1.len = 0 := by
    rw [ByteVec.len, BodyPool.take_data, List.length_nil]
  rw [ByteVec.extendFromSlice_capacity, ByteVec.reserve_capacity, ← spare, len, Nat.zero_add]

theorem extend_taken_len (pool : BodyPool) (fill : Nat → UInt8) (capacity : Nat) (bytes : List UInt8) :
    ((pool.take fill capacity).1.extendFromSlice fill bytes).len = bytes.length := by
  rw [ByteVec.len, ByteVec.extendFromSlice_data, BodyPool.take_data, List.nil_append]

theorem modest_start {maxRetained : Nat} {pool : BodyPool} (retained : ∀ vec ∈ pool.free, vec.capacity ≤ maxRetained)
    (request : RequestBuffer) (fill : Nat → UInt8) :
    Modest maxRetained ((pool.take fill request.bodyCapacity).1.extendFromSlice fill request.inlineBody) := by
  have oldest : pool.oldest.capacity ≤ maxRetained := by
    unfold BodyPool.oldest
    cases found : pool.free.head? with
    | none => exact Nat.zero_le _
    | some vec => exact retained vec (List.mem_of_head? found)
  have taken : (pool.take fill request.bodyCapacity).1.capacity ≤
      max (max maxRetained maxBodyReserve) (request.inlineBody.length + bodyChunkBytes) := by
    have asked := bodyCapacity_bound request
    rw [BodyPool.take_capacity]
    omega
  have chunk : 8 ≤ bodyChunkBytes := by decide
  unfold Modest
  rw [extend_taken_capacity, extend_taken_len]
  split <;> omega

/-- At every iteration the buffer is no larger than what the pool retains, what a `Content-Length`
may reserve, or a constant more than twice the bytes received. -/
theorem body_capacity_bounded (slots maxRetained : Nat) (pool : BodyPool) (reached : pool.Reached slots maxRetained)
    (request : RequestBuffer) (http : EntityKernel σ) (skip : Bool) (within : Within http skip) (fill : Nat → UInt8)
    (fuel : Nat) (k : σ) (i : Nat) (it : Iteration)
    (found : (request.bodyIterations (readEntityBody http skip) fill fuel pool k)[i]? = some it) :
    it.capacity ≤ max (max maxRetained maxBodyReserve) (2 * (request.inlineBody.length +
      bytesRead ((request.bodyIterations (readEntityBody http skip) fill fuel pool k).take i)) + bodyChunkBytes) := by
  unfold RequestBuffer.bodyIterations at found ⊢
  split at found
  · rename_i more
    have bound := readIterations_bounded within fill request.requestId fuel _ k
      (modest_start reached.retained request fill) i it found
    rw [extend_taken_len] at bound
    rw [if_pos more]
    exact bound
  · cases found

theorem drainKernel_within : Within drainKernel true := by
  intro k id length
  unfold drainKernel
  dsimp only
  split
  · exact ⟨Nat.zero_le _, fun n ok => by cases ok⟩
  · split
    · exact ⟨Nat.zero_le _, fun n ok => by cases ok⟩
    · refine ⟨by rw [List.length_take]; omega, ?_⟩
      intro n ok
      obtain rfl : UInt32.ofNat (min length.toNat k.length) = n := by simpa [Outcome.finish] using ok
      rw [UInt32.le_iff_toNat_le, count_toNat]
      exact Nat.min_le_left _ _

/-- The second iteration finds the buffer of one byte full. -/
theorem body_capacity_bounded_streamed : ∃ it,
    (streamedRequest.bodyIterations (readEntityBody drainKernel true) (fun _ => 0) 2 (.new 1 1024) [7, 8, 9])[1]? =
      some it ∧
    it.filled = 1 ∧ it.capacity = 1 + bodyChunkBytes ∧
    it.capacity ≤ max (max 1024 maxBodyReserve) (2 * (streamedRequest.inlineBody.length +
      bytesRead ((streamedRequest.bodyIterations (readEntityBody drainKernel true) (fun _ => 0) 2 (.new 1 1024)
        [7, 8, 9]).take 1)) + bodyChunkBytes) := by
  have opened : streamedRequest.bodyIterations (readEntityBody drainKernel true) (fun _ => 0) 2 (.new 1 1024) [7, 8, 9] =
      { dst := 1, filled := 0, capacity := 1, result := .ok (some 1) } ::
        readIterations (readEntityBody drainKernel true) (fun _ => 0) 42 1 { data := [7] } [8, 9] := by
    have more : streamedRequest.hasMoreBody = true := rfl
    rw [RequestBuffer.bodyIterations, if_pos more, readIterations]
    rfl
  have regrown : (withRoom (fun _ => 0) { data := [7] }).capacity = 1 + bodyChunkBytes := by
    rw [withRoom_capacity]
    rfl
  obtain ⟨result, second⟩ :=
    readIterations_first (readEntityBody drainKernel true) (fun _ => 0) 42 0 { data := [7] } [8, 9]
  have found : (streamedRequest.bodyIterations (readEntityBody drainKernel true) (fun _ => 0) 2 (.new 1 1024)
      [7, 8, 9])[1]? = some (iteration (withRoom (fun _ => 0) { data := [7] }) result) := by
    rw [opened, List.getElem?_cons_succ]
    exact second
  exact ⟨_, found, withRoom_len _ _, regrown, body_capacity_bounded 1 1024 _ (BodyPool.reached_new 1 1024) streamedRequest
    drainKernel true drainKernel_within (fun _ => 0) 2 [7, 8, 9] 1 _ found⟩

/-! ### A kernel that goes on to the end of the body -/

/-- While bytes remain, a read into a buffer of non-zero length takes some of them; with
nothing left it says so. -/
structure Transfers (http : EntityKernel σ) (skip : Bool) (remaining : σ → List UInt8) : Prop where
  bytes : ∀ k id length, remaining k ≠ [] → ∃ n, (http k id length).outcome.finish skip = .ok n ∧ n ≤ length ∧
    (n = 0 → length = 0) ∧ n.toNat ≤ (remaining k).length ∧ (http k id length).written = (remaining k).take n.toNat ∧
    remaining (http k id length).next = (remaining k).drop n.toNat
  eof : ∀ k id length, remaining k = [] →
    ((http k id length).outcome.finish skip = .error (.win32 errorHandleEof) ∨
      (http k id length).outcome.finish skip = .ok 0) ∧
    (http k id length).written = [] ∧ remaining (http k id length).next = []

/-- The kernel only sees the low 32 bits of the length of `dst`. -/
theorem readEntityBody_transfers {http : EntityKernel σ} {skip : Bool} {remaining : σ → List UInt8}
    (transfers : Transfers http skip remaining) (k : σ) (id : UInt64) {dst : Nat} (room : 0 < dst)
    {answer : ReadResult σ} (answered : answer = readEntityBody http skip k id dst) :
    (0 < (remaining k).length ∧ ∃ n, answer.result = .ok (some n) ∧ n ≤ dst % 2 ^ 32 ∧ (n = 0 → dst % 2 ^ 32 = 0) ∧
      answer.written = (remaining k).take n ∧ remaining answer.next = (remaining k).drop n ∧
      (remaining k).length = n + (remaining answer.next).length ∧ ((remaining k).take n).length ≤ dst) ∨
    (remaining k = [] ∧ (answer.result = .ok none ∨ answer.result = .ok (some 0)) ∧ answer.written = [] ∧
      remaining answer.next = []) := by
  subst answered
  unfold readEntityBody
  rw [if_neg (by omega)]
  dsimp only
  by_cases empty : remaining k = []
  · obtain ⟨finished, written, next⟩ := transfers.eof k id (UInt32.ofNat dst) empty
    refine Or.inr ⟨empty, ?_, written, next⟩
    rcases finished with eof | zero
    · rw [eof]
      exact Or.inl rfl
    · rw [zero]
      exact Or.inr rfl
  · obtain ⟨n, finished, within, stuck, left, written, next⟩ := transfers.bytes k id (UInt32.ofNat dst) empty
    have narrowed := UInt32.toNat_ofNat' (n := dst)
    have small := UInt32.le_iff_toNat_le.mp within
    rw [narrowed] at small
    refine Or.inl ⟨List.length_pos_iff.mpr empty, n.toNat, by rw [finished], small, ?_, written, next, ?_, ?_⟩
    · intro none_
      rw [← narrowed, stuck (UInt32.toNat_inj.mp none_)]
      rfl
    · rw [next, List.length_drop]
      omega
    · rw [List.length_take]
      omega

/-! ### An upload of known length -/

/-- `FILL_BUFFER`: a read takes all that fits. -/
structure FillsBuffer (http : EntityKernel σ) (skip : Bool) (remaining : σ → List UInt8) : Prop where
  bytes : ∀ k id length, remaining k ≠ [] → ∃ n, (http k id length).outcome.finish skip = .ok n ∧
    n.toNat = min length.toNat (remaining k).length ∧ (http k id length).written = (remaining k).take n.toNat ∧
    remaining (http k id length).next = (remaining k).drop n.toNat
  eof : ∀ k id length, remaining k = [] →
    ((http k id length).outcome.finish skip = .error (.win32 errorHandleEof) ∨
      (http k id length).outcome.finish skip = .ok 0) ∧
    (http k id length).written = [] ∧ remaining (http k id length).next = []

theorem FillsBuffer.transfers {http : EntityKernel σ} {skip : Bool} {remaining : σ → List UInt8}
    (fills : FillsBuffer http skip remaining) : Transfers http skip remaining where
  bytes := by
    intro k id length left
    obtain ⟨n, finished, count, written, next⟩ := fills.bytes k id length left
    have positive : 0 < (remaining k).length := List.length_pos_iff.mpr left
    refine ⟨n, finished, UInt32.le_iff_toNat_le.mpr (by omega), ?_, by omega, written, next⟩
    rintro rfl
    have zero : (0 : UInt32).toNat = 0 := rfl
    exact UInt32.toNat_inj.mp (by omega)
  eof := fills.eof

section
variable {http : EntityKernel σ} {skip : Bool} {remaining : σ → List UInt8}

/-- More room than the whole body needs: the buffer is never full, so never regrown. -/
theorem readRemaining_roomy (transfers : Transfers http skip remaining) (fill : Nat → UInt8) (requestId : UInt64)
    {fuel : Nat} {body : ByteVec} {k : σ} (enough : (remaining k).length < fuel)
    (roomy : body.len + (remaining k).length < body.capacity) :
    ∃ done, readRemainingBodyInto (readEntityBody http skip) fill requestId fuel body k = some done ∧
      done.result = .ok () ∧ done.body.capacity = body.capacity := by
  refine readRemaining_ends (I := fun vec k => vec.len + (remaining k).length < body.capacity ∧ vec.capacity = body.capacity)
    (Q := fun result vec _ => result = .ok () ∧ vec.capacity = body.capacity)
    (fun k => (remaining k).length) ?_ fuel body k ⟨roomy, rfl⟩ enough
  rintro vec k ⟨fits, same⟩ room answer rfl answered
  have untouched : withRoom fill vec = vec := if_neg (by omega)
  rw [untouched] at answered ⊢
  have spare : 0 < vec.capacity - vec.len := by omega
  rcases readEntityBody_transfers transfers k requestId spare answered with
    ⟨-, n, result, -, -, written, -, size, short⟩ | ⟨empty, result, written, next⟩
  · rw [written]
    cases n with
    | zero =>
      refine Or.inr (Or.inl ⟨Or.inr result, rfl, ?_⟩)
      rw [List.take_zero, ← same]
      exact vec.overwrite_capacity (Nat.zero_le _)
    | succ n =>
      refine Or.inl ⟨n, result, by omega, ?_, ?_⟩
      · rw [vec.overwrite_setLen_len short (by omega)]
        omega
      · rw [vec.overwrite_setLen_capacity short, same]
  · refine Or.inr (Or.inl ⟨result, rfl, ?_⟩)
    rw [written, ← same]
    exact vec.overwrite_capacity (Nat.zero_le _)

/-- The loop only ends with room to spare, so a body of at least the buffer's size regrows it. -/
theorem readRemaining_spare (transfers : Transfers http skip remaining) (fill : Nat → UInt8) (requestId : UInt64)
    {fuel : Nat} {body : ByteVec} {k : σ} (enough : (remaining k).length < fuel)
    (small : body.len + (remaining k).length ≤ maxBodyReserve) (narrow : body.capacity < 2 ^ 32) :
    ∃ done, readRemainingBodyInto (readEntityBody http skip) fill requestId fuel body k = some done ∧
      done.result = .ok () ∧ body.len + (remaining k).length < done.body.capacity := by
  refine readRemaining_ends
    (I := fun vec rest => vec.len + (remaining rest).length = body.len + (remaining k).length ∧ vec.capacity < 2 ^ 32)
    (Q := fun result vec _ => result = .ok () ∧ body.len + (remaining k).length < vec.capacity)
    (fun k => (remaining k).length) ?_ fuel body k ⟨rfl, narrow⟩ enough
  rintro vec rest ⟨total, bound⟩ room answer roomy answered
  have spare : 0 < room.capacity - room.len := by
    rw [roomy]
    exact withRoom_room fill vec
  have len : room.len = vec.len := by rw [roomy, withRoom_len]
  have grown : room.capacity < 2 ^ 32 := by
    rw [roomy, withRoom_capacity]
    unfold maxBodyReserve at small
    unfold bodyChunkBytes
    split <;> omega
  rcases readEntityBody_transfers transfers rest requestId spare answered with
    ⟨-, n, result, within, progress, written, -, size, short⟩ | ⟨empty, result, written, next⟩
  · obtain ⟨m, rfl⟩ : ∃ m, n = m + 1 := ⟨n - 1, by omega⟩
    rw [written]
    refine Or.inl ⟨m, result, by omega, ?_, ?_⟩
    · rw [room.overwrite_setLen_len short (by omega)]
      omega
    · rw [room.overwrite_setLen_capacity short]
      exact grown
  · have nothing : (remaining rest).length = 0 := by rw [empty, List.length_nil]
    refine Or.inr (Or.inl ⟨result, rfl, ?_⟩)
    rw [written, room.overwrite_capacity (Nat.zero_le _)]
    omega

theorem body_of_ok {read : Reader σ} {request : RequestBuffer} {pool : BodyPool} {fill : Nat → UInt8} {fuel : Nat} {k : σ}
    {done : LoopEnd σ} (more : request.hasMoreBody = true)
    (ran : readRemainingBodyInto read fill request.requestId fuel
      ((pool.take fill request.bodyCapacity).1.extendFromSlice fill request.inlineBody) k = some done)
    (ok : done.result = .ok ()) :
    ∃ call, request.body read fill fuel pool k = some call ∧
      call.result = .ok { inline := request.inlineBody, owned := some done.body } := by
  unfold RequestBuffer.body
  rw [if_pos more]
  dsimp only
  rw [ran, Option.map_some, ok]
  exact ⟨_, rfl, rfl⟩

theorem bodyCapacity_honest {request : RequestBuffer} {length : Nat} (honest : request.contentLength = some length)
    (rest : request.inlineBody.length < length) (small : length ≤ maxBodyReserve) : request.bodyCapacity = length := by
  unfold RequestBuffer.bodyCapacity
  rw [honest, Option.getD_some, Nat.min_eq_left small]
  exact if_pos rest

theorem body_honest (fills : FillsBuffer http skip remaining) (request : RequestBuffer) (pool : BodyPool)
    (fill : Nat → UInt8) (k : σ) (length : Nat) {fuel : Nat} (more : request.hasMoreBody = true)
    (honest : request.contentLength = some length)
    (true_ : length = request.inlineBody.length + (remaining k).length) (rest : request.inlineBody.length < length)
    (small : length ≤ maxBodyReserve) (enough : (remaining k).length < fuel) :
    ∃ call body vec, request.body (readEntityBody http skip) fill fuel pool k = some call ∧
      call.result = .ok body ∧ body.owned = some vec ∧
      (length < pool.oldest.capacity → vec.capacity = (pool.take fill length).1.capacity) ∧
      (pool.oldest.capacity ≤ length → (pool.take fill length).1.capacity < vec.capacity) := by
  have taken := pool.take_capacity fill length
  have start := extend_taken_capacity pool fill length request.inlineBody
  have len := extend_taken_len pool fill length request.inlineBody
  have capacity := bodyCapacity_honest honest rest small
  by_cases large : length < pool.oldest.capacity
  · rw [if_neg (by omega)] at start
    have roomy : ((pool.take fill length).1.extendFromSlice fill request.inlineBody).len + (remaining k).length <
        ((pool.take fill length).1.extendFromSlice fill request.inlineBody).capacity := by omega
    obtain ⟨done, ran, ok, same⟩ := readRemaining_roomy fills.transfers fill request.requestId enough roomy
    obtain ⟨call, called, result⟩ := body_of_ok more (by rw [capacity]; exact ran) ok
    exact ⟨call, _, _, called, result, rfl, fun _ => same.trans start, fun reverse => by omega⟩
  · have narrow : ((pool.take fill length).1.extendFromSlice fill request.inlineBody).capacity < 2 ^ 32 := by
      unfold maxBodyReserve at small
      rw [start]
      split <;> omega
    obtain ⟨done, ran, ok, room⟩ := readRemaining_spare fills.transfers fill request.requestId enough (by omega) narrow
    obtain ⟨call, called, result⟩ := body_of_ok more (by rw [capacity]; exact ran) ok
    exact ⟨call, _, _, called, result, rfl, fun reverse => by omega, fun _ => by omega⟩

end

/-- The body is returned in the buffer that was taken for it, and a fresh buffer of a size
that the pool retains is retained when it is dropped. -/
def KeepsBuffer (pool : BodyPool) (fill : Nat → UInt8) (length : Nat) (vec : ByteVec) : Prop :=
  vec.capacity = (pool.take fill length).1.capacity ∧
    (pool.free = [] → length ≤ pool.maxRetained → ∀ later : BodyPool, later.maxRetained = pool.maxRetained →
      later.free.length < later.slots → (later.drop vec).free = later.free ++ [vec.clear])

/-- An honest upload is read without regrowing its buffer exactly when the pool had a recycled
buffer in front that is larger than the body. -/
theorem body_keeps_buffer_iff (request : RequestBuffer) (pool : BodyPool) (fill : Nat → UInt8) (http : EntityKernel σ)
    (skip : Bool) (remaining : σ → List UInt8) (k : σ) (length : Nat) (fills : FillsBuffer http skip remaining)
    (more : request.hasMoreBody = true) (honest : request.contentLength = some length)
    (true_ : length = request.inlineBody.length + (remaining k).length) (rest : request.inlineBody.length < length)
    (small : length ≤ maxBodyReserve) :
    ∃ bound, ∀ fuel, bound ≤ fuel → ∃ call body vec,
      request.body (readEntityBody http skip) fill fuel pool k = some call ∧ call.result = .ok body ∧
      body.owned = some vec ∧
      (KeepsBuffer pool fill length vec ↔ ∃ recycled, pool.free.head? = some recycled ∧ length < recycled.capacity) := by
  refine ⟨(remaining k).length + 1, fun fuel enough => ?_⟩
  obtain ⟨call, body, vec, called, ok, owned, keeps, regrows⟩ :=
    body_honest fills request pool fill k length more honest true_ rest small enough
  refine ⟨call, body, vec, called, ok, owned, ?_⟩
  constructor
  · rintro ⟨same, -⟩
    cases found : pool.free.head? with
    | none =>
      have grown := regrows (by rw [BodyPool.oldest, found]; exact Nat.zero_le _)
      omega
    | some recycled =>
      refine ⟨recycled, rfl, ?_⟩
      have oldest : pool.oldest = recycled := by rw [BodyPool.oldest, found, Option.getD_some]
      rw [oldest] at regrows
      by_contra short
      have grown := regrows (by omega)
      omega
  · rintro ⟨recycled, found, large⟩
    have oldest : pool.oldest = recycled := by rw [BodyPool.oldest, found, Option.getD_some]
    refine ⟨keeps (by rw [oldest]; exact large), ?_⟩
    intro empty
    rw [empty] at found
    cases found

def fillKernel : EntityKernel (List UInt8) := fun k _ length =>
  if k = [] then { outcome := { status := errorHandleEof }, next := k }
  else
    let n := min length.toNat k.length
    { outcome := { status := 0, reported := UInt32.ofNat n }, written := k.take n, next := k.drop n }

theorem fillKernel_fills : FillsBuffer fillKernel true id where
  bytes := by
    intro k id length left
    have count := count_toNat length k.length
    refine ⟨UInt32.ofNat (min length.toNat k.length), ?_, count, ?_, ?_⟩
    · simp only [fillKernel, if_neg (show ¬ k = [] from left), Outcome.finish, and_self, if_true]
    · simp only [fillKernel, if_neg (show ¬ k = [] from left), count]
      rfl
    · simp only [fillKernel, if_neg (show ¬ k = [] from left), count]
      rfl
  eof := by
    intro k id length empty
    obtain rfl : k = [] := empty
    exact ⟨Or.inl rfl, rfl, rfl⟩

theorem body_keeps_recycled_buffer : ∃ bound, ∀ fuel, bound ≤ fuel → ∃ call body vec,
    streamedRequest.body (readEntityBody fillKernel true) (fun _ => 0) fuel
      { free := [{ spare := [0, 0] }], maxRetained := 8 } [7] = some call ∧ call.result = .ok body ∧
    body.owned = some vec ∧ KeepsBuffer { free := [{ spare := [0, 0] }], maxRetained := 8 } (fun _ => 0) 1 vec := by
  obtain ⟨bound, reads⟩ := body_keeps_buffer_iff streamedRequest { free := [{ spare := [0, 0] }], maxRetained := 8 }
    (fun _ => 0) fillKernel true id [7] 1 fillKernel_fills rfl rfl rfl (by decide) (by decide)
  refine ⟨bound, fun fuel enough => ?_⟩
  obtain ⟨call, body, vec, called, ok, owned, keeps⟩ := reads fuel enough
  exact ⟨call, body, vec, called, ok, owned, keeps.mpr ⟨{ spare := [0, 0] }, rfl, by decide⟩⟩

/-- A fresh buffer is exactly as long as the body, so it is full before the end of the body is known. -/
theorem body_regrows_fresh_buffer : ¬ ∀ (request : RequestBuffer) (pool : BodyPool) (fill : Nat → UInt8)
    (http : EntityKernel (List UInt8)) (skip : Bool) (remaining : List UInt8 → List UInt8) (k : List UInt8)
    (length : Nat), FillsBuffer http skip remaining → request.hasMoreBody = true →
    request.contentLength = some length → length = request.inlineBody.length + (remaining k).length →
    request.inlineBody.length < length → length ≤ maxBodyReserve →
    ∃ bound, ∀ fuel, bound ≤ fuel → ∃ call body vec,
      request.body (readEntityBody http skip) fill fuel pool k = some call ∧ call.result = .ok body ∧
      body.owned = some vec ∧ KeepsBuffer pool fill length vec := by
  intro keeps
  obtain ⟨bound, keeps⟩ := keeps streamedRequest (.new 1 1024) (fun _ => 0) fillKernel true id [7] 1 fillKernel_fills
    rfl rfl rfl (by decide) (by decide)
  obtain ⟨call, body, vec, called, ok, owned, same, -⟩ := keeps (bound + 2) (by omega)
  have enough : ([7] : List UInt8).length < bound + 2 := by
    show 1 < bound + 2
    omega
  obtain ⟨call', body', vec', called', ok', owned', -, regrows⟩ := body_honest fillKernel_fills streamedRequest
    (.new 1 1024) (fun _ => 0) [7] 1 rfl rfl rfl (by decide) (by decide) enough
  obtain rfl : call = call' := Option.some.inj (called.symm.trans called')
  obtain rfl : body = body' := Except.ok.inj (ok.symm.trans ok')
  obtain rfl : vec = vec' := Option.some.inj (owned.symm.trans owned')
  have grown := regrows (by decide)
  omega

end HttpSys
