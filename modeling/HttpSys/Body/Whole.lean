import HttpSys.Body.Model

/-! The read loop delivers every remaining entity byte, once and in order. -/
namespace HttpSys
open Lib

variable {σ : Type}

/-- A read into `dst` bytes that takes some of the entity bytes the kernel still
holds, that finds none left, or that fails and may have used some of them up. -/
def ReadResult.Answers (r : ReadResult σ) (remaining : σ → List UInt8) (k : σ) (dst : Nat) : Prop :=
  (∃ n, r.result = .ok (some n) ∧ 1 ≤ n ∧ n ≤ dst ∧ n ≤ (remaining k).length ∧
    r.written = (remaining k).take n ∧ remaining r.next = (remaining k).drop n) ∨
  (remaining k = [] ∧ (r.result = .ok none ∨ r.result = .ok (some 0)) ∧ r.written = [] ∧ remaining r.next = []) ∨
  (∃ e, r.result = .error e ∧ remaining r.next <:+ remaining k)

def ReadContract (read : Reader σ) (remaining : σ → List UInt8) : Prop :=
  ∀ k id dst, 0 < dst → (read k id dst).Answers remaining k dst

def Iteration.Sound (it : Iteration) : Prop := 0 < it.dst ∧ it.filled + it.read ≤ it.capacity

def Iteration.Failed (it : Iteration) : Prop := ∃ e, it.result = .error e

structure LoopEnd.Delivers (done : LoopEnd σ) (remaining : σ → List UInt8) (body : ByteVec) (k : σ) : Prop where
  sound : ∀ it ∈ done.log, it.Sound
  whole : done.result = .ok () → done.body.data = body.data ++ remaining k
  failed : ∀ e, done.result = .error e → ∃ it ∈ done.log, it.Failed
  suffix : remaining done.kernel <:+ remaining k

theorem withRoom_room (fill : Nat → UInt8) (body : ByteVec) :
    0 < (withRoom fill body).capacity - (withRoom fill body).len := by
  unfold withRoom
  split
  · have spare := body.reserve_room fill bodyChunkBytes
    have chunk : 0 < bodyChunkBytes := by decide
    simp only [ByteVec.capacity, ByteVec.len]
    omega
  · rename_i different
    simp only [ByteVec.capacity, ByteVec.len] at different ⊢
    omega

theorem withRoom_data (fill : Nat → UInt8) (body : ByteVec) : (withRoom fill body).data = body.data := by
  unfold withRoom
  split
  · exact body.reserve_data fill bodyChunkBytes
  · rfl

theorem iteration_sound {body : ByteVec} {result : Except Error (Option Nat)} (room : 0 < body.capacity - body.len)
    (fits : (iteration body result).read ≤ body.capacity - body.len) : (iteration body result).Sound := by
  refine ⟨room, ?_⟩
  simp only [iteration] at fits ⊢
  omega

theorem delivers_end {remaining : σ → List UInt8} {body room : ByteVec} {k next : σ}
    {result : Except Error (Option Nat)} (same : room.data = body.data) (spare : 0 < room.capacity - room.len)
    (empty : remaining k = []) (none_ : (iteration room result).read = 0) (after : remaining next = []) :
    LoopEnd.Delivers { result := .ok (), body := room.overwrite [], kernel := next, log := [iteration room result] }
      remaining body k where
  sound := by
    intro it member
    obtain rfl := List.mem_singleton.mp member
    exact iteration_sound spare (by omega)
  whole := fun _ => by simp [ByteVec.overwrite, same, empty]
  failed := fun _ error => by cases error
  suffix := by rw [after]; exact List.nil_suffix

theorem readRemaining_delivers {read : Reader σ} {remaining : σ → List UInt8} (contract : ReadContract read remaining)
    (fill : Nat → UInt8) (id : UInt64) (fuel : Nat) (body : ByteVec) (k : σ)
    (enough : (remaining k).length < fuel) :
    ∃ done, readRemainingBodyInto read fill id fuel body k = some done ∧ done.Delivers remaining body k := by
  induction fuel generalizing body k with
  | zero => omega
  | succ fuel ih =>
    have same := withRoom_data fill body
    have spare := withRoom_room fill body
    unfold readRemainingBodyInto
    dsimp only
    generalize withRoom fill body = room at same spare ⊢
    have answer : (readSpare read id room k).Answers remaining k _ := contract k id (room.capacity - room.len) spare
    rcases answer with ⟨n, result, positive, fits, left, written, next⟩ | ⟨empty, result, written, next⟩ |
      ⟨e, result, next⟩
    · -- `n` bytes arrive; the rest of the loop starts from a strictly shorter remainder.
      obtain ⟨m, rfl⟩ : ∃ m, n = m + 1 := ⟨n - 1, by omega⟩
      have shorter : (remaining (readSpare read id room k).next).length < fuel := by
        rw [next, List.length_drop]
        omega
      have exposed := ByteVec.overwrite_setLen_data room ((remaining k).take (m + 1))
        (n := room.len + (m + 1)) (by simp; omega)
      simp only [result]
      rw [written]
      obtain ⟨done, ran, delivers⟩ := ih ((room.overwrite ((remaining k).take (m + 1))).setLen
        (room.len + (m + 1))) _ shorter
      rw [ran, Option.map_some]
      refine ⟨_, rfl, ?_, ?_, ?_, ?_⟩
      · intro it member
        rcases List.mem_cons.mp member with rfl | later
        · exact iteration_sound spare fits
        · exact delivers.sound it later
      · intro ok
        rw [delivers.whole ok, exposed, same, next, List.append_assoc, List.take_append_drop]
      · intro e error
        obtain ⟨it, member, failed⟩ := delivers.failed e error
        exact ⟨it, List.mem_cons_of_mem _ member, failed⟩
      · exact delivers.suffix.trans (next ▸ List.drop_suffix _ _)
    · rw [written]
      rcases result with none_ | zero
      · simp only [none_]
        exact ⟨_, rfl, delivers_end same spare empty rfl next⟩
      · simp only [zero]
        exact ⟨_, rfl, delivers_end same spare empty rfl next⟩
    · simp only [result]
      refine ⟨_, rfl, ?_, fun ok => (by cases ok), fun _ _ => ⟨_, List.mem_singleton_self _, e, rfl⟩, next⟩
      intro it member
      obtain rfl := List.mem_singleton.mp member
      exact iteration_sound spare (Nat.zero_le _)

structure BodyCall.Delivers (call : BodyCall σ) (remaining : σ → List UInt8) (inline : List UInt8) (k : σ) : Prop where
  sound : ∀ it ∈ call.log, it.Sound
  whole : ∀ body, call.result = .ok body → body.deref = inline ++ remaining k
  failed : ∀ e, call.result = .error e → ∃ it ∈ call.log, it.Failed
  suffix : remaining call.kernel <:+ remaining k

/-- The kernel sets the flag whenever it holds entity bytes that are not in the buffer. -/
def Flagged (request : RequestBuffer) (remaining : List UInt8) : Prop :=
  request.hasMoreBody = true ∨ remaining = []

theorem body_delivers {read : Reader σ} {remaining : σ → List UInt8} (contract : ReadContract read remaining)
    (request : RequestBuffer) (fill : Nat → UInt8) (pool : BodyPool) {fuel : Nat} {k : σ}
    (enough : (remaining k).length < fuel) (flagged : Flagged request (remaining k)) :
    ∃ call, request.body read fill fuel pool k = some call ∧ call.Delivers remaining request.inlineBody k := by
  unfold RequestBuffer.body
  dsimp only
  cases more : request.hasMoreBody with
  | false =>
    have empty : remaining k = [] := flagged.resolve_left (by simp [more])
    rw [if_neg Bool.false_ne_true]
    refine ⟨_, rfl, by simp, ?_, fun _ error => (by cases error), List.suffix_refl _⟩
    intro body ok
    cases ok
    simp [Body.deref, empty]
  | true =>
    rw [if_pos rfl]
    obtain ⟨done, ran, delivers⟩ := readRemaining_delivers contract fill request.requestId fuel
      ((pool.take fill request.bodyCapacity).1.extendFromSlice fill request.inlineBody) k enough
    rw [ran, Option.map_some]
    refine ⟨_, rfl, ?_⟩
    cases ended : done.result with
    | ok done' =>
      refine ⟨delivers.sound, ?_, fun _ error => (by cases error), delivers.suffix⟩
      intro body ok
      cases ok
      simpa [Body.deref, BodyPool.take_data] using delivers.whole ended
    | error e =>
      refine ⟨delivers.sound, fun _ ok => (by cases ok), ?_, delivers.suffix⟩
      rintro _ -
      exact delivers.failed e ended

/-! ### A kernel that hands the bytes out -/

/-- http.sys hands out each remaining entity byte once, in order, and answers
`ERROR_HANDLE_EOF` when it has none left. -/
structure HandsOut (http : EntityKernel σ) (skip : Bool) (remaining : σ → List UInt8) : Prop where
  bytes : ∀ k id length n, (http k id length).outcome.finish skip = .ok n →
    1 ≤ n.toNat ∧ n.toNat ≤ length.toNat ∧ n.toNat ≤ (remaining k).length ∧
    (http k id length).written = (remaining k).take n.toNat ∧
    remaining (http k id length).next = (remaining k).drop n.toNat
  eof : ∀ k id length, (http k id length).outcome.finish skip = .error (.win32 errorHandleEof) →
    remaining k = [] ∧ (http k id length).written = [] ∧ remaining (http k id length).next = []
  failure : ∀ k id length e, (http k id length).outcome.finish skip = .error e →
    remaining (http k id length).next <:+ remaining k

theorem narrowed_le (dst : Nat) : (UInt32.ofNat dst).toNat ≤ dst := by
  rw [UInt32.toNat_ofNat']
  exact Nat.mod_le _ _

/-- A count that is at most a `u32` survives the cast. -/
theorem count_toNat (length : UInt32) (left : Nat) :
    (UInt32.ofNat (min length.toNat left)).toNat = min length.toNat left := by
  have word := length.toNat_lt
  rw [UInt32.toNat_ofNat']
  exact Nat.mod_eq_of_lt (by omega)

theorem readEntityBody_contract {http : EntityKernel σ} {skip : Bool} {remaining : σ → List UInt8}
    (hands : HandsOut http skip remaining) : ReadContract (readEntityBody http skip) remaining := by
  intro k id dst positive
  have nonempty : dst ≠ 0 := by omega
  unfold readEntityBody
  rw [if_neg nonempty]
  dsimp only
  cases finished : (http k id (UInt32.ofNat dst)).outcome.finish skip with
  | ok n =>
    obtain ⟨some_, within, left, written, next⟩ := hands.bytes k id _ n finished
    exact Or.inl ⟨n.toNat, rfl, some_, Nat.le_trans within (narrowed_le dst), left, written, next⟩
  | error e =>
    by_cases eof : e = .win32 errorHandleEof
    · subst eof
      obtain ⟨empty, written, next⟩ := hands.eof k id _ finished
      exact Or.inr (Or.inl ⟨empty, Or.inl rfl, written, next⟩)
    · exact Or.inr (Or.inr ⟨e, if_neg eof, hands.failure k id _ e finished⟩)

def drainKernel : EntityKernel (List UInt8) := fun k _ length =>
  let n := min length.toNat k.length
  if k = [] then { outcome := { status := errorHandleEof }, next := k }
  else if n = 0 then { outcome := { status := 87 }, next := k }
  else { outcome := { status := 0, reported := UInt32.ofNat n }, written := k.take n, next := k.drop n }

theorem drainKernel_handsOut : HandsOut drainKernel true id where
  bytes := by
    intro k id length n finished
    simp only [drainKernel] at finished ⊢
    split at finished
    · simp [Outcome.finish, errorHandleEof, errorIoPending] at finished
    · rename_i nonempty
      split at finished
      · simp [Outcome.finish, errorIoPending] at finished
      · rename_i positive
        have count : n.toNat = min length.toNat k.length := by
          simp only [Outcome.finish, and_self, if_true, Except.ok.injEq] at finished
          rw [← finished, count_toNat]
        rw [if_neg nonempty, if_neg positive, count]
        exact ⟨by omega, by omega, Nat.min_le_right _ _, rfl, rfl⟩
  eof := by
    intro k id length finished
    simp only [drainKernel] at finished ⊢
    split at finished
    · rename_i empty
      rw [if_pos empty]
      exact ⟨empty, rfl, empty⟩
    · split at finished
      · simp [Outcome.finish, errorHandleEof, errorIoPending] at finished
      · simp [Outcome.finish] at finished
  failure := by
    intro k id length e finished
    simp only [drainKernel] at finished ⊢
    split at finished
    · rename_i empty
      simp only [if_pos empty]
      exact List.suffix_refl _
    · rename_i nonempty
      simp only [if_neg nonempty]
      split
      · exact List.suffix_refl _
      · exact List.drop_suffix _ _

/-- `Content-Length: 1`, with the body still in the kernel. -/
def streamedRequest : RequestBuffer where
  words := 2048
  request :=
    { flags := 1, requestId := 42
      knownHeaders := fun id => if id = httpHeaderContentLength then { rawValueLength := 1, pRawValue := 864 } else {} }
  memory := fun i => if i = 864 then 0x31 else 0
  room := defaultRoom

/-- `Request::body` terminates with the whole body unless a read fails, and every read of its
loop has room to write into and stays within the buffer. -/
theorem body_returns_whole_body (read : Reader σ) (remaining : σ → List UInt8) (contract : ReadContract read remaining)
    (request : RequestBuffer) (fill : Nat → UInt8) (pool : BodyPool) (k : σ) (flagged : Flagged request (remaining k)) :
    ∃ bound, ∀ fuel, bound ≤ fuel → ∃ call, request.body read fill fuel pool k = some call ∧
      (∀ it ∈ call.log, 0 < it.dst ∧ it.filled + it.read ≤ it.capacity) ∧
      ((∀ it ∈ call.log, ¬ it.Failed) →
        ∃ body, call.result = .ok body ∧ body.deref = request.inlineBody ++ remaining k) := by
  refine ⟨(remaining k).length + 1, fun fuel enough => ?_⟩
  obtain ⟨call, ran, delivers⟩ := body_delivers contract request fill pool enough flagged
  refine ⟨call, ran, delivers.sound, fun clean => ?_⟩
  cases ended : call.result with
  | ok body => exact ⟨body, rfl, delivers.whole body ended⟩
  | error e =>
    obtain ⟨it, member, failed⟩ := delivers.failed e ended
    exact (clean it member failed).elim

theorem body_returns_streamed_bytes : ∃ bound, ∀ fuel, bound ≤ fuel → ∃ call,
    streamedRequest.body (readEntityBody drainKernel true) (fun _ => 0) fuel (.new 1 1024) [7, 8, 9] = some call ∧
    (∀ it ∈ call.log, 0 < it.dst ∧ it.filled + it.read ≤ it.capacity) ∧
    ((∀ it ∈ call.log, ¬ it.Failed) →
      ∃ body, call.result = .ok body ∧ body.deref = streamedRequest.inlineBody ++ [7, 8, 9]) :=
  body_returns_whole_body _ id (readEntityBody_contract drainKernel_handsOut) streamedRequest _ _ _ (Or.inl rfl)

end HttpSys
