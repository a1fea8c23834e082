import HttpSys.Queue.Retention
import HttpSys.Body.Whole

/-! Two runs on recycled buffers that differ only in what the buffers held before.
`prepare` clears the header block only, and a pooled body keeps its old bytes
behind its length, so nothing of either may reach a result. -/
namespace HttpSys
open Lib

/-! ### Receiving into a recycled buffer -/

/-- On success the kernel writes the whole header block, and what its pointers address. -/
def WritesWhatItAddresses (http : ReceiveKernel) (skip : Bool) : Prop :=
  ∀ args n, (http args).outcome.finish skip = .ok n →
    ∃ block writes, (http args).delivery = .request block writes ∧ Addressed block writes

/-- What the caller of `receive` can tell about its result; a request is only read after `Ok`. -/
structure Received where
  result : Except Error Unit
  mode : ReceiveMode
  capacity : UInt32
  requestId : UInt64
  view : Option RequestView

def Received.of : Except Error Unit × RequestBuffer × ReceiveMode → Received
  | (result, buffer, mode) =>
    { result := result, mode := mode, capacity := buffer.capacity, requestId := buffer.requestId
      view := if result.isOk then some buffer.view else none }

theorem sameReads_refl (b : RequestBuffer) : SameReads b b :=
  ⟨rfl, rfl, rfl, fun _ => rfl, fun _ _ => ⟨rfl, rfl, rfl⟩⟩

theorem deliver_requestId (b b' : RequestBuffer) (d : Delivery) :
    (b.prepare.deliver d).requestId = (b'.prepare.deliver d).requestId := by
  cases d <;> rfl

section
variable {b b' : RequestBuffer} (sized : b.capacity = b'.capacity)
include sized

theorem growTo_recycled (same : SameReads b b') (bytes : Nat) :
    (b.growTo bytes = none ∧ b'.growTo bytes = none) ∨ ∃ x y, b.growTo bytes = some x ∧ b'.growTo bytes = some y ∧
      x.capacity = y.capacity ∧ SameReads x y := by
  unfold RequestBuffer.growTo
  rw [sized]
  split
  · cases fresh : RequestBuffer.new bytes with
    | none => exact Or.inl ⟨rfl, rfl⟩
    | some x => exact Or.inr ⟨x, x, rfl, rfl, rfl, sameReads_refl x⟩
  · exact Or.inr ⟨b, b', rfl, rfl, sized, same⟩

theorem fitBodyInline_recycled (same : SameReads b b') (maxBytes : Nat) :
    (b.fitBodyInline maxBytes = none ∧ b'.fitBodyInline maxBytes = none) ∨
    ∃ fits x y, b.fitBodyInline maxBytes = some (fits, x) ∧ b'.fitBodyInline maxBytes = some (fits, y) ∧
      x.capacity = y.capacity ∧ SameReads x y := by
  have length := same.declaredBodyLen
  cases declared : b'.declaredBodyLen with
  | none =>
    rw [RequestBuffer.fitBodyInline_none (length.trans declared), RequestBuffer.fitBodyInline_none declared]
    exact Or.inr ⟨true, b, b', rfl, rfl, sized, same⟩
  | some d =>
    by_cases large : maxBytes < RequestBuffer.saturatingAdd d headerSlack
    · rw [RequestBuffer.fitBodyInline_refuses (length.trans declared) large,
        RequestBuffer.fitBodyInline_refuses declared large]
      exact Or.inr ⟨false, b, b', rfl, rfl, sized, same⟩
    · have within := Nat.le_of_not_lt large
      rw [RequestBuffer.fitBodyInline_grows (length.trans declared) within,
        RequestBuffer.fitBodyInline_grows declared within]
      rcases growTo_recycled sized same (RequestBuffer.saturatingAdd d headerSlack) with
        ⟨none_, none_'⟩ | ⟨x, y, grown, grown', still, reads⟩
      · rw [none_, none_']
        exact Or.inl ⟨rfl, rfl⟩
      · rw [grown, grown']
        exact Or.inr ⟨true, x, y, rfl, rfl, still, reads⟩

theorem receiveHeaders_recycled {http : ReceiveKernel} {skip : Bool} (kernel : WritesWhatItAddresses http skip)
    (maxBytes : Nat) (requestId : UInt64) (mode : ReceiveMode) (needed : UInt32) :
    (receiveHeaders http skip maxBytes b requestId mode needed).map Received.of =
      (receiveHeaders http skip maxBytes b' requestId mode needed).map Received.of := by
  have id := deliver_requestId b b' (http ⟨requestId, false, b'.capacity⟩).delivery
  cases finished : (http ⟨requestId, false, b'.capacity⟩).outcome.finish skip with
  | ok n =>
    obtain ⟨block, writes, delivered, addressed⟩ := kernel _ n finished
    have same := deliver_sameReads b.prepare b'.prepare addressed
    rw [receiveHeaders_of_ok maxBytes mode needed (sized ▸ finished), receiveHeaders_of_ok maxBytes mode needed finished,
      sized, delivered]
    rcases fitBodyInline_recycled (by simpa using sized) same maxBytes with
      ⟨none_, none_'⟩ | ⟨fits, x, y, fitted, fitted', still, reads⟩
    · rw [none_, none_']
    · rw [fitted, fitted']
      simp only [Option.map_some, Received.of, still, RequestBuffer.requestId, reads.block, reads.view]
  | error e =>
    rw [receiveHeaders_of_error maxBytes mode needed (sized ▸ finished),
      receiveHeaders_of_error maxBytes mode needed finished, sized]
    simp [Received.of, id, sized, Except.isOk, Except.toBool]

theorem receive_recycled {http : ReceiveKernel} {skip : Bool} (kernel : WritesWhatItAddresses http skip)
    (maxBytes : Nat) (mode : ReceiveMode) :
    (receive http skip maxBytes b mode).map Received.of = (receive http skip maxBytes b' mode).map Received.of := by
  have id := deliver_requestId b b' (http ⟨0, true, b'.capacity⟩).delivery
  cases copy : mode.copyBody with
  | false =>
    rw [receive_of_headersOnly maxBytes copy, receive_of_headersOnly maxBytes copy]
    exact receiveHeaders_recycled sized kernel _ _ _ _
  | true =>
    cases finished : (http ⟨0, true, b'.capacity⟩).outcome.finish skip with
    | ok n =>
      obtain ⟨block, writes, delivered, addressed⟩ := kernel _ n finished
      have same := deliver_sameReads b.prepare b'.prepare addressed
      rw [delivered] at id
      rw [receive_of_copied maxBytes copy (sized ▸ finished), receive_of_copied maxBytes copy finished, sized, delivered]
      simp only [Option.map_some, Received.of, id, same.view, deliver_capacity, prepare_capacity, sized]
    | error e =>
      by_cases short : e = .win32 errorMoreData
      · subst short
        rw [receive_of_moreData maxBytes copy (sized ▸ finished), receive_of_moreData maxBytes copy finished, sized, id]
        exact receiveHeaders_recycled (by simpa using sized) kernel _ _ _ _
      · rw [receive_of_failed maxBytes copy short (sized ▸ finished), receive_of_failed maxBytes copy short finished, sized]
        simp [Received.of, id, sized, Except.isOk, Except.toBool]

end

/-! ### Reading into a recycled body -/

variable {σ : Type}

def ReportsWhatItWrote (http : EntityKernel σ) (skip : Bool) : Prop :=
  ∀ k id length n, (http k id length).outcome.finish skip = .ok n → (http k id length).written.length = n.toNat

theorem withRoom_alike {v w : ByteVec} (alike : v.Alike w) (fill fill' : Nat → UInt8) :
    (withRoom fill v).Alike (withRoom fill' w) := by
  unfold withRoom
  rw [alike.len, alike.capacity]
  split
  · exact alike.reserve fill fill' bodyChunkBytes
  · exact alike

theorem readSpare_written {http : EntityKernel σ} {skip : Bool} (kernel : ReportsWhatItWrote http skip)
    {id : UInt64} {body : ByteVec} {k : σ} {n : Nat}
    (read : (readSpare (readEntityBody http skip) id body k).result = .ok (some n)) :
    (readSpare (readEntityBody http skip) id body k).written.length = n := by
  unfold readSpare readEntityBody at read ⊢
  by_cases full : body.capacity - body.len = 0
  · rw [if_pos full] at read ⊢
    simp only [Except.ok.injEq, Option.some.injEq] at read
    simp [read]
  · rw [if_neg full] at read ⊢
    dsimp only at read ⊢
    cases finished : (http k id (UInt32.ofNat (body.capacity - body.len))).outcome.finish skip with
    | ok m =>
      rw [finished] at read
      simp only [Except.ok.injEq, Option.some.injEq] at read
      rw [kernel _ _ _ _ finished, read]
    | error e =>
      rw [finished] at read
      dsimp only at read
      split at read <;> cases read

structure LoopEnd.Alike (x y : LoopEnd σ) : Prop where
  result : x.result = y.result
  body : x.body.Alike y.body
  kernel : x.kernel = y.kernel

theorem readRemaining_recycled {http : EntityKernel σ} {skip : Bool} (kernel : ReportsWhatItWrote http skip)
    (fill fill' : Nat → UInt8) (id : UInt64) (fuel : Nat) {v w : ByteVec} (k : σ) (alike : v.Alike w) :
    Option.Rel LoopEnd.Alike (readRemainingBodyInto (readEntityBody http skip) fill id fuel v k)
      (readRemainingBodyInto (readEntityBody http skip) fill' id fuel w k) := by
  induction fuel generalizing v w k with
  | zero => exact Option.Rel.none
  | succ fuel ih =>
    have room := withRoom_alike alike fill fill'
    unfold readRemainingBodyInto
    dsimp only
    generalize withRoom fill v = v at room ⊢
    generalize withRoom fill' w = w at room ⊢
    have same : readSpare (readEntityBody http skip) id v k = readSpare (readEntityBody http skip) id w k := by
      unfold readSpare
      rw [room.capacity, room.len]
    rw [same]
    generalize answered : readSpare (readEntityBody http skip) id w k = answer
    cases read : answer.result with
    | error e => exact Option.Rel.some ⟨rfl, room.overwrite _, rfl⟩
    | ok count =>
      cases count with
      | none => exact Option.Rel.some ⟨rfl, room.overwrite _, rfl⟩
      | some n =>
        cases n with
        | zero => exact Option.Rel.some ⟨rfl, room.overwrite _, rfl⟩
        | succ n =>
          -- The bytes this read exposes are the ones it wrote, so both bodies gain the same.
          have wrote : answer.written.length = n + 1 := by
            rw [← answered] at read ⊢
            exact readSpare_written kernel read
          have exposed : ((v.overwrite answer.written).setLen (v.len + (n + 1))).Alike
              ((w.overwrite answer.written).setLen (w.len + (n + 1))) := by
            rw [← room.len]
            exact room.overwrite_setLen (by rw [wrote])
          have rest := ih answer.next exposed
          dsimp only
          generalize readRemainingBodyInto _ fill _ _ _ _ = x at rest ⊢
          generalize readRemainingBodyInto _ fill' _ _ _ _ = y at rest ⊢
          cases rest with
          | none => exact Option.Rel.none
          | some ended => exact Option.Rel.some ⟨ended.result, ended.body, ended.kernel⟩

structure BodyPool.Alike (p q : BodyPool) : Prop where
  free : List.Forall₂ ByteVec.Alike p.free q.free
  slots : p.slots = q.slots
  maxRetained : p.maxRetained = q.maxRetained

theorem take_alike {p q : BodyPool} (alike : p.Alike q) (fill fill' : Nat → UInt8) (capacity : Nat) :
    (p.take fill capacity).1.Alike (q.take fill' capacity).1 := by
  have taken : (p.free.head?.getD {}).Alike (q.free.head?.getD {}) := by
    have free := alike.free
    generalize p.free = ps at free ⊢
    generalize q.free = qs at free ⊢
    cases free with
    | nil => exact ⟨rfl, rfl⟩
    | cons head _ => exact head
  unfold BodyPool.take
  dsimp only
  rw [taken.capacity]
  exact taken.reserveExact fill fill' _

def BodyCall.seen (call : BodyCall σ) : Except Error (List UInt8) × σ :=
  (call.result.map Body.deref, call.kernel)

theorem body_recycled {http : EntityKernel σ} {skip : Bool} (kernel : ReportsWhatItWrote http skip)
    {b b' : RequestBuffer} (same : b.view = b'.view) {p q : BodyPool} (alike : p.Alike q)
    (fill fill' : Nat → UInt8) (fuel : Nat) (k : σ) :
    (b.body (readEntityBody http skip) fill fuel p k).map BodyCall.seen =
      (b'.body (readEntityBody http skip) fill' fuel q k).map BodyCall.seen := by
  have inline : b.inlineBody = b'.inlineBody := congrArg RequestView.inlineBody same
  have more : b.hasMoreBody = b'.hasMoreBody := congrArg RequestView.hasMoreBody same
  have id : b.requestId = b'.requestId := congrArg RequestView.requestId same
  have length : b.contentLength = b'.contentLength := congrArg RequestView.contentLength same
  have capacity : b.bodyCapacity = b'.bodyCapacity := by
    unfold RequestBuffer.bodyCapacity
    rw [inline, length]
  unfold RequestBuffer.body
  rw [inline, more, id, capacity]
  dsimp only
  split
  · have taken := (take_alike alike fill fill' b'.bodyCapacity).extendFromSlice fill fill'
      b'.inlineBody
    have rel := readRemaining_recycled kernel fill fill' b'.requestId fuel k taken
    generalize readRemainingBodyInto _ fill _ _ _ _ = x at rel ⊢
    generalize readRemainingBodyInto _ fill' _ _ _ _ = y at rel ⊢
    cases rel with
    | none => rfl
    | some ended =>
      simp only [Option.map_some, Option.some.injEq]
      rw [ended.result, ended.kernel]
      split
      · simp only [BodyCall.seen, Except.map, Body.deref, ended.body.data]
      · rfl
  · rfl

/-! ### Requests on recycled buffers -/

theorem reports_of_handsOut {http : EntityKernel σ} {skip : Bool} {remaining : σ → List UInt8}
    (hands : HandsOut http skip remaining) : ReportsWhatItWrote http skip := by
  intro k id length n finished
  obtain ⟨-, -, left, written, -⟩ := hands.bytes k id length n finished
  rw [written, List.length_take]
  omega

theorem uploadKernel_addresses : WritesWhatItAddresses uploadKernel true := by
  intro args n finished
  cases copy : args.copyBody with
  | true => simp [uploadKernel, copy, Outcome.finish, errorMoreData, errorIoPending] at finished
  | false => exact ⟨uploadBlock, uploadWrites, by simp [uploadKernel, copy], upload_addressed⟩

def usedBuffer : RequestBuffer := { slotBuffer with request := uploadBlock, memory := fun _ => 0xAA }

def usedPool (left : UInt8) : BodyPool :=
  { free := [{ spare := List.replicate 8 left }], maxRetained := 1024, cleared := by simp }

theorem usedPool_alike (left left' : UInt8) : (usedPool left).Alike (usedPool left') where
  free := List.Forall₂.cons ⟨rfl, by simp⟩ List.Forall₂.nil
  slots := rfl
  maxRetained := rfl

/-- What the previous request left in the receive buffer and in the pooled bodies reaches neither the
result of `receive`, nor an accessor of the request, nor its body. -/
theorem recycled_buffers_carry_nothing (http : ReceiveKernel) (entity : EntityKernel σ) (skip : Bool)
    (addressed : WritesWhatItAddresses http skip) (reported : ReportsWhatItWrote entity skip)
    (maxBytes : Nat) (mode : ReceiveMode) (b b' : RequestBuffer) (sized : b.capacity = b'.capacity)
    (p q : BodyPool) (alike : p.Alike q) (fill fill' : Nat → UInt8) (fuel : Nat) (k : σ) :
    (receive http skip maxBytes b mode).map Received.of = (receive http skip maxBytes b' mode).map Received.of ∧
    ∀ after after' mode₁ mode₂, receive http skip maxBytes b mode = some (.ok (), after, mode₁) →
      receive http skip maxBytes b' mode = some (.ok (), after', mode₂) →
      after.view = after'.view ∧ after.contentLength = after'.contentLength ∧
      (after.body (readEntityBody entity skip) fill fuel p k).map BodyCall.seen =
        (after'.body (readEntityBody entity skip) fill' fuel q k).map BodyCall.seen := by
  have same := receive_recycled sized addressed maxBytes mode
  refine ⟨same, fun after after' mode₁ mode₂ ok ok' => ?_⟩
  rw [ok, ok'] at same
  have view : after.view = after'.view := Option.some.inj (congrArg Received.view (Option.some.inj same))
  exact ⟨view, congrArg RequestView.contentLength view, body_recycled reported view alike fill fill' fuel k⟩

theorem recycled_upload_carries_nothing : ∃ after after' mode,
    receive uploadKernel true 16384 slotBuffer {} = some (.ok (), after, mode) ∧
    receive uploadKernel true 16384 usedBuffer {} = some (.ok (), after', mode) ∧ after.view = after'.view ∧
    (after.body (readEntityBody drainKernel true) (fun _ => 0) 8 (usedPool 1) [7, 8, 9]).map BodyCall.seen =
      (after'.body (readEntityBody drainKernel true) (fun _ => 5) 8 (usedPool 2) [7, 8, 9]).map BodyCall.seen := by
  obtain ⟨-, same⟩ := recycled_buffers_carry_nothing uploadKernel drainKernel true uploadKernel_addresses
    (reports_of_handsOut drainKernel_handsOut) 16384 {} slotBuffer usedBuffer rfl (usedPool 1) (usedPool 2)
    (usedPool_alike 1 2) (fun _ => 0) (fun _ => 5) 8 [7, 8, 9]
  obtain ⟨view, -, body⟩ := same _ _ _ _ rfl rfl
  exact ⟨_, _, _, rfl, rfl, view, body⟩

end HttpSys
