import HttpSys.Body.Repeat

/-! What a handler can get of one body. It may mix `read_body_chunk`, into buffers of any size, with
calls of `body()`, and any of them may fail. -/
namespace HttpSys
open Lib

variable {σ : Type}

def RequestBuffer.readBodyChunk (request : RequestBuffer) (read : Reader σ) (dst : Nat) (k : σ) : ReadResult σ :=
  read k request.requestId dst

/-- The bytes of `dst` that the caller is told about. -/
def ReadResult.told (r : ReadResult σ) : List UInt8 :=
  match r.result with
  | .ok (some n) => r.written.take n
  | _ => []

/-- A read into a buffer with room that was told there is nothing more. -/
def ReadResult.atEnd (r : ReadResult σ) (dst : Nat) : Bool :=
  match r.result with
  | .ok none => dst != 0
  | .ok (some 0) => dst != 0
  | _ => false

inductive BodyUse where
  | chunk (dst : Nat)
  | whole (input : CallInput)

/-- What the caller gets beyond the inline part, and whether it may take that for the end of the body. -/
structure UseRecord where
  got : List UInt8
  ok : Bool
  atEnd : Bool

namespace RequestBuffer
variable (request : RequestBuffer) (read : Reader σ) (fuel : Nat)

def bodyGot (result : Except Error Body) : List UInt8 :=
  match result with
  | .ok body => body.deref.drop request.inlineBody.length
  | .error _ => []

def readWith (k : σ) : BodyUse → Option (UseRecord × σ)
  | .chunk dst =>
    let r := request.readBodyChunk read dst k
    some ({ got := r.told, ok := r.result.isOk, atEnd := r.atEnd dst }, r.next)
  | .whole input =>
    (request.body read input.fill fuel input.pool k).map fun call =>
      ({ got := request.bodyGot call.result, ok := call.result.isOk, atEnd := call.result.isOk }, call.kernel)

def session : List BodyUse → σ → Option (List UseRecord × σ)
  | [], k => some ([], k)
  | first :: rest, k => do
    let (record, k) ← request.readWith read fuel k first
    let (later, k) ← session rest k
    pure (record :: later, k)

end RequestBuffer

/-- A call that succeeds takes what it hands out from the front of what was left; one that fails hands out nothing. -/
structure UseRecord.Takes (record : UseRecord) (before after : List UInt8) : Prop where
  ok : record.ok = true → before = record.got ++ after
  failed : record.ok = false → record.got = [] ∧ after <:+ before
  atEnd : record.atEnd = true → after = []

/-- The loop goes on until the kernel has nothing left. -/
theorem readRemaining_drains {read : Reader σ} {remaining : σ → List UInt8} (contract : ReadContract read remaining)
    {fill : Nat → UInt8} {id : UInt64} {fuel : Nat} {body : ByteVec} {k : σ} {done : LoopEnd σ}
    (ran : readRemainingBodyInto read fill id fuel body k = some done) (ok : done.result = .ok ()) :
    remaining done.kernel = [] := by
  induction fuel generalizing body k done with
  | zero => cases ran
  | succ fuel ih =>
    have spare := withRoom_room fill body
    unfold readRemainingBodyInto at ran
    dsimp only at ran
    generalize withRoom fill body = room at spare ran
    have answer : (readSpare read id room k).Answers remaining k _ := contract k id (room.capacity - room.len) spare
    rcases answer with ⟨n, result, positive, -⟩ | ⟨-, result, -, next⟩ | ⟨e, result, -⟩
    · obtain ⟨m, rfl⟩ : ∃ m, n = m + 1 := ⟨n - 1, by omega⟩
      simp only [result] at ran
      obtain ⟨rest, later, rfl⟩ := Option.map_eq_some_iff.mp ran
      have drained : remaining rest.kernel = [] := ih later ok
      exact drained
    · rcases result with none_ | zero
      · simp only [none_] at ran
        cases ran
        exact next
      · simp only [zero] at ran
        cases ran
        exact next
    · simp only [result] at ran
      cases ran
      cases ok

section
variable {http : EntityKernel σ} {skip : Bool} {remaining : σ → List UInt8} (hands : HandsOut http skip remaining)
include hands

theorem chunk_takes (request : RequestBuffer) (dst : Nat) (k : σ) :
    let r := request.readBodyChunk (readEntityBody http skip) dst k
    UseRecord.Takes { got := r.told, ok := r.result.isOk, atEnd := r.atEnd dst } (remaining k) (remaining r.next) := by
  by_cases empty : dst = 0
  · subst empty
    exact ⟨fun _ => rfl, fun failed => (by cases failed), fun atEnd => (by cases atEnd)⟩
  · have answer := readEntityBody_contract hands k request.requestId dst (Nat.pos_of_ne_zero empty)
    dsimp only [RequestBuffer.readBodyChunk]
    generalize readEntityBody http skip k request.requestId dst = r at answer
    rcases answer with ⟨n, result, positive, -, -, written, next⟩ | ⟨left, result, written, next⟩ | ⟨e, result, next⟩
    · obtain ⟨m, rfl⟩ : ∃ m, n = m + 1 := ⟨n - 1, by omega⟩
      refine ⟨fun _ => ?_, fun failed => ?_, fun atEnd => ?_⟩
      · simp only [ReadResult.told, result, written, next, List.take_take, Nat.min_self, List.take_append_drop]
      · simp [result, Except.isOk, Except.toBool] at failed
      · simp [ReadResult.atEnd, result] at atEnd
    · refine ⟨fun _ => ?_, fun failed => ?_, fun _ => next⟩
      · rcases result with none_ | zero
        · simp [ReadResult.told, none_, left, next]
        · simp [ReadResult.told, zero, left, next]
      · rcases result with none_ | zero
        · simp [none_, Except.isOk, Except.toBool] at failed
        · simp [zero, Except.isOk, Except.toBool] at failed
    · refine ⟨fun ok => ?_, fun _ => ⟨?_, next⟩, fun atEnd => ?_⟩
      · simp [result, Except.isOk, Except.toBool] at ok
      · simp only [ReadResult.told, result]
      · simp [ReadResult.atEnd, result] at atEnd

theorem body_drains (request : RequestBuffer) (fill : Nat → UInt8) (pool : BodyPool) {fuel : Nat} {k : σ}
    {call : BodyCall σ} {body : Body} (flagged : Flagged request (remaining k))
    (ran : request.body (readEntityBody http skip) fill fuel pool k = some call) (ok : call.result = .ok body) :
    remaining call.kernel = [] := by
  unfold RequestBuffer.body at ran
  dsimp only at ran
  cases more : request.hasMoreBody with
  | false =>
    rw [more, if_neg Bool.false_ne_true] at ran
    cases ran
    exact flagged.resolve_left (by simp [more])
  | true =>
    rw [more, if_pos rfl] at ran
    obtain ⟨done, looped, rfl⟩ := Option.map_eq_some_iff.mp ran
    cases ended : done.result with
    | ok ended' =>
      rw [ended] at ok
      have drained := readRemaining_drains (readEntityBody_contract hands) looped ended
      simpa [ended] using drained
    | error e =>
      simp [ended] at ok

theorem whole_takes (request : RequestBuffer) (input : CallInput) {fuel : Nat} {k : σ}
    (enough : (remaining k).length < fuel) (flagged : Flagged request (remaining k)) :
    ∃ call, request.body (readEntityBody http skip) input.fill fuel input.pool k = some call ∧
      UseRecord.Takes { got := request.bodyGot call.result, ok := call.result.isOk, atEnd := call.result.isOk }
        (remaining k) (remaining call.kernel) := by
  obtain ⟨call, ran, delivers⟩ := body_delivers (readEntityBody_contract hands) request input.fill input.pool enough flagged
  refine ⟨call, ran, ?_⟩
  cases result : call.result with
  | ok body =>
    have drained := body_drains hands request input.fill input.pool flagged ran result
    refine ⟨fun _ => ?_, fun failed => (by cases failed), fun _ => drained⟩
    show remaining k = body.deref.drop request.inlineBody.length ++ remaining call.kernel
    rw [delivers.whole body result, List.drop_left, drained, List.append_nil]
  | error e => exact ⟨fun ok => (by cases ok), fun _ => ⟨rfl, delivers.suffix⟩, fun atEnd => (by cases atEnd)⟩

theorem readWith_takes (request : RequestBuffer) (kind : BodyUse) {fuel : Nat} {k : σ} (enough : (remaining k).length < fuel)
    (flagged : Flagged request (remaining k)) :
    ∃ record next, request.readWith (readEntityBody http skip) fuel k kind = some (record, next) ∧
      record.Takes (remaining k) (remaining next) := by
  cases kind with
  | chunk dst => exact ⟨_, _, rfl, chunk_takes hands request dst k⟩
  | whole input =>
    obtain ⟨call, ran, takes⟩ := whole_takes hands request input enough flagged
    exact ⟨_, _, by simp only [RequestBuffer.readWith, ran, Option.map_some], takes⟩

end

theorem UseRecord.Takes.suffix {record : UseRecord} {before after : List UInt8} (takes : record.Takes before after) :
    after <:+ before := by
  cases ok : record.ok with
  | true => exact ⟨record.got, (takes.ok ok).symm⟩
  | false => exact (takes.failed ok).2

/-- Two bytes, then nothing because there is no room, then the rest. -/
def mixedUses : List BodyUse := [.chunk 2, .chunk 0, .whole callInput]

end HttpSys
