import HttpSys.Body.Whole

/-! Several calls of `body()` on one request. The flag that sends a call to the
kernel is part of the buffer and never cleared, while the bytes are handed out
once, so a later call finds only what the earlier ones left. -/
namespace HttpSys
open Lib

variable {σ : Type}

structure CallInput where
  fill : Nat → UInt8
  pool : BodyPool

structure CallRecord (σ : Type) where
  before : σ
  result : Except Error Body

def RequestBuffer.bodyCalls (request : RequestBuffer) (read : Reader σ) (fuel : Nat) :
    List CallInput → σ → Option (List (CallRecord σ))
  | [], _ => some []
  | input :: inputs, k => do
    let call ← request.body read input.fill fuel input.pool k
    let later ← request.bodyCalls read fuel inputs call.kernel
    pure ({ before := k, result := call.result } :: later)

theorem bodyCalls_deliver {read : Reader σ} {remaining : σ → List UInt8} (contract : ReadContract read remaining)
    (request : RequestBuffer) (inputs : List CallInput) {fuel : Nat} {k : σ} (enough : (remaining k).length < fuel)
    (flagged : Flagged request (remaining k)) :
    ∃ history, request.bodyCalls read fuel inputs k = some history ∧ history.length = inputs.length ∧
      ∀ record ∈ history, ∀ body, record.result = .ok body →
        body.deref = request.inlineBody ++ remaining record.before := by
  induction inputs generalizing k with
  | nil => exact ⟨[], rfl, rfl, by simp⟩
  | cons input inputs ih =>
    obtain ⟨call, ran, delivers⟩ := body_delivers contract request input.fill input.pool enough flagged
    have shorter := delivers.suffix.length_le
    have still : Flagged request (remaining call.kernel) := by
      rcases flagged with more | empty
      · exact Or.inl more
      · exact Or.inr (List.suffix_nil.mp (empty ▸ delivers.suffix))
    obtain ⟨later, rest, length, whole⟩ := ih (by omega) still
    refine ⟨{ before := k, result := call.result } :: later, ?_, by simp [length], ?_⟩
    · simp [RequestBuffer.bodyCalls, ran, rest]
    · intro record member
      rcases List.mem_cons.mp member with rfl | after
      · exact delivers.whole
      · exact whole record after

/-- Every successful call yields the complete body exactly when no call that
succeeds comes after one that took bytes from the kernel. -/
theorem repeated_body_whole_iff (http : EntityKernel σ) (skip : Bool) (remaining : σ → List UInt8)
    (hands : HandsOut http skip remaining) (request : RequestBuffer) (inputs : List CallInput) (k : σ)
    (flagged : Flagged request (remaining k)) :
    ∃ bound, ∀ fuel, bound ≤ fuel → ∃ history,
      request.bodyCalls (readEntityBody http skip) fuel inputs k = some history ∧ history.length = inputs.length ∧
      ((∀ record ∈ history, ∀ body, record.result = .ok body → body.deref = request.inlineBody ++ remaining k) ↔
        ∀ record ∈ history, (∃ body, record.result = .ok body) → remaining record.before = remaining k) := by
  refine ⟨(remaining k).length + 1, fun fuel enough => ?_⟩
  obtain ⟨history, ran, length, whole⟩ :=
    bodyCalls_deliver (readEntityBody_contract hands) request inputs enough flagged
  refine ⟨history, ran, length, ?_, ?_⟩
  · rintro same record member ⟨body, ok⟩
    have held := whole record member body ok
    rw [same record member body ok] at held
    exact (List.append_cancel_left held).symm
  · intro untouched record member body ok
    rw [whole record member body ok, untouched record member ⟨body, ok⟩]

def smallPool : BodyPool := { free := [{ spare := [0, 0, 0] }], maxRetained := 1024 }

def callInput : CallInput := { fill := fun _ => 0, pool := smallPool }

def errorConnectionAborted : UInt32 := 1236

/-- The next read fails and takes nothing; the ones after it are those of `http`. -/
def faultFirst (http : EntityKernel σ) : EntityKernel (Bool × σ) := fun k requestId length =>
  if k.1 then { outcome := { status := errorConnectionAborted }, next := (false, k.2) }
  else
    let receipt := http k.2 requestId length
    { outcome := receipt.outcome, written := receipt.written, next := (false, receipt.next) }

theorem faultFirst_handsOut {http : EntityKernel σ} {skip : Bool} {remaining : σ → List UInt8}
    (hands : HandsOut http skip remaining) : HandsOut (faultFirst http) skip fun k => remaining k.2 where
  bytes := by
    rintro ⟨faulty, k⟩ id length n finished
    cases faulty with
    | true => simp [faultFirst, Outcome.finish, errorConnectionAborted, errorIoPending] at finished
    | false => exact hands.bytes k id length n finished
  eof := by
    rintro ⟨faulty, k⟩ id length finished
    cases faulty with
    | true =>
      simp [faultFirst, Outcome.finish, errorConnectionAborted, errorIoPending, errorHandleEof] at finished
    | false => exact hands.eof k id length finished
  failure := by
    rintro ⟨faulty, k⟩ id length e finished
    cases faulty with
    | true => exact List.suffix_refl _
    | false => exact hands.failure k id length e finished

/-- The first call fails before it has taken a byte, and the second one has them all. -/
theorem retried_body_is_whole : ∃ bound, ∀ fuel, bound ≤ fuel → ∃ history,
    streamedRequest.bodyCalls (readEntityBody (faultFirst drainKernel) true) fuel [callInput, callInput] (true, [7]) =
      some history ∧
    history.map (fun record => (record.before, record.result.isOk)) = [((true, [7]), false), ((false, [7]), true)] ∧
    ∀ record ∈ history, ∀ body, record.result = .ok body → body.deref = streamedRequest.inlineBody ++ [7] := by
  obtain ⟨bound, calls⟩ := repeated_body_whole_iff (faultFirst drainKernel) true _
    (faultFirst_handsOut drainKernel_handsOut) streamedRequest [callInput, callInput] (true, [7]) (Or.inl rfl)
  refine ⟨bound + 3, fun fuel enough => ?_⟩
  obtain ⟨n, rfl⟩ : ∃ n, fuel = n + 3 := ⟨fuel - 3, by omega⟩
  obtain ⟨history, ran, -, whole⟩ := calls (n + 3) (by omega)
  have trace : (streamedRequest.bodyCalls (readEntityBody (faultFirst drainKernel) true) (n + 3) [callInput, callInput]
      (true, [7])).map (fun history => history.map fun record => (record.before, record.result.isOk)) =
      some [((true, [7]), false), ((false, [7]), true)] := rfl
  rw [ran] at trace
  have seen := Option.some.inj trace
  refine ⟨history, ran, seen, whole.mpr ?_⟩
  intro record member _
  have before : (record.before, record.result.isOk) ∈ [((true, [7]), false), ((false, [7]), true)] :=
    seen ▸ List.mem_map_of_mem member
  simp only [List.mem_cons, Prod.mk.injEq, List.not_mem_nil, or_false] at before
  rcases before with ⟨before, -⟩ | ⟨before, -⟩
  · rw [before]
  · rw [before]

theorem second_body_call_is_truncated :
    ∃ history, streamedRequest.bodyCalls (readEntityBody drainKernel true) 3 [callInput, callInput] [7] =
      some history ∧
      ¬ ∀ record ∈ history, ∀ body, record.result = .ok body → body.deref = streamedRequest.inlineBody ++ [7] := by
  refine ⟨_, rfl, fun whole => ?_⟩
  have second := whole _ (List.mem_cons_of_mem _ (List.mem_singleton_self _)) _ rfl
  exact absurd second (by decide)

end HttpSys
