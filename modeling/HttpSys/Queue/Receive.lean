import HttpSys.Request
import HttpSys.Overlapped.Outcome

/-! `RequestQueue::receive`. The kernel is a function from the arguments of
`HttpReceiveHttpRequest` to what the call does: one `receive` makes at most one
call with `COPY_BODY` and one without, so this fixes every answer it can get. -/
namespace HttpSys
open Lib.Bytes

structure ReceiveMode where
  copyBody : Bool := true
  deriving DecidableEq, Repr

structure ReceiveArgs where
  requestId : UInt64
  copyBody : Bool
  capacity : UInt32

inductive Delivery where
  | nothing
  | id (requestId : UInt64)
  | request (block : HttpRequestV2) (writes : List Write)

structure Receipt where
  outcome : Outcome
  delivery : Delivery := .nothing

abbrev ReceiveKernel := ReceiveArgs → Receipt

def RequestBuffer.deliver (b : RequestBuffer) : Delivery → RequestBuffer
  | .nothing => b
  | .id requestId => { b with request := { b.request with requestId := requestId } }
  | .request block writes => { b with request := block, memory := storeAll b.memory writes }

/-- Also returns `needed`, which keeps its old value unless the call itself said `ERROR_MORE_DATA`. -/
def receiveOnce (http : ReceiveKernel) (skip : Bool) (buffer : RequestBuffer) (requestId : UInt64)
    (copyBody : Bool) (needed : UInt32) : Except Error Unit × RequestBuffer × UInt32 :=
  let receipt := http { requestId := requestId, copyBody := copyBody, capacity := buffer.capacity }
  let needed := if receipt.outcome.status = errorMoreData then receipt.outcome.reported else needed
  ((receipt.outcome.finish skip).map fun _ => (), buffer.prepare.deliver receipt.delivery, needed)

/-- The headers-only half of `receive`; `none` when growing the buffer panics. -/
def receiveHeaders (http : ReceiveKernel) (skip : Bool) (maxBytes : Nat) (buffer : RequestBuffer)
    (requestId : UInt64) (mode : ReceiveMode) (needed : UInt32) :
    Option (Except Error Unit × RequestBuffer × ReceiveMode) :=
  match receiveOnce http skip buffer requestId false needed with
  | (.ok (), buffer, _) =>
    (buffer.fitBodyInline maxBytes).map fun (fits, buffer) => (.ok (), buffer, { mode with copyBody := fits })
  | (.error e, buffer, needed) =>
    if e = .win32 errorMoreData then some (.error (.headersTooLarge needed), buffer, mode)
    else some (.error e, buffer, mode)

def receive (http : ReceiveKernel) (skip : Bool) (maxBytes : Nat) (buffer : RequestBuffer)
    (mode : ReceiveMode) : Option (Except Error Unit × RequestBuffer × ReceiveMode) :=
  if mode.copyBody then
    match receiveOnce http skip buffer 0 true 0 with
    | (.error e, buffer, needed) =>
      if e = .win32 errorMoreData then
        receiveHeaders http skip maxBytes buffer buffer.requestId { mode with copyBody := false } needed
      else some (.error e, buffer, mode)
    | (.ok (), buffer, _) => some (.ok (), buffer, mode)
  else receiveHeaders http skip maxBytes buffer 0 mode 0

/-! ### One equation for every answer -/

section
variable {http : ReceiveKernel} {skip : Bool} (maxBytes : Nat) {buffer : RequestBuffer} {requestId : UInt64}

theorem receiveHeaders_of_ok {n : UInt32} (mode : ReceiveMode) (needed : UInt32)
    (finished : (http ⟨requestId, false, buffer.capacity⟩).outcome.finish skip = .ok n) :
    receiveHeaders http skip maxBytes buffer requestId mode needed =
      ((buffer.prepare.deliver (http ⟨requestId, false, buffer.capacity⟩).delivery).fitBodyInline maxBytes).map
        fun fitted => (.ok (), fitted.2, { copyBody := fitted.1 }) := by
  unfold receiveHeaders receiveOnce
  simp only [finished, Except.map]

theorem receiveHeaders_of_error {e : Error} (mode : ReceiveMode) (needed : UInt32)
    (finished : (http ⟨requestId, false, buffer.capacity⟩).outcome.finish skip = .error e) :
    receiveHeaders http skip maxBytes buffer requestId mode needed =
      some (.error (if e = .win32 errorMoreData then .headersTooLarge
          (if (http ⟨requestId, false, buffer.capacity⟩).outcome.status = errorMoreData then
            (http ⟨requestId, false, buffer.capacity⟩).outcome.reported else needed) else e),
        buffer.prepare.deliver (http ⟨requestId, false, buffer.capacity⟩).delivery, mode) := by
  unfold receiveHeaders receiveOnce
  simp only [finished, Except.map]
  split <;> rfl

theorem receive_of_headersOnly {mode : ReceiveMode} (headers : mode.copyBody = false) :
    receive http skip maxBytes buffer mode = receiveHeaders http skip maxBytes buffer 0 mode 0 := by
  rw [receive, if_neg (by rw [headers]; exact Bool.false_ne_true)]

section
variable {mode : ReceiveMode} (copy : mode.copyBody = true)
include copy

theorem receive_of_copied {n : UInt32}
    (finished : (http ⟨0, true, buffer.capacity⟩).outcome.finish skip = .ok n) :
    receive http skip maxBytes buffer mode =
      some (.ok (), buffer.prepare.deliver (http ⟨0, true, buffer.capacity⟩).delivery, mode) := by
  unfold receive receiveOnce
  simp only [copy, finished, Except.map, if_pos]

theorem receive_of_moreData
    (finished : (http ⟨0, true, buffer.capacity⟩).outcome.finish skip = .error (.win32 errorMoreData)) :
    receive http skip maxBytes buffer mode =
      receiveHeaders http skip maxBytes (buffer.prepare.deliver (http ⟨0, true, buffer.capacity⟩).delivery)
        (buffer.prepare.deliver (http ⟨0, true, buffer.capacity⟩).delivery).requestId { copyBody := false }
        (if (http ⟨0, true, buffer.capacity⟩).outcome.status = errorMoreData then
          (http ⟨0, true, buffer.capacity⟩).outcome.reported else 0) := by
  unfold receive receiveOnce
  simp only [copy, finished, Except.map, if_pos]

theorem receive_of_failed {e : Error} (other : e ≠ .win32 errorMoreData)
    (finished : (http ⟨0, true, buffer.capacity⟩).outcome.finish skip = .error e) :
    receive http skip maxBytes buffer mode =
      some (.error e, buffer.prepare.deliver (http ⟨0, true, buffer.capacity⟩).delivery, mode) := by
  unfold receive receiveOnce
  simp only [copy, finished, Except.map, if_pos, if_neg other]

end

/-- All that can happen before a headers-only attempt, or instead of it. -/
theorem receive_cases (http : ReceiveKernel) (skip : Bool) (buffer : RequestBuffer) (mode : ReceiveMode) :
    (mode.copyBody = false ∧
      receive http skip maxBytes buffer mode = receiveHeaders http skip maxBytes buffer 0 mode 0) ∨
    (mode.copyBody = true ∧ (http ⟨0, true, buffer.capacity⟩).outcome.finish skip = .error (.win32 errorMoreData) ∧
      receive http skip maxBytes buffer mode =
        receiveHeaders http skip maxBytes (buffer.prepare.deliver (http ⟨0, true, buffer.capacity⟩).delivery)
          (buffer.prepare.deliver (http ⟨0, true, buffer.capacity⟩).delivery).requestId { copyBody := false }
          (if (http ⟨0, true, buffer.capacity⟩).outcome.status = errorMoreData then
            (http ⟨0, true, buffer.capacity⟩).outcome.reported else 0)) ∨
    (mode.copyBody = true ∧ ∃ result, (http ⟨0, true, buffer.capacity⟩).outcome.finish skip = result ∧
      result ≠ .error (.win32 errorMoreData) ∧ receive http skip maxBytes buffer mode =
        some (result.map fun _ => (), buffer.prepare.deliver (http ⟨0, true, buffer.capacity⟩).delivery, mode)) := by
  cases copy : mode.copyBody with
  | false => exact Or.inl ⟨rfl, receive_of_headersOnly maxBytes copy⟩
  | true =>
    cases finished : (http ⟨0, true, buffer.capacity⟩).outcome.finish skip with
    | ok n =>
      exact Or.inr (Or.inr ⟨rfl, _, rfl, fun impossible => (by cases impossible), receive_of_copied maxBytes copy finished⟩)
    | error e =>
      by_cases short : e = .win32 errorMoreData
      · subst short
        exact Or.inr (Or.inl ⟨rfl, rfl, receive_of_moreData maxBytes copy finished⟩)
      · have other : (Except.error e : Except Error UInt32) ≠ .error (.win32 errorMoreData) :=
          fun same => short (Except.error.inj same)
        exact Or.inr (Or.inr ⟨rfl, _, rfl, other, receive_of_failed maxBytes copy short finished⟩)

end

end HttpSys
