import HttpSys.Queue.Needed

/-! `receive` one call of the kernel at a time. The kernel answers a call with one of the requests it holds, and a
request that does not fit a copy is set aside until the same slot asks for it by its id. -/
namespace HttpSys
open Lib.Bytes RequestBuffer

/-- A request as http.sys holds it, and what a receive with or without `COPY_BODY` writes into a buffer for it. -/
structure Incoming where
  id : UInt64
  headerBlock : Nat
  body : Nat
  block : Bool → HttpRequestV2
  writes : Bool → List Write
  assigned : id ≠ 0
  named : ∀ copyBody, (block copyBody).requestId = id
  addressed : ∀ copyBody, Addressed (block copyBody) (writes copyBody)

namespace Incoming

def needs (r : Incoming) (copyBody : Bool) : Nat := if copyBody then r.headerBlock + r.body else r.headerBlock

def delivery (r : Incoming) (copyBody : Bool) : Delivery := .request (r.block copyBody) (r.writes copyBody)

/-- What the accessors of `Request` read in a buffer that holds it. -/
def view (r : Incoming) (copyBody : Bool) : RequestView := (slotBuffer.deliver (r.delivery copyBody)).view

/-- The length the request declares for its body, as `fit_body_inline` reads it after a headers-only receive. -/
def declared (r : Incoming) : Option Nat := (slotBuffer.deliver (r.delivery false)).declaredBodyLen

/-- `fit_body_inline` replaces a buffer of this capacity while the request is in it. -/
def Outgrows (maxBytes : Nat) (capacity : UInt32) (r : Incoming) : Prop :=
  ∃ d, r.declared = some d ∧ saturatingAdd d headerSlack ≤ maxBytes ∧ capacity.toNat < saturatingAdd d headerSlack

theorem view_requestId (r : Incoming) (copyBody : Bool) : (r.view copyBody).requestId = r.id := r.named copyBody

theorem deliver_view (r : Incoming) (copyBody : Bool) (b : RequestBuffer) :
    (b.deliver (r.delivery copyBody)).view = r.view copyBody :=
  (deliver_sameReads b slotBuffer (r.addressed copyBody)).view

theorem deliver_declared (r : Incoming) (b : RequestBuffer) :
    (b.deliver (r.delivery false)).declaredBodyLen = r.declared :=
  (deliver_sameReads b slotBuffer (r.addressed false)).declaredBodyLen

end Incoming

/-- How the kernel answers one call: `deferred` is a copy that did not fit, `refused` a header block that did not. -/
inductive Answer where
  | delivered (r : Incoming) (copyBody : Bool) (outcome : Outcome)
  | deferred (r : Incoming) (outcome : Outcome)
  | refused (r : Incoming) (outcome : Outcome)
  | failed (outcome : Outcome)

namespace Answer

def receipt : Answer → Receipt
  | .delivered r copyBody outcome => { outcome := outcome, delivery := r.delivery copyBody }
  | .deferred r outcome => { outcome := outcome, delivery := .id r.id }
  | .refused r outcome => { outcome := outcome, delivery := .id r.id }
  | .failed outcome => { outcome := outcome }

/-- The request that leaves the kernel's hands with this answer. -/
def carried : Answer → List UInt64
  | .delivered r _ _ => [r.id]
  | .refused r _ => [r.id]
  | _ => []

def setsAside : Answer → List Incoming
  | .deferred r _ => [r]
  | _ => []

/-- The request of this answer, if the receive that got it has returned without it. -/
def forgets (capacity : UInt32) (outcome : Option (Except Error Unit × RequestBuffer × ReceiveMode)) :
    Answer → List (Incoming × UInt32)
  | .delivered r _ _ =>
    match outcome with
    | some (.ok (), buffer, _) => if buffer.requestId = r.id then [] else [(r, capacity)]
    | _ => [(r, capacity)]
  | _ => []

end Answer

def Outcome.short (skip : Bool) (o : Outcome) : Bool :=
  match o.finish skip with
  | .ok _ => false
  | .error e => e = .win32 errorMoreData

/-- The kernel's answer with this request, if that is how it may answer. -/
def Incoming.answer (r : Incoming) (skip : Bool) (args : ReceiveArgs) (outcome : Outcome) : Option Answer :=
  match outcome.finish skip with
  | .ok _ => if r.needs args.copyBody ≤ args.capacity.toNat then some (.delivered r args.copyBody outcome) else none
  | .error _ =>
    if outcome.short skip ∧ args.capacity.toNat < r.needs args.copyBody then
      some (if args.copyBody then .deferred r outcome else .refused r outcome)
    else none

/-- One `receive` between its post and its return: the answer to its copy, if that did not fit, and the answer to its
last call, if it has one that the slot has not seen yet. -/
structure ReceiveCall where
  first : Option Receipt := none
  answer : Option Answer := none

namespace ReceiveCall

/-- The arguments of the call that is out. -/
def args (call : ReceiveCall) (buffer : RequestBuffer) (mode : ReceiveMode) : ReceiveArgs :=
  match call.first with
  | none => { requestId := 0, copyBody := mode.copyBody, capacity := buffer.capacity }
  | some receipt =>
    { requestId := (buffer.prepare.deliver receipt.delivery).requestId, copyBody := false, capacity := buffer.capacity }

/-- All that the kernel has answered to this `receive`. -/
def answers (call : ReceiveCall) (last : Receipt) : ReceiveKernel :=
  fun args => if args.copyBody then call.first.getD last else last

/-- The request that the call which is out, or the next one, names by its id. -/
def asked (call : ReceiveCall) : List UInt64 :=
  match call.answer with
  | some (.delivered _ _ _) => []
  | some (.refused _ _) => []
  | some (.deferred r _) => [r.id]
  | _ =>
    match call.first with
    | some ⟨_, .id requestId⟩ => [requestId]
    | _ => []

def carried (call : ReceiveCall) : List UInt64 := (call.answer.map Answer.carried).getD []

/-- Whether `receive` goes on to its headers-only call. -/
def again (call : ReceiveCall) (skip : Bool) (mode : ReceiveMode) (answer : Answer) : Bool :=
  call.first.isNone && mode.copyBody && answer.receipt.outcome.short skip

end ReceiveCall

theorem short_iff {skip : Bool} {o : Outcome} : o.short skip = true ↔ o.finish skip = .error (.win32 errorMoreData) := by
  unfold Outcome.short
  split
  · rename_i n finished
    simp [finished]
  · rename_i e finished
    simp [finished]

/-- Asked one call at a time, a kernel brings `receive` to the same end. -/
theorem receive_in_calls (http : ReceiveKernel) (skip : Bool) (maxBytes : Nat) (buffer : RequestBuffer)
    (mode : ReceiveMode) :
    let first := http (({} : ReceiveCall).args buffer mode)
    let second : ReceiveCall := { first := some first }
    receive http skip maxBytes buffer mode =
      if mode.copyBody && first.outcome.short skip then
        receive (second.answers (http (second.args buffer mode))) skip maxBytes buffer mode
      else receive (({} : ReceiveCall).answers first) skip maxBytes buffer mode := by
  intro first second
  rcases receive_cases maxBytes http skip buffer mode with
    ⟨headers, received⟩ | ⟨copy, refused, received⟩ | ⟨copy, result, finished, other, received⟩
  · rw [headers, Bool.false_and, if_neg Bool.false_ne_true, received, receive_of_headersOnly maxBytes headers]
    simp [first, receiveHeaders, receiveOnce, ReceiveCall.answers, ReceiveCall.args, headers]
  · have answered : first = http ⟨0, true, buffer.capacity⟩ := by simp [first, ReceiveCall.args, copy]
    have short : first.outcome.short skip = true := short_iff.mpr (answered ▸ refused)
    have again : (second.answers (http (second.args buffer mode)) ⟨0, true, buffer.capacity⟩) = first := rfl
    have same : (second.answers (http (second.args buffer mode)) ⟨0, true, buffer.capacity⟩).outcome.finish skip =
        .error (.win32 errorMoreData) := by rw [again, answered, refused]
    rw [copy, short, Bool.and_true, if_pos rfl, receive_of_moreData maxBytes copy same, received, again, answered]
    simp [receiveHeaders, receiveOnce, ReceiveCall.answers, ReceiveCall.args, second, answered]
  · have answered : first = http ⟨0, true, buffer.capacity⟩ := by simp [first, ReceiveCall.args, copy]
    have fits : first.outcome.short skip = false := by
      apply Bool.eq_false_iff.mpr
      intro short
      have refused := short_iff.mp short
      rw [answered, finished] at refused
      exact other refused
    have once : (({} : ReceiveCall).answers first) ⟨0, true, buffer.capacity⟩ = first := rfl
    rw [copy, fits, Bool.and_false, if_neg Bool.false_ne_true, received]
    cases result with
    | ok n =>
      have same : (({} : ReceiveCall).answers first ⟨0, true, buffer.capacity⟩).outcome.finish skip = .ok n := by
        rw [once, answered, finished]
      rw [receive_of_copied maxBytes copy same, once, answered]
      rfl
    | error e =>
      have same : (({} : ReceiveCall).answers first ⟨0, true, buffer.capacity⟩).outcome.finish skip = .error e := by
        rw [once, answered, finished]
      rw [receive_of_failed maxBytes copy (fun short => other (congrArg _ short)) same, once, answered]
      rfl

/-! ### What a `receive` makes of its last answer -/

/-- The answers that a call with or without `COPY_BODY` can get. -/
inductive Answer.Allowed (skip : Bool) : Bool → Answer → Prop where
  | delivered {copyBody : Bool} (r : Incoming) {outcome : Outcome} {n : UInt32} (finished : outcome.finish skip = .ok n) :
    Allowed skip copyBody (.delivered r copyBody outcome)
  | deferred (r : Incoming) {outcome : Outcome} (short : outcome.short skip = true) :
    Allowed skip true (.deferred r outcome)
  | refused (r : Incoming) {outcome : Outcome} (short : outcome.short skip = true) :
    Allowed skip false (.refused r outcome)
  | failed {copyBody : Bool} {outcome : Outcome} {e : Error} (finished : outcome.finish skip = .error e)
    (other : e ≠ .win32 errorMoreData) : Allowed skip copyBody (.failed outcome)

theorem answer_cases {r : Incoming} {skip : Bool} {args : ReceiveArgs} {outcome : Outcome} {answer : Answer}
    (h : r.answer skip args outcome = some answer) :
    answer.Allowed skip args.copyBody ∧ ((∃ c o, answer = .delivered r c o) ∨ (∃ o, answer = .refused r o) ∨
      args.copyBody = true ∧ ∃ o, answer = .deferred r o) := by
  unfold Incoming.answer at h
  split at h
  · rename_i n finished
    split at h
    · cases h
      exact ⟨.delivered r finished, Or.inl ⟨_, _, rfl⟩⟩
    · cases h
  · split at h
    · rename_i refused
      cases copy : args.copyBody with
      | true =>
        rw [copy, if_pos rfl] at h
        cases h
        exact ⟨.deferred r refused.1, Or.inr (Or.inr ⟨rfl, _, rfl⟩)⟩
      | false =>
        rw [copy, if_neg Bool.false_ne_true] at h
        cases h
        exact ⟨.refused r refused.1, Or.inr (Or.inl ⟨_, rfl⟩)⟩
    · cases h

/-- How far a `receive` in this mode has come. -/
inductive Underway (skip : Bool) (mode : ReceiveMode) : ReceiveCall → Prop where
  | posted : Underway skip mode {}
  | answered {answer : Answer} (allowed : answer.Allowed skip mode.copyBody) :
    Underway skip mode { answer := some answer }
  | asking (r : Incoming) {outcome : Outcome} (copy : mode.copyBody = true) (short : outcome.short skip = true) :
    Underway skip mode { first := some { outcome := outcome, delivery := .id r.id } }
  | fetched (r : Incoming) {outcome : Outcome} {answer : Answer} (copy : mode.copyBody = true)
    (short : outcome.short skip = true) (allowed : answer.Allowed skip false) :
    Underway skip mode { first := some { outcome := outcome, delivery := .id r.id }, answer := some answer }

/-- What `receive` returns after this last answer, into a buffer of this capacity. -/
inductive Returned (maxBytes : Nat) (capacity : UInt32) :
    Answer → Option (Except Error Unit × RequestBuffer × ReceiveMode) → Prop where
  | kept (r : Incoming) (copyBody : Bool) (outcome : Outcome) {after : RequestBuffer} (mode : ReceiveMode)
    (read : after.view = r.view copyBody) :
    Returned maxBytes capacity (.delivered r copyBody outcome) (some (.ok (), after, mode))
  | replaced (r : Incoming) (copyBody : Bool) (outcome : Outcome) {after : RequestBuffer} (mode : ReceiveMode)
    (blank : after.request = {}) (outgrows : r.Outgrows maxBytes capacity) :
    Returned maxBytes capacity (.delivered r copyBody outcome) (some (.ok (), after, mode))
  | panicked (r : Incoming) (copyBody : Bool) (outcome : Outcome) (outgrows : r.Outgrows maxBytes capacity) :
    Returned maxBytes capacity (.delivered r copyBody outcome) none
  | tooLarge (r : Incoming) (outcome : Outcome) (needed : UInt32) {after : RequestBuffer} (mode : ReceiveMode)
    (same : after.requestId = r.id) :
    Returned maxBytes capacity (.refused r outcome) (some (.error (.headersTooLarge needed), after, mode))
  | failed (outcome : Outcome) (code : UInt32) (after : RequestBuffer) (mode : ReceiveMode) :
    Returned maxBytes capacity (.failed outcome) (some (.error (.win32 code), after, mode))

theorem fitBodyInline_eq_none {maxBytes : Nat} {b : RequestBuffer} (h : b.fitBodyInline maxBytes = none) :
    ∃ d, b.declaredBodyLen = some d ∧ saturatingAdd d headerSlack ≤ maxBytes ∧
      b.capacity.toNat < saturatingAdd d headerSlack := by
  cases declared : b.declaredBodyLen with
  | none =>
    rw [fitBodyInline_none declared] at h
    cases h
  | some d =>
    by_cases large : maxBytes < saturatingAdd d headerSlack
    · rw [fitBodyInline_refuses declared large] at h
      cases h
    · have within := Nat.le_of_not_lt large
      rw [fitBodyInline_grows declared within, Option.map_eq_none_iff] at h
      refine ⟨d, rfl, within, ?_⟩
      by_contra room
      rw [growTo, if_neg room] at h
      cases h

section
variable {http : ReceiveKernel} {skip : Bool} (maxBytes : Nat) {buffer : RequestBuffer} {answer : Answer}
  {mode : ReceiveMode}

theorem receiveHeaders_returned {requestId : UInt64} (mode : ReceiveMode) (needed : UInt32)
    (same : http ⟨requestId, false, buffer.capacity⟩ = answer.receipt) (allowed : answer.Allowed skip false) :
    Returned maxBytes buffer.capacity answer (receiveHeaders http skip maxBytes buffer requestId mode needed) := by
  cases allowed with
  | delivered r finished =>
    rw [receiveHeaders_of_ok maxBytes mode needed (by rw [same]; exact finished), same]
    have declared : (buffer.prepare.deliver (r.delivery false)).declaredBodyLen = r.declared := r.deliver_declared _
    have size : (buffer.prepare.deliver (r.delivery false)).capacity = buffer.capacity := by simp
    show Returned maxBytes buffer.capacity _
      (((buffer.prepare.deliver (r.delivery false)).fitBodyInline maxBytes).map
        fun fitted => (.ok (), fitted.2, { copyBody := fitted.1 }))
    cases fitted : (buffer.prepare.deliver (r.delivery false)).fitBodyInline maxBytes with
    | none =>
      obtain ⟨d, length, within, small⟩ := fitBodyInline_eq_none fitted
      exact .panicked r false _ ⟨d, declared ▸ length, within, size ▸ small⟩
    | some pair =>
      obtain ⟨fits, after⟩ := pair
      rcases fitBodyInline_cases fitted with rfl | ⟨d, length, within, small, fresh⟩
      · exact .kept r false _ _ (r.deliver_view false _)
      · exact .replaced r false _ _ (new_request fresh) ⟨d, declared ▸ length, within, size ▸ small⟩
  | refused r short =>
    rw [receiveHeaders_of_error maxBytes mode needed (by rw [same]; exact short_iff.mp short), if_pos rfl, same]
    exact .tooLarge r _ _ _ rfl
  | @failed _ outcome e finished other =>
    rw [receiveHeaders_of_error maxBytes mode needed (by rw [same]; exact finished), if_neg other]
    obtain ⟨code, rfl⟩ := finish_error finished
    exact .failed outcome code _ _

theorem receive_returned {call : ReceiveCall} (underway : Underway skip mode call) (answered : call.answer = some answer)
    (last : call.again skip mode answer = false) :
    Returned maxBytes buffer.capacity answer (receive (call.answers answer.receipt) skip maxBytes buffer mode) := by
  cases underway with
  | posted => cases answered
  | asking => cases answered
  | answered allowed =>
    obtain rfl := Option.some.inj answered
    cases copy : mode.copyBody with
    | false =>
      rw [copy] at allowed
      rw [receive_of_headersOnly maxBytes copy]
      exact receiveHeaders_returned maxBytes mode 0 rfl allowed
    | true =>
      rw [copy] at allowed
      cases allowed with
      | delivered r finished =>
        rw [receive_of_copied maxBytes copy finished]
        exact .kept r true _ _ (r.deliver_view true _)
      | deferred r short =>
        simp [ReceiveCall.again, copy, Answer.receipt, short] at last
      | @failed _ outcome e finished other =>
        rw [receive_of_failed maxBytes copy other finished]
        obtain ⟨code, rfl⟩ := finish_error finished
        exact .failed outcome code _ _
  | @fetched r outcome reply copy short allowed =>
    obtain rfl : reply = answer := Option.some.inj answered
    rw [receive_of_moreData maxBytes copy (short_iff.mp short)]
    have size : (buffer.prepare.deliver (.id r.id)).capacity = buffer.capacity := by simp
    rw [← size]
    exact receiveHeaders_returned maxBytes { copyBody := false } _ rfl allowed

end

end HttpSys
