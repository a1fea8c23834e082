import HttpSys.Server.Answers
import HttpSys.Queue.Attempts

/-! The server on its queue of http.sys, from the arrival of a request to its answer. Any number of slots receive at the
same time; the kernel offers a request to one receive, and once it has set it aside it offers it by its id only. -/
namespace HttpSys
open Lib Lib.Machine Lib.Tickets

variable {H : Type}

/-- The last five fields record what has happened: the requests that arrived, those whose client left while they were
waiting or set aside, those a failed receive had asked for, and those that were not in the buffer `receive` returned. -/
structure Intake (H : Type) where
  server : Server H := {}
  calls : List ReceiveCall := []
  waiting : List Incoming := []
  aside : List Incoming := []
  arrived : List Incoming := []
  gone : List Incoming := []
  left : List Incoming := []
  abandoned : List UInt64 := []
  forgotten : List (Incoming × UInt32) := []

inductive IntakeStep where
  | arrive (r : Incoming)
  | hangUp (j : Nat)
  | hangUpAside (j : Nat)
  | offer (i j : Nat) (outcome : Outcome)
  | fetch (i j : Nat) (outcome : Outcome)
  | fail (i : Nat) (outcome : Outcome)
  | resume (i : Nat)
  | server (label : ServerStep)

namespace Intake

/-- The receive that slot `i` awaits. -/
def receiving (s : Intake H) (i : Nat) : Option (RequestBuffer × ReceiveMode × ReceiveCall) :=
  match s.server.slots[i]?, s.calls[i]? with
  | some slot, some call =>
    match slot.pc with
    | .receiving buffer => some (buffer, slot.mode, call)
    | _ => none
  | _, _ => none

def post (s : Intake H) (i : Nat) (call : ReceiveCall) : Intake H := { s with calls := s.calls.set i call }

def step (concurrency : Nat) (routes : UInt64 → Option H) (skip : Bool) (maxBytes : Nat) (s : Intake H) :
    IntakeStep → Option (Intake H)
  | .arrive r =>
    if r.id ∈ s.arrived.map Incoming.id then none
    else some { s with waiting := s.waiting ++ [r], arrived := s.arrived ++ [r] }
  | .hangUp j =>
    s.waiting[j]?.map fun r => { s with waiting := s.waiting.eraseIdx j, gone := s.gone ++ [r] }
  | .hangUpAside j =>
    s.aside[j]?.map fun r => { s with aside := s.aside.eraseIdx j, left := s.left ++ [r] }
  | .offer i j outcome =>
    match s.receiving i, s.waiting[j]? with
    | some (buffer, mode, call), some r =>
      if call.answer.isNone ∧ (call.args buffer mode).requestId = 0 then
        (r.answer skip (call.args buffer mode) outcome).map fun answer =>
          { s.post i { call with answer := some answer } with
            waiting := s.waiting.eraseIdx j, aside := s.aside ++ answer.setsAside }
      else none
    | _, _ => none
  | .fetch i j outcome =>
    match s.receiving i, s.aside[j]? with
    | some (buffer, mode, call), some r =>
      if call.answer.isNone ∧ (call.args buffer mode).requestId = r.id then
        (r.answer skip (call.args buffer mode) outcome).map fun answer =>
          { s.post i { call with answer := some answer } with aside := s.aside.eraseIdx j }
      else none
    | _, _ => none
  | .fail i outcome =>
    match s.receiving i with
    | some (_, _, call) =>
      if call.answer.isNone ∧ (outcome.finish skip).isOk = false ∧ outcome.short skip = false then
        some (s.post i { call with answer := some (.failed outcome) })
      else none
    | none => none
  | .resume i =>
    match s.receiving i with
    | some (buffer, mode, call) =>
      match call.answer with
      | some answer =>
        if call.again skip mode answer then some (s.post i { first := some answer.receipt })
        else
          let outcome := receive (call.answers answer.receipt) skip maxBytes buffer mode
          (s.server.step concurrency routes (.slot i (.received outcome))).map fun server =>
            { s.post i {} with
              server := server
              abandoned := s.abandoned ++ call.asked
              forgotten := s.forgotten ++ answer.forgets buffer.capacity outcome }
      | none => none
    | none => none
  | .server (.slot _ (.received _)) => none
  | .server .spawn => (s.server.step concurrency routes .spawn).map fun server =>
      { s with server := server, calls := s.calls ++ [{}] }
  | .server label => (s.server.step concurrency routes label).map fun server => { s with server := server }

/-- The requests that slots ask for by their ids. -/
def asked (s : Intake H) : List UInt64 := s.calls.flatMap ReceiveCall.asked

/-- The requests in answers that their slots have not seen yet. -/
def carried (s : Intake H) : List UInt64 := s.calls.flatMap ReceiveCall.carried

/-- What a step can do. -/
inductive Stepped (concurrency : Nat) (routes : UInt64 → Option H) (skip : Bool) (maxBytes : Nat) (s : Intake H) :
    IntakeStep → Intake H → Prop where
  | arrive (r : Incoming) (fresh : r.id ∉ s.arrived.map Incoming.id) :
    Stepped concurrency routes skip maxBytes s (.arrive r)
      { s with waiting := s.waiting ++ [r], arrived := s.arrived ++ [r] }
  | hangUp {j : Nat} {r : Incoming} (queued : s.waiting[j]? = some r) :
    Stepped concurrency routes skip maxBytes s (.hangUp j) { s with waiting := s.waiting.eraseIdx j, gone := s.gone ++ [r] }
  | hangUpAside {j : Nat} {r : Incoming} (queued : s.aside[j]? = some r) :
    Stepped concurrency routes skip maxBytes s (.hangUpAside j)
      { s with aside := s.aside.eraseIdx j, left := s.left ++ [r] }
  | offer {i j : Nat} {outcome : Outcome} {buffer : RequestBuffer} {mode : ReceiveMode} {call : ReceiveCall} {r : Incoming}
    {answer : Answer} (found : s.receiving i = some (buffer, mode, call)) (queued : s.waiting[j]? = some r)
    (out : call.answer.isNone = true) (next : (call.args buffer mode).requestId = 0)
    (answered : r.answer skip (call.args buffer mode) outcome = some answer) :
    Stepped concurrency routes skip maxBytes s (.offer i j outcome) { s.post i { call with answer := some answer } with
      waiting := s.waiting.eraseIdx j, aside := s.aside ++ answer.setsAside }
  | fetch {i j : Nat} {outcome : Outcome} {buffer : RequestBuffer} {mode : ReceiveMode} {call : ReceiveCall} {r : Incoming}
    {answer : Answer} (found : s.receiving i = some (buffer, mode, call)) (queued : s.aside[j]? = some r)
    (out : call.answer.isNone = true) (named : (call.args buffer mode).requestId = r.id)
    (answered : r.answer skip (call.args buffer mode) outcome = some answer) :
    Stepped concurrency routes skip maxBytes s (.fetch i j outcome)
      { s.post i { call with answer := some answer } with aside := s.aside.eraseIdx j }
  | fail {i : Nat} {outcome : Outcome} {buffer : RequestBuffer} {mode : ReceiveMode} {call : ReceiveCall}
    (found : s.receiving i = some (buffer, mode, call)) (out : call.answer.isNone = true)
    (failed : (outcome.finish skip).isOk = false) (other : outcome.short skip = false) :
    Stepped concurrency routes skip maxBytes s (.fail i outcome) (s.post i { call with answer := some (.failed outcome) })
  | again {i : Nat} {buffer : RequestBuffer} {mode : ReceiveMode} {call : ReceiveCall} {answer : Answer}
    (found : s.receiving i = some (buffer, mode, call)) (answered : call.answer = some answer)
    (again : call.again skip mode answer = true) :
    Stepped concurrency routes skip maxBytes s (.resume i) (s.post i { first := some answer.receipt })
  | returned {i : Nat} {buffer : RequestBuffer} {mode : ReceiveMode} {call : ReceiveCall} {answer : Answer}
    {server : Server H} (found : s.receiving i = some (buffer, mode, call)) (answered : call.answer = some answer)
    (last : call.again skip mode answer = false) (stepped : s.server.step concurrency routes
      (.slot i (.received (receive (call.answers answer.receipt) skip maxBytes buffer mode))) = some server) :
    Stepped concurrency routes skip maxBytes s (.resume i) { s.post i {} with
      server := server
      abandoned := s.abandoned ++ call.asked
      forgotten := s.forgotten ++
        answer.forgets buffer.capacity (receive (call.answers answer.receipt) skip maxBytes buffer mode) }
  | spawn {server : Server H} (stepped : s.server.step concurrency routes .spawn = some server) :
    Stepped concurrency routes skip maxBytes s (.server .spawn) { s with server := server, calls := s.calls ++ [{}] }
  | server {label : ServerStep} {server : Server H} (elsewhere : ∀ i outcome, label ≠ .slot i (.received outcome))
    (settled : label ≠ .spawn) (stepped : s.server.step concurrency routes label = some server) :
    Stepped concurrency routes skip maxBytes s (.server label) { s with server := server }

theorem step_cases {concurrency : Nat} {routes : UInt64 → Option H} {skip : Bool} {maxBytes : Nat} {s t : Intake H}
    {label : IntakeStep} (h : s.step concurrency routes skip maxBytes label = some t) :
    Stepped concurrency routes skip maxBytes s label t := by
  unfold step at h
  split at h
  case h_1 r =>
    split at h
    · cases h
    · rename_i fresh
      cases h
      exact .arrive r fresh
  case h_2 j =>
    obtain ⟨r, queued, rfl⟩ := Option.map_eq_some_iff.mp h
    exact .hangUp queued
  case h_3 j =>
    obtain ⟨r, queued, rfl⟩ := Option.map_eq_some_iff.mp h
    exact .hangUpAside queued
  case h_4 i j outcome =>
    split at h
    · rename_i buffer mode call r found queued
      split at h
      · rename_i out
        obtain ⟨answer, answered, rfl⟩ := Option.map_eq_some_iff.mp h
        exact .offer found queued out.1 out.2 answered
      · cases h
    · cases h
  case h_5 i j outcome =>
    split at h
    · rename_i buffer mode call r found queued
      split at h
      · rename_i out
        obtain ⟨answer, answered, rfl⟩ := Option.map_eq_some_iff.mp h
        exact .fetch found queued out.1 out.2 answered
      · cases h
    · cases h
  case h_6 i outcome =>
    split at h
    · rename_i buffer mode call found
      obtain ⟨⟨out, failed, other⟩, rfl⟩ := of_guard h
      exact .fail found out failed other
    · cases h
  case h_7 i =>
    split at h
    · rename_i buffer mode call found
      split at h
      · rename_i answer answered
        split at h
        · rename_i again
          cases h
          exact .again found answered again
        · rename_i last
          obtain ⟨server, stepped, rfl⟩ := Option.map_eq_some_iff.mp h
          exact .returned found answered (by simpa using last) stepped
      · cases h
    · cases h
  case h_8 => cases h
  case h_9 =>
    obtain ⟨server, stepped, rfl⟩ := Option.map_eq_some_iff.mp h
    exact .spawn stepped
  case h_10 label elsewhere settled =>
    obtain ⟨server, stepped, rfl⟩ := Option.map_eq_some_iff.mp h
    exact .server (fun i outcome same => elsewhere i outcome same) settled stepped

end Intake

/-! ### One receive -/

def ids (rs : List Incoming) : List UInt64 := rs.map Incoming.id

theorem count_ids_append (rs rs' : List Incoming) (id : UInt64) :
    (ids (rs ++ rs')).count id = (ids rs).count id + (ids rs').count id := by
  rw [ids, List.map_append, List.count_append]
  rfl

theorem count_ids_eraseIdx {rs : List Incoming} {j : Nat} {r : Incoming} (id : UInt64) (found : rs[j]? = some r) :
    (ids rs).count id = (ids (rs.eraseIdx j)).count id + [r.id].count id := by
  obtain ⟨below, rfl⟩ := List.getElem?_eq_some_iff.mp found
  have perm := (List.getElem_cons_eraseIdx_perm below).map Incoming.id
  rw [ids, ← perm.count_eq id, List.map_cons, List.count_cons, List.count_singleton]
  rfl

theorem count_ids_zero (rs : List Incoming) : (ids rs).count 0 = 0 := by
  apply List.count_eq_zero.mpr
  intro member
  obtain ⟨r, -, zero⟩ := List.mem_map.mp member
  exact r.assigned zero

theorem carried_zero (call : ReceiveCall) : call.carried.count 0 = 0 := by
  apply List.count_eq_zero.mpr
  unfold ReceiveCall.carried
  cases call.answer with
  | none => exact List.not_mem_nil
  | some answer =>
    cases answer with
    | delivered r copyBody outcome => simpa [Answer.carried] using r.assigned.symm
    | refused r outcome => simpa [Answer.carried] using r.assigned.symm
    | deferred r outcome => exact List.not_mem_nil
    | failed outcome => exact List.not_mem_nil

/-- What a receive carried is handed to the slot, unless it was lost with the buffer. -/
theorem returned_counts {maxBytes : Nat} {capacity : UInt32} {answer : Answer}
    {outcome : Option (Except Error Unit × RequestBuffer × ReceiveMode)}
    (returned : Returned maxBytes capacity answer outcome) {id : UInt64} (assigned : id ≠ 0) :
    answer.carried.count id =
      (SlotInput.received outcome).hands.count id + ((answer.forgets capacity outcome).map fun f => f.1.id).count id := by
  cases returned with
  | @kept r copyBody outcome after mode read =>
    have same : after.requestId = r.id := (congrArg RequestView.requestId read).trans (r.view_requestId copyBody)
    simp [Answer.carried, Answer.forgets, SlotInput.hands, same]
  | @replaced r copyBody outcome after mode blank outgrows =>
    have unassigned : after.requestId = 0 := congrArg HttpRequestV2.requestId blank
    simp [Answer.carried, Answer.forgets, SlotInput.hands, unassigned, r.assigned.symm, List.count_singleton, assigned.symm]
  | panicked r copyBody outcome outgrows => simp [Answer.carried, Answer.forgets, SlotInput.hands]
  | tooLarge r outcome needed mode same =>
    simp [Answer.carried, Answer.forgets, SlotInput.hands, same, r.assigned]
  | failed outcome code after mode => simp [Answer.carried, Answer.forgets, SlotInput.hands]

theorem forgets_outgrown {maxBytes : Nat} {capacity : UInt32} {answer : Answer}
    {outcome : Option (Except Error Unit × RequestBuffer × ReceiveMode)}
    (returned : Returned maxBytes capacity answer outcome) :
    ∀ f ∈ answer.forgets capacity outcome, f.1.Outgrows maxBytes f.2 := by
  cases returned with
  | @kept r copyBody outcome after mode read =>
    have same : after.requestId = r.id := (congrArg RequestView.requestId read).trans (r.view_requestId copyBody)
    simp [Answer.forgets, same]
  | @replaced r copyBody outcome after mode blank outgrows =>
    have unassigned : after.requestId = 0 := congrArg HttpRequestV2.requestId blank
    simp [Answer.forgets, unassigned, r.assigned.symm, outgrows]
  | panicked r copyBody outcome outgrows => simp [Answer.forgets, outgrows]
  | tooLarge => simp [Answer.forgets]
  | failed => simp [Answer.forgets]

namespace Intake

theorem receiving_cases {s : Intake H} {i : Nat} {buffer : RequestBuffer} {mode : ReceiveMode} {call : ReceiveCall}
    (h : s.receiving i = some (buffer, mode, call)) :
    ∃ slot, s.server.slots[i]? = some slot ∧ slot.pc = .receiving buffer ∧ slot.mode = mode ∧
      s.calls[i]? = some call := by
  unfold receiving at h
  split at h
  · rename_i slot call' found found'
    split at h
    · rename_i buffer' pc
      cases h
      exact ⟨slot, found, pc, rfl, found'⟩
    · cases h
  · cases h

/-- Every request that arrived is in one place, and those that the kernel set aside are being asked for. -/
structure Conserved (routes : UInt64 → Option H) (skip : Bool) (maxBytes : Nat) (s : Intake H) : Prop where
  server : ∃ handed, Server.Conserves routes handed s.server
  paired : s.calls.length = s.server.slots.length
  underway : ∀ (i : Nat) (slot : Slot H) (call : ReceiveCall), s.server.slots[i]? = some slot → s.calls[i]? = some call →
    Underway skip slot.mode call ∧ ((∃ buffer, slot.pc = .receiving buffer) ∨ call = {})
  counted : ∀ id, id ≠ 0 → (ids s.waiting).count id + s.asked.count id + s.carried.count id + s.abandoned.count id +
    (ids s.gone).count id + (s.forgotten.map fun f => f.1.id).count id + inBags Slot.requests s.server.slots id =
      (ids s.arrived).count id
  followed : ∀ id, s.asked.count id + s.abandoned.count id = (ids s.aside).count id + (ids s.left).count id
  distinct : (ids s.arrived).Nodup
  outgrown : ∀ f ∈ s.forgotten, f.1.Outgrows maxBytes f.2

theorem conserved_start (routes : UInt64 → Option H) (skip : Bool) (maxBytes : Nat) :
    Conserved routes skip maxBytes ({} : Intake H) :=
  ⟨⟨[], Server.conserves_start routes⟩, rfl, fun i slot call found => (by cases found), fun id _ => rfl, fun id => rfl,
    List.nodup_nil, fun f member => by cases member⟩

/-- A step inside one `receive`. -/
theorem Conserved.post {routes : UInt64 → Option H} {skip : Bool} {maxBytes : Nat} {s : Intake H} {i : Nat}
    {buffer : RequestBuffer} {mode : ReceiveMode} {call next : ReceiveCall} {waiting aside : List Incoming}
    (conserved : Conserved routes skip maxBytes s) (found : s.receiving i = some (buffer, mode, call))
    (underway : Underway skip mode next)
    (balance : ∀ id, (ids waiting).count id + next.asked.count id + next.carried.count id =
      (ids s.waiting).count id + call.asked.count id + call.carried.count id)
    (asides : ∀ id, next.asked.count id + (ids s.aside).count id = call.asked.count id + (ids aside).count id) :
    Conserved routes skip maxBytes { s.post i next with waiting := waiting, aside := aside } := by
  obtain ⟨slot, slotFound, pc, rfl, callFound⟩ := receiving_cases found
  have asked := fun id => inBags_set ReceiveCall.asked next id callFound
  have carried := fun id => inBags_set ReceiveCall.carried next id callFound
  refine ⟨conserved.server, by simpa [Intake.post] using conserved.paired, ?_, ?_, ?_, conserved.distinct,
    conserved.outgrown⟩
  · intro j slot' call' slotFound' callFound'
    by_cases same : j = i
    · subst same
      obtain rfl : slot' = slot := Option.some.inj (slotFound'.symm.trans slotFound)
      have below := (List.getElem?_eq_some_iff.mp callFound).1
      obtain rfl : next = call' := by simpa [Intake.post, List.getElem?_set_self below] using callFound'
      exact ⟨underway, Or.inl ⟨buffer, pc⟩⟩
    · have old : s.calls[j]? = some call' := by
        simpa [Intake.post, List.getElem?_set_ne (Ne.symm same)] using callFound'
      exact conserved.underway j slot' call' slotFound' old
  · intro id assigned
    have before := conserved.counted id assigned
    have moved := balance id
    have one := asked id
    have two := carried id
    simp only [inBags] at one two
    simp only [Intake.asked, Intake.carried, Intake.post] at before ⊢
    omega
  · intro id
    have before := conserved.followed id
    have moved := asides id
    have one := asked id
    simp only [inBags] at one
    simp only [Intake.asked, Intake.post] at before ⊢
    omega

/-- A receive whose call is out has nothing but the answer to its copy. -/
theorem out_cases {skip : Bool} {mode : ReceiveMode} {call : ReceiveCall} (underway : Underway skip mode call)
    (out : call.answer.isNone = true) :
    call = {} ∨ ∃ (r : Incoming) (outcome : Outcome), mode.copyBody = true ∧ outcome.short skip = true ∧
      call = { first := some { outcome := outcome, delivery := .id r.id } } := by
  cases underway with
  | posted => exact Or.inl rfl
  | asking r copy short => exact Or.inr ⟨r, _, copy, short, rfl⟩
  | answered => cases out
  | fetched => cases out

theorem offer_conserved {routes : UInt64 → Option H} {skip : Bool} {maxBytes : Nat} {s : Intake H} {i j : Nat}
    {buffer : RequestBuffer} {mode : ReceiveMode} {call : ReceiveCall} {r : Incoming} {outcome : Outcome}
    {answer : Answer} (conserved : Conserved routes skip maxBytes s) (found : s.receiving i = some (buffer, mode, call))
    (queued : s.waiting[j]? = some r) (out : call.answer.isNone = true) (next : (call.args buffer mode).requestId = 0)
    (answered : r.answer skip (call.args buffer mode) outcome = some answer) :
    Conserved routes skip maxBytes { s.post i { call with answer := some answer } with
      waiting := s.waiting.eraseIdx j, aside := s.aside ++ answer.setsAside } := by
  obtain ⟨slot, slotFound, -, rfl, callFound⟩ := receiving_cases found
  obtain ⟨allowed, about⟩ := answer_cases answered
  rcases out_cases (conserved.underway i slot call slotFound callFound).1 out with rfl | ⟨r', refusal, -, -, rfl⟩
  · refine conserved.post found (.answered allowed) ?_ ?_
    · intro id
      rw [count_ids_eraseIdx id queued]
      rcases about with ⟨c, o, rfl⟩ | ⟨o, rfl⟩ | ⟨-, o, rfl⟩
      all_goals simp [ReceiveCall.asked, ReceiveCall.carried, Answer.carried]
    · intro id
      rw [count_ids_append]
      rcases about with ⟨c, o, rfl⟩ | ⟨o, rfl⟩ | ⟨-, o, rfl⟩
      all_goals simp [ReceiveCall.asked, Answer.setsAside, ids, Nat.add_comm]
  · exact (r'.assigned next).elim

theorem fetch_conserved {routes : UInt64 → Option H} {skip : Bool} {maxBytes : Nat} {s : Intake H} {i j : Nat}
    {buffer : RequestBuffer} {mode : ReceiveMode} {call : ReceiveCall} {r : Incoming} {outcome : Outcome}
    {answer : Answer} (conserved : Conserved routes skip maxBytes s) (found : s.receiving i = some (buffer, mode, call))
    (queued : s.aside[j]? = some r) (out : call.answer.isNone = true) (named : (call.args buffer mode).requestId = r.id)
    (answered : r.answer skip (call.args buffer mode) outcome = some answer) :
    Conserved routes skip maxBytes { s.post i { call with answer := some answer } with aside := s.aside.eraseIdx j } := by
  obtain ⟨slot, slotFound, -, rfl, callFound⟩ := receiving_cases found
  obtain ⟨allowed, about⟩ := answer_cases answered
  rcases out_cases (conserved.underway i slot call slotFound callFound).1 out with rfl | ⟨r', refusal, copy, short, rfl⟩
  · exact (r.assigned named.symm).elim
  · replace named : r'.id = r.id := named
    refine conserved.post found (.fetched r' copy short allowed) ?_ ?_
    · intro id
      rcases about with ⟨c, o, rfl⟩ | ⟨o, rfl⟩ | ⟨copied, -⟩
      · simp [Intake.post, ReceiveCall.asked, ReceiveCall.carried, Answer.carried, named]
      · simp [Intake.post, ReceiveCall.asked, ReceiveCall.carried, Answer.carried, named]
      · cases copied
    · intro id
      rw [count_ids_eraseIdx id queued]
      rcases about with ⟨c, o, rfl⟩ | ⟨o, rfl⟩ | ⟨copied, -⟩
      · simp [ReceiveCall.asked, named, Nat.add_comm]
      · simp [ReceiveCall.asked, named, Nat.add_comm]
      · cases copied

theorem fail_conserved {routes : UInt64 → Option H} {skip : Bool} {maxBytes : Nat} {s : Intake H} {i : Nat}
    {buffer : RequestBuffer} {mode : ReceiveMode} {call : ReceiveCall} {outcome : Outcome}
    (conserved : Conserved routes skip maxBytes s) (found : s.receiving i = some (buffer, mode, call))
    (out : call.answer.isNone = true) (failed : (outcome.finish skip).isOk = false) (other : outcome.short skip = false) :
    Conserved routes skip maxBytes (s.post i { call with answer := some (.failed outcome) }) := by
  obtain ⟨slot, slotFound, -, rfl, callFound⟩ := receiving_cases found
  have allowed : ∀ copyBody, (Answer.failed outcome).Allowed skip copyBody := by
    intro copyBody
    cases finished : outcome.finish skip with
    | ok n =>
      rw [finished] at failed
      cases failed
    | error e =>
      refine .failed finished ?_
      rintro rfl
      rw [short_iff.mpr finished] at other
      cases other
  have balance : ∀ next : ReceiveCall, next.asked = call.asked → next.carried = call.carried →
      Underway skip slot.mode next → Conserved routes skip maxBytes (s.post i next) := by
    intro next asked carried underway
    exact conserved.post found underway (fun id => by rw [asked, carried]) (fun id => by rw [asked])
  rcases out_cases (conserved.underway i slot call slotFound callFound).1 out with rfl | ⟨r', refusal, copy, short, rfl⟩
  · exact balance _ rfl rfl (.answered (allowed _))
  · exact balance _ rfl rfl (.fetched r' copy short (allowed _))

theorem again_conserved {routes : UInt64 → Option H} {skip : Bool} {maxBytes : Nat} {s : Intake H} {i : Nat}
    {buffer : RequestBuffer} {mode : ReceiveMode} {call : ReceiveCall} {answer : Answer}
    (conserved : Conserved routes skip maxBytes s) (found : s.receiving i = some (buffer, mode, call))
    (answered : call.answer = some answer) (again : call.again skip mode answer = true) :
    Conserved routes skip maxBytes (s.post i { first := some answer.receipt }) := by
  obtain ⟨slot, slotFound, -, rfl, callFound⟩ := receiving_cases found
  simp only [ReceiveCall.again, Bool.and_eq_true] at again
  obtain ⟨⟨first, copy⟩, short⟩ := again
  have refusal : ∃ (r : Incoming) (outcome : Outcome),
      answer = .deferred r outcome ∧ call = { answer := some answer } := by
    cases (conserved.underway i slot call slotFound callFound).1 with
    | posted => cases answered
    | asking => cases answered
    | fetched => cases first
    | answered allowed =>
      obtain rfl := Option.some.inj answered
      rw [copy] at allowed
      cases allowed with
      | delivered r finished =>
        have impossible := (short_iff.mp short).symm.trans finished
        cases impossible
      | deferred r => exact ⟨r, _, rfl, rfl⟩
      | failed finished other =>
        have same := (short_iff.mp short).symm.trans finished
        exact (other (Except.error.inj same).symm).elim
  obtain ⟨r, outcome, rfl, rfl⟩ := refusal
  refine conserved.post found (.asking r copy short) ?_ ?_
  · intro id
    rfl
  · intro id
    rfl

/-- The receive returns to its slot. -/
theorem return_conserved {concurrency : Nat} {routes : UInt64 → Option H} {skip : Bool} {maxBytes : Nat} {s : Intake H}
    {i : Nat} {buffer : RequestBuffer} {mode : ReceiveMode} {call : ReceiveCall} {answer : Answer} {server : Server H}
    (conserved : Conserved routes skip maxBytes s) (found : s.receiving i = some (buffer, mode, call))
    (answered : call.answer = some answer) (last : call.again skip mode answer = false)
    (stepped : s.server.step concurrency routes
      (.slot i (.received (receive (call.answers answer.receipt) skip maxBytes buffer mode))) = some server) :
    Conserved routes skip maxBytes { s.post i {} with
      server := server
      abandoned := s.abandoned ++ call.asked
      forgotten := s.forgotten ++
        answer.forgets buffer.capacity (receive (call.answers answer.receipt) skip maxBytes buffer mode) } := by
  obtain ⟨slot, slotFound, -, rfl, callFound⟩ := receiving_cases found
  have returned : Returned maxBytes buffer.capacity answer
      (receive (call.answers answer.receipt) skip maxBytes buffer slot.mode) :=
    receive_returned maxBytes (conserved.underway i slot call slotFound callFound).1 answered last
  obtain ⟨handed, before⟩ := conserved.server
  have after := Server.step_conserves before (by simp) stepped
  obtain ⟨-, -, slot', next, slotFound', -, moved⟩ := Server.stepSlot_cases stepped
  have asked := fun id => inBags_set ReceiveCall.asked {} id callFound
  have carried := fun id => inBags_set ReceiveCall.carried {} id callFound
  refine ⟨⟨_, after⟩, ?_, ?_, ?_, ?_, conserved.distinct, ?_⟩
  · rw [moved]
    simpa [Intake.post] using conserved.paired
  · intro j slot'' call' slotFound'' callFound'
    rw [moved] at slotFound''
    by_cases same : j = i
    · subst same
      have below := (List.getElem?_eq_some_iff.mp callFound).1
      obtain rfl : {} = call' := by simpa [Intake.post, List.getElem?_set_self below] using callFound'
      exact ⟨.posted, Or.inr rfl⟩
    · have oldSlot : s.server.slots[j]? = some slot'' := by
        simpa [List.getElem?_set_ne (Ne.symm same)] using slotFound''
      have oldCall : s.calls[j]? = some call' := by
        simpa [Intake.post, List.getElem?_set_ne (Ne.symm same)] using callFound'
      exact conserved.underway j slot'' call' oldSlot oldCall
  · intro id assigned
    have balance := conserved.counted id assigned
    have tokens := returned_counts returned assigned
    have requests := before.counted id
    have requests' := after.counted id
    have whole : call.carried = answer.carried := by rw [ReceiveCall.carried, answered]; rfl
    have one := asked id
    have two := carried id
    rw [whole] at two
    rw [List.count_append] at requests'
    simp only [ServerStep.hands] at requests'
    simp only [inBags] at one two requests requests'
    simp only [Intake.asked, Intake.carried, Intake.post, inBags, List.map_append, List.count_append] at balance ⊢
    have none_ : (({} : ReceiveCall).asked).count id = 0 ∧ (({} : ReceiveCall).carried).count id = 0 := ⟨rfl, rfl⟩
    omega
  · intro id
    have balance := conserved.followed id
    have one := asked id
    simp only [inBags] at one
    simp only [Intake.asked, Intake.post, List.count_append] at balance ⊢
    have none_ : (({} : ReceiveCall).asked).count id = 0 := rfl
    omega
  · intro f member
    rcases List.mem_append.mp member with old | new
    · exact conserved.outgrown f old
    · exact forgets_outgrown returned f new

/-- A step of the server in which no receive returns hands no request to a slot. -/
theorem quiet_step {concurrency : Nat} {routes : UInt64 → Option H} {s t : Server H} {label : ServerStep}
    {handed : List UInt64} (before : Server.Conserves routes handed s) (patient : label ≠ .timedOut)
    (elsewhere : ∀ i outcome, label ≠ .slot i (.received outcome)) (stepped : s.step concurrency routes label = some t) :
    Server.Conserves routes handed t ∧ ∀ id, inBags Slot.requests t.slots id = inBags Slot.requests s.slots id := by
  have after := Server.step_conserves before patient stepped
  have quiet : label.hands = [] := by
    cases label with
    | slot i input =>
      cases input with
      | received outcome => exact (elsewhere i outcome rfl).elim
      | _ => rfl
    | _ => rfl
  rw [quiet, List.append_nil] at after
  exact ⟨after, fun id => (after.counted id).trans (before.counted id).symm⟩

theorem spawn_conserved {concurrency : Nat} {routes : UInt64 → Option H} {skip : Bool} {maxBytes : Nat} {s : Intake H}
    {server : Server H} (conserved : Conserved routes skip maxBytes s)
    (stepped : s.server.step concurrency routes .spawn = some server) :
    Conserved routes skip maxBytes { s with server := server, calls := s.calls ++ [{}] } := by
  obtain ⟨handed, before⟩ := conserved.server
  obtain ⟨after, requests⟩ := quiet_step before (by simp) (by simp) stepped
  obtain ⟨-, rfl⟩ := of_guard stepped
  have none_ : ∀ bag : ReceiveCall → List UInt64, bag {} = [] →
      (s.calls ++ [({} : ReceiveCall)]).flatMap bag = s.calls.flatMap bag := by
    intro bag empty
    rw [List.flatMap_append, List.flatMap_singleton, empty, List.append_nil]
  refine ⟨⟨handed, after⟩, by simpa using conserved.paired, ?_, ?_, ?_, conserved.distinct, conserved.outgrown⟩
  · intro i slot call slotFound callFound
    have paired := conserved.paired
    by_cases old : i < s.calls.length
    · rw [List.getElem?_append_left (paired ▸ old)] at slotFound
      rw [List.getElem?_append_left old] at callFound
      exact conserved.underway i slot call slotFound callFound
    · have below := (List.getElem?_eq_some_iff.mp callFound).1
      rw [List.length_append, List.length_singleton] at below
      obtain rfl : i = s.calls.length := by omega
      rw [List.getElem?_concat_length] at callFound
      obtain rfl := Option.some.inj callFound
      exact ⟨.posted, Or.inr rfl⟩
  · intro id assigned
    have balance := conserved.counted id assigned
    rw [Intake.asked, Intake.carried, none_ _ rfl, none_ _ rfl, requests id]
    exact balance
  · intro id
    rw [Intake.asked, none_ _ rfl]
    exact conserved.followed id

theorem server_conserved {concurrency : Nat} {routes : UInt64 → Option H} {skip : Bool} {maxBytes : Nat} {s : Intake H}
    {label : ServerStep} {server : Server H} (conserved : Conserved routes skip maxBytes s) (patient : label ≠ .timedOut)
    (elsewhere : ∀ i outcome, label ≠ .slot i (.received outcome)) (settled : label ≠ .spawn)
    (stepped : s.server.step concurrency routes label = some server) :
    Conserved routes skip maxBytes { s with server := server } := by
  obtain ⟨handed, before⟩ := conserved.server
  obtain ⟨after, requests⟩ := quiet_step before patient elsewhere stepped
  refine ⟨⟨handed, after⟩, ?_, ?_, ?_, conserved.followed, conserved.distinct, conserved.outgrown⟩
  · rw [conserved.paired]
    cases Server.step_moved stepped with
    | slot alive reads found stepped moved => simp [moved]
    | spawned => exact (settled rfl).elim
    | aborted => exact (patient rfl).elim
    | kept elsewhere keeps => rw [keeps.slots]
  · intro j slot call slotFound callFound
    cases Server.step_moved stepped with
    | @slot i input old next alive reads found slotStepped moved =>
      subst moved
      by_cases same : j = i
      · subst same
        have below := (List.getElem?_eq_some_iff.mp found).1
        obtain rfl : next = slot := by simpa [List.getElem?_set_self below] using slotFound
        obtain ⟨-, ⟨buffer, pc⟩ | idle⟩ := conserved.underway j old call found callFound
        · -- A slot that awaits its receive only takes its result.
          cases input with
          | received outcome => exact (elsewhere j outcome rfl).elim
          | _ => simp [Slot.step, pc] at slotStepped
        · exact ⟨idle ▸ .posted, Or.inr idle⟩
      · rw [List.getElem?_set_ne (Ne.symm same)] at slotFound
        exact conserved.underway j slot call slotFound callFound
    | spawned => exact (settled rfl).elim
    | aborted => exact (patient rfl).elim
    | kept elsewhere keeps =>
      rw [keeps.slots] at slotFound
      exact conserved.underway j slot call slotFound callFound
  · intro id assigned
    rw [requests id]
    exact conserved.counted id assigned

def patient : IntakeStep → Bool
  | .server .timedOut => false
  | _ => true

theorem arrive_conserved {routes : UInt64 → Option H} {skip : Bool} {maxBytes : Nat} {s : Intake H}
    (conserved : Conserved routes skip maxBytes s) (r : Incoming) (fresh : r.id ∉ ids s.arrived) :
    Conserved routes skip maxBytes { s with waiting := s.waiting ++ [r], arrived := s.arrived ++ [r] } := by
  refine ⟨conserved.server, conserved.paired, conserved.underway, ?_, conserved.followed, ?_, conserved.outgrown⟩
  · intro id assigned
    have balance := conserved.counted id assigned
    rw [count_ids_append, count_ids_append]
    simp only [Intake.asked, Intake.carried] at balance ⊢
    omega
  · rw [ids, List.map_append, List.nodup_append]
    refine ⟨conserved.distinct, by simp, ?_⟩
    rintro id member _ added rfl
    obtain rfl : id = r.id := by simpa using added
    exact fresh member

theorem hangUp_conserved {routes : UInt64 → Option H} {skip : Bool} {maxBytes : Nat} {s : Intake H} {j : Nat}
    {r : Incoming} (conserved : Conserved routes skip maxBytes s) (queued : s.waiting[j]? = some r) :
    Conserved routes skip maxBytes { s with waiting := s.waiting.eraseIdx j, gone := s.gone ++ [r] } := by
  refine ⟨conserved.server, conserved.paired, conserved.underway, ?_, conserved.followed, conserved.distinct,
    conserved.outgrown⟩
  intro id assigned
  have balance := conserved.counted id assigned
  have erased := count_ids_eraseIdx id queued
  rw [count_ids_append]
  simp only [Intake.asked, Intake.carried, ids, List.map_cons, List.map_nil] at balance erased ⊢
  omega

theorem hangUpAside_conserved {routes : UInt64 → Option H} {skip : Bool} {maxBytes : Nat} {s : Intake H} {j : Nat}
    {r : Incoming} (conserved : Conserved routes skip maxBytes s) (queued : s.aside[j]? = some r) :
    Conserved routes skip maxBytes { s with aside := s.aside.eraseIdx j, left := s.left ++ [r] } := by
  refine ⟨conserved.server, conserved.paired, conserved.underway, conserved.counted, ?_, conserved.distinct,
    conserved.outgrown⟩
  intro id
  have balance := conserved.followed id
  have erased := count_ids_eraseIdx id queued
  rw [count_ids_append]
  simp only [Intake.asked, ids, List.map_cons, List.map_nil] at balance erased ⊢
  omega

theorem step_conserved (concurrency : Nat) (routes : UInt64 → Option H) (skip : Bool) (maxBytes : Nat) (s : Intake H)
    (label : IntakeStep) (t : Intake H) (conserved : Conserved routes skip maxBytes s) (calm : patient label = true)
    (h : s.step concurrency routes skip maxBytes label = some t) : Conserved routes skip maxBytes t := by
  cases step_cases h with
  | arrive r fresh => exact arrive_conserved conserved r fresh
  | hangUp queued => exact hangUp_conserved conserved queued
  | hangUpAside queued => exact hangUpAside_conserved conserved queued
  | offer found queued out next answered => exact offer_conserved conserved found queued out next answered
  | fetch found queued out named answered => exact fetch_conserved conserved found queued out named answered
  | fail found out failed other => exact fail_conserved conserved found out failed other
  | again found answered again => exact again_conserved conserved found answered again
  | returned found answered last stepped => exact return_conserved conserved found answered last stepped
  | spawn stepped => exact spawn_conserved conserved stepped
  | server elsewhere settled stepped =>
    refine server_conserved conserved ?_ elsewhere settled stepped
    rintro rfl
    cases calm

theorem asked_idle {routes : UInt64 → Option H} {skip : Bool} {maxBytes : Nat} {s : Intake H}
    (conserved : Conserved routes skip maxBytes s) (exited : s.server.serve = .exited) :
    s.asked = [] ∧ s.carried = [] ∧ s.server.inHand = [] := by
  obtain ⟨handed, server⟩ := conserved.server
  have finished := server.exited exited
  have idle : ∀ call ∈ s.calls, call = {} := by
    intro call member
    obtain ⟨i, below, rfl⟩ := List.mem_iff_getElem.mp member
    have within : i < s.server.slots.length := conserved.paired ▸ below
    obtain ⟨-, ⟨buffer, pc⟩ | same⟩ :=
      conserved.underway i _ _ (List.getElem?_eq_getElem within) (List.getElem?_eq_getElem below)
    · have ended := finished _ (List.getElem_mem within)
      rw [pc] at ended
      cases ended
    · exact same
  refine ⟨?_, ?_, ?_⟩
  · apply List.flatMap_eq_nil_iff.mpr
    intro call member
    rw [idle call member]
    rfl
  · apply List.flatMap_eq_nil_iff.mpr
    intro call member
    rw [idle call member]
    rfl
  · apply List.flatMap_eq_nil_iff.mpr
    intro slot member
    have ended := finished slot member
    unfold Slot.inHand
    cases pc : slot.pc with
    | handling requestId handler =>
      rw [pc] at ended
      cases ended
    | _ => rfl

end Intake

/-- In every interleaving of arrivals, clients that leave, answers of the kernel and steps of the server in which the
drain does not time out, each request that arrived is in exactly one place: waiting, asked for by one slot, in an answer
that one slot has not seen, answered once, in one handler's hands, lost in a panic of one, or gone with its client, with a
receive by its id that failed, or with the buffer it outgrew. The kernel has set aside just the requests that are asked for
or whose receive failed, less those whose client left. -/
theorem arrivals_are_conserved (concurrency : Nat) (routes : UInt64 → Option H) (skip : Bool) (maxBytes : Nat)
    (labels : List IntakeStep) (s : Intake H) (h : run (Intake.step concurrency routes skip maxBytes) {} labels = some s)
    (calm : ∀ label ∈ labels, Intake.patient label = true) :
    (ids s.waiting ++ s.asked ++ s.carried ++ s.abandoned ++ ids s.gone ++ (s.forgotten.map fun f => f.1.id) ++
      (s.server.answered ++ (s.server.inHand ++ s.server.lost)).filter (· ≠ 0)).Perm (ids s.arrived) ∧
    (ids s.arrived).Nodup ∧ (s.asked ++ s.abandoned).Perm (ids s.aside ++ ids s.left) ∧
    (∀ f ∈ s.forgotten, f.1.Outgrows maxBytes f.2) ∧
    (s.server.serve = .exited → s.asked = [] ∧ s.carried = [] ∧ s.server.inHand = []) := by
  have conserved : Intake.Conserved routes skip maxBytes s := by
    apply run_invariant_of_meets _ (Intake.conserved_start routes skip maxBytes) (meets_of_forall calm) h
    exact Intake.step_conserved concurrency routes skip maxBytes
  refine ⟨?_, conserved.distinct, ?_, conserved.outgrown, Intake.asked_idle conserved⟩
  · apply List.perm_iff_count.mpr
    intro id
    simp only [List.count_append]
    by_cases unassigned : id = 0
    · -- No request has the id 0; a request that outgrew its buffer is answered under it.
      subst unassigned
      have aside := conserved.followed 0
      rw [count_ids_zero, count_ids_zero] at aside
      have carried : s.carried.count 0 = 0 := by
        apply List.count_eq_zero.mpr
        intro member
        obtain ⟨call, -, inside⟩ := List.mem_flatMap.mp member
        exact List.count_eq_zero.mp (carried_zero call) inside
      have forgotten : (s.forgotten.map fun f => f.1.id).count 0 = 0 := by
        apply List.count_eq_zero.mpr
        intro member
        obtain ⟨f, -, zero⟩ := List.mem_map.mp member
        exact f.1.assigned zero
      have answered : ((s.server.answered ++ (s.server.inHand ++ s.server.lost)).filter (· ≠ 0)).count 0 = 0 := by
        apply List.count_eq_zero.mpr
        simp
      rw [count_ids_zero, count_ids_zero, count_ids_zero, carried, forgotten, answered]
      omega
    · have balance := conserved.counted id unassigned
      rw [Server.inBags_requests] at balance
      rw [List.count_filter (by simpa using unassigned)]
      exact balance
  · apply List.perm_iff_count.mpr
    intro id
    rw [List.count_append, List.count_append]
    exact conserved.followed id

/-- An upload that is set aside while another slot takes the request behind it. -/
def upload : Incoming where
  id := 42
  headerBlock := 900
  body := 65536
  block := fun _ => uploadBlock
  writes := fun _ => uploadWrites
  assigned := by decide
  named := fun _ => rfl
  addressed := fun _ => upload_addressed

def ping : Incoming where
  id := 43
  headerBlock := 864
  body := 0
  block := fun _ => { requestId := 43, urlContext := 1 }
  writes := fun _ => []
  assigned := by decide
  named := fun _ => rfl
  addressed := fun _ => ⟨fun h => (h rfl).elim, fun h => (h rfl).elim, fun _ h => (h rfl).elim, fun h => (h rfl).elim,
    fun _ h => (h rfl).elim⟩

def uploadAndPing : List IntakeStep :=
  [.server .run, .server (.build true), .server .spawn, .server .spawn, .server .subscribe,
    .server (.slot 0 (.load false)), .server (.slot 0 (.take (some slotBuffer))), .arrive upload, .arrive ping,
    .offer 0 0 { status := errorMoreData, reported := 66436 }, .resume 0,
    .server (.slot 1 (.load false)), .server (.slot 1 (.take (some slotBuffer))), .offer 1 0 { status := 0 },
    .fetch 0 0 { status := errorIoPending }, .resume 1,
    .server (.slot 1 (.handled (some (Response.new Status.notFound)))), .resume 0]

theorem upload_and_ping_are_conserved : ∃ s : Intake Unit,
    run (Intake.step 2 (fun _ => some ()) true 16384) {} uploadAndPing = some s ∧ s.server.answered = [43] ∧
    s.server.inHand = [42] ∧
    (ids s.waiting ++ s.asked ++ s.carried ++ s.abandoned ++ ids s.gone ++ (s.forgotten.map fun f => f.1.id) ++
      (s.server.answered ++ (s.server.inHand ++ s.server.lost)).filter (· ≠ 0)).Perm (ids s.arrived) ∧
    (ids s.arrived).Nodup ∧ (s.asked ++ s.abandoned).Perm (ids s.aside ++ ids s.left) ∧
    (∀ f ∈ s.forgotten, f.1.Outgrows 16384 f.2) ∧
    (s.server.serve = .exited → s.asked = [] ∧ s.carried = [] ∧ s.server.inHand = []) := by
  refine ⟨_, rfl, rfl, rfl, ?_⟩
  exact arrivals_are_conserved 2 (fun _ => some ()) true 16384 uploadAndPing _ rfl
    (by simp [uploadAndPing, Intake.patient])

end HttpSys
