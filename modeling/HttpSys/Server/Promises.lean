import HttpSys.Server.Genuine

/-! What clients are sent. Handlers are foreign code, so all that is assumed of one is a relation between what it reads of
a request and how it may respond; what a slot sends is traced back to such a response or to one of its own. -/
namespace HttpSys
open Lib Lib.Machine Lib.Tickets

variable {H : Type}

/-! ### One slot -/

/-- The call of a handler that the slot awaits. -/
def Slot.handlerCall (slot : Slot H) : Option (H × RequestBuffer) :=
  match slot.pc, slot.log.getLast? with
  | .handling _ _, some (.invoked handler buffer) => some (handler, buffer)
  | _, _ => none

/-- What one input makes a slot send. -/
inductive Sends (routes : UInt64 → Option H) (slot next : Slot H) (input : SlotInput) : Prop where
  | responded {handler : H} {buffer : RequestBuffer} {response : Response} (is : input = .handled (some response))
    (call : slot.handlerCall = some (handler, buffer)) (sent : sends next.log = sends slot.log ++ [(buffer.requestId, response)])
  | unrouted {buffer : RequestBuffer} {mode : ReceiveMode} (is : input = .received (some (.ok (), buffer, mode)))
    (missing : routes buffer.urlContext = none)
    (sent : sends next.log = sends slot.log ++ [(buffer.requestId, Response.new Status.notFound)])
  | tooLarge {needed : UInt32} {buffer : RequestBuffer} {mode : ReceiveMode}
    (is : input = .received (some (.error (.headersTooLarge needed), buffer, mode)))
    (logged : .received (.error (.headersTooLarge needed)) buffer ∈ next.log)
    (sent : sends next.log = sends slot.log ++ [(buffer.requestId, Response.new Status.headersTooLarge)])
  | nothing (same : sends next.log = sends slot.log)

theorem sends_goto (slot : Slot H) (pc : SlotPc H) (events : List (SlotEvent H)) :
    sends (slot.goto pc events).log = sends slot.log ++ sends events := sends_append slot.log events

theorem Sends.quiet {routes : UInt64 → Option H} {slot next : Slot H} {input : SlotInput} {events : List (SlotEvent H)}
    (log : next.log = slot.log ++ events) (none_ : sends events = []) : Sends routes slot next input :=
  .nothing (by rw [log, sends_append, none_, List.append_nil])

theorem afterReceive_sends (routes : UInt64 → Option H) (slot : Slot H) (result : Except Error Unit)
    (buffer : RequestBuffer) (mode : ReceiveMode) :
    Sends routes slot (({ slot with mode := mode } : Slot H).afterReceive routes result buffer)
      (.received (some (result, buffer, mode))) := by
  unfold Slot.afterReceive
  split
  · split
    · exact .quiet rfl rfl
    · rename_i missing
      exact .unrouted rfl missing (sends_goto _ _ _)
  · unfold Slot.reply
    split
    · refine .tooLarge rfl ?_ (sends_goto _ _ _)
      exact List.mem_append_right _ List.mem_cons_self
    · exact .quiet rfl rfl
  · split
    · exact .quiet rfl rfl
    · exact .quiet rfl rfl

theorem slot_step_sends {routes : UInt64 → Option H} {slot next : Slot H} {input : SlotInput}
    (traced : Traced routes slot) (h : slot.step routes input = some next) : Sends routes slot next input := by
  unfold Slot.step at h
  split at h <;> cases h
  case h_6 result buffer mode pc => exact afterReceive_sends routes slot result buffer mode
  case h_8 requestId handler response pc =>
    obtain ⟨buffer, last, rfl⟩ := last_of_handling traced pc
    have call : slot.handlerCall = some (handler, buffer) := by simp only [Slot.handlerCall, pc, last]
    exact .responded rfl call (sends_goto _ _ _)
  all_goals exact .quiet rfl rfl

theorem handlerCall_invoked {slot : Slot H} {handler : H} {buffer : RequestBuffer}
    (call : slot.handlerCall = some (handler, buffer)) : .invoked handler buffer ∈ slot.log := by
  unfold Slot.handlerCall at call
  split at call
  · rename_i handler' buffer' pc last
    cases call
    exact List.mem_of_getLast? last
  · cases call

theorem slot_step_receiving {routes : UInt64 → Option H} {slot next : Slot H} {input : SlotInput} {buffer : RequestBuffer}
    (h : slot.step routes input = some next) (receiving : next.pc = .receiving buffer) : slot.pc = .taking := by
  unfold Slot.step at h
  split at h <;> cases h
  case h_4 buffer' pc => exact pc
  case h_6 result buffer' mode pc =>
    unfold Slot.afterReceive Slot.reply at receiving
    split at receiving <;> split at receiving <;> cases receiving
  all_goals cases receiving

/-! ### A receive that fails -/

theorem receiveHeaders_error_capacity {http : ReceiveKernel} {skip : Bool} {maxBytes : Nat} {buffer after : RequestBuffer}
    {requestId : UInt64} {mode mode' : ReceiveMode} {needed : UInt32} {e : Error}
    (h : receiveHeaders http skip maxBytes buffer requestId mode needed = some (.error e, after, mode')) :
    after.capacity = buffer.capacity := by
  cases finished : (http ⟨requestId, false, buffer.capacity⟩).outcome.finish skip with
  | ok n =>
    rw [receiveHeaders_of_ok maxBytes mode needed finished] at h
    obtain ⟨fitted, -, same⟩ := Option.map_eq_some_iff.mp h
    cases (Prod.mk.inj same).1
  | error e' =>
    rw [receiveHeaders_of_error maxBytes mode needed finished] at h
    cases h
    rw [deliver_capacity, prepare_capacity]

/-- Only `fit_body_inline` resizes a buffer, after a receive that worked. -/
theorem receive_error_capacity {http : ReceiveKernel} {skip : Bool} {maxBytes : Nat} {buffer after : RequestBuffer}
    {mode mode' : ReceiveMode} {e : Error} (h : receive http skip maxBytes buffer mode = some (.error e, after, mode')) :
    after.capacity = buffer.capacity := by
  rcases receive_cases maxBytes http skip buffer mode with ⟨-, received⟩ | ⟨-, -, received⟩ | ⟨-, result, -, -, received⟩
  · exact receiveHeaders_error_capacity (received ▸ h)
  · rw [received] at h
    rw [receiveHeaders_error_capacity h, deliver_capacity, prepare_capacity]
  · rw [received] at h
    obtain rfl := (Prod.mk.inj (Prod.mk.inj (Option.some.inj h)).2).1
    rw [deliver_capacity, prepare_capacity]

namespace Intake

/-! ### What is sent -/

/-- The handler that responds keeps to what is promised of it, for what it reads of the request it was called for. -/
def Promised (promise : H → RequestView → Response → Prop) (s : Intake H) (label : IntakeStep) : Prop :=
  ∀ i response slot handler buffer, label = .server (.slot i (.handled (some response))) →
    s.server.slots[i]? = some slot → slot.handlerCall = some (handler, buffer) → promise handler buffer.view response

/-- Why a slot with this log may have sent this response. `blank` is the answer to a request that `fit_body_inline` wiped
out of the buffer. -/
inductive Justified (promise : H → RequestView → Response → Prop) (routes : UInt64 → Option H) (maxBytes : Nat)
    (arrived : List Incoming) (log : List (SlotEvent H)) (requestId : UInt64) (response : Response) : Prop where
  | promised {r : Incoming} {copyBody : Bool} {handler : H} (arrival : r ∈ arrived) (named : r.id = requestId)
    (routed : routes (r.view copyBody).urlContext = some handler) (kept : promise handler (r.view copyBody) response)
  | unrouted {r : Incoming} {copyBody : Bool} (arrival : r ∈ arrived) (named : r.id = requestId)
    (missing : routes (r.view copyBody).urlContext = none) (is : response = Response.new Status.notFound)
  | tooLarge {r : Incoming} {needed : UInt32} {buffer : RequestBuffer} (arrival : r ∈ arrived) (named : r.id = requestId)
    (logged : .received (.error (.headersTooLarge needed)) buffer ∈ log) (about : buffer.requestId = requestId)
    (small : buffer.capacity.toNat < r.headerBlock) (is : response = Response.new Status.headersTooLarge)
  | blank {r : Incoming} {capacity : UInt32} (arrival : r ∈ arrived) (outgrows : r.Outgrows maxBytes capacity)
    (unassigned : requestId = 0) (is : response = Response.new Status.notFound)

section
variable {promise : H → RequestView → Response → Prop} {routes : UInt64 → Option H} {maxBytes : Nat}
  {arrived : List Incoming}

theorem Justified.mono {arrived' : List Incoming} {log log' : List (SlotEvent H)} {requestId : UInt64}
    {response : Response} (justified : Justified promise routes maxBytes arrived log requestId response)
    (later : arrived ⊆ arrived') (longer : log ⊆ log') :
    Justified promise routes maxBytes arrived' log' requestId response := by
  cases justified with
  | promised arrival named routed kept => exact .promised (later arrival) named routed kept
  | unrouted arrival named missing is => exact .unrouted (later arrival) named missing is
  | tooLarge arrival named logged about small is => exact .tooLarge (later arrival) named (longer logged) about small is
  | blank arrival outgrows unassigned is => exact .blank (later arrival) outgrows unassigned is

theorem justified_step {slot next : Slot H} {input : SlotInput} (invoked : Invoked routes arrived slot)
    (before : ∀ answer ∈ sends slot.log, Justified promise routes maxBytes arrived slot.log answer.1 answer.2)
    (promised : ∀ response handler buffer, input = .handled (some response) →
      slot.handlerCall = some (handler, buffer) → promise handler buffer.view response)
    (unrouted : ∀ buffer mode, input = .received (some (.ok (), buffer, mode)) → routes buffer.urlContext = none →
      Justified promise routes maxBytes arrived next.log buffer.requestId (Response.new Status.notFound))
    (tooLarge : ∀ needed buffer mode, input = .received (some (.error (.headersTooLarge needed), buffer, mode)) →
      .received (.error (.headersTooLarge needed)) buffer ∈ next.log →
      Justified promise routes maxBytes arrived next.log buffer.requestId (Response.new Status.headersTooLarge))
    (h : slot.step routes input = some next) :
    ∀ answer ∈ sends next.log, Justified promise routes maxBytes arrived next.log answer.1 answer.2 := by
  have longer : slot.log ⊆ next.log := by
    cases slot_step_calls h with
    | handler is found log => exact log ▸ List.subset_append_left _ _
    | none log quiet => exact log ▸ List.subset_append_left _ _
  have old : ∀ answer ∈ sends slot.log, Justified promise routes maxBytes arrived next.log answer.1 answer.2 :=
    fun answer member => (before answer member).mono (List.Subset.refl _) longer
  intro answer member
  cases slot_step_sends invoked.traced h with
  | @responded handler buffer response is call sent =>
    rw [sent] at member
    rcases List.mem_append.mp member with earlier | new
    · exact old answer earlier
    · obtain rfl := List.mem_singleton.mp new
      have kept := promised response handler buffer is call
      obtain ⟨r, arrival, copyBody, read, routed⟩ := invoked.brought handler buffer (handlerCall_invoked call)
      have named : r.id = buffer.requestId :=
        (r.view_requestId copyBody).symm.trans (congrArg RequestView.requestId read.symm)
      exact .promised arrival named routed (read ▸ kept)
  | @unrouted buffer mode is missing sent =>
    rw [sent] at member
    rcases List.mem_append.mp member with earlier | new
    · exact old answer earlier
    · obtain rfl := List.mem_singleton.mp new
      exact unrouted buffer mode is missing
  | @tooLarge needed buffer mode is logged sent =>
    rw [sent] at member
    rcases List.mem_append.mp member with earlier | new
    · exact old answer earlier
    · obtain rfl := List.mem_singleton.mp new
      exact tooLarge needed buffer mode is logged
  | nothing same => exact old answer (same ▸ member)

end

/-! ### Header blocks that do not fit -/

theorem answer_refused {r r' : Incoming} {skip : Bool} {args : ReceiveArgs} {outcome outcome' : Outcome}
    (h : r.answer skip args outcome = some (.refused r' outcome')) :
    r' = r ∧ args.capacity.toNat < r.headerBlock := by
  unfold Incoming.answer at h
  split at h
  · split at h <;> cases h
  · split at h
    · rename_i short
      cases copy : args.copyBody with
      | true =>
        rw [copy, if_pos rfl] at h
        cases h
      | false =>
        rw [copy, if_neg Bool.false_ne_true] at h
        cases h
        have small := short.2
        rw [Incoming.needs, copy, if_neg Bool.false_ne_true] at small
        exact ⟨rfl, small⟩
    · cases h

theorem args_capacity (call : ReceiveCall) (buffer : RequestBuffer) (mode : ReceiveMode) :
    (call.args buffer mode).capacity = buffer.capacity := by
  unfold ReceiveCall.args
  cases call.first <;> rfl

/-- Every header block that the kernel has refused is too large for the buffer it was to go in. -/
def Refuses (s : Intake H) : Prop :=
  ∀ i buffer mode call r outcome, s.receiving i = some (buffer, mode, call) →
    call.answer = some (.refused r outcome) → r ∈ s.arrived ∧ buffer.capacity.toNat < r.headerBlock

theorem receiving_of_post {s : Intake H} {i j : Nat} {next call : ReceiveCall} {buffer : RequestBuffer} {mode : ReceiveMode}
    (h : (s.post i next).receiving j = some (buffer, mode, call)) :
    (j = i ∧ call = next ∧ ∃ old, s.receiving i = some (buffer, mode, old)) ∨
      s.receiving j = some (buffer, mode, call) := by
  obtain ⟨slot, slotFound, pc, rfl, callFound⟩ := receiving_cases h
  have slotSame : s.server.slots[j]? = some slot := slotFound
  simp only [post] at callFound
  by_cases same : j = i
  · subst same
    have below : j < s.calls.length := by
      obtain ⟨below, -⟩ := List.getElem?_eq_some_iff.mp callFound
      rwa [List.length_set] at below
    rw [List.getElem?_set_self below] at callFound
    refine Or.inl ⟨rfl, (Option.some.inj callFound).symm, s.calls[j], ?_⟩
    simp only [receiving, slotSame, List.getElem?_eq_getElem below, pc]
  · rw [List.getElem?_set_ne (Ne.symm same)] at callFound
    right
    simp only [receiving, slotSame, callFound, pc]

theorem refused_small {s : Intake H} {i : Nat} {skip : Bool} {buffer : RequestBuffer} {mode : ReceiveMode}
    {call : ReceiveCall} {r : Incoming} {outcome : Outcome} {answer : Answer}
    (found : s.receiving i = some (buffer, mode, call)) (arrived : r ∈ s.arrived)
    (answered : r.answer skip (call.args buffer mode) outcome = some answer) :
    ∀ buffer' mode' call' r' outcome', s.receiving i = some (buffer', mode', call') →
      some answer = some (.refused r' outcome') → r' ∈ s.arrived ∧ buffer'.capacity.toNat < r'.headerBlock := by
  intro buffer' mode' call' r' outcome' before is
  rw [found] at before
  cases before
  obtain ⟨rfl, small⟩ := answer_refused (answered.trans is)
  rw [args_capacity] at small
  exact ⟨arrived, small⟩

/-- A receive that a step of the server leaves out was out before, or has just begun. -/
theorem receiving_of_server {concurrency : Nat} {routes : UInt64 → Option H} {skip : Bool} {maxBytes : Nat} {s : Intake H}
    {server : Server H} {label : ServerStep} (genuine : Genuine routes skip maxBytes s) (settled : label ≠ .spawn)
    (stepped : s.server.step concurrency routes label = some server) {j : Nat} {buffer : RequestBuffer}
    {mode : ReceiveMode} {call : ReceiveCall}
    (h : ({ s with server := server } : Intake H).receiving j = some (buffer, mode, call)) :
    s.receiving j = some (buffer, mode, call) ∨ call.answer = none := by
  obtain ⟨slot, slotFound, pc, rfl, callFound⟩ := receiving_cases h
  have callSame : s.calls[j]? = some call := callFound
  have before : s.server.slots[j]? = some slot → s.receiving j = some (buffer, slot.mode, call) := by
    intro found
    simp only [receiving, found, callSame, pc]
  cases Server.step_moved stepped with
  | @slot i input old next alive reads found slotStepped moved =>
    subst moved
    by_cases same : j = i
    · subst same
      obtain ⟨below, -⟩ := List.getElem?_eq_some_iff.mp found
      simp only [List.getElem?_set_self below, Option.some.injEq] at slotFound
      subst slotFound
      have taking := slot_step_receiving slotStepped pc
      have conserved : Conserved routes skip maxBytes s := genuine.lives.resolve_right fun ended => alive ended.1.1
      rcases (conserved.underway j old call found callSame).2 with ⟨buffer', receiving⟩ | rfl
      · cases taking.symm.trans receiving
      · exact Or.inr rfl
    · simp only [List.getElem?_set_ne (Ne.symm same)] at slotFound
      exact Or.inl (before slotFound)
  | spawned => exact (settled rfl).elim
  | aborted owner draining exited moved =>
    have member := List.mem_of_getElem? slotFound
    simp only [moved] at member
    have finished := (List.mem_filter.mp member).2
    rw [pc] at finished
    cases finished
  | kept elsewhere keeps =>
    rw [← keeps.slots] at before
    exact Or.inl (before slotFound)

/-- A call of slot `i` has gone on to `next`. -/
theorem Refuses.post {s : Intake H} (refuses : s.Refuses) (i : Nat) (next : ReceiveCall) (waiting aside : List Incoming)
    (new : ∀ buffer mode call r outcome, s.receiving i = some (buffer, mode, call) →
      next.answer = some (.refused r outcome) → r ∈ s.arrived ∧ buffer.capacity.toNat < r.headerBlock) :
    ({ s.post i next with waiting := waiting, aside := aside } : Intake H).Refuses := by
  intro j buffer mode call r outcome found answered
  have found : (s.post i next).receiving j = some (buffer, mode, call) := found
  rcases receiving_of_post found with ⟨rfl, rfl, old, before⟩ | before
  · exact new buffer mode old r outcome before answered
  · exact refuses j buffer mode call r outcome before answered

theorem refuses_spawn {concurrency : Nat} {routes : UInt64 → Option H} {skip : Bool} {maxBytes : Nat} {s : Intake H}
    {server : Server H} (genuine : Genuine routes skip maxBytes s) (refuses : s.Refuses)
    (stepped : s.server.step concurrency routes .spawn = some server) :
    ({ s with server := server, calls := s.calls ++ [{}] } : Intake H).Refuses := by
  intro j buffer mode call r outcome found answered
  obtain ⟨slot, slotFound, pc, rfl, callFound⟩ := receiving_cases found
  rcases Nat.lt_or_ge j s.calls.length with below | above
  · have callSame : s.calls[j]? = some call := by
      simp only [List.getElem?_append_left below] at callFound
      exact callFound
    have slotSame : s.server.slots[j]? = some slot := by
      cases Server.step_moved stepped with
      | spawned spawning room moved =>
        have conserved : Conserved routes skip maxBytes s := by
          apply genuine.lives.resolve_right
          intro ended
          cases spawning.symm.trans ended.1.1
        subst moved
        rwa [List.getElem?_append_left (conserved.paired ▸ below)] at slotFound
      | kept elsewhere keeps => exact keeps.slots ▸ slotFound
    exact refuses j buffer slot.mode call r outcome (by simp only [receiving, slotSame, callSame, pc]) answered
  · simp only [List.getElem?_append_right above] at callFound
    obtain rfl := List.mem_singleton.mp (List.mem_of_getElem? callFound)
    cases answered

theorem step_refuses {concurrency : Nat} {routes : UInt64 → Option H} {skip : Bool} {maxBytes : Nat} {s t : Intake H}
    {label : IntakeStep} (genuine : Genuine routes skip maxBytes s) (refuses : s.Refuses)
    (h : s.step concurrency routes skip maxBytes label = some t) : t.Refuses := by
  cases step_cases h with
  | arrive r fresh =>
    intro i buffer mode call r' outcome found answered
    obtain ⟨arrival, small⟩ := refuses i buffer mode call r' outcome found answered
    exact ⟨List.mem_append_left _ arrival, small⟩
  | hangUp queued => exact refuses
  | hangUpAside queued => exact refuses
  | @offer i j outcome buffer mode call r answer found queued out next answered =>
    have arrived := genuine.held r (List.mem_append_left _ (List.mem_of_getElem? queued))
    exact refuses.post i _ _ _ (refused_small found arrived answered)
  | @fetch i j outcome buffer mode call r answer found queued out named answered =>
    have arrived := genuine.held r (List.mem_append_right _ (List.mem_of_getElem? queued))
    exact refuses.post i _ s.waiting _ (refused_small found arrived answered)
  | @fail i outcome buffer mode call found out failed other =>
    refine refuses.post i _ s.waiting s.aside ?_
    intro buffer' mode' call' r outcome' before refused
    cases refused
  | @again i buffer mode call answer found answered again =>
    refine refuses.post i _ s.waiting s.aside ?_
    intro buffer' mode' call' r outcome' before refused
    cases refused
  | @returned i buffer mode call answer server found answered last stepped =>
    intro j buffer' mode' call' r outcome' found' refused
    have found' : (({ s with server := server } : Intake H).post i {}).receiving j = some (buffer', mode', call') := found'
    rcases receiving_of_post found' with ⟨rfl, rfl, -⟩ | before
    · cases refused
    · rcases receiving_of_server genuine (by simp) stepped before with before | none_
      · exact refuses j buffer' mode' call' r outcome' before refused
      · cases none_.symm.trans refused
  | spawn stepped => exact refuses_spawn genuine refuses stepped
  | server elsewhere settled stepped =>
    intro j buffer mode call r outcome found refused
    rcases receiving_of_server genuine settled stepped found with before | none_
    · exact refuses j buffer mode call r outcome before refused
    · cases none_.symm.trans refused

/-! ### All slots -/

section
variable {promise : H → RequestView → Response → Prop} {concurrency : Nat} {routes : UInt64 → Option H} {skip : Bool}
  {maxBytes : Nat} {s : Intake H} (genuine : Genuine routes skip maxBytes s)
  (before : ∀ slot ∈ s.server.slots, ∀ answer ∈ sends slot.log,
    Justified promise routes maxBytes s.arrived slot.log answer.1 answer.2)
include genuine before

/-- A step of the server in which no receive returns. -/
theorem justified_elsewhere {label : ServerStep} {server : Server H}
    (elsewhere : ∀ i outcome, label ≠ .slot i (.received outcome)) (promised : Promised promise s (.server label))
    (stepped : s.server.step concurrency routes label = some server) :
    ∀ slot ∈ server.slots, ∀ answer ∈ sends slot.log,
      Justified promise routes maxBytes s.arrived slot.log answer.1 answer.2 := by
  intro slot member
  rcases Server.slot_of_step stepped member with old | rfl | ⟨i, input, old, rfl, found, slotStepped⟩
  · exact before slot old
  · intro answer none_
    cases none_
  · have inside := List.mem_of_getElem? found
    refine justified_step (genuine.invoked old inside) (before old inside) ?_ ?_ ?_ slotStepped
    · rintro response handler buffer rfl call
      exact promised i response old handler buffer rfl found call
    · rintro buffer mode rfl
      exact (elsewhere i _ rfl).elim
    · rintro needed buffer mode rfl
      exact (elsewhere i _ rfl).elim

theorem justified_resume (refuses : s.Refuses) {i : Nat} {buffer : RequestBuffer} {mode : ReceiveMode} {call : ReceiveCall}
    {answer : Answer} {server : Server H} (found : s.receiving i = some (buffer, mode, call))
    (answered : call.answer = some answer) (last : call.again skip mode answer = false)
    (stepped : s.server.step concurrency routes
      (.slot i (.received (receive (call.answers answer.receipt) skip maxBytes buffer mode))) = some server) :
    ∀ slot ∈ server.slots, ∀ answer ∈ sends slot.log,
      Justified promise routes maxBytes s.arrived slot.log answer.1 answer.2 := by
  obtain ⟨slot, slotFound, -, rfl, callFound⟩ := receiving_cases found
  obtain ⟨alive, -⟩ := Server.stepSlot_cases stepped
  have conserved : Conserved routes skip maxBytes s := genuine.lives.resolve_right fun ended => alive ended.1.1
  have returned : Returned maxBytes buffer.capacity answer
      (receive (call.answers answer.receipt) skip maxBytes buffer slot.mode) :=
    receive_returned maxBytes (conserved.underway i slot call slotFound callFound).1 answered last
  have delivered := genuine.delivered call (List.mem_of_getElem? callFound)
  have refused := refuses i buffer slot.mode call
  intro next member
  rcases Server.slot_of_step stepped member with old | rfl | ⟨j, input, old, same, oldFound, slotStepped⟩
  · exact before next old
  · intro answer none_
    cases none_
  · injection same with _ same
    subst same
    have inside := List.mem_of_getElem? oldFound
    refine justified_step (genuine.invoked old inside) (before old inside) ?_ ?_ ?_ slotStepped
    · intro response handler filled handled
      cases handled
    · intro filled mode same missing
      injection same with outcome
      rw [outcome] at returned
      cases returned with
      | kept r copyBody o mode read =>
        have named : r.id = filled.requestId :=
          (r.view_requestId copyBody).symm.trans (congrArg RequestView.requestId read.symm)
        have context : filled.urlContext = (r.view copyBody).urlContext := congrArg RequestView.urlContext read
        exact .unrouted (delivered r copyBody o answered) named (context ▸ missing) rfl
      | replaced r copyBody o mode blank outgrows =>
        exact .blank (delivered r copyBody o answered) outgrows (congrArg HttpRequestV2.requestId blank) rfl
    · intro needed filled mode same logged
      injection same with outcome
      have size := receive_error_capacity outcome
      rw [outcome] at returned
      cases returned with
      | tooLarge r o needed mode same =>
        obtain ⟨arrival, small⟩ := refused r o found answered
        exact .tooLarge arrival same.symm logged rfl (size ▸ small) rfl

end

/-- The requests that slots have answered; the kernel gives none the id 0. -/
def replies (s : Intake H) : List UInt64 := s.server.slots.flatMap fun slot => slot.answered.filter (· ≠ 0)

theorem replies_once {routes : UInt64 → Option H} {skip : Bool} {maxBytes : Nat} {s : Intake H}
    (conserved : Conserved routes skip maxBytes s) : s.replies.Nodup := by
  apply conserved.nodup
  · apply List.Sublist.flatMap_right s.server.slots
    intro slot member
    exact List.filter_sublist.trans (List.sublist_append_left _ _)
  · intro member
    obtain ⟨slot, -, zero⟩ := List.mem_flatMap.mp member
    simpa using (List.mem_filter.mp zero).2

/-- What clients are sent is due to them. -/
structure Truthful (promise : H → RequestView → Response → Prop) (routes : UInt64 → Option H) (skip : Bool)
    (maxBytes : Nat) (s : Intake H) : Prop where
  genuine : Genuine routes skip maxBytes s
  refuses : s.Refuses
  justified : ∀ slot ∈ s.server.slots, ∀ answer ∈ sends slot.log,
    Justified promise routes maxBytes s.arrived slot.log answer.1 answer.2
  once : s.replies.Nodup

theorem truthful_start (promise : H → RequestView → Response → Prop) (routes : UInt64 → Option H) (skip : Bool)
    (maxBytes : Nat) : Truthful promise routes skip maxBytes ({} : Intake H) :=
  ⟨genuine_start routes skip maxBytes, fun i buffer mode call r outcome found => (by cases found),
    fun slot member => (by cases member), List.nodup_nil⟩

theorem step_justified {promise : H → RequestView → Response → Prop} {concurrency : Nat} {routes : UInt64 → Option H}
    {skip : Bool} {maxBytes : Nat} {s t : Intake H} {label : IntakeStep} (truthful : Truthful promise routes skip maxBytes s)
    (promised : Promised promise s label) (h : s.step concurrency routes skip maxBytes label = some t) :
    ∀ slot ∈ t.server.slots, ∀ answer ∈ sends slot.log,
      Justified promise routes maxBytes t.arrived slot.log answer.1 answer.2 := by
  have before := truthful.justified
  cases step_cases h with
  | arrive r fresh =>
    intro slot member answer sent
    exact (before slot member answer sent).mono (List.subset_append_left _ _) (List.Subset.refl _)
  | returned found answered last stepped =>
    exact justified_resume truthful.genuine before truthful.refuses found answered last stepped
  | spawn stepped => exact justified_elsewhere truthful.genuine before (by simp) promised stepped
  | server elsewhere settled stepped => exact justified_elsewhere truthful.genuine before elsewhere promised stepped
  | _ => exact before

theorem step_truthful {promise : H → RequestView → Response → Prop} {routes : UInt64 → Option H} (unrouted : routes 0 = none)
    (concurrency : Nat) (skip : Bool) (maxBytes : Nat) (s : Intake H) (label : IntakeStep) (t : Intake H)
    (truthful : Truthful promise routes skip maxBytes s) (promised : Promised promise s label)
    (h : s.step concurrency routes skip maxBytes label = some t) : Truthful promise routes skip maxBytes t where
  genuine := step_genuine unrouted concurrency skip maxBytes s label t truthful.genuine h
  refuses := step_refuses truthful.genuine truthful.refuses h
  justified := step_justified truthful promised h
  once := by
    rcases step_ends (truthful.genuine.lives.imp_right And.left) h with conserved | ⟨-, fewer⟩
    · exact replies_once conserved
    · exact truthful.once.sublist (fewer.flatMap _)

end Intake

/-- Whatever the kernel, the clients and the server do: if each handler keeps its promise about what it reads, then every
response that is sent is one its handler promised for a request that arrived and is routed to it, the 404 for a request
that has no route, the 431 for one whose header block is larger than the slot's buffer, or the 404 under the id 0 for one
that `fit_body_inline` wiped out of its buffer. No request is answered twice. -/
theorem answers_are_due (calls : List (RouteCall H)) (b : ServerBuilder H)
    (built : run ServerBuilder.step {} calls = some b) (promise : H → RequestView → Response → Prop) (concurrency : Nat)
    (skip : Bool) (maxBytes : Nat) (labels : List IntakeStep) (s : Intake H)
    (h : run (Intake.step concurrency b.routes skip maxBytes) {} labels = some s)
    (promised : Meets (Intake.step concurrency b.routes skip maxBytes) (Intake.Promised promise) {} labels) :
    (∀ slot ∈ s.server.slots, ∀ requestId response, (requestId, response) ∈ sends slot.log →
      (∃ r ∈ s.arrived, r.id = requestId ∧
        ((∃ copyBody handler, promise handler (r.view copyBody) response ∧ ∃ entry ∈ b.group,
            entry.context = (r.view copyBody).urlContext ∧ ServerBuilder.RegisteredBy calls entry handler) ∨
          (response = Response.new Status.notFound ∧
            ∃ copyBody, ∀ entry ∈ b.group, entry.context ≠ (r.view copyBody).urlContext) ∨
          (response = Response.new Status.headersTooLarge ∧
            ∃ needed buffer, .received (.error (.headersTooLarge needed)) buffer ∈ slot.log ∧
              buffer.requestId = requestId ∧ buffer.capacity.toNat < r.headerBlock))) ∨
      (requestId = 0 ∧ response = Response.new Status.notFound ∧
        ∃ r ∈ s.arrived, ∃ capacity, r.Outgrows maxBytes capacity)) ∧
    s.replies.Nodup := by
  obtain ⟨agrees, owned⟩ := ServerBuilder.run_agrees built
  have truthful : Intake.Truthful promise b.routes skip maxBytes s :=
    run_invariant_of_meets (Intake.step_truthful agrees.unrouted concurrency skip maxBytes) (Intake.truthful_start _ _ _ _)
      promised h
  refine ⟨?_, truthful.once⟩
  intro slot member requestId response sent
  cases truthful.justified slot member (requestId, response) sent with
  | @promised r copyBody handler arrival named routed kept =>
    obtain ⟨entry, registered, context⟩ := (agrees.keys _).mp ⟨handler, routed⟩
    obtain ⟨handler', found, byCall⟩ := owned entry registered
    rw [context, routed] at found
    obtain rfl := Option.some.inj found
    exact Or.inl ⟨r, arrival, named, Or.inl ⟨copyBody, handler, kept, entry, registered, context, byCall⟩⟩
  | @unrouted r copyBody arrival named missing is =>
    refine Or.inl ⟨r, arrival, named, Or.inr (Or.inl ⟨is, copyBody, ?_⟩)⟩
    intro entry registered context
    obtain ⟨handler, found⟩ := (agrees.keys _).mpr ⟨entry, registered, context⟩
    cases missing.symm.trans found
  | @tooLarge r needed buffer arrival named logged about small is =>
    exact Or.inl ⟨r, arrival, named, Or.inr (Or.inr ⟨is, needed, buffer, logged, about, small⟩)⟩
  | @blank r capacity arrival outgrows unassigned is =>
    exact Or.inr ⟨unassigned, is, r, arrival, capacity, outgrows⟩

/-- The handler finds nothing for the ping, and only for it. -/
def OnlyPingMissing (_ : Nat) (view : RequestView) (response : Response) : Prop :=
  response.status = if view.requestId = 43 then Status.notFound else Status.ok

theorem uploadAndPing_promised : ∀ b, run ServerBuilder.step {} rootCalls = some b →
    Meets (Intake.step 2 b.routes true 16384) (Intake.Promised OnlyPingMissing) {} uploadAndPing := by
  rintro _ ⟨⟩
  have split : uploadAndPing = uploadAndPing.take 16 ++
      [.server (.slot 1 (.handled (some (Response.new Status.notFound)))), .resume 0] := rfl
  rw [split]
  apply meets_append
  · apply meets_of_free
    rintro label member s i response slot handler buffer rfl
    simp [uploadAndPing] at member
  · intro s ran
    refine ⟨?_, fun _ _ => ⟨?_, fun _ _ => trivial⟩⟩
    · rintro i response slot handler buffer is found call
      cases is
      have seen : ((s.server.slots[1]?).bind Slot.handlerCall).map (fun call => call.2.requestId) = some 43 := by
        cases ran
        rfl
      rw [found, Option.bind_some, call] at seen
      have ping : buffer.view.requestId = 43 := Option.some.inj seen
      rw [OnlyPingMissing, if_pos ping]
      rfl
    · intro i response slot handler buffer is
      cases is

/-- The upload is still with its handler. -/
theorem ping_answer_is_due : ∃ b, run ServerBuilder.step {} rootCalls = some b ∧
    ∃ s, run (Intake.step 2 b.routes true 16384) {} uploadAndPing = some s ∧ s.replies = [43] ∧
    (∀ slot ∈ s.server.slots, ∀ requestId response, (requestId, response) ∈ sends slot.log →
      (∃ r ∈ s.arrived, r.id = requestId ∧
        ((∃ copyBody handler, OnlyPingMissing handler (r.view copyBody) response ∧ ∃ entry ∈ b.group,
            entry.context = (r.view copyBody).urlContext ∧ ServerBuilder.RegisteredBy rootCalls entry handler) ∨
          (response = Response.new Status.notFound ∧
            ∃ copyBody, ∀ entry ∈ b.group, entry.context ≠ (r.view copyBody).urlContext) ∨
          (response = Response.new Status.headersTooLarge ∧
            ∃ needed buffer, .received (.error (.headersTooLarge needed)) buffer ∈ slot.log ∧
              buffer.requestId = requestId ∧ buffer.capacity.toNat < r.headerBlock))) ∨
      (requestId = 0 ∧ response = Response.new Status.notFound ∧
        ∃ r ∈ s.arrived, ∃ capacity, r.Outgrows 16384 capacity)) ∧
    s.replies.Nodup := by
  refine ⟨_, rfl, _, rfl, rfl, ?_⟩
  exact answers_are_due rootCalls _ rfl OnlyPingMissing 2 true 16384 uploadAndPing _ rfl (uploadAndPing_promised _ rfl)

end HttpSys
