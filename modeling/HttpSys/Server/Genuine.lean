import HttpSys.Server.Intake
import Mathlib.Data.List.Flatten

/-! What a handler is given. A buffer goes from slot to slot through its pool and `fit_body_inline` may replace it while
a request is in it, so the request that a handler reads is traced back to one that arrived. -/
namespace HttpSys
open Lib Lib.Machine Lib.Tickets

variable {H : Type}

/-- The requests whose handler was called, in this order. -/
def Slot.invocations (slot : Slot H) : List UInt64 :=
  slot.log.filterMap fun event =>
    match event with
    | .invoked _ buffer => some buffer.requestId
    | _ => none

def Server.invocations (s : Server H) : List UInt64 := s.slots.flatMap Slot.invocations

/-- What one input adds to the log of a slot: a call of the handler for the request that was received, or no call. -/
inductive Calls (routes : UInt64 → Option H) (slot next : Slot H) (input : SlotInput) : Prop where
  | handler {handler : H} {buffer : RequestBuffer} {mode : ReceiveMode} (is : input = .received (some (.ok (), buffer, mode)))
    (found : routes buffer.urlContext = some handler)
    (log : next.log = slot.log ++ [.received (.ok ()) buffer, .invoked handler buffer])
  | none {events : List (SlotEvent H)} (log : next.log = slot.log ++ events)
    (quiet : ∀ handler buffer, .invoked handler buffer ∉ events)

theorem slot_step_calls {routes : UInt64 → Option H} {slot next : Slot H} {input : SlotInput}
    (h : slot.step routes input = some next) : Calls routes slot next input := by
  unfold Slot.step at h
  split at h <;> cases h
  case h_6 result buffer mode pc =>
    unfold Slot.afterReceive
    split
    · split
      · rename_i handler found
        exact .handler rfl found rfl
      · exact .none rfl (by simp)
    · unfold Slot.reply
      split
      · exact .none rfl (by simp)
      · exact .none rfl (by simp)
    · split
      · exact .none rfl (by simp)
      · exact .none rfl (by simp)
  all_goals exact .none rfl (by simp)

/-- A slot calls handlers for requests that its receives have handed to it, once for each. -/
theorem step_invocations {routes : UInt64 → Option H} {slot next : Slot H} {input : SlotInput}
    (traced : Traced routes slot) (before : slot.invocations.Sublist slot.requests)
    (h : slot.step routes input = some next) : next.invocations.Sublist next.requests := by
  rw [slot_step_requests traced h]
  cases slot_step_calls h with
  | @handler handler buffer mode is found log =>
    subst is
    rw [Slot.invocations, log, List.filterMap_append]
    exact before.append (List.Sublist.refl [buffer.requestId])
  | @none events log quiet =>
    have silent : events.filterMap (fun event =>
        match event with
        | .invoked _ buffer => some buffer.requestId
        | _ => Option.none) = [] := by
      apply List.filterMap_eq_nil_iff.mpr
      intro event member
      cases event with
      | invoked handler buffer => exact (quiet handler buffer member).elim
      | _ => rfl
    rw [Slot.invocations, log, List.filterMap_append, silent, List.append_nil]
    exact before.trans (List.sublist_append_left _ _)

/-- The server has no way back once `serve` has returned. -/
theorem Server.step_ended {concurrency : Nat} {routes : UInt64 → Option H} {s t : Server H} {label : ServerStep}
    (ended : s.serve = .exited ∧ s.owner ≠ .building) (h : s.step concurrency routes label = some t) :
    (t.serve = .exited ∧ t.owner ≠ .building) ∧ t.slots = s.slots := by
  obtain ⟨exited, started⟩ := ended
  cases label <;> simp only [Server.step, exited] at h
  case slot i input =>
    obtain ⟨alive, -⟩ := Server.stepSlot_cases h
    exact (alive exited).elim
  case run =>
    obtain ⟨building, -⟩ := of_guard h
    exact (started building).elim
  case build | recv | storeStop | queueShutdown | drained | timedOut => cases h
  case spawn | subscribe =>
    obtain ⟨⟨spawning, -⟩, -⟩ := of_guard h
    cases spawning
  case shutdown =>
    obtain ⟨-, rfl⟩ := of_guard h
    exact ⟨⟨exited, started⟩, rfl⟩
  case drop =>
    obtain ⟨-, rfl⟩ := of_guard h
    exact ⟨⟨exited, by simp⟩, rfl⟩
  case join | joined | dropped =>
    obtain ⟨-, rfl⟩ := of_guard h
    exact ⟨⟨rfl, by simp⟩, rfl⟩

namespace Intake

/-- What this handler reads in the buffer is a request that arrived and that is routed to it. -/
def Brought (routes : UInt64 → Option H) (arrived : List Incoming) (handler : H) (buffer : RequestBuffer) : Prop :=
  ∃ r ∈ arrived, ∃ copyBody, buffer.view = r.view copyBody ∧ routes (r.view copyBody).urlContext = some handler

/-- The calls of handlers that a slot has made. -/
structure Invoked (routes : UInt64 → Option H) (arrived : List Incoming) (slot : Slot H) : Prop where
  traced : Traced routes slot
  brought : ∀ handler buffer, .invoked handler buffer ∈ slot.log → Brought routes arrived handler buffer
  once : slot.invocations.Sublist slot.requests

/-- All that the kernel holds or has answered with did arrive. -/
structure Genuine (routes : UInt64 → Option H) (skip : Bool) (maxBytes : Nat) (s : Intake H) : Prop where
  lives : Conserved routes skip maxBytes s ∨
    (s.server.serve = .exited ∧ s.server.owner ≠ .building) ∧ s.server.invocations.Nodup
  held : ∀ r ∈ s.waiting ++ s.aside, r ∈ s.arrived
  delivered : ∀ call ∈ s.calls, ∀ r copyBody outcome, call.answer = some (.delivered r copyBody outcome) → r ∈ s.arrived
  invoked : ∀ slot ∈ s.server.slots, Invoked routes s.arrived slot

theorem genuine_start (routes : UInt64 → Option H) (skip : Bool) (maxBytes : Nat) :
    Genuine routes skip maxBytes ({} : Intake H) :=
  ⟨Or.inl (conserved_start routes skip maxBytes), fun _ member => (by cases member), fun _ member => (by cases member),
    fun _ member => (by cases member)⟩

theorem invoked_start (routes : UInt64 → Option H) (arrived : List Incoming) : Invoked routes arrived {} :=
  ⟨Server.traced_start routes, fun _ _ none_ => (by cases none_), List.nil_sublist _⟩

theorem Invoked.later {routes : UInt64 → Option H} {arrived : List Incoming} {slot : Slot H}
    (invoked : Invoked routes arrived slot) (r : Incoming) : Invoked routes (arrived ++ [r]) slot := by
  refine ⟨invoked.traced, ?_, invoked.once⟩
  intro handler buffer member
  obtain ⟨r', arrival, rest⟩ := invoked.brought handler buffer member
  exact ⟨r', List.mem_append_left _ arrival, rest⟩

theorem Invoked.step {routes : UInt64 → Option H} {arrived : List Incoming} {slot next : Slot H} {input : SlotInput}
    (invoked : Invoked routes arrived slot) (h : slot.step routes input = some next)
    (new : ∀ handler buffer mode, input = .received (some (.ok (), buffer, mode)) →
      routes buffer.urlContext = some handler → Brought routes arrived handler buffer) : Invoked routes arrived next := by
  refine ⟨step_traced routes slot input next invoked.traced h, ?_, step_invocations invoked.traced invoked.once h⟩
  intro handler buffer member
  cases slot_step_calls h with
  | @handler handler' buffer' mode is found log =>
    rw [log] at member
    rcases List.mem_append.mp member with before | after
    · exact invoked.brought handler buffer before
    · obtain ⟨rfl, rfl⟩ : handler = handler' ∧ buffer = buffer' := by simpa using after
      exact new handler buffer mode is found
  | none log quiet =>
    rw [log] at member
    rcases List.mem_append.mp member with before | after
    · exact invoked.brought handler buffer before
    · exact (quiet handler buffer after).elim

/-- Each request is counted once among those that arrived. -/
theorem Conserved.nodup {routes : UInt64 → Option H} {skip : Bool} {maxBytes : Nat} {s : Intake H}
    (conserved : Conserved routes skip maxBytes s) {some_ : List UInt64}
    (fewer : some_.Sublist (s.server.slots.flatMap Slot.requests)) (assigned : 0 ∉ some_) : some_.Nodup := by
  apply List.nodup_iff_count_le_one.mpr
  intro id
  by_cases unassigned : id = 0
  · subst unassigned
    rw [List.count_eq_zero.mpr assigned]
    exact Nat.zero_le 1
  · have bound := fewer.count_le id
    have balance := conserved.counted id unassigned
    have single := List.nodup_iff_count_le_one.mp conserved.distinct id
    simp only [inBags] at balance
    omega

/-- No request is handled twice. -/
theorem Genuine.once {routes : UInt64 → Option H} {skip : Bool} {maxBytes : Nat} {s : Intake H}
    (genuine : Genuine routes skip maxBytes s) : s.server.invocations.Nodup := by
  rcases genuine.lives with conserved | ended
  · apply conserved.nodup
    · exact List.Sublist.flatMap_right s.server.slots fun slot member => (genuine.invoked slot member).once
    · -- A handler is only called for a request that arrived, and none of them has the id 0.
      intro member
      obtain ⟨slot, inside, member⟩ := List.mem_flatMap.mp member
      obtain ⟨event, logged, is⟩ := List.mem_filterMap.mp member
      cases event with
      | invoked handler buffer =>
        obtain ⟨r, -, copyBody, read, -⟩ := (genuine.invoked slot inside).brought handler buffer logged
        have zero : buffer.requestId = 0 := Option.some.inj is
        exact r.assigned (((r.view_requestId copyBody).symm.trans (congrArg RequestView.requestId read.symm)).trans zero)
      | _ => cases is
  · exact ended.2

theorem delivered_about {r r' : Incoming} {answer : Answer} {copyBody copied : Bool} {outcome : Outcome}
    (about : (∃ c o, answer = .delivered r c o) ∨ (∃ o, answer = .refused r o) ∨
      copied = true ∧ ∃ o, answer = .deferred r o)
    (delivered : answer = .delivered r' copyBody outcome) : r = r' := by
  rcases about with ⟨c, o, rfl⟩ | ⟨o, rfl⟩ | ⟨-, o, rfl⟩
  · cases delivered
    rfl
  · cases delivered
  · cases delivered

/-- A buffer that the receive filled, or a blank one that no handler is registered for. -/
theorem brought_of_returned {routes : UInt64 → Option H} (unrouted : routes 0 = none) {maxBytes : Nat} {capacity : UInt32}
    {answer : Answer} {arrived : List Incoming} {buffer : RequestBuffer} {mode : ReceiveMode} {handler : H}
    (returned : Returned maxBytes capacity answer (some (.ok (), buffer, mode)))
    (delivered : ∀ r copyBody outcome, answer = .delivered r copyBody outcome → r ∈ arrived)
    (found : routes buffer.urlContext = some handler) : Brought routes arrived handler buffer := by
  cases returned with
  | kept r copyBody outcome mode read =>
    have context : (r.view copyBody).urlContext = buffer.urlContext := (congrArg RequestView.urlContext read).symm
    exact ⟨r, delivered r copyBody outcome rfl, copyBody, read, by rw [context, found]⟩
  | replaced r copyBody outcome mode blank outgrows =>
    have context : buffer.urlContext = 0 := congrArg HttpRequestV2.urlContext blank
    rw [context, unrouted] at found
    cases found

section
variable {concurrency : Nat} {routes : UInt64 → Option H} {skip : Bool} {maxBytes : Nat} {s : Intake H}
  (genuine : Genuine routes skip maxBytes s)
include genuine

theorem Genuine.held_of_sublist {rs : List Incoming} (fewer : rs.Sublist (s.waiting ++ s.aside)) :
    ∀ r ∈ rs, r ∈ s.arrived := fun r member => genuine.held r (fewer.subset member)

theorem Genuine.delivered_post {i : Nat} {next : ReceiveCall}
    (new : ∀ r copyBody outcome, next.answer = some (.delivered r copyBody outcome) → r ∈ s.arrived) :
    ∀ call ∈ (s.post i next).calls, ∀ r copyBody outcome, call.answer = some (.delivered r copyBody outcome) →
      r ∈ s.arrived := by
  intro call member r copyBody outcome answered
  rcases List.mem_or_eq_of_mem_set member with old | rfl
  · exact genuine.delivered call old r copyBody outcome answered
  · exact new r copyBody outcome answered

/-- A step of the server in which no receive returns. -/
theorem Genuine.invoked_elsewhere {label : ServerStep} {server : Server H}
    (elsewhere : ∀ i outcome, label ≠ .slot i (.received outcome))
    (stepped : s.server.step concurrency routes label = some server) :
    ∀ slot ∈ server.slots, Invoked routes s.arrived slot := by
  refine Server.step_slots (invoked_start routes s.arrived) genuine.invoked ?_ stepped
  rintro i input slot next rfl before slotStepped
  apply before.step slotStepped
  rintro handler buffer mode rfl
  exact (elsewhere i _ rfl).elim

theorem Genuine.invoked_resume (unrouted : routes 0 = none) {i : Nat} {buffer : RequestBuffer} {mode : ReceiveMode}
    {call : ReceiveCall} {answer : Answer} {server : Server H} (found : s.receiving i = some (buffer, mode, call))
    (answered : call.answer = some answer) (last : call.again skip mode answer = false)
    (stepped : s.server.step concurrency routes
      (.slot i (.received (receive (call.answers answer.receipt) skip maxBytes buffer mode))) = some server) :
    ∀ slot ∈ server.slots, Invoked routes s.arrived slot := by
  obtain ⟨slot, slotFound, -, rfl, callFound⟩ := receiving_cases found
  obtain ⟨alive, -⟩ := Server.stepSlot_cases stepped
  have conserved : Conserved routes skip maxBytes s := genuine.lives.resolve_right fun ended => alive ended.1.1
  have returned : Returned maxBytes buffer.capacity answer
      (receive (call.answers answer.receipt) skip maxBytes buffer slot.mode) :=
    receive_returned maxBytes (conserved.underway i slot call slotFound callFound).1 answered last
  have delivered := genuine.delivered call (List.mem_of_getElem? callFound)
  refine Server.step_slots (invoked_start routes s.arrived) genuine.invoked ?_ stepped
  intro j input slot' next same before slotStepped
  apply before.step slotStepped
  rintro handler filled mode rfl routed
  injection same with _ same
  injection same with outcome
  rw [outcome] at returned
  exact brought_of_returned unrouted returned (fun r copyBody o is => delivered r copyBody o (is ▸ answered)) routed

end

theorem server_of_step {concurrency : Nat} {routes : UInt64 → Option H} {skip : Bool} {maxBytes : Nat} {s t : Intake H}
    {label : IntakeStep} (h : s.step concurrency routes skip maxBytes label = some t) :
    t.server = s.server ∨ ∃ label', s.server.step concurrency routes label' = some t.server := by
  cases step_cases h with
  | returned found answered last stepped => exact Or.inr ⟨_, stepped⟩
  | spawn stepped => exact Or.inr ⟨_, stepped⟩
  | server elsewhere settled stepped => exact Or.inr ⟨_, stepped⟩
  | _ => exact Or.inl rfl

/-- Every request stays in its place for as long as `serve` runs; then nothing is added to the slots. -/
theorem step_ends {concurrency : Nat} {routes : UInt64 → Option H} {skip : Bool} {maxBytes : Nat} {s t : Intake H}
    {label : IntakeStep}
    (lives : Conserved routes skip maxBytes s ∨ s.server.serve = .exited ∧ s.server.owner ≠ .building)
    (h : s.step concurrency routes skip maxBytes label = some t) :
    Conserved routes skip maxBytes t ∨
      (t.server.serve = .exited ∧ t.server.owner ≠ .building) ∧ t.server.slots.Sublist s.server.slots := by
  rcases lives with conserved | ended
  · cases calm : patient label with
    | true => exact Or.inl (step_conserved concurrency routes skip maxBytes s label t conserved calm h)
    | false =>
      -- The drain times out, which aborts the tasks and ends `serve`.
      obtain rfl : label = .server .timedOut := by
        unfold patient at calm
        split at calm
        · rfl
        · cases calm
      obtain ⟨server, stepped, rfl⟩ := Option.map_eq_some_iff.mp h
      obtain ⟨handed, conserves⟩ := conserved.server
      simp only [Server.step] at stepped
      split at stepped
      · rename_i receiver draining
        cases stepped
        refine Or.inr ⟨⟨rfl, ?_⟩, List.filter_sublist⟩
        intro building
        cases draining.symm.trans (conserves.unstarted building)
      · cases stepped
  · right
    rcases server_of_step h with same | ⟨label', stepped⟩
    · rw [same]
      exact ⟨ended, List.Sublist.refl _⟩
    · obtain ⟨still, slots⟩ := Server.step_ended ended stepped
      rw [slots]
      exact ⟨still, List.Sublist.refl _⟩

theorem step_lives {concurrency : Nat} {routes : UInt64 → Option H} {skip : Bool} {maxBytes : Nat} {s t : Intake H}
    {label : IntakeStep} (genuine : Genuine routes skip maxBytes s)
    (h : s.step concurrency routes skip maxBytes label = some t) :
    Conserved routes skip maxBytes t ∨
      (t.server.serve = .exited ∧ t.server.owner ≠ .building) ∧ t.server.invocations.Nodup := by
  rcases step_ends (genuine.lives.imp_right And.left) h with conserved | ⟨ended, fewer⟩
  · exact Or.inl conserved
  · exact Or.inr ⟨ended, genuine.once.sublist (fewer.flatMap _)⟩

theorem step_genuine {routes : UInt64 → Option H} (unrouted : routes 0 = none) (concurrency : Nat) (skip : Bool)
    (maxBytes : Nat) (s : Intake H) (label : IntakeStep) (t : Intake H) (genuine : Genuine routes skip maxBytes s)
    (h : s.step concurrency routes skip maxBytes label = some t) : Genuine routes skip maxBytes t := by
  have lives := step_lives genuine h
  cases step_cases h with
  | arrive r fresh =>
    refine ⟨lives, ?_, ?_, fun slot member => (genuine.invoked slot member).later r⟩
    · intro r' member
      have held := genuine.held r'
      simp only [List.mem_append] at member held ⊢
      rcases member with (old | new) | aside
      · exact Or.inl (held (Or.inl old))
      · exact Or.inr new
      · exact Or.inl (held (Or.inr aside))
    · intro call member r' copyBody outcome answered
      exact List.mem_append_left _ (genuine.delivered call member r' copyBody outcome answered)
  | @hangUp j r queued =>
    refine ⟨lives, ?_, genuine.delivered, genuine.invoked⟩
    exact genuine.held_of_sublist ((List.eraseIdx_sublist s.waiting j).append_right s.aside)
  | @hangUpAside j r queued =>
    refine ⟨lives, ?_, genuine.delivered, genuine.invoked⟩
    exact genuine.held_of_sublist ((List.eraseIdx_sublist s.aside j).append_left s.waiting)
  | @offer i j outcome buffer mode call r answer found queued out next answered =>
    have arrived := genuine.held r (List.mem_append_left _ (List.mem_of_getElem? queued))
    have about := (answer_cases answered).2
    refine ⟨lives, ?_, ?_, genuine.invoked⟩
    · intro r' member
      rw [← List.append_assoc] at member
      rcases List.mem_append.mp member with old | new
      · exact genuine.held_of_sublist ((List.eraseIdx_sublist s.waiting j).append_right s.aside) r' old
      · rcases about with ⟨c, o, rfl⟩ | ⟨o, rfl⟩ | ⟨-, o, rfl⟩
        · cases new
        · cases new
        · obtain rfl := List.mem_singleton.mp new
          exact arrived
    · apply genuine.delivered_post
      intro r' copyBody o delivered
      exact delivered_about about (Option.some.inj delivered) ▸ arrived
  | @fetch i j outcome buffer mode call r answer found queued out named answered =>
    have arrived := genuine.held r (List.mem_append_right _ (List.mem_of_getElem? queued))
    have about := (answer_cases answered).2
    refine ⟨lives, ?_, ?_, genuine.invoked⟩
    · exact genuine.held_of_sublist ((List.eraseIdx_sublist s.aside j).append_left s.waiting)
    · apply genuine.delivered_post
      intro r' copyBody o delivered
      exact delivered_about about (Option.some.inj delivered) ▸ arrived
  | fail found out failed other =>
    refine ⟨lives, genuine.held, ?_, genuine.invoked⟩
    apply genuine.delivered_post
    intro r copyBody o failed
    cases failed
  | again found answered again =>
    refine ⟨lives, genuine.held, ?_, genuine.invoked⟩
    apply genuine.delivered_post
    intro r copyBody o none_
    cases none_
  | returned found answered last stepped =>
    refine ⟨lives, genuine.held, ?_, genuine.invoked_resume unrouted found answered last stepped⟩
    apply genuine.delivered_post
    intro r copyBody o none_
    cases none_
  | spawn stepped =>
    refine ⟨lives, genuine.held, ?_, genuine.invoked_elsewhere (by simp) stepped⟩
    intro call member r copyBody outcome answered
    rcases List.mem_append.mp member with old | new
    · exact genuine.delivered call old r copyBody outcome answered
    · obtain rfl := List.mem_singleton.mp new
      cases answered
  | server elsewhere settled stepped =>
    exact ⟨lives, genuine.held, genuine.delivered, genuine.invoked_elsewhere elsewhere stepped⟩

end Intake

/-- Whatever the kernel, the clients and the server do, each call of a handler is for a request that arrived, which the
handler reads as the kernel wrote it; the handler is the one that was registered for the prefix the kernel matched; and
no request is handed to a handler twice. -/
theorem handlers_see_what_arrived (calls : List (RouteCall H)) (b : ServerBuilder H)
    (built : run ServerBuilder.step {} calls = some b) (concurrency : Nat) (skip : Bool) (maxBytes : Nat)
    (labels : List IntakeStep) (s : Intake H)
    (h : run (Intake.step concurrency b.routes skip maxBytes) {} labels = some s) :
    (∀ slot ∈ s.server.slots, ∀ handler buffer, .invoked handler buffer ∈ slot.log →
      ∃ r ∈ s.arrived, ∃ copyBody, buffer.view = r.view copyBody ∧ ∃ entry ∈ b.group,
        entry.context = (r.view copyBody).urlContext ∧ ServerBuilder.RegisteredBy calls entry handler) ∧
    s.server.invocations.Nodup := by
  obtain ⟨agrees, owned⟩ := ServerBuilder.run_agrees built
  have genuine : Intake.Genuine b.routes skip maxBytes s :=
    run_invariant (Intake.step_genuine agrees.unrouted concurrency skip maxBytes) (Intake.genuine_start _ _ _) h
  refine ⟨?_, genuine.once⟩
  intro slot member handler buffer invoked
  obtain ⟨r, arrived, copyBody, read, found⟩ := (genuine.invoked slot member).brought handler buffer invoked
  obtain ⟨entry, registered, context⟩ := (agrees.keys _).mp ⟨handler, found⟩
  obtain ⟨handler', found', byCall⟩ := owned entry registered
  rw [context, found] at found'
  obtain rfl := Option.some.inj found'
  exact ⟨r, arrived, copyBody, read, entry, registered, context, byCall⟩

/-- The ping is answered before the upload, which was fetched again without its body. -/
theorem handlers_see_upload_and_ping : ∃ b, run ServerBuilder.step {} rootCalls = some b ∧
    ∃ s, run (Intake.step 2 b.routes true 16384) {} uploadAndPing = some s ∧ s.server.invocations = [42, 43] ∧
    (∀ slot ∈ s.server.slots, ∀ handler buffer, .invoked handler buffer ∈ slot.log →
      ∃ r ∈ s.arrived, ∃ copyBody, buffer.view = r.view copyBody ∧ ∃ entry ∈ b.group,
        entry.context = (r.view copyBody).urlContext ∧ ServerBuilder.RegisteredBy rootCalls entry handler) ∧
    s.server.invocations.Nodup := by
  refine ⟨_, rfl, _, rfl, rfl, ?_⟩
  exact handlers_see_what_arrived rootCalls _ rfl 2 true 16384 uploadAndPing _ rfl

end HttpSys
