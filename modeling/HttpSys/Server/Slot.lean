import HttpSys.Queue.Receive
import HttpSys.Response.Model
import HttpSys.Lib.Machine

/-! `slot_loop`, one request slot. An input is what the slot waits for next: a reading
of the stop flag, a buffer from its pool, the result of a receive or of a send, the
response of a handler. `none` is a panic there, which unwinds the task. -/
namespace HttpSys
open Lib.Machine

variable {H : Type}

inductive SlotEvent (H : Type) where
  | loaded (stop : Bool)
  | posted
  | received (result : Except Error Unit) (buffer : RequestBuffer)
  | invoked (handler : H) (request : RequestBuffer)
  | responded (response : Response)
  | sending (requestId : UInt64) (response : Response)
  | sent (result : Except Error Unit)

/-- Where the slot stands; `replying` is the send inside `reply`. -/
inductive SlotPc (H : Type) where
  | top
  | taking
  | receiving (buffer : RequestBuffer)
  | handling (requestId : UInt64) (handler : H)
  | responding
  | replying
  | returned
  | panicked

structure Slot (H : Type) where
  pc : SlotPc H := .top
  mode : ReceiveMode := {}
  log : List (SlotEvent H) := []

inductive SlotInput where
  | load (stop : Bool)
  | take (buffer : Option RequestBuffer)
  | received (outcome : Option (Except Error Unit × RequestBuffer × ReceiveMode))
  | handled (response : Option Response)
  | sent (result : Except Error Unit)

namespace Slot

def goto (slot : Slot H) (pc : SlotPc H) (events : List (SlotEvent H)) : Slot H :=
  { slot with pc := pc, log := slot.log ++ events }

/-- The first half of `reply`; a zero id means that the kernel assigned none. -/
def reply (slot : Slot H) (received : SlotEvent H) (requestId : UInt64) (response : Response) : Slot H :=
  if requestId ≠ 0 then slot.goto .replying [received, .sending requestId response]
  else slot.goto .top [received]

def afterReceive (routes : UInt64 → Option H) (slot : Slot H) (result : Except Error Unit) (buffer : RequestBuffer) :
    Slot H :=
  match result with
  | .ok () =>
    match routes buffer.urlContext with
    | some handler =>
      slot.goto (.handling buffer.requestId handler) [.received (.ok ()) buffer, .invoked handler buffer]
    | none =>
      slot.goto .responding
        [.received (.ok ()) buffer, .sending buffer.requestId (Response.new Status.notFound)]
  | .error (.headersTooLarge needed) =>
    slot.reply (.received (.error (.headersTooLarge needed)) buffer) buffer.requestId
      (Response.new Status.headersTooLarge)
  | .error e =>
    if isTerminal e then slot.goto .returned [.received (.error e) buffer]
    else slot.goto .top [.received (.error e) buffer]

def step (routes : UInt64 → Option H) (slot : Slot H) (input : SlotInput) : Option (Slot H) :=
  match slot.pc, input with
  | .top, .load true => some (slot.goto .returned [.loaded true])
  | .top, .load false => some (slot.goto .taking [.loaded false])
  | .taking, .take none => some (slot.goto .panicked [])
  | .taking, .take (some buffer) => some (slot.goto (.receiving buffer) [.posted])
  | .receiving _, .received none => some (slot.goto .panicked [])
  | .receiving _, .received (some (result, buffer, mode)) =>
    some (afterReceive routes { slot with mode := mode } result buffer)
  | .handling _ _, .handled none => some (slot.goto .panicked [])
  | .handling requestId _, .handled (some response) =>
    some (slot.goto .responding [.responded response, .sending requestId response])
  | .responding, .sent result => some (slot.goto .top [.sent result])
  | .replying, .sent result => some (slot.goto .top [.sent result])
  | _, _ => none

end Slot

/-! ### Turns -/

/-- One pass through the loop, and all that the environment answered in it. -/
structure Turn where
  result : Except Error Unit
  buffer : RequestBuffer
  response : Response
  sent : Except Error Unit

namespace Turn
variable (routes : UInt64 → Option H) (t : Turn)

def answer : Option (UInt64 × Response) :=
  match t.result with
  | .ok () =>
    some (t.buffer.requestId,
      if (routes t.buffer.urlContext).isSome then t.response else Response.new Status.notFound)
  | .error (.headersTooLarge _) =>
    if t.buffer.requestId = 0 then none else some (t.buffer.requestId, Response.new Status.headersTooLarge)
  | .error _ => none

def handler : Option H :=
  match t.result with
  | .ok () => routes t.buffer.urlContext
  | .error _ => none

def Ends : Prop := ∃ e, t.result = .error e ∧ isTerminal e = true

def opening : List (SlotEvent H) := [.loaded false, .posted, .received t.result t.buffer]

def handling : List (SlotEvent H) :=
  match t.handler routes with
  | some handler => [.invoked handler t.buffer, .responded t.response]
  | none => []

def answering : List (SlotEvent H) :=
  match t.answer routes with
  | some (requestId, response) => [.sending requestId response, .sent t.sent]
  | none => []

def events : List (SlotEvent H) := t.opening ++ t.handling routes ++ t.answering routes

end Turn

/-- What an unfinished turn has done by the time the slot stands at this point. -/
inductive OpenTurn (routes : UInt64 → Option H) : SlotPc H → List (SlotEvent H) → Prop where
  | top : OpenTurn routes .top []
  | taking : OpenTurn routes .taking [.loaded false]
  | receiving (buffer : RequestBuffer) : OpenTurn routes (.receiving buffer) [.loaded false, .posted]
  | handling (t : Turn) {handler : H} (ok : t.result = .ok ()) (found : routes t.buffer.urlContext = some handler) :
    OpenTurn routes (.handling t.buffer.requestId handler) (t.opening ++ [.invoked handler t.buffer])
  | responding (t : Turn) {requestId : UInt64} {response : Response} (owed : t.answer routes = some (requestId, response)) :
    OpenTurn routes .responding (t.opening ++ t.handling routes ++ [.sending requestId response])
  | replying (t : Turn) {requestId : UInt64} {response : Response} (owed : t.answer routes = some (requestId, response)) :
    OpenTurn routes .replying (t.opening ++ t.handling routes ++ [.sending requestId response])
  | stopped : OpenTurn routes .returned [.loaded true]
  | ended (t : Turn) (terminal : t.Ends) : OpenTurn routes .returned t.opening
  | panicked {pc : SlotPc H} {tail : List (SlotEvent H)} (before : OpenTurn routes pc tail)
    (midway : pc = .taking ∨ (∃ buffer, pc = .receiving buffer) ∨ ∃ requestId handler, pc = .handling requestId handler) :
    OpenTurn routes .panicked tail

def sends (log : List (SlotEvent H)) : List (UInt64 × Response) :=
  log.filterMap fun event =>
    match event with
    | .sending requestId response => some (requestId, response)
    | _ => none

theorem sends_append (log tail : List (SlotEvent H)) : sends (log ++ tail) = sends log ++ sends tail :=
  List.filterMap_append

theorem sends_events (routes : UInt64 → Option H) (t : Turn) : sends (t.events routes) = (t.answer routes).toList := by
  have handled : sends (t.handling routes) = [] := by
    unfold Turn.handling
    cases t.handler routes <;> rfl
  have answered : sends (t.answering routes) = (t.answer routes).toList := by
    unfold Turn.answering
    cases t.answer routes <;> rfl
  rw [Turn.events, sends_append, sends_append, handled, answered]
  rfl

theorem sends_turns (routes : UInt64 → Option H) (turns : List Turn) :
    sends (turns.flatMap (Turn.events routes)) = turns.filterMap (Turn.answer routes) := by
  induction turns with
  | nil => rfl
  | cons t turns ih =>
    rw [List.flatMap_cons, sends_append, sends_events, ih]
    cases owed : t.answer routes with
    | none => simp [owed]
    | some answer => simp [owed]

/-! ### Runs -/

/-- The trace is complete turns, none of which ends the loop, and the turn the slot is in. -/
def Traced (routes : UInt64 → Option H) (slot : Slot H) : Prop :=
  ∃ (turns : List Turn) (tail : List (SlotEvent H)), slot.log = turns.flatMap (Turn.events routes) ++ tail ∧
    OpenTurn routes slot.pc tail ∧
    ∀ t ∈ turns, ¬ t.Ends

section
variable {routes : UInt64 → Option H} {slot : Slot H} {turns : List Turn} {tail : List (SlotEvent H)}
  (log : slot.log = turns.flatMap (Turn.events routes) ++ tail) (finished : ∀ t ∈ turns, ¬ t.Ends)
include log finished

theorem traced_goto {pc : SlotPc H} {events : List (SlotEvent H)} (still : OpenTurn routes pc (tail ++ events)) :
    Traced routes (slot.goto pc events) :=
  ⟨turns, tail ++ events, by simp [Slot.goto, log], still, finished⟩

theorem traced_top {events : List (SlotEvent H)} (t : Turn) (whole : tail ++ events = t.events routes)
    (continues : ¬ t.Ends) : Traced routes (slot.goto .top events) := by
  refine ⟨turns ++ [t], [], ?_, .top, ?_⟩
  · simp [Slot.goto, log, whole]
  · intro u member
    rcases List.mem_append.mp member with old | new
    · exact finished u old
    · obtain rfl := List.mem_singleton.mp new
      exact continues

theorem traced_afterReceive (posted : tail = [.loaded false, .posted]) (result : Except Error Unit)
    (buffer : RequestBuffer) : Traced routes (slot.afterReceive routes result buffer) := by
  subst posted
  cases result with
  | ok done =>
    cases done
    let t : Turn := ⟨.ok (), buffer, Response.new Status.notFound, .ok ()⟩
    unfold Slot.afterReceive
    dsimp only
    cases found : routes buffer.urlContext with
    | some handler => exact traced_goto log finished (.handling t rfl found)
    | none =>
      apply traced_goto log finished
      have owed : t.answer routes = some (buffer.requestId, Response.new Status.notFound) := by
        simp [t, Turn.answer]
      have quiet : t.handling routes = [] := by simp [t, Turn.handling, Turn.handler, found]
      have still := OpenTurn.responding t owed
      rw [quiet] at still
      exact still
  | error e =>
    let t : Turn := ⟨.error e, buffer, Response.new Status.notFound, .ok ()⟩
    have quiet : t.handling routes = [] := rfl
    by_cases large : ∃ needed, e = .headersTooLarge needed
    · obtain ⟨needed, rfl⟩ := large
      have continues : ¬ t.Ends := by
        rintro ⟨e, same, terminal⟩
        cases same
        cases terminal
      unfold Slot.afterReceive Slot.reply
      dsimp only
      split
      · rename_i assigned
        have owed : t.answer routes = some (buffer.requestId, Response.new Status.headersTooLarge) := by
          simp [t, Turn.answer, assigned]
        exact traced_goto log finished (.replying t owed)
      · rename_i unassigned
        have silent : t.answer routes = none := by simpa [t, Turn.answer] using unassigned
        refine traced_top log finished t ?_ continues
        simp [Turn.events, Turn.answering, silent, quiet, Turn.opening, t]
    · have silent : t.answer routes = none := by
        cases e with
        | headersTooLarge needed => exact (large ⟨needed, rfl⟩).elim
        | _ => rfl
      have after : slot.afterReceive routes (.error e) buffer =
          if isTerminal e then slot.goto .returned [.received (.error e) buffer]
          else slot.goto .top [.received (.error e) buffer] := by
        cases e with
        | headersTooLarge needed => exact (large ⟨needed, rfl⟩).elim
        | _ => rfl
      rw [after]
      split
      · rename_i terminal
        exact traced_goto log finished (.ended t ⟨e, rfl, terminal⟩)
      · rename_i other
        apply traced_top log finished t
        · simp [Turn.events, Turn.answering, silent, quiet, Turn.opening, t]
        · rintro ⟨e, same, terminal⟩
          cases same
          exact other terminal

end

theorem not_ends_of_answer {routes : UInt64 → Option H} {t : Turn} {answer : UInt64 × Response}
    (owed : t.answer routes = some answer) : ¬ t.Ends := by
  rintro ⟨e, failed, terminal⟩
  unfold Turn.answer at owed
  rw [failed] at owed
  cases e with
  | headersTooLarge needed => cases terminal
  | _ => cases owed

theorem traced_sent {routes : UInt64 → Option H} {slot : Slot H} {turns : List Turn} (t : Turn)
    {requestId : UInt64} {response : Response} (owed : t.answer routes = some (requestId, response))
    (log : slot.log = turns.flatMap (Turn.events routes) ++
      (t.opening ++ t.handling routes ++ [.sending requestId response]))
    (finished : ∀ t ∈ turns, ¬ t.Ends) (result : Except Error Unit) :
    Traced routes (slot.goto .top [.sent result]) := by
  let t' : Turn := { t with sent := result }
  have owed' : t'.answer routes = some (requestId, response) := owed
  have whole : t'.answering routes = [.sending requestId response, .sent result] := by
    unfold Turn.answering
    rw [owed']
  refine traced_top log finished t' ?_ (not_ends_of_answer owed')
  rw [Turn.events, whole, List.append_assoc]
  rfl

theorem step_traced (routes : UInt64 → Option H) (slot : Slot H) (input : SlotInput) (next : Slot H)
    (traced : Traced routes slot) (h : slot.step routes input = some next) : Traced routes next := by
  obtain ⟨turns, tail, log, still, finished⟩ := traced
  unfold Slot.step at h
  split at h <;> rename_i pc <;> cases h
  all_goals rw [pc] at still
  · cases still
    exact traced_goto log finished .stopped
  · cases still
    exact traced_goto log finished .taking
  · exact traced_goto log finished (by simpa using .panicked still (.inl rfl))
  · cases still
    exact traced_goto log finished (.receiving _)
  · exact traced_goto log finished (by simpa using .panicked still (.inr (.inl ⟨_, rfl⟩)))
  · cases still
    rename_i mode
    have moved : ({ slot with mode := mode } : Slot H).log = turns.flatMap (Turn.events routes) ++ _ := log
    exact traced_afterReceive moved finished rfl _ _
  · exact traced_goto log finished (by simpa using .panicked still (.inr (.inr ⟨_, _, rfl⟩)))
  · cases still with
    | handling t ok found =>
      rename_i handler response
      let t' : Turn := { t with response := response }
      have owed : t'.answer routes = some (t.buffer.requestId, response) := by
        simp [t', Turn.answer, ok, found]
      have invoked : t'.handling routes = [.invoked handler t.buffer, .responded response] := by
        simp [t', Turn.handling, Turn.handler, ok, found]
      have still := OpenTurn.responding t' owed
      rw [invoked, List.append_assoc] at still
      apply traced_goto log finished
      rw [List.append_assoc]
      exact still
  · cases still with
    | responding t owed => exact traced_sent t owed log finished _
  · cases still with
    | replying t owed => exact traced_sent t owed log finished _

theorem openTurn_nil {routes : UInt64 → Option H} {pc : SlotPc H} (still : OpenTurn routes pc []) : pc = .top := by
  generalize none_ : ([] : List (SlotEvent H)) = tail at still
  induction still with
  | top => rfl
  | panicked before midway ih =>
    obtain rfl := ih none_
    rcases midway with taking | ⟨_, receiving⟩ | ⟨_, _, handling⟩
    · cases taking
    · cases receiving
    · cases handling
  | taking => cases none_
  | receiving buffer => cases none_
  | handling t ok found => simp [Turn.opening] at none_
  | responding t owed => simp [Turn.opening] at none_
  | replying t owed => simp [Turn.opening] at none_
  | stopped => cases none_
  | ended t terminal => cases none_

/-! ### Inputs -/

/-- What an input leaves in the log. A buffer is taken to post the next receive. -/
def SlotInput.told : SlotInput → List (SlotEvent H)
  | .load stop => [.loaded stop]
  | .take (some _) => [.posted]
  | .received (some (result, buffer, _)) => [.received result buffer]
  | .handled (some response) => [.responded response]
  | .sent result => [.sent result]
  | _ => []

/-- The events that inputs leave; the others are calls that the slot makes of itself. -/
def SlotEvent.isTold : SlotEvent H → Bool
  | .invoked _ _ => false
  | .sending _ _ => false
  | _ => true

theorem afterReceive_told (routes : UInt64 → Option H) (slot : Slot H) (result : Except Error Unit)
    (buffer : RequestBuffer) :
    (slot.afterReceive routes result buffer).log.filter SlotEvent.isTold =
      slot.log.filter SlotEvent.isTold ++ [.received result buffer] := by
  unfold Slot.afterReceive
  split
  · split <;> exact List.filter_append _ _
  · unfold Slot.reply
    split <;> exact List.filter_append _ _
  · split <;> exact List.filter_append _ _

theorem step_told {routes : UInt64 → Option H} {slot next : Slot H} {input : SlotInput}
    (h : slot.step routes input = some next) :
    next.log.filter SlotEvent.isTold = slot.log.filter SlotEvent.isTold ++ input.told := by
  unfold Slot.step at h
  split at h <;> cases h
  case h_6 result buffer mode pc => exact afterReceive_told routes { slot with mode := mode } result buffer
  all_goals exact List.filter_append _ _

theorem run_told {routes : UInt64 → Option H} {slot next : Slot H} {inputs : List SlotInput}
    (h : run (Slot.step routes) slot inputs = some next) :
    next.log.filter SlotEvent.isTold = slot.log.filter SlotEvent.isTold ++ inputs.flatMap SlotInput.told := by
  induction inputs generalizing slot with
  | nil =>
    cases h
    exact (List.append_nil _).symm
  | cons input inputs ih =>
    obtain ⟨between, first, rest⟩ := run_cons.mp h
    rw [ih rest, step_told first, List.flatMap_cons, List.append_assoc]

/-- In every run of a slot the calls of `send_response` are the answers that its turns owe, one for each
turn that owes one and before the next turn begins; and the turns are made of the inputs of the run, in their
order. A slot that has returned read the stop flag as true or got a terminal error from its last receive. -/
theorem slot_answers_once (routes : UInt64 → Option H) (inputs : List SlotInput) (slot : Slot H)
    (h : run (Slot.step routes) {} inputs = some slot) :
    ∃ (turns : List Turn) (tail : List (SlotEvent H)),
      slot.log = turns.flatMap (Turn.events routes) ++ tail ∧ OpenTurn routes slot.pc tail ∧
      (turns.flatMap (Turn.events routes) ++ tail).filter SlotEvent.isTold = inputs.flatMap SlotInput.told ∧
      sends slot.log = turns.filterMap (Turn.answer routes) ++ sends tail ∧ (∀ t ∈ turns, ¬ t.Ends) ∧
      (tail = [] → slot.pc = .top) ∧
      (slot.pc = .returned → tail = [.loaded true] ∨
        ∃ e buffer, isTerminal e = true ∧ tail = [.loaded false, .posted, .received (.error e) buffer]) := by
  have start : Traced routes ({} : Slot H) := ⟨[], [], rfl, .top, by simp⟩
  obtain ⟨turns, tail, log, still, finished⟩ := run_invariant (step_traced routes) start h
  refine ⟨turns, tail, log, still, ?_, ?_, finished, ?_, ?_⟩
  · rw [← log]
    exact run_told h
  · rw [log, sends_append, sends_turns]
  · rintro rfl
    exact openTurn_nil still
  · intro returned
    rw [returned] at still
    cases still with
    | stopped => exact Or.inl rfl
    | ended t terminal =>
      obtain ⟨e, failed, terminal⟩ := terminal
      exact Or.inr ⟨e, t.buffer, terminal, by simp [Turn.opening, failed]⟩

def greeting : RequestBuffer := { words := 2048, request := { requestId := 42, urlContext := 1 }, room := defaultRoom }

def greetingInputs : List SlotInput :=
  [.load false, .take (some greeting.prepare), .received (some (.ok (), greeting, {})),
    .handled (some (Response.okText [104, 105])), .sent (.error (.win32 1229)),
    .load false, .take (some greeting.prepare), .received (some (.error (.headersTooLarge 20000), greeting, {})),
    .sent (.ok ()), .load true]

/-- The request is answered with the response of its handler, and the one whose headers did not fit with a 431. -/
theorem slot_answers_greeting : ∃ slot : Slot Unit,
    run (Slot.step fun context => if context = 1 then some () else none) {} greetingInputs = some slot ∧
    sends slot.log = [(42, Response.okText [104, 105]), (42, Response.new Status.headersTooLarge)] ∧
    ∃ (turns : List Turn) (tail : List (SlotEvent Unit)),
      (turns.flatMap (Turn.events fun context => if context = 1 then some () else none) ++ tail).filter SlotEvent.isTold =
        greetingInputs.flatMap SlotInput.told ∧
      sends slot.log = turns.filterMap (Turn.answer fun context => if context = 1 then some () else none) ++ sends tail ∧
      (slot.pc = .returned → tail = [.loaded true] ∨
        ∃ e buffer, isTerminal e = true ∧ tail = [.loaded false, .posted, .received (.error e) buffer]) := by
  refine ⟨_, rfl, rfl, ?_⟩
  obtain ⟨turns, tail, -, -, told, sent, -, -, ended⟩ := slot_answers_once
    (fun context => if context = 1 then some () else none) greetingInputs _ rfl
  exact ⟨turns, tail, told, sent, ended⟩

end HttpSys
