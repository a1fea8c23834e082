import HttpSys.Server.Concurrency
import HttpSys.Server.Routes
import HttpSys.Lib.Tickets
import Mathlib.Data.List.Perm.Basic
import Mathlib.Data.List.Nodup

/-! Conservation of requests from the kernel's queue to the answers. A request that a receive
hands to a slot is answered by that slot, or is in the hands of its handler, or was lost when the
handler panicked. -/
namespace HttpSys
open Lib Lib.Machine Lib.Tickets

variable {H : Type}

/-- The request that has to be answered because of this input. -/
def SlotInput.hands : SlotInput → List UInt64
  | .received (some (.ok (), buffer, _)) => [buffer.requestId]
  | .received (some (.error (.headersTooLarge _), buffer, _)) => if buffer.requestId = 0 then [] else [buffer.requestId]
  | _ => []

def ServerStep.hands : ServerStep → List UInt64
  | .slot _ input => input.hands
  | _ => []

def ServerStep.ofSlot : ServerStep → Bool
  | .slot _ _ => true
  | _ => false

theorem hands_of_elsewhere {label : ServerStep} (elsewhere : label.ofSlot = false) : label.hands = [] := by
  cases label with
  | slot i input => cases elsewhere
  | _ => rfl

namespace Slot

def answered (slot : Slot H) : List UInt64 := (sends slot.log).map Prod.fst

def inHand (slot : Slot H) : List UInt64 :=
  match slot.pc with
  | .handling requestId _ => [requestId]
  | _ => []

/-- The task unwound while its handler was running. -/
def lost (slot : Slot H) : List UInt64 :=
  match slot.pc, slot.log.getLast? with
  | .panicked, some (.invoked _ buffer) => [buffer.requestId]
  | _, _ => []

def requests (slot : Slot H) : List UInt64 := slot.answered ++ (slot.inHand ++ slot.lost)

end Slot

/-! ### One slot -/

theorem answered_goto (slot : Slot H) (pc : SlotPc H) (events : List (SlotEvent H)) :
    (slot.goto pc events).answered = slot.answered ++ (sends events).map Prod.fst := by
  rw [Slot.answered, Slot.goto, sends_append, List.map_append]
  rfl

theorem requests_goto (slot : Slot H) {pc : SlotPc H} (events : List (SlotEvent H)) (looping : pc.isPanicked = false) :
    (slot.goto pc events).requests =
      slot.answered ++ (sends events).map Prod.fst ++ ({ pc := pc } : Slot H).inHand := by
  have none_ : (slot.goto pc events).lost = [] := by
    cases pc with
    | panicked => cases looping
    | _ => rfl
  rw [Slot.requests, answered_goto, none_, List.append_nil]
  rfl

theorem requests_of_idle {slot : Slot H} (idle : slot.inHand = []) (looping : slot.pc.isPanicked = false) :
    slot.requests = slot.answered := by
  have none_ : slot.lost = [] := by
    unfold Slot.lost
    cases pc : slot.pc with
    | panicked =>
      rw [pc] at looping
      cases looping
    | _ => rfl
  rw [Slot.requests, idle, none_, List.append_nil, List.append_nil]

theorem requests_afterReceive (routes : UInt64 → Option H) {slot : Slot H} (result : Except Error Unit)
    (buffer : RequestBuffer) (mode : ReceiveMode) :
    (slot.afterReceive routes result buffer).requests =
      slot.answered ++ (SlotInput.received (some (result, buffer, mode))).hands := by
  unfold Slot.afterReceive
  split
  · cases found : routes buffer.urlContext with
    | some handler =>
      dsimp only
      rw [requests_goto slot _ rfl]
      exact congrArg (· ++ [buffer.requestId]) (List.append_nil _)
    | none =>
      dsimp only
      rw [requests_goto slot _ rfl]
      exact List.append_nil _
  · rename_i needed
    show (slot.reply _ buffer.requestId _).requests = slot.answered ++ if buffer.requestId = 0 then [] else [buffer.requestId]
    unfold Slot.reply
    by_cases unassigned : buffer.requestId = 0
    · rw [if_neg (by simpa using unassigned), if_pos unassigned, requests_goto slot _ rfl]
      exact List.append_nil _
    · rw [if_pos unassigned, if_neg unassigned, requests_goto slot _ rfl]
      exact List.append_nil _
  · rename_i e other
    have quiet : (SlotInput.received (some (.error e, buffer, mode))).hands = [] := by
      cases e with
      | headersTooLarge needed => exact (other needed rfl).elim
      | _ => rfl
    rw [quiet]
    split
    · rw [requests_goto slot _ rfl]
      exact List.append_nil _
    · rw [requests_goto slot _ rfl]
      exact List.append_nil _

/-- The last event of a slot that runs a handler names the request it runs it for. -/
theorem last_of_handling {routes : UInt64 → Option H} {slot : Slot H} {requestId : UInt64} {handler : H}
    (traced : Traced routes slot) (pc : slot.pc = .handling requestId handler) :
    ∃ buffer : RequestBuffer, slot.log.getLast? = some (.invoked handler buffer) ∧ buffer.requestId = requestId := by
  obtain ⟨turns, tail, log, still, -⟩ := traced
  rw [pc] at still
  cases still with
  | handling t ok found => exact ⟨t.buffer, by rw [log, ← List.append_assoc, List.getLast?_concat], rfl⟩

/-- Nothing is handed over before the receive has returned. -/
theorem lost_of_early {routes : UInt64 → Option H} {slot : Slot H} (traced : Traced routes slot)
    (early : slot.pc = .taking ∨ ∃ buffer, slot.pc = .receiving buffer) : (slot.goto .panicked []).lost = [] := by
  obtain ⟨turns, tail, log, still, -⟩ := traced
  have last : slot.log.getLast? = some (.loaded false) ∨ slot.log.getLast? = some .posted := by
    rcases early with pc | ⟨buffer, pc⟩
    · rw [pc] at still
      cases still
      exact Or.inl (by rw [log, List.getLast?_concat])
    · rw [pc] at still
      cases still
      exact Or.inr (by rw [log, List.append_cons, List.getLast?_concat])
  rcases last with last | last
  · simp only [Slot.lost, Slot.goto, List.append_nil, last]
  · simp only [Slot.lost, Slot.goto, List.append_nil, last]

/-- The requests of a slot are, in this order, the ones its receives have handed to it. -/
theorem slot_step_requests {routes : UInt64 → Option H} {slot next : Slot H} {input : SlotInput}
    (traced : Traced routes slot) (h : slot.step routes input = some next) :
    next.requests = slot.requests ++ input.hands := by
  have looping := (slot_step_end h).1
  unfold Slot.step at h
  split at h <;> rename_i pc <;> cases h
  case h_8 =>
    rename_i handler response
    rw [requests_goto slot _ rfl]
    simp [Slot.requests, Slot.inHand, Slot.lost, pc, SlotInput.hands, sends]
  case h_7 =>
    obtain ⟨buffer, last, rfl⟩ := last_of_handling traced pc
    simp [Slot.requests, Slot.answered, Slot.inHand, Slot.lost, Slot.goto, pc, last, SlotInput.hands]
  all_goals
    have idle : slot.inHand = [] := by rw [Slot.inHand, pc]
    rw [requests_of_idle idle looping]
  case h_6 result buffer mode => exact requests_afterReceive routes result buffer mode
  case h_3 =>
    rw [Slot.requests, lost_of_early traced (Or.inl pc), answered_goto]
    exact List.append_nil _
  case h_5 =>
    rw [Slot.requests, lost_of_early traced (Or.inr ⟨_, pc⟩), answered_goto]
    exact List.append_nil _
  all_goals
    rw [requests_goto slot _ rfl]
    exact List.append_nil _

/-! ### All slots -/

namespace Server

/-- `serve` has not yet spawned anything. -/
def fresh (s : Server H) : Prop := s.serve = .idle ∨ s.serve = .building

/-- A step that leaves the slots alone. `serve` may return in it, before it has any slot or after the last one ended. -/
structure Keeps (s t : Server H) : Prop where
  slots : t.slots = s.slots
  unstarted : t.owner = .building → s.owner = .building ∧ (s.serve = .idle → t.serve = .idle)
  fresh : t.fresh → s.fresh ∨ s.owner = .building
  exited : t.serve = .exited → s.serve = .exited ∨ s.fresh ∨ ∀ slot ∈ s.slots, slot.pc.finished = true

/-- What a step does to the slots. -/
inductive Moved (concurrency : Nat) (routes : UInt64 → Option H) (s t : Server H) : ServerStep → Prop where
  | slot {i : Nat} {input : SlotInput} {slot next : Slot H} (alive : s.serve ≠ .exited) (reads : s.mayRead input = true)
      (found : s.slots[i]? = some slot) (stepped : slot.step routes input = some next)
      (moved : t = { s with slots := s.slots.set i next }) : Moved concurrency routes s t (.slot i input)
  | spawned (spawning : s.serve = .spawning) (room : s.slots.length < concurrency)
      (moved : t = { s with slots := s.slots ++ [{}] }) : Moved concurrency routes s t .spawn
  | aborted (owner : t.owner = s.owner) (draining : s.serve ≠ .idle) (exited : t.serve = .exited)
      (moved : t.slots = s.slots.filter fun slot => slot.pc.finished) : Moved concurrency routes s t .timedOut
  | kept {label : ServerStep} (elsewhere : label.ofSlot = false) (keeps : s.Keeps t) : Moved concurrency routes s t label

theorem step_moved {concurrency : Nat} {routes : UInt64 → Option H} {s t : Server H} {label : ServerStep}
    (h : s.step concurrency routes label = some t) : Moved concurrency routes s t label := by
  cases label <;> simp only [step] at h
  case slot i input =>
    obtain ⟨alive, reads, slot, next, found, stepped, moved⟩ := stepSlot_cases h
    exact .slot alive reads found stepped moved
  case spawn =>
    obtain ⟨⟨spawning, room⟩, moved⟩ := of_guard h
    exact .spawned spawning room moved.symm
  case timedOut =>
    split at h
    · rename_i receiver draining
      cases h
      exact .aborted rfl (by simp [draining]) rfl rfl
    · cases h
  case run =>
    obtain ⟨building, rfl⟩ := of_guard h
    exact .kept rfl ⟨rfl, fun owner => (by cases owner), fun _ => Or.inr building, fun exited => (by cases exited)⟩
  case build ok =>
    split at h
    · rename_i building
      cases ok with
      | true =>
        cases h
        exact .kept rfl ⟨rfl, fun owner => ⟨owner, fun idle => (by simp [building] at idle)⟩,
          fun fresh => (by simp [Server.fresh] at fresh), fun exited => (by cases exited)⟩
      | false =>
        cases h
        exact .kept rfl ⟨rfl, fun owner => ⟨owner, fun idle => (by simp [building] at idle)⟩,
          fun _ => Or.inl (Or.inr building), fun _ => Or.inr (Or.inl (Or.inr building))⟩
    · cases h
  case subscribe =>
    obtain ⟨⟨spawning, -⟩, rfl⟩ := of_guard h
    exact .kept rfl ⟨rfl, fun owner => ⟨owner, fun idle => (by simp [spawning] at idle)⟩,
      fun fresh => (by simp [Server.fresh] at fresh), fun exited => (by cases exited)⟩
  case recv =>
    split at h
    · rename_i receiver waiting
      obtain ⟨_, -, rfl⟩ := Option.map_eq_some_iff.mp h
      exact .kept rfl ⟨rfl, fun owner => ⟨owner, fun idle => (by simp [waiting] at idle)⟩,
        fun fresh => (by simp [Server.fresh] at fresh), fun exited => (by cases exited)⟩
    · cases h
  case storeStop =>
    split at h
    · rename_i receiver woken
      cases h
      exact .kept rfl ⟨rfl, fun owner => ⟨owner, fun idle => (by simp [woken] at idle)⟩,
        fun fresh => (by simp [Server.fresh] at fresh), fun exited => (by cases exited)⟩
    · cases h
  case queueShutdown result =>
    split at h
    · rename_i receiver stopping
      cases h
      exact .kept rfl ⟨rfl, fun owner => ⟨owner, fun idle => (by simp [stopping] at idle)⟩,
        fun fresh => (by simp [Server.fresh] at fresh), fun exited => (by cases exited)⟩
    · cases h
  case drained =>
    split at h
    · rename_i receiver draining
      obtain ⟨all, rfl⟩ := of_guard h
      exact .kept rfl ⟨rfl, fun owner => ⟨owner, fun idle => (by simp [draining] at idle)⟩,
        fun fresh => (by simp [Server.fresh, leave] at fresh), fun _ => Or.inr (Or.inr (List.all_eq_true.mp all))⟩
    · cases h
  case shutdown =>
    obtain ⟨owning, rfl⟩ := of_guard h
    exact .kept rfl ⟨rfl, fun owner => (by cases owning.symm.trans owner), Or.inl, Or.inl⟩
  case join | joined | drop | dropped =>
    obtain ⟨-, rfl⟩ := of_guard h
    exact .kept rfl ⟨rfl, fun owner => (by cases owner), Or.inl, Or.inl⟩

theorem slot_of_step {concurrency : Nat} {routes : UInt64 → Option H} {s t : Server H} {label : ServerStep}
    {slot : Slot H} (h : s.step concurrency routes label = some t) (member : slot ∈ t.slots) :
    slot ∈ s.slots ∨ slot = {} ∨
      ∃ i input old, label = .slot i input ∧ s.slots[i]? = some old ∧ old.step routes input = some slot := by
  cases step_moved h with
  | @slot i input old next alive reads found stepped moved =>
    subst moved
    rcases List.mem_or_eq_of_mem_set member with other | rfl
    · exact Or.inl other
    · exact Or.inr (Or.inr ⟨i, input, old, rfl, found, stepped⟩)
  | spawned spawning room moved =>
    subst moved
    rcases List.mem_append.mp member with old | new
    · exact Or.inl old
    · exact Or.inr (Or.inl (List.mem_singleton.mp new))
  | aborted owner draining exited moved =>
    rw [moved] at member
    exact Or.inl (List.mem_of_mem_filter member)
  | kept elsewhere keeps =>
    rw [keeps.slots] at member
    exact Or.inl member

/-- What one slot keeps by its own steps, every slot of the server keeps. -/
theorem step_slots {P : Slot H → Prop} {concurrency : Nat} {routes : UInt64 → Option H} {s t : Server H}
    {label : ServerStep} (start : P {}) (before : ∀ slot ∈ s.slots, P slot)
    (keep : ∀ i input slot next, label = .slot i input → P slot → slot.step routes input = some next → P next)
    (h : s.step concurrency routes label = some t) : ∀ slot ∈ t.slots, P slot := by
  intro slot member
  rcases slot_of_step h member with old | rfl | ⟨i, input, old, is, found, stepped⟩
  · exact before slot old
  · exact start
  · exact keep i input old slot is (before old (List.mem_of_getElem? found)) stepped

theorem run_slots {P : Slot H → Prop} {concurrency : Nat} {routes : UInt64 → Option H} {s t : Server H}
    {labels : List ServerStep} (start : P {}) (before : ∀ slot ∈ s.slots, P slot)
    (keep : ∀ i input slot next, .slot i input ∈ labels → P slot → slot.step routes input = some next → P next)
    (h : run (step concurrency routes) s labels = some t) : ∀ slot ∈ t.slots, P slot := by
  induction labels generalizing s with
  | nil =>
    cases h
    exact before
  | cons label labels ih =>
    obtain ⟨m, first, rest⟩ := run_cons.mp h
    apply ih _ (fun i input slot next member => keep i input slot next (List.mem_cons_of_mem _ member)) rest
    refine step_slots start before ?_ first
    rintro i input slot next rfl
    exact keep i input slot next List.mem_cons_self

theorem traced_start (routes : UInt64 → Option H) : Traced routes {} := ⟨[], [], rfl, .top, by simp⟩

def answered (s : Server H) : List UInt64 := s.slots.flatMap Slot.answered

def inHand (s : Server H) : List UInt64 := s.slots.flatMap Slot.inHand

def lost (s : Server H) : List UInt64 := s.slots.flatMap Slot.lost

theorem inBags_requests (s : Server H) (id : UInt64) :
    inBags Slot.requests s.slots id = (s.answered ++ (s.inHand ++ s.lost)).count id := by
  have ended := (List.flatMap_append_perm s.slots Slot.inHand Slot.lost).count_eq id
  have all := (List.flatMap_append_perm s.slots Slot.answered fun slot => slot.inHand ++ slot.lost).count_eq id
  rw [List.count_append] at all ended
  rw [List.count_append, List.count_append]
  show (s.slots.flatMap fun slot => slot.answered ++ (slot.inHand ++ slot.lost)).count id =
    (s.slots.flatMap Slot.answered).count id +
      ((s.slots.flatMap Slot.inHand).count id + (s.slots.flatMap Slot.lost).count id)
  omega

theorem lost_le (s : Server H) : s.lost.length ≤ s.panicked := by
  unfold lost panicked
  induction s.slots with
  | nil => exact Nat.le_refl 0
  | cons slot slots ih =>
    rw [List.flatMap_cons, List.length_append, List.countP_cons]
    have one : slot.lost.length ≤ if slot.pc.isPanicked then 1 else 0 := by
      unfold Slot.lost
      split
      · rename_i panicked last
        rw [panicked]
        exact Nat.le_refl 1
      · exact Nat.zero_le _
    omega

/-- Every request handed over so far is somewhere, and `serve` returns only when no slot is in the middle of one. -/
structure Conserves (routes : UInt64 → Option H) (handed : List UInt64) (s : Server H) : Prop where
  traced : ∀ slot ∈ s.slots, Traced routes slot
  unstarted : s.owner = .building → s.serve = .idle
  fresh : s.fresh → s.slots = []
  exited : s.serve = .exited → ∀ slot ∈ s.slots, slot.pc.finished = true
  counted : ∀ id, inBags Slot.requests s.slots id = handed.count id

theorem conserves_start (routes : UInt64 → Option H) : Conserves routes [] ({} : Server H) :=
  ⟨fun _ member => (by cases member), fun _ => rfl, fun _ => rfl, fun _ _ member => (by cases member), fun _ => rfl⟩

theorem step_conserves {concurrency : Nat} {routes : UInt64 → Option H} {s t : Server H} {label : ServerStep}
    {handed : List UInt64} (conserves : Conserves routes handed s) (patient : label ≠ .timedOut)
    (h : s.step concurrency routes label = some t) : Conserves routes (handed ++ label.hands) t := by
  obtain ⟨traced, unstarted, fresh, exited, counted⟩ := conserves
  have still := step_slots (traced_start routes) traced (fun _ input slot next _ => step_traced routes slot input next) h
  cases step_moved h with
  | @slot i input slot next alive reads found stepped moved =>
    subst moved
    have before := traced slot (List.mem_of_getElem? found)
    refine ⟨still, unstarted, ?_, fun ended => (alive ended).elim, ?_⟩
    · intro early
      rw [fresh early] at found
      cases found
    · intro id
      have moved := inBags_set Slot.requests next id found
      rw [slot_step_requests before stepped, List.count_append, counted id] at moved
      rw [List.count_append]
      show inBags Slot.requests (s.slots.set i next) id = handed.count id + input.hands.count id
      omega
  | spawned spawning room moved =>
    subst moved
    refine ⟨still, unstarted, ?_, fun ended => (by cases spawning.symm.trans ended), ?_⟩
    · intro early
      rcases early with idle | building
      · cases spawning.symm.trans idle
      · cases spawning.symm.trans building
    · intro id
      have added : inBags Slot.requests (s.slots ++ [({} : Slot H)]) id = inBags Slot.requests s.slots id := by
        simp [inBags, Slot.requests, Slot.answered, Slot.inHand, Slot.lost, sends]
      show inBags Slot.requests (s.slots ++ [({} : Slot H)]) id = (handed ++ []).count id
      rw [added, counted id, List.append_nil]
  | aborted => exact (patient rfl).elim
  | kept elsewhere keeps =>
    have slots := keeps.slots
    have early : s.fresh ∨ s.owner = .building → s.slots = [] := by
      intro early
      apply fresh
      rcases early with early | building
      · exact early
      · exact Or.inl (unstarted building)
    refine ⟨still, ?_, fun fresh => slots ▸ early (keeps.fresh fresh), ?_, ?_⟩
    · intro building
      obtain ⟨before, idle⟩ := keeps.unstarted building
      exact idle (unstarted before)
    · intro ended slot member
      rw [slots] at member
      rcases keeps.exited ended with before | none_ | all
      · exact exited before slot member
      · rw [fresh none_] at member
        cases member
      · exact all slot member
    · intro id
      rw [slots, hands_of_elsewhere elsewhere, List.append_nil]
      exact counted id

theorem run_conserves {concurrency : Nat} {routes : UInt64 → Option H} {s t : Server H} {labels : List ServerStep}
    {handed : List UInt64} (conserves : Conserves routes handed s) (patient : ServerStep.timedOut ∉ labels)
    (h : run (step concurrency routes) s labels = some t) :
    Conserves routes (handed ++ labels.flatMap ServerStep.hands) t := by
  induction labels generalizing s handed with
  | nil =>
    cases h
    simpa using conserves
  | cons label labels ih =>
    obtain ⟨m, first, rest⟩ := run_cons.mp h
    obtain ⟨here, later⟩ := not_or.mp (mt List.mem_cons.mpr patient)
    have next := ih (step_conserves conserves (Ne.symm here) first) later rest
    rw [List.flatMap_cons, ← List.append_assoc]
    exact next

end Server

/-- In every run in which the drain does not time out, each request that a receive has handed over is answered by one
call of `send_response`, or a handler has it in hand, or a panic lost it. When `serve` has returned no handler has any. -/
theorem requests_are_conserved (concurrency : Nat) (routes : UInt64 → Option H) (labels : List ServerStep) (s : Server H)
    (h : run (Server.step concurrency routes) {} labels = some s) (patient : ServerStep.timedOut ∉ labels) :
    (s.answered ++ (s.inHand ++ s.lost)).Perm (labels.flatMap ServerStep.hands) ∧
    s.lost.length ≤ labels.countP ServerStep.panics ∧ (s.serve = .exited → s.inHand = []) := by
  have conserves := Server.run_conserves (Server.conserves_start routes) patient h
  refine ⟨?_, ?_, ?_⟩
  · apply List.perm_iff_count.mpr
    intro id
    rw [← Server.inBags_requests]
    exact conserves.counted id
  · have counted : s.panicked = 0 + labels.countP ServerStep.panics := Server.run_panicked h
    have bound := s.lost_le
    omega
  · intro exited
    apply List.flatMap_eq_nil_iff.mpr
    intro slot member
    have finished := conserves.exited exited slot member
    unfold Slot.inHand
    cases pc : slot.pc with
    | handling requestId handler =>
      rw [pc] at finished
      cases finished
    | _ => rfl

def stopOne : List ServerStep :=
  [.shutdown, .join, .recv, .storeStop, .queueShutdown (.ok ()), .slot 0 (.load true), .drained, .joined]

theorem greeting_is_conserved : ∃ s : Server Unit,
    run (Server.step 1 fun _ => some ()) {} (startOne ++ serveOne ++ stopOne) = some s ∧ s.answered = [42] ∧
    (s.answered ++ (s.inHand ++ s.lost)).Perm [42] ∧ s.lost.length ≤ 0 ∧ (s.serve = .exited → s.inHand = []) := by
  refine ⟨_, rfl, rfl, ?_⟩
  exact requests_are_conserved 1 (fun _ => some ()) (startOne ++ serveOne ++ stopOne) _ rfl (by simp [startOne, serveOne, stopOne])

/-! ### Logs -/

/-- What this step leaves in the log of slot `i`. -/
def ServerStep.told (i : Nat) : ServerStep → List (SlotEvent H)
  | .slot j input => if j = i then input.told else []
  | _ => []

theorem told_of_elsewhere {label : ServerStep} (elsewhere : label.ofSlot = false) (i : Nat) :
    (label.told i : List (SlotEvent H)) = [] := by
  cases label with
  | slot j input => cases elsewhere
  | _ => rfl

namespace Server

/-- A slot that is not spawned yet has no log. -/
def logOf (s : Server H) (i : Nat) : List (SlotEvent H) := ((s.slots[i]?).map Slot.log).getD []

theorem logOf_of_found {s : Server H} {i : Nat} {slot : Slot H} (found : s.slots[i]? = some slot) :
    s.logOf i = slot.log := by
  rw [logOf, found]
  rfl

theorem found_of_logOf {s : Server H} {i : Nat} {event : SlotEvent H} (member : event ∈ s.logOf i) :
    ∃ slot, s.slots[i]? = some slot ∧ event ∈ slot.log := by
  cases found : s.slots[i]? with
  | none =>
    rw [logOf, found] at member
    cases member
  | some slot => exact ⟨slot, rfl, logOf_of_found found ▸ member⟩

theorem logOf_set {s : Server H} {i : Nat} {slot : Slot H} (found : s.slots[i]? = some slot) (next : Slot H) (j : Nat) :
    ({ s with slots := s.slots.set i next } : Server H).logOf j = if i = j then next.log else s.logOf j := by
  obtain ⟨inside, -⟩ := List.getElem?_eq_some_iff.mp found
  unfold logOf
  rw [List.getElem?_set]
  by_cases same : i = j
  · rw [if_pos same, if_pos inside, if_pos same]
    rfl
  · rw [if_neg same, if_neg same]

theorem logOf_spawn (s : Server H) (j : Nat) :
    ({ s with slots := s.slots ++ [{}] } : Server H).logOf j = s.logOf j := by
  unfold logOf
  rcases Nat.lt_trichotomy j s.slots.length with old | rfl | later
  · rw [List.getElem?_append_left old]
  · rw [List.getElem?_concat_length, List.getElem?_eq_none (Nat.le_refl _)]
    rfl
  · rw [List.getElem?_eq_none (by rw [List.length_append]; exact later), List.getElem?_eq_none (Nat.le_of_lt later)]

theorem step_logOf {concurrency : Nat} {routes : UInt64 → Option H} {s t : Server H} {label : ServerStep}
    (patient : label ≠ .timedOut) (h : s.step concurrency routes label = some t) (i : Nat) :
    (t.logOf i).filter SlotEvent.isTold = (s.logOf i).filter SlotEvent.isTold ++ label.told i := by
  cases step_moved h with
  | @slot j input slot next alive reads found stepped moved =>
    subst moved
    rw [logOf_set found]
    by_cases same : j = i
    · subst same
      rw [if_pos rfl, logOf_of_found found, step_told stepped, ServerStep.told, if_pos rfl]
    · rw [if_neg same, ServerStep.told, if_neg same, List.append_nil]
  | spawned spawning room moved =>
    subst moved
    rw [logOf_spawn]
    exact (List.append_nil _).symm
  | aborted => exact (patient rfl).elim
  | kept elsewhere keeps => rw [logOf, keeps.slots, told_of_elsewhere elsewhere, List.append_nil, logOf]

/-- Every log holds what the steps of its slot told it, in their order. -/
theorem run_logOf {concurrency : Nat} {routes : UInt64 → Option H} {s t : Server H} {labels : List ServerStep}
    (patient : ServerStep.timedOut ∉ labels) (h : run (step concurrency routes) s labels = some t) (i : Nat) :
    (t.logOf i).filter SlotEvent.isTold =
      (s.logOf i).filter SlotEvent.isTold ++ labels.flatMap (ServerStep.told i) := by
  induction labels generalizing s with
  | nil =>
    cases h
    exact (List.append_nil _).symm
  | cons label labels ih =>
    obtain ⟨m, first, rest⟩ := run_cons.mp h
    obtain ⟨here, later⟩ := not_or.mp (mt List.mem_cons.mpr patient)
    rw [ih later rest, step_logOf (Ne.symm here) first, List.flatMap_cons, List.append_assoc]

end Server

/-! ### Routing -/

theorem received_of_told {input : SlotInput} {buffer : RequestBuffer}
    (told : .received (.ok ()) buffer ∈ (input.told : List (SlotEvent H))) :
    ∃ mode, input = .received (some (.ok (), buffer, mode)) := by
  unfold SlotInput.told at told
  split at told
  case h_3 result received mode =>
    obtain ⟨rfl, rfl⟩ : .ok () = result ∧ buffer = received := by simpa using told
    exact ⟨mode, rfl⟩
  all_goals simp at told

theorem slot_step_received {routes : UInt64 → Option H} {slot next : Slot H} {input : SlotInput} {buffer : RequestBuffer}
    (h : slot.step routes input = some next) (member : .received (.ok ()) buffer ∈ next.log) :
    .received (.ok ()) buffer ∈ slot.log ∨ ∃ mode, input = .received (some (.ok (), buffer, mode)) := by
  have told : .received (.ok ()) buffer ∈ next.log.filter SlotEvent.isTold := List.mem_filter.mpr ⟨member, rfl⟩
  rw [step_told h] at told
  rcases List.mem_append.mp told with before | new
  · exact Or.inl (List.mem_of_mem_filter before)
  · exact Or.inr (received_of_told new)

theorem turn_of_received {t : Turn} {buffer : RequestBuffer} {tail : List (SlotEvent H)}
    (member : .received (.ok ()) buffer ∈ t.opening ++ tail) (quiet : ∀ result buffer', .received result buffer' ∉ tail) :
    t.result = .ok () ∧ t.buffer = buffer := by
  rcases List.mem_append.mp member with opened | later
  · simp [Turn.opening] at opened
    exact ⟨opened.1.symm, opened.2.symm⟩
  · exact (quiet _ _ later).elim

theorem handling_quiet (routes : UInt64 → Option H) (t : Turn) (result : Except Error Unit) (buffer : RequestBuffer) :
    .received result buffer ∉ t.handling routes := by
  unfold Turn.handling
  split
  · simp
  · simp

theorem handling_of_found {routes : UInt64 → Option H} {t : Turn} {handler : H} (ok : t.result = .ok ())
    (found : routes t.buffer.urlContext = some handler) :
    t.handling routes = [.invoked handler t.buffer, .responded t.response] := by
  simp [Turn.handling, Turn.handler, ok, found]

/-- Once the kernel has handed over a request, the slot is in its handler or past it. -/
theorem invoked_of_received {routes : UInt64 → Option H} {pc : SlotPc H} {tail : List (SlotEvent H)} {buffer : RequestBuffer}
    {handler : H} (still : OpenTurn routes pc tail) (member : .received (.ok ()) buffer ∈ tail)
    (found : routes buffer.urlContext = some handler) : .invoked handler buffer ∈ tail := by
  induction still with
  | handling t ok found' =>
    obtain ⟨-, rfl⟩ := turn_of_received member (by simp)
    obtain rfl := Option.some.inj (found.symm.trans found')
    simp
  | responding t owed =>
    rw [List.append_assoc] at member ⊢
    obtain ⟨ok, rfl⟩ := turn_of_received member (by simp [handling_quiet])
    simp [handling_of_found ok found]
  | replying t owed =>
    rw [List.append_assoc] at member ⊢
    obtain ⟨ok, rfl⟩ := turn_of_received member (by simp [handling_quiet])
    simp [handling_of_found ok found]
  | panicked before midway ih => exact ih member
  | ended t terminal =>
    obtain ⟨e, failed, -⟩ := terminal
    simp [Turn.opening, failed] at member
  | _ => simp at member

theorem answering_quiet (routes : UInt64 → Option H) (t : Turn) (result : Except Error Unit) (buffer : RequestBuffer) :
    .received result buffer ∉ t.answering routes := by
  unfold Turn.answering
  split
  · simp
  · simp

theorem invoked_of_log {routes : UInt64 → Option H} {slot : Slot H} {buffer : RequestBuffer} {handler : H}
    (traced : Traced routes slot) (member : .received (.ok ()) buffer ∈ slot.log)
    (found : routes buffer.urlContext = some handler) : .invoked handler buffer ∈ slot.log := by
  obtain ⟨turns, tail, log, still, -⟩ := traced
  rw [log] at member ⊢
  rcases List.mem_append.mp member with past | inside
  · obtain ⟨t, one, received⟩ := List.mem_flatMap.mp past
    rw [Turn.events, List.append_assoc] at received
    obtain ⟨ok, rfl⟩ := turn_of_received received (by simp [handling_quiet, answering_quiet])
    apply List.mem_append_left
    refine List.mem_flatMap.mpr ⟨t, one, ?_⟩
    rw [Turn.events, handling_of_found ok found]
    simp
  · exact List.mem_append_right _ (invoked_of_received still inside found)

/-- If the kernel labels each request with the context of an entry of its URL group, then whatever the slots do each
request goes to the handler registered for that entry, which no other entry shares its context with, and a turn that is
over has answered it once, with what that handler responded. Unless a drain timed out, no request that a step hands to
a slot is left out. -/
theorem requests_reach_their_handlers (calls : List (RouteCall H)) (b : ServerBuilder H)
    (built : run ServerBuilder.step {} calls = some b) (concurrency : Nat) (labels : List ServerStep) (s : Server H)
    (h : run (Server.step concurrency b.routes) {} labels = some s)
    (labelled : ∀ i buffer mode, ServerStep.slot i (.received (some (.ok (), buffer, mode))) ∈ labels →
      ∃ r ∈ b.group, r.context = buffer.urlContext) :
    (ServerStep.timedOut ∉ labels →
      (∀ i, (s.logOf i).filter SlotEvent.isTold = labels.flatMap (ServerStep.told i)) ∧
      ∀ i buffer mode, ServerStep.slot i (.received (some (.ok (), buffer, mode))) ∈ labels →
        ∃ r ∈ b.group, ∃ handler, ServerBuilder.RegisteredBy calls r handler ∧ r.context = buffer.urlContext ∧
          .received (.ok ()) buffer ∈ s.logOf i ∧ .invoked handler buffer ∈ s.logOf i) ∧
    ∀ slot ∈ s.slots, ∃ (turns : List Turn) (tail : List (SlotEvent H)),
      slot.log = turns.flatMap (Turn.events b.routes) ++ tail ∧ OpenTurn b.routes slot.pc tail ∧
      ∀ buffer, .received (.ok ()) buffer ∈ slot.log → ∃ r ∈ b.group, ∃ handler,
        ServerBuilder.RegisteredBy calls r handler ∧ r.context = buffer.urlContext ∧
        (∀ r' ∈ b.group, r'.context = buffer.urlContext → r' = r) ∧
        (.received (.ok ()) buffer ∈ tail → .invoked handler buffer ∈ tail) ∧
        ∀ t ∈ turns, t.result = .ok () → t.buffer = buffer → t.events b.routes =
          [.loaded false, .posted, .received (.ok ()) buffer, .invoked handler buffer, .responded t.response,
            .sending buffer.requestId t.response, .sent t.sent] := by
  obtain ⟨agrees, owned⟩ := ServerBuilder.run_agrees built
  have traced : ∀ slot ∈ s.slots, Traced b.routes slot :=
    Server.run_slots (Server.traced_start b.routes) (fun _ none_ => by cases none_)
      (fun _ input slot next _ => step_traced b.routes slot input next) h
  refine ⟨?_, ?_⟩
  · intro patient
    have logs := fun i => Server.run_logOf patient h i
    refine ⟨logs, ?_⟩
    intro i buffer mode step
    obtain ⟨r, entry, context⟩ := labelled i buffer mode step
    obtain ⟨handler, found, registered⟩ := owned r entry
    have told : .received (.ok ()) buffer ∈ (s.logOf i).filter SlotEvent.isTold := by
      rw [logs i]
      refine List.mem_append_right _ (List.mem_flatMap.mpr ⟨_, step, ?_⟩)
      simp [ServerStep.told, SlotInput.told]
    have received := List.mem_of_mem_filter told
    obtain ⟨slot, here, inside⟩ := Server.found_of_logOf received
    refine ⟨r, entry, handler, registered, context, received, ?_⟩
    rw [Server.logOf_of_found here]
    rw [context] at found
    exact invoked_of_log (traced slot (List.mem_of_getElem? here)) inside found
  · intro slot member
    let Labelled (slot : Slot H) :=
      ∀ buffer, .received (.ok ()) buffer ∈ slot.log → ∃ r ∈ b.group, r.context = buffer.urlContext
    have known : Labelled slot := by
      refine Server.run_slots ?_ ?_ ?_ h slot member
      · intro buffer none_
        cases none_
      · intro slot none_
        cases none_
      · intro i input slot next step before stepped buffer inside
        rcases slot_step_received stepped inside with old | ⟨mode, rfl⟩
        · exact before buffer old
        · exact labelled i buffer mode step
    obtain ⟨turns, tail, log, still, -⟩ := traced slot member
    refine ⟨turns, tail, log, still, ?_⟩
    intro buffer received
    obtain ⟨r, entry, context⟩ := known buffer received
    obtain ⟨handler, found, registered⟩ := owned r entry
    rw [context] at found
    refine ⟨r, entry, handler, registered, context, ?_, fun inside => invoked_of_received still inside found, ?_⟩
    · intro r' entry' context'
      exact List.inj_on_of_nodup_map agrees.distinct entry' entry (context'.trans context.symm)
    · rintro t - ok rfl
      have owed : t.answer b.routes = some (t.buffer.requestId, t.response) := by simp [Turn.answer, ok, found]
      have answered : t.answering b.routes = [.sending t.buffer.requestId t.response, .sent t.sent] := by
        unfold Turn.answering
        rw [owed]
      rw [Turn.events, handling_of_found ok found, answered, Turn.opening, ok]
      rfl

def rootCalls : List (RouteCall Nat) := [{ url := ['/'], handler := 10, status := 0 }]

theorem greeting_reaches_its_handler : greeting.requestId = 42 ∧ ∃ b, run ServerBuilder.step {} rootCalls = some b ∧
    ∃ s, run (Server.step 1 b.routes) {} (startOne ++ serveOne) = some s ∧
    s.slots.map Slot.log = [[.loaded false, .posted, .received (.ok ()) greeting, .invoked 10 greeting,
      .responded (Response.okText [104, 105]), .sending greeting.requestId (Response.okText [104, 105]),
      .sent (.ok ())]] ∧
    ((∀ i, (s.logOf i).filter SlotEvent.isTold = (startOne ++ serveOne).flatMap (ServerStep.told i)) ∧
      ∃ r ∈ b.group, ∃ handler, ServerBuilder.RegisteredBy rootCalls r handler ∧ r.context = greeting.urlContext ∧
        .received (.ok ()) greeting ∈ s.logOf 0 ∧ .invoked handler greeting ∈ s.logOf 0) ∧
    ∀ slot ∈ s.slots, ∃ (turns : List Turn) (tail : List (SlotEvent Nat)),
      slot.log = turns.flatMap (Turn.events b.routes) ++ tail ∧
      ∀ buffer, .received (.ok ()) buffer ∈ slot.log → ∃ r ∈ b.group, ∃ handler,
        ServerBuilder.RegisteredBy rootCalls r handler ∧ r.context = buffer.urlContext ∧
        ∀ t ∈ turns, t.result = .ok () → t.buffer = buffer → t.events b.routes =
          [.loaded false, .posted, .received (.ok ()) buffer, .invoked handler buffer, .responded t.response,
            .sending buffer.requestId t.response, .sent t.sent] := by
  refine ⟨rfl, _, rfl, _, rfl, rfl, ?_⟩
  have reach := requests_reach_their_handlers rootCalls _ rfl 1 (startOne ++ serveOne) _ rfl
    (fun i buffer mode step => ⟨{ urlPrefix := ['/'], context := 1 }, by decide, by
      simp [startOne, serveOne] at step
      rw [step.2.1]
      rfl⟩)
  have handed := reach.1 (by simp [startOne, serveOne])
  refine ⟨⟨handed.1, handed.2 0 greeting {} (by simp [startOne, serveOne])⟩, ?_⟩
  intro slot member
  obtain ⟨turns, tail, log, -, reached⟩ := reach.2 slot member
  refine ⟨turns, tail, log, ?_⟩
  intro buffer received
  obtain ⟨r, entry, handler, registered, context, -, -, whole⟩ := reached buffer received
  exact ⟨r, entry, handler, registered, context, whole⟩

end HttpSys
