import HttpSys.Server.Slot
import HttpSys.Lib.Broadcast

/-! A running server: the thread that owns the `Server`, the server thread with its
`serve` task, and the slot tasks. Each step is one of theirs, in any order. -/
namespace HttpSys
open Lib Lib.Machine

variable {H : Type}

/-- The owner before `run`, with the `Server` in hand, inside `join`, inside `drop`, and after it. -/
inductive Owner where
  | building
  | owning
  | joining
  | dropping
  | gone
  deriving DecidableEq

/-- The server thread. `waiting r` awaits `recv` on receiver `r`. -/
inductive ServePc where
  | idle
  | building
  | spawning
  | waiting (receiver : Nat)
  | woken (receiver : Nat)
  | stopping (receiver : Nat)
  | draining (receiver : Nat)
  | exited
  deriving DecidableEq

structure Server (H : Type) where
  owner : Owner := .building
  calls : Nat := 0
  channel : Broadcast Unit := { capacity := 1, senders := 0 }
  serve : ServePc := .idle
  stop : Bool := false
  slots : List (Slot H) := []

inductive ServerStep where
  | run
  | build (ok : Bool)
  | spawn
  | subscribe
  | recv
  | storeStop
  | queueShutdown (result : Except Error Unit)
  | drained
  | timedOut
  | slot (i : Nat) (input : SlotInput)
  | shutdown
  | join
  | joined
  | drop
  | dropped

def SlotPc.finished : SlotPc H → Bool
  | .returned => true
  | .panicked => true
  | _ => false

namespace Server
variable (s : Server H)

def signal : Server H := { s with calls := s.calls + 1, channel := s.channel.send () }

/-- `serve` returns, which drops its receiver and its sender. -/
def leave (receiver : Nat) : Server H :=
  { s with serve := .exited, channel := (s.channel.dropReceiver receiver).dropSender }

/-- A relaxed load may return `false` for a while after the flag is set. -/
def mayRead : SlotInput → Bool
  | .load true => s.stop
  | _ => true

def stepSlot (routes : UInt64 → Option H) (i : Nat) (input : SlotInput) : Option (Server H) :=
  if s.serve = .exited ∨ s.mayRead input = false then none
  else
    match s.slots[i]? with
    | none => none
    | some slot => (slot.step routes input).map fun next => { s with slots := s.slots.set i next }

def step (concurrency : Nat) (routes : UInt64 → Option H) (s : Server H) : ServerStep → Option (Server H)
  | .run =>
    if s.owner = .building then
      some { s with
        owner := .owning, serve := .building
        channel := ((Broadcast.channel 1).dropReceiver 0).cloneSender }
    else none
  | .build ok =>
    if s.serve = .building then
      if ok then some { s with serve := .spawning }
      else some { s with serve := .exited, channel := s.channel.dropSender }
    else none
  | .spawn =>
    if s.serve = .spawning ∧ s.slots.length < concurrency then some { s with slots := s.slots ++ [{}] } else none
  | .subscribe =>
    if s.serve = .spawning ∧ ¬ s.slots.length < concurrency then
      some { s with serve := .waiting s.channel.receivers.length, channel := s.channel.subscribe }
    else none
  | .recv =>
    match s.serve with
    | .waiting receiver =>
      (s.channel.recv receiver).map fun (_, channel) => { s with serve := .woken receiver, channel := channel }
    | _ => none
  | .storeStop =>
    match s.serve with
    | .woken receiver => some { s with serve := .stopping receiver, stop := true }
    | _ => none
  | .queueShutdown _ =>
    match s.serve with
    | .stopping receiver => some { s with serve := .draining receiver }
    | _ => none
  | .drained =>
    match s.serve with
    | .draining receiver => if s.slots.all fun slot => slot.pc.finished then some (s.leave receiver) else none
    | _ => none
  | .timedOut =>
    match s.serve with
    | .draining receiver => some ({ s with slots := s.slots.filter fun slot => slot.pc.finished }.leave receiver)
    | _ => none
  | .slot i input => s.stepSlot routes i input
  | .shutdown => if s.owner = .owning then some s.signal else none
  | .join => if s.owner = .owning then some { s with owner := .joining } else none
  | .joined => if s.owner = .joining ∧ s.serve = .exited then some { s with owner := .owning } else none
  | .drop => if s.owner = .owning then some { s.signal with owner := .dropping } else none
  | .dropped =>
    if s.owner = .dropping ∧ s.serve = .exited then
      some { s with owner := .gone, channel := s.channel.dropSender }
    else none

theorem stepSlot_cases {routes : UInt64 → Option H} {s t : Server H} {i : Nat} {input : SlotInput}
    (h : s.stepSlot routes i input = some t) :
    s.serve ≠ .exited ∧ s.mayRead input = true ∧ ∃ slot next, s.slots[i]? = some slot ∧
      slot.step routes input = some next ∧ t = { s with slots := s.slots.set i next } := by
  unfold stepSlot at h
  split at h
  · cases h
  · rename_i enabled
    obtain ⟨alive, reads⟩ := not_or.mp enabled
    refine ⟨alive, by simpa using reads, ?_⟩
    split at h
    · cases h
    · rename_i slot found
      obtain ⟨next, stepped, rfl⟩ := Option.map_eq_some_iff.mp h
      exact ⟨slot, next, found, stepped, rfl⟩

end Server
end HttpSys
