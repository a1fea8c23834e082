import HttpSys.Overlapped.Custody
import HttpSys.Iocp.Shutdown
import HttpSys.Lib.Tickets

/-! A `RequestQueue` at work: its operations, the packets the kernel puts on its port for them, the
completion threads that deliver these, and `RequestQueue::drop` with the fields that go after it. -/
namespace HttpSys
open Lib.Machine Lib.Tickets Overlapped Iocp

/-- The queue's handle is the completion key of its packets, and a handle is never `-1`. -/
abbrev QueueHandle := { key : UInt64 // key ≠ shutdownKey }

/-- `closing` is inside `HttpCloseRequestQueue`; after it has returned the pool is dropped, then the port. -/
inductive QueueLife where
  | serving
  | closing
  | closed
  | emptied
  deriving DecidableEq

structure RequestQueue where
  handle : QueueHandle
  skipOnSuccess : Bool
  ops : Overlapped.State
  io : Port
  life : QueueLife := .serving
  -- The operation whose packet a completion thread is delivering.
  inHand : Nat → Option Nat := fun _ => none

inductive QueueStep where
  | newOp
  | task (o : Nat) (action : Action)
  | giveBack (o : Nat)
  | post (o : Nat) (err len : UInt32)
  | take (i o : Nat)
  | complete (i : Nat) (action : Action)
  | release (i : Nat)
  | sentinel (i : Nat)
  | port (e : Event)
  | closeQueue
  | closeReturns
  | dropPool

/-- The steps of `OverlappedWrap::complete`. -/
def Overlapped.Action.completes : Action → Bool
  | .storeErr | .storeLen | .publish | .wake => true
  | _ => false

/-- The steps of the submitting task, and the kernel's writes while it works on the submission. -/
def Overlapped.Action.ofTask : Action → Bool
  | .post .. | .dequeue | .storeErr | .storeLen | .publish | .wake | .release => false
  | _ => true

/-- A future that was forgotten while it waited does not keep the queue from being dropped. -/
def Overlapped.Phase.parked : Phase → Bool
  | .awaiting | .returned _ | .dropped => true
  | _ => false

/-- The steps that are the port's own. It is dropped after the pool. -/
def QueueLife.allows (life : QueueLife) : Event → Bool
  | .arrive _ | .deliver _ => false
  | .beginDrop => life == .emptied
  | _ => true

/-- `OpPool` is dropped, and with it the wraps that lie in it. -/
def Overlapped.State.dropPool (s : Overlapped.State) : Overlapped.State :=
  { s with heap := fun address => if address ∈ s.free then {} else s.heap address, free := [] }

namespace RequestQueue

def new (handle : QueueHandle) (skipOnSuccess : Bool) (ioThreads concurrency : Nat) : RequestQueue :=
  { handle := handle, skipOnSuccess := skipOnSuccess
    ops := .init (concurrency * 2), io := .new ioThreads [] }

/-- The packet that the kernel queues for the operation at an address. -/
def packet (handle : QueueHandle) (address : Nat) (len : UInt32) : Completion :=
  ⟨{ lpCompletionKey := handle, lpOverlapped := address, dwNumberOfBytesTransferred := len },
    beq_eq_false_iff_ne.mpr handle.property⟩

def every (s : RequestQueue) (p : Op → Bool) : Bool :=
  (List.range s.ops.opened).all fun o => (s.ops.ops o).all p

def act (s : RequestQueue) (o : Nat) (action : Action) : Option RequestQueue :=
  (s.ops.step (.act o action)).map fun ops => { s with ops := ops }

def step (s : RequestQueue) : QueueStep → Option RequestQueue
  | .newOp =>
    if s.life = .serving then
      (s.ops.step (.new s.skipOnSuccess)).map fun ops => { s with ops := ops }
    else none
  | .task o action => if s.life = .serving ∧ action.ofTask = true then s.act o action else none
  | .giveBack o =>
    if s.life = .serving then (s.ops.step (.giveBack o)).map fun ops => { s with ops := ops } else none
  | .post o err len =>
    match s.ops.ops o with
    | none => none
    | some op =>
      match s.act o (.post err len), Iocp.step s.io (.arrive (packet s.handle op.address len)) with
      | some t, some io => some { t with io := io }
      | _, _ => none
  | .take i o =>
    -- `Arc::from_raw` on the pointer of the entry, which is that of operation `o`.
    match s.io.threads[i]?, s.inHand i, s.ops.ops o with
    | some (.delivering (entry :: _) _), none, some op =>
      if entry.isShutdown = false ∧ entry.lpOverlapped = op.address then
        (s.act o .dequeue).map fun t => { t with inHand := Function.update s.inHand i (some o) }
      else none
    | _, _, _ => none
  | .complete i action =>
    match s.inHand i with
    | none => none
    | some o => if action.completes = true then s.act o action else none
  | .release i =>
    match s.inHand i with
    | none => none
    | some o =>
      match s.act o .release, Iocp.step s.io (.deliver i) with
      | some t, some io => some { t with io := io, inHand := Function.update s.inHand i none }
      | _, _ => none
  | .sentinel i =>
    match s.io.threads[i]? with
    | some (.delivering (entry :: _) _) =>
      if entry.isShutdown then (Iocp.step s.io (.deliver i)).map fun io => { s with io := io } else none
    | _ => none
  | .port e =>
    if s.life.allows e then (Iocp.step s.io e).map fun io => { s with io := io } else none
  | .closeQueue =>
    if s.life = .serving ∧ s.every (·.phase.parked) = true then some { s with life := .closing } else none
  | .closeReturns =>
    -- Closing the queue completes or cancels everything still outstanding.
    if s.life = .closing ∧ s.every (·.packet != .pending) = true then some { s with life := .closed } else none
  | .dropPool =>
    if s.life = .closed then some { s with life := .emptied, ops := s.ops.dropPool } else none

end RequestQueue
end HttpSys
