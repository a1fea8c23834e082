import HttpSys.Lib.Machine

/-! The completion port of `iocp.rs`: the packets queued on it, the threads of
`completion_loop` that drain it, and the thread that runs `IoPort::drop`. -/
namespace HttpSys.Iocp
open Lib.Machine

/-- Completion packets dequeued per `GetQueuedCompletionStatusEx` call. -/
def batch : Nat := 64

/-- `usize::MAX`, the key of the packets that `IoPort::drop` posts. -/
def shutdownKey : UInt64 := 0xFFFFFFFFFFFFFFFF

/-- `OVERLAPPED_ENTRY`; the pointer is the address of the `OverlappedWrap`. -/
structure Entry where
  lpCompletionKey : UInt64
  lpOverlapped : Nat := 0
  dwNumberOfBytesTransferred : UInt32 := 0
  deriving DecidableEq, Repr

def Entry.isShutdown (e : Entry) : Bool := e.lpCompletionKey == shutdownKey

def sentinel : Entry := { lpCompletionKey := shutdownKey }

/-- An ordinary completion packet: its key is the handle the operation was
issued on, and `-1` is `INVALID_HANDLE_VALUE`. -/
abbrev Completion := { e : Entry // e.isShutdown = false }

inductive Thread where
  | waiting
  | delivering (rest : List Entry) (stop : Bool)
  | returned
  deriving DecidableEq, Repr

inductive Dropper where
  | alive
  | posting (left : Nat)
  | joining (next : Nat)
  | closed
  deriving DecidableEq, Repr

structure Port where
  queue : List Entry
  threads : List Thread
  dropper : Dropper := .alive
  posted : Nat := 0
  delivered : List Entry := []
  deriving DecidableEq, Repr

/-- `IoPort::new` has spawned its threads and `backlog` is already queued. -/
def Port.new (threads : Nat) (backlog : List Completion) : Port :=
  { queue := backlog.map Subtype.val, threads := List.replicate (max threads 1) .waiting }

inductive Event where
  /-- The kernel queues a packet for a finished operation. -/
  | arrive (e : Completion)
  /-- `GetQueuedCompletionStatusEx` hands `removed` packets to thread `i`. -/
  | dequeue (i removed : Nat)
  /-- It fails because the port was closed underneath the thread. -/
  | fail (i : Nat)
  | deliver (i : Nat)
  | endBatch (i : Nat)
  | beginDrop
  | post
  | beginJoin
  | join
  | close

def step (s : Port) : Event → Option Port
  | .arrive e => some { s with queue := s.queue ++ [e.val] }
  | .dequeue i removed =>
    match s.threads[i]? with
    | some .waiting =>
      if 1 ≤ removed ∧ removed ≤ batch ∧ removed ≤ s.queue.length then
        some { s with
          queue := s.queue.drop removed
          threads := s.threads.set i (.delivering (s.queue.take removed) false) }
      else none
    | _ => none
  | .fail i =>
    if s.dropper = .closed ∧ s.threads[i]? = some .waiting then
      some { s with threads := s.threads.set i .returned }
    else none
  | .deliver i =>
    match s.threads[i]? with
    | some (.delivering (entry :: rest) stop) =>
      if entry.isShutdown then
        some { s with threads := s.threads.set i (.delivering rest true) }
      else
        some { s with
          threads := s.threads.set i (.delivering rest stop)
          delivered := s.delivered ++ [entry] }
    | _ => none
  | .endBatch i =>
    match s.threads[i]? with
    | some (.delivering [] stop) =>
      some { s with threads := s.threads.set i (if stop then .returned else .waiting) }
    | _ => none
  | .beginDrop =>
    if s.dropper = .alive then some { s with dropper := .posting s.threads.length } else none
  | .post =>
    match s.dropper with
    | .posting (left + 1) =>
      some { s with
        queue := s.queue ++ [sentinel]
        posted := s.posted + 1
        dropper := .posting left }
    | _ => none
  | .beginJoin =>
    if s.dropper = .posting 0 then some { s with dropper := .joining 0 } else none
  | .join =>
    match s.dropper with
    | .joining i =>
      if s.threads[i]? = some .returned then some { s with dropper := .joining (i + 1) } else none
    | _ => none
  | .close =>
    if s.dropper = .joining s.threads.length then some { s with dropper := .closed } else none

def Stranded (s : Port) : Prop :=
  s.posted = s.threads.length ∧ s.queue = [] ∧ ∃ i : Nat, s.threads[i]? = some Thread.waiting

end HttpSys.Iocp
