import HttpSys.Overlapped.Outcome
import HttpSys.Lib.Machine
import Mathlib.Logic.Function.Basic

/-! The completion state of overlapped operations: the heap of reference-counted
`OverlappedWrap`s, the pool they are recycled through, and the operations that share
them with the kernel and the completion threads. -/
namespace HttpSys.Overlapped
open Lib.Machine

structure Inner where
  internal : UInt64 := 0
  internalHigh : UInt64 := 0
  deriving DecidableEq

/-- `OverlappedWrap`; the default is both `new` and what `reset` leaves. A waker is a number. -/
structure Wrap where
  inner : Inner := {}
  bytes : UInt32 := 0
  completed : Bool := false
  waker : Option Nat := none
  err : UInt32 := 0
  len : UInt32 := 0
  deriving DecidableEq

def Wrap.result (wrap : Wrap) : Except Error UInt32 := wrapResult wrap.err wrap.len

/-- An `Arc` allocation; it is freed when `strong` reaches 0. -/
structure Cell where
  strong : Nat := 0
  wrap : Wrap := {}
  deriving DecidableEq

namespace Cell

def clone (cell : Cell) : Cell := { cell with strong := cell.strong + 1 }

def drop (cell : Cell) : Cell := { cell with strong := cell.strong - 1 }

end Cell

inductive Stage where
  | taken
  | errStored
  | lenStored
  | published
  | woken
  deriving DecidableEq

/-- Who has the reference that `Op::new` leaked: still nobody, the kernel with its packet due or
posted, a completion thread, or nobody any more. -/
inductive Packet where
  | leaked
  | pending
  | posted
  | held (stage : Stage)
  | released
  | reclaimed
  deriving DecidableEq

def Packet.takeBack : Packet → Packet
  | .leaked => .reclaimed
  | packet => packet

/-- Where the task of an operation is. `registering` is between the two loads of `poll_complete`;
`resolved` still has its future, `settled` is about to give the wrap back; `cancelling`, `unblocked`
and `leaving` are the early drop. -/
inductive Phase where
  | created
  | submitted
  | awaiting
  | registering
  | resolved (result : Except Error UInt32)
  | settled (result : Except Error UInt32)
  | returned (result : Except Error UInt32)
  | cancelling
  | unblocked
  | leaving
  | dropped

/-- An operation, with what the kernel answered to it and two things only the proofs look at: how
often the leaked reference was taken back, and which wakers were woken. -/
structure Op where
  address : Nat
  skipOnSuccess : Bool
  phase : Phase := .created
  packet : Packet := .leaked
  outcome : Outcome := { status := 0 }
  reclaims : Nat := 0
  woken : List Nat := []

inductive Action where
  | submit (ec reported : UInt32)
  | write (bytes : UInt32) (inner : Inner)
  | post (err len : UInt32)
  | dequeue
  | storeErr
  | storeLen
  | publish
  | wake
  | release
  | finish
  | poll (waker : Nat)
  | recheck
  | dropFuture
  | cancel
  | unblock
  | abandon
  | leave

namespace Op
variable (op : Op) (cell : Cell)

/-- The `Http*` call returns `ec`; it may have written the byte count by then. -/
def submit (ec reported : UInt32) : Option (Op × Cell) :=
  match op.phase with
  | .created =>
    some ({ op with
        phase := .submitted
        outcome := { status := ec, reported := reported }
        packet := if postsPacket op.skipOnSuccess ec then .pending else op.packet },
      { cell with wrap := { cell.wrap with bytes := reported } })
  | _ => none

def kernelStep : Action → Option (Op × Cell)
  | .write bytes inner =>
    match op.packet with
    | .pending => some (op, { cell with wrap := { cell.wrap with bytes := bytes, inner := inner } })
    | _ => none
  | .post err len =>
    match op.packet with
    | .pending => some ({ op with packet := .posted, outcome := { op.outcome with err := err, len := len } }, cell)
    | _ => none
  | _ => none

/-- `deliver_completion`, one atomic access at a time. -/
def deliverStep : Action → Option (Op × Cell)
  | .dequeue =>
    match op.packet with
    | .posted => some ({ op with packet := .held .taken, reclaims := op.reclaims + 1 }, cell)
    | _ => none
  | .storeErr =>
    match op.packet with
    | .held .taken =>
      some ({ op with packet := .held .errStored }, { cell with wrap := { cell.wrap with err := op.outcome.err } })
    | _ => none
  | .storeLen =>
    match op.packet with
    | .held .errStored =>
      some ({ op with packet := .held .lenStored }, { cell with wrap := { cell.wrap with len := op.outcome.len } })
    | _ => none
  | .publish =>
    match op.packet with
    | .held .lenStored =>
      some ({ op with packet := .held .published }, { cell with wrap := { cell.wrap with completed := true } })
    | _ => none
  | .wake =>
    match op.packet with
    | .held .published =>
      some ({ op with packet := .held .woken, woken := op.woken ++ cell.wrap.waker.toList },
        { cell with wrap := { cell.wrap with waker := none } })
    | _ => none
  | .release =>
    match op.packet with
    | .held .woken => some ({ op with packet := .released }, cell.drop)
    | _ => none
  | _ => none

/-- `Op::reclaim`. It cannot stop a packet that is on its way. -/
def reclaim : Op × Cell := ({ op with packet := op.packet.takeBack, reclaims := op.reclaims + 1 }, cell.drop)

/-- `Op::finish` up to its `give_back` or to the first poll of its future. -/
def finish : Option (Op × Cell) :=
  match op.phase with
  | .submitted =>
    if op.outcome.status = 0 ∧ op.skipOnSuccess = true then
      let result := .ok cell.wrap.bytes
      let (op, cell) := op.reclaim cell
      some ({ op with phase := .settled result }, cell)
    else if op.outcome.status = 0 ∨ op.outcome.status = errorIoPending then
      some ({ op with phase := .awaiting }, cell.clone)
    else
      let (op, cell) := op.reclaim cell
      some ({ op with phase := .settled (.error (.win32 op.outcome.status)) }, cell)
  | _ => none

/-- `AsyncOverlappedFuture` from its polls to the drop of it and of the operation. -/
def futureStep : Action → Option (Op × Cell)
  | .poll waker =>
    match op.phase with
    | .awaiting =>
      if cell.wrap.completed then some ({ op with phase := .resolved cell.wrap.result }, cell)
      else some ({ op with phase := .registering }, { cell with wrap := { cell.wrap with waker := some waker } })
    | _ => none
  | .recheck =>
    match op.phase with
    | .registering =>
      if cell.wrap.completed then some ({ op with phase := .resolved cell.wrap.result }, cell)
      else some ({ op with phase := .awaiting }, cell)
    | _ => none
  | .dropFuture =>
    match op.phase with
    | .resolved result => some ({ op with phase := .settled result }, cell.drop)
    | _ => none
  | .cancel =>
    match op.phase with
    | .awaiting => some ({ op with phase := if cell.wrap.completed then .unblocked else .cancelling }, cell)
    | _ => none
  | .unblock =>
    match op.phase with
    | .cancelling => if cell.wrap.completed then some ({ op with phase := .unblocked }, cell) else none
    | _ => none
  | .abandon =>
    match op.phase with
    | .unblocked => some ({ op with phase := .leaving }, cell.drop)
    | _ => none
  | .leave =>
    match op.phase with
    | .leaving => some ({ op with phase := .dropped }, cell.drop)
    | _ => none
  | _ => none

def act (action : Action) : Option (Op × Cell) :=
  match action with
  | .submit ec reported => op.submit cell ec reported
  | .write .. | .post .. => op.kernelStep cell action
  | .dequeue | .storeErr | .storeLen | .publish | .wake | .release => op.deliverStep cell action
  | .finish => op.finish cell
  | .poll .. | .recheck | .dropFuture | .cancel | .unblock | .abandon | .leave => op.futureStep cell action

end Op

structure State where
  heap : Nat → Cell := fun _ => {}
  next : Nat := 0
  free : List Nat := []
  slots : Nat
  ops : Nat → Option Op := fun _ => none
  opened : Nat := 0

inductive Label where
  | new (skipOnSuccess : Bool)
  | act (o : Nat) (action : Action)
  | giveBack (o : Nat)

namespace State

def init (slots : Nat) : State := { slots := max slots 1 }

/-- `OpPool::take`: the oldest free wrap, or a new one. -/
def take (s : State) : Nat × State :=
  match s.free with
  | address :: free => (address, { s with free := free })
  | [] =>
    (s.next, { s with next := s.next + 1, heap := Function.update s.heap s.next { strong := 1 } })

def openOp (s : State) (skipOnSuccess : Bool) : State :=
  let (address, s) := s.take
  { s with
    heap := Function.update s.heap address (s.heap address).clone
    ops := Function.update s.ops s.opened (some { address := address, skipOnSuccess := skipOnSuccess })
    opened := s.opened + 1 }

/-- `OpPool::give_back`; a push to a full queue drops the wrap. -/
def giveBack (s : State) (address : Nat) : State :=
  let cell := s.heap address
  if cell.strong = 1 then
    if s.free.length < s.slots then
      { s with heap := Function.update s.heap address { cell with wrap := {} }, free := s.free ++ [address] }
    else { s with heap := Function.update s.heap address { strong := 0 } }
  else { s with heap := Function.update s.heap address cell.drop }

def step (s : State) : Label → Option State
  | .new skipOnSuccess => some (s.openOp skipOnSuccess)
  | .act o action =>
    match s.ops o with
    | none => none
    | some op =>
      (op.act (s.heap op.address) action).map fun (op', cell) =>
        { s with heap := Function.update s.heap op.address cell, ops := Function.update s.ops o (some op') }
  | .giveBack o =>
    match s.ops o with
    | none => none
    | some op =>
      match op.phase with
      | .settled result =>
        some { s.giveBack op.address with ops := Function.update s.ops o (some { op with phase := .returned result }) }
      | _ => none

end State
end HttpSys.Overlapped
