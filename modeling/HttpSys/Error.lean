import Mathlib.Data.List.Basic

/-! `error.rs`, with the Win32 status codes the crate tests for. -/
namespace HttpSys

inductive Error where
  | win32 (code : UInt32)
  | headersTooLarge (needed : UInt32)
  | queueClosed
  deriving DecidableEq, Repr

def errorInvalidHandle : UInt32 := 6
def errorNoMoreFiles : UInt32 := 18
def errorHandleEof : UInt32 := 38
def errorMoreData : UInt32 := 234
def errorOperationAborted : UInt32 := 995
def errorIoPending : UInt32 := 997

def Error.win32Code : Error → Option UInt32
  | .win32 code => some code
  | _ => none

def isTerminal (e : Error) : Bool :=
  match e.win32Code with
  | some code =>
    code == errorOperationAborted || code == errorInvalidHandle || code == errorNoMoreFiles
  | none => false

end HttpSys
