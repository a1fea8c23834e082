import HttpSys.Error

/-! How an overlapped call resolves, as a function of what the kernel answered. -/
namespace HttpSys

/-- The status an `Http*` call returned, the count it left behind `pBytesReturned`
by then, and the error and byte count of its completion packet, if one is posted. -/
structure Outcome where
  status : UInt32
  reported : UInt32 := 0
  err : UInt32 := 0
  len : UInt32 := 0
  deriving DecidableEq, Repr

def wrapResult (err len : UInt32) : Except Error UInt32 :=
  if err = 0 then .ok len else .error (.win32 err)

/-- The kernel posts a packet for these statuses and for no other. -/
def postsPacket (skipOnSuccess : Bool) (ec : UInt32) : Bool :=
  ec == errorIoPending || (ec == 0 && !skipOnSuccess)

/-- `Op::finish`. -/
def Outcome.finish (skipOnSuccess : Bool) (o : Outcome) : Except Error UInt32 :=
  if o.status = 0 ∧ skipOnSuccess = true then .ok o.reported
  else if o.status = 0 ∨ o.status = errorIoPending then wrapResult o.err o.len
  else .error (.win32 o.status)

end HttpSys
