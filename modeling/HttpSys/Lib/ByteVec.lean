import Mathlib.Data.List.Basic
import Mathlib.Data.List.Range

/-! A growable byte vector: the bytes below its length, and the allocated bytes
behind them. What freshly allocated memory holds is left open. -/
namespace Lib

structure ByteVec where
  data : List UInt8 := []
  spare : List UInt8 := []
  deriving DecidableEq, Repr

namespace ByteVec
variable (fill : Nat → UInt8) (v : ByteVec)

def len : Nat := v.data.length

def capacity : Nat := v.data.length + v.spare.length

def grow (capacity : Nat) : ByteVec :=
  { v with spare := (List.range (capacity - v.len)).map fill }

/-- Amortized growth: at least double, and at least eight bytes. -/
def reserve (additional : Nat) : ByteVec :=
  if v.spare.length < additional then
    v.grow fill (max (max (2 * v.capacity) (v.len + additional)) 8)
  else v

def reserveExact (additional : Nat) : ByteVec :=
  if v.spare.length < additional then v.grow fill (v.len + additional) else v

def overwrite (bytes : List UInt8) : ByteVec := { v with spare := bytes ++ v.spare.drop bytes.length }

def setLen (n : Nat) : ByteVec :=
  { data := (v.data ++ v.spare).take n, spare := (v.data ++ v.spare).drop n }

def extendFromSlice (bytes : List UInt8) : ByteVec :=
  ((v.reserve fill bytes.length).overwrite bytes).setLen (v.len + bytes.length)

def clear : ByteVec := v.setLen 0

@[simp] theorem grow_data (capacity : Nat) : (v.grow fill capacity).data = v.data := rfl

@[simp] theorem grow_spare_length (capacity : Nat) :
    (v.grow fill capacity).spare.length = capacity - v.len := by
  simp [grow]

@[simp] theorem reserve_data (additional : Nat) : (v.reserve fill additional).data = v.data := by
  unfold reserve
  split <;> rfl

@[simp] theorem reserveExact_data (additional : Nat) : (v.reserveExact fill additional).data = v.data := by
  unfold reserveExact
  split <;> rfl

theorem reserve_room (additional : Nat) : additional ≤ (v.reserve fill additional).spare.length := by
  unfold reserve
  split
  · rw [grow_spare_length]
    omega
  · omega

theorem grow_capacity {capacity : Nat} (larger : v.len ≤ capacity) : (v.grow fill capacity).capacity = capacity := by
  have spare := v.grow_spare_length fill capacity
  unfold ByteVec.capacity
  rw [spare, grow_data]
  unfold len at *
  omega

theorem reserve_capacity (additional : Nat) : (v.reserve fill additional).capacity =
    if v.spare.length < additional then max (max (2 * v.capacity) (v.len + additional)) 8 else v.capacity := by
  unfold reserve
  split
  · exact v.grow_capacity fill (by omega)
  · rfl

theorem reserveExact_capacity (additional : Nat) :
    (v.reserveExact fill additional).capacity = max v.capacity (v.len + additional) := by
  have size : v.capacity = v.len + v.spare.length := rfl
  unfold reserveExact
  split
  · rw [v.grow_capacity fill (by omega)]
    omega
  · omega

@[simp] theorem setLen_capacity (n : Nat) : (v.setLen n).capacity = v.capacity := by
  simp only [setLen, capacity, List.length_take, List.length_drop, List.length_append]
  omega

theorem overwrite_capacity {bytes : List UInt8} (fits : bytes.length ≤ v.spare.length) :
    (v.overwrite bytes).capacity = v.capacity := by
  simp only [overwrite, capacity, List.length_append, List.length_drop]
  omega

theorem extendFromSlice_capacity (bytes : List UInt8) :
    (v.extendFromSlice fill bytes).capacity = (v.reserve fill bytes.length).capacity := by
  rw [extendFromSlice, setLen_capacity]
  exact (v.reserve fill bytes.length).overwrite_capacity (v.reserve_room fill bytes.length)

/-- Writing into the spare bytes and exposing some of them moves no allocation. -/
theorem overwrite_setLen_capacity {bytes : List UInt8} (fits : bytes.length ≤ v.capacity - v.len) (n : Nat) :
    ((v.overwrite bytes).setLen n).capacity = v.capacity := by
  have spare : v.capacity - v.len = v.spare.length := by simp [capacity, len]
  rw [setLen_capacity, v.overwrite_capacity (by omega)]

theorem overwrite_setLen_len {bytes : List UInt8} {n : Nat} (fits : bytes.length ≤ v.capacity - v.len)
    (exposed : n ≤ v.capacity - v.len) : ((v.overwrite bytes).setLen (v.len + n)).len = v.len + n := by
  simp only [len, capacity, setLen, overwrite, List.length_take, List.length_append, List.length_drop] at *
  omega

@[simp] theorem clear_data : v.clear.data = [] := rfl

@[simp] theorem clear_capacity : v.clear.capacity = v.capacity := v.setLen_capacity 0

theorem overwrite_setLen_data (bytes : List UInt8) {n : Nat} (filled : n = v.len + bytes.length) :
    ((v.overwrite bytes).setLen n).data = v.data ++ bytes := by
  simp only [overwrite, setLen, ← List.append_assoc]
  exact List.take_left' (by simp [filled, len])

@[simp] theorem extendFromSlice_data (bytes : List UInt8) :
    (v.extendFromSlice fill bytes).data = v.data ++ bytes := by
  have exposed := (v.reserve fill bytes.length).overwrite_setLen_data bytes (n := v.len + bytes.length) (by simp [len])
  rw [extendFromSlice, exposed, reserve_data]

/-- Equal as far as safe code can tell: the spare bytes may differ. -/
structure Alike (v w : ByteVec) : Prop where
  data : v.data = w.data
  spare : v.spare.length = w.spare.length

namespace Alike
variable {v w : ByteVec} (alike : Alike v w) (fill fill' : Nat → UInt8)
include alike

theorem len : v.len = w.len := congrArg List.length alike.data

theorem capacity : v.capacity = w.capacity := by
  unfold ByteVec.capacity
  rw [alike.data, alike.spare]

theorem grow (c : Nat) : Alike (v.grow fill c) (w.grow fill' c) :=
  ⟨alike.data, by rw [grow_spare_length, grow_spare_length, alike.len]⟩

theorem reserve (n : Nat) : Alike (v.reserve fill n) (w.reserve fill' n) := by
  unfold ByteVec.reserve
  rw [alike.spare, alike.capacity, alike.len]
  split
  · exact alike.grow fill fill' _
  · exact alike

theorem reserveExact (n : Nat) : Alike (v.reserveExact fill n) (w.reserveExact fill' n) := by
  unfold ByteVec.reserveExact
  rw [alike.spare, alike.len]
  split
  · exact alike.grow fill fill' _
  · exact alike

theorem overwrite (bytes : List UInt8) : Alike (v.overwrite bytes) (w.overwrite bytes) :=
  ⟨alike.data, by simp [ByteVec.overwrite, alike.spare]⟩

/-- Only bytes that were written in both runs may be exposed. -/
theorem overwrite_setLen {bytes : List UInt8} {n : Nat} (filled : n = v.len + bytes.length) :
    Alike ((v.overwrite bytes).setLen n) ((w.overwrite bytes).setLen n) := by
  refine ⟨?_, ?_⟩
  · rw [overwrite_setLen_data v bytes filled, overwrite_setLen_data w bytes (alike.len ▸ filled), alike.data]
  · simp [ByteVec.setLen, ByteVec.overwrite, alike.data, alike.spare]

theorem extendFromSlice (bytes : List UInt8) :
    Alike (v.extendFromSlice fill bytes) (w.extendFromSlice fill' bytes) := by
  have reserved := alike.reserve fill fill' bytes.length
  unfold ByteVec.extendFromSlice
  rw [alike.len]
  exact reserved.overwrite_setLen (by simp [ByteVec.len, alike.data])

theorem clear : Alike v.clear w.clear :=
  ⟨rfl, by simp [ByteVec.clear, ByteVec.setLen, alike.data, alike.spare]⟩

end Alike
end ByteVec
end Lib
