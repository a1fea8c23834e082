import Mathlib.Logic.Function.Basic
import Mathlib.Data.List.Basic

/-! Owned values and what dropping them does. A value runs its own destructor and then
drops its fields in the order they are declared in; a shared value goes with its last
clone. `κ` names the shared cells and `ε` is what destructors leave in a trace. -/
namespace Lib.Ownership

inductive Owned (κ ε : Type) where
  | value (onDrop : List ε) (fields : List (Owned κ ε))
  | shared (cell : κ) (content : Owned κ ε)

/-- How many clones of each shared value there are, and what has happened so far. -/
structure Heap (κ ε : Type) where
  clones : κ → Nat
  trace : List ε

namespace Heap
variable {κ ε : Type} (h : Heap κ ε)

def emit (es : List ε) : Heap κ ε := { h with trace := h.trace ++ es }

theorem emit_nil : h.emit [] = h := by
  rw [emit, List.append_nil]

theorem emit_emit (es fs : List ε) : (h.emit es).emit fs = h.emit (es ++ fs) := by
  simp only [emit, List.append_assoc]

variable [DecidableEq κ]

def clone (cell : κ) : Heap κ ε := { h with clones := Function.update h.clones cell (h.clones cell + 1) }

def release (cell : κ) : Heap κ ε := { h with clones := Function.update h.clones cell (h.clones cell - 1) }

end Heap

variable {κ ε : Type}

/-- What happened before has no influence on what a drop does. -/
def Adds (f : Heap κ ε → Heap κ ε) : Prop :=
  ∀ clones trace, f ⟨clones, trace⟩ = ⟨(f ⟨clones, []⟩).clones, trace ++ (f ⟨clones, []⟩).trace⟩

theorem adds_then {f g : Heap κ ε → Heap κ ε} (first : Adds f) (second : Adds g) : Adds fun h => g (f h) := by
  intro clones trace
  show g (f ⟨clones, trace⟩) = ⟨(g (f ⟨clones, []⟩)).clones, trace ++ (g (f ⟨clones, []⟩)).trace⟩
  rw [first clones trace, second _ (trace ++ _), second (f ⟨clones, []⟩).clones (f ⟨clones, []⟩).trace,
    List.append_assoc]

variable [DecidableEq κ]

mutual

def drop : Owned κ ε → Heap κ ε → Heap κ ε
  | .value onDrop fields, h => dropAll fields (h.emit onDrop)
  | .shared cell content, h => if h.clones cell = 1 then drop content (h.release cell) else h.release cell

def dropAll : List (Owned κ ε) → Heap κ ε → Heap κ ε
  | [], h => h
  | owned :: rest, h => dropAll rest (drop owned h)

end

theorem drop_clone {cell : κ} {content : Owned κ ε} {h : Heap κ ε} (others : h.clones cell ≠ 1) :
    drop (.shared cell content) h = h.release cell := by
  rw [drop, if_neg others]

mutual

theorem drop_adds : ∀ owned : Owned κ ε, Adds (drop owned)
  | .value onDrop fields => by
    have emits : Adds fun h : Heap κ ε => h.emit onDrop := fun clones trace => by simp [Heap.emit]
    have both := adds_then emits (dropAll_adds fields)
    intro clones trace
    simp only [drop]
    exact both clones trace
  | .shared cell content => by
    intro clones trace
    have inner := drop_adds content (Function.update clones cell (clones cell - 1)) trace
    simp only [drop, Heap.release]
    split
    · exact inner
    · simp

theorem dropAll_adds : ∀ owned : List (Owned κ ε), Adds (dropAll owned)
  | [] => fun clones trace => by simp [dropAll]
  | owned :: rest => by
    have both := adds_then (drop_adds owned) (dropAll_adds rest)
    intro clones trace
    simp only [dropAll]
    exact both clones trace

end

end Lib.Ownership
