import Mathlib.Data.List.Basic
import Mathlib.Data.List.Range

/-! Byte memory, stores into it, and reads that only see what was stored. -/
namespace Lib.Bytes

abbrev Memory := Nat → UInt8

def slice (m : Memory) (start length : Nat) : List UInt8 :=
  (List.range length).map fun i => m (start + i)

structure Write where
  offset : Nat
  bytes : List UInt8
  deriving Repr

def Write.Hits (w : Write) (i : Nat) : Prop := w.offset ≤ i ∧ i < w.offset + w.bytes.length

instance (w : Write) (i : Nat) : Decidable (w.Hits i) := inferInstanceAs (Decidable (_ ∧ _))

def store (m : Memory) (w : Write) : Memory := fun i =>
  if w.Hits i then w.bytes.getD (i - w.offset) 0 else m i

def storeAll (m : Memory) (ws : List Write) : Memory := ws.foldl store m

def Covers (ws : List Write) (start length : Nat) : Prop :=
  ∀ i, start ≤ i → i < start + length → ∃ w ∈ ws, w.Hits i

theorem store_congr {m m' : Memory} {i : Nat} (w : Write) (same : w.Hits i ∨ m i = m' i) :
    store m w i = store m' w i := by
  unfold store
  split
  · rfl
  · rename_i missed
    exact same.resolve_left missed

theorem storeAll_congr {m m' : Memory} {i : Nat} (ws : List Write)
    (same : (∃ w ∈ ws, w.Hits i) ∨ m i = m' i) : storeAll m ws i = storeAll m' ws i := by
  induction ws generalizing m m' with
  | nil => simpa [storeAll] using same
  | cons w ws ih =>
    apply ih
    rcases same with ⟨hit, member, hits⟩ | same
    · rcases List.mem_cons.mp member with rfl | later
      · exact Or.inr (store_congr hit (Or.inl hits))
      · exact Or.inl ⟨hit, later, hits⟩
    · exact Or.inr (store_congr w (Or.inr same))

theorem slice_storeAll_congr (m m' : Memory) {ws : List Write} {start length : Nat}
    (covers : Covers ws start length) :
    slice (storeAll m ws) start length = slice (storeAll m' ws) start length := by
  apply List.map_congr_left
  intro i member
  have bound := List.mem_range.mp member
  exact storeAll_congr ws (Or.inl (covers (start + i) (by omega) (by omega)))

def littleEndian (bytes : List UInt8) : Nat := bytes.foldr (fun b rest => b.toNat + 256 * rest) 0

end Lib.Bytes
