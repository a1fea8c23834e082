import Mathlib.Data.List.Basic
import Mathlib.Data.List.Flatten
import Mathlib.Data.List.Perm.Basic
import Mathlib.Data.List.Range

/-! Traces of numbered processes and what each process has done in them. Whatever is collected from
a trace is, up to order, what is collected from the processes one after the other. -/
namespace Lib.Interleaving

variable {ε α : Type} {trace : List (Nat × ε)} {i j : Nat} {e : ε}

/-- What process `i` did. -/
def only (i : Nat) (trace : List (Nat × ε)) : List ε :=
  trace.filterMap fun entry => if entry.1 = i then some entry.2 else none

theorem only_cons : only i ((j, e) :: trace) = if j = i then e :: only i trace else only i trace := by
  unfold only
  rw [List.filterMap_cons]
  by_cases same : j = i
  · simp only [same, if_true]
  · simp only [same, if_false]

theorem only_concat : only i (trace ++ [(j, e)]) = if j = i then only i trace ++ [e] else only i trace := by
  have last : only i [(j, e)] = if j = i then [e] else [] := only_cons
  unfold only at last ⊢
  rw [List.filterMap_append, last]
  by_cases same : j = i
  · rw [if_pos same, if_pos same]
  · rw [if_neg same, if_neg same, List.append_nil]

theorem only_of_absent (absent : ∀ entry ∈ trace, entry.1 ≠ i) : only i trace = [] := by
  apply List.filterMap_eq_nil_iff.mpr
  intro entry member
  exact if_neg (absent entry member)

theorem flatMap_single {n : Nat} (small : j < n) (block : List α) :
    (List.range n).flatMap (fun i => if j = i then block else []) = block := by
  induction n with
  | zero => omega
  | succ n ih =>
    rw [List.range_succ, List.flatMap_append, List.flatMap_singleton]
    by_cases last : j = n
    · have none_ : (List.range n).flatMap (fun i => if j = i then block else []) = [] := by
        apply List.flatMap_eq_nil_iff.mpr
        intro i member
        have below := List.mem_range.mp member
        exact if_neg (by omega)
      rw [none_, if_pos last, List.nil_append]
    · rw [ih (by omega), if_neg last, List.append_nil]

theorem filterMap_perm_processes {n : Nat} (f : ε → Option α) (bounded : ∀ entry ∈ trace, entry.1 < n) :
    (trace.filterMap fun entry => f entry.2).Perm
      ((List.range n).flatMap fun i => (only i trace).filterMap f) := by
  induction trace with
  | nil =>
    have none_ : (List.range n).flatMap (fun i => (only i ([] : List (Nat × ε))).filterMap f) = [] :=
      List.flatMap_eq_nil_iff.mpr fun i _ => rfl
    rw [none_]
    exact List.Perm.refl _
  | cons entry trace ih =>
    obtain ⟨j, e⟩ := entry
    have small : j < n := bounded _ List.mem_cons_self
    have rest := ih fun entry member => bounded entry (List.mem_cons_of_mem _ member)
    have split : ∀ i, (only i ((j, e) :: trace)).filterMap f =
        (if j = i then [e].filterMap f else []) ++ (only i trace).filterMap f := by
      intro i
      rw [only_cons]
      by_cases same : j = i
      · rw [if_pos same, if_pos same, ← List.filterMap_append, List.singleton_append]
      · rw [if_neg same, if_neg same, List.nil_append]
    have joined := List.flatMap_append_perm (List.range n) (fun i => if j = i then [e].filterMap f else [])
      (fun i => (only i trace).filterMap f)
    rw [flatMap_single small] at joined
    simp only [split]
    have head : ((j, e) :: trace).filterMap (fun entry => f entry.2) =
        [e].filterMap f ++ trace.filterMap (fun entry => f entry.2) := by
      rw [List.filterMap_cons, List.filterMap_cons, List.filterMap_nil]
      cases f e <;> rfl
    rw [head]
    exact (rest.append_left _).trans joined

theorem flatMap_length_le {β : Type} {l : List β} {f g : β → List α} (le : ∀ b ∈ l, (f b).length ≤ (g b).length) :
    (l.flatMap f).length ≤ (l.flatMap g).length := by
  induction l with
  | nil => exact Nat.le_refl 0
  | cons b l ih =>
    have first := le b List.mem_cons_self
    have rest := ih fun b member => le b (List.mem_cons_of_mem _ member)
    simp only [List.flatMap_cons, List.length_append]
    omega

/-- Where one family of blocks is nowhere longer than another and the two have the same length in all, they agree in
length at each place. -/
theorem flatMap_length_eq {β : Type} {l : List β} {f g : β → List α} (le : ∀ b ∈ l, (f b).length ≤ (g b).length)
    (total : (l.flatMap f).length = (l.flatMap g).length) : ∀ b ∈ l, (f b).length = (g b).length := by
  induction l with
  | nil => intro b member; cases member
  | cons c l ih =>
    have tail : ∀ b ∈ l, (f b).length ≤ (g b).length := fun b member => le b (List.mem_cons_of_mem _ member)
    have first := le c List.mem_cons_self
    have rest := flatMap_length_le tail
    simp only [List.flatMap_cons, List.length_append] at total
    intro b member
    rcases List.mem_cons.mp member with rfl | member
    · omega
    · exact ih tail (by omega) b member

theorem map_eq_of_entries {β γ : Type} {table : List β} {f : β → γ} {g : Nat → γ}
    (same : ∀ i entry, table[i]? = some entry → f entry = g i) : table.map f = (List.range table.length).map g := by
  apply List.ext_getElem
  · rw [List.length_map, List.length_map, List.length_range]
  · intro i left right
    have small : i < table.length := by rwa [List.length_map] at left
    rw [List.getElem_map, List.getElem_map, List.getElem_range]
    exact same i _ (List.getElem?_eq_getElem small)

end Lib.Interleaving
