import HttpSys.Lib.Machine
import Mathlib.Data.List.Count
import Mathlib.Data.List.Range

/-! Tickets in flight and the processes that issued them. The tickets lie in several bags; a
system keeps them in step with its table of processes by counting, ticket for ticket. -/
namespace Lib.Tickets

variable {α β τ : Type} [DecidableEq τ]

/-- How many of the first `n` processes have the ticket out. -/
def holders (ticket : α → Option τ) (table : Nat → Option α) (n : Nat) (e : τ) : Nat :=
  (List.range n).countP fun o => (table o).bind ticket = some e

/-- How many copies of the ticket lie in the bags. -/
def inBags (bag : β → List τ) (bags : List β) (e : τ) : Nat := (bags.flatMap bag).count e

section Holders
variable {ticket : α → Option τ} {table : Nat → Option α} {n o : Nat} {e : τ} {old new : α}

theorem holders_congr {table' : Nat → Option α} (same : ∀ o < n, (table' o).bind ticket = (table o).bind ticket) :
    holders ticket table' n e = holders ticket table n e := by
  apply List.countP_congr
  intro o member
  rw [same o (List.mem_range.mp member)]

theorem holders_succ : holders ticket table (n + 1) e =
    holders ticket table n e + if (table n).bind ticket = some e then 1 else 0 := by
  simp [holders, List.range_succ, List.countP_append, List.countP_singleton]

theorem holders_update (ticket : α → Option τ) (new : α) (e : τ) (below : o < n) (found : table o = some old) :
    holders ticket (Function.update table o (some new)) n e + (if ticket old = some e then 1 else 0) =
      holders ticket table n e + if ticket new = some e then 1 else 0 := by
  induction n with
  | zero => omega
  | succ n ih =>
    rw [holders_succ, holders_succ]
    rcases Nat.lt_succ_iff_lt_or_eq.mp below with earlier | rfl
    · rw [Function.update_of_ne (Nat.ne_of_gt earlier)]
      have before := ih earlier
      omega
    · have before : holders ticket (Function.update table o (some new)) o e = holders ticket table o e := by
        apply holders_congr
        intro i earlier
        rw [Function.update_of_ne (Nat.ne_of_lt earlier)]
      rw [before, Function.update_self, found, Option.bind_some, Option.bind_some]
      omega

theorem exists_of_holders (some_ : 0 < holders ticket table n e) :
    ∃ o p, o < n ∧ table o = some p ∧ ticket p = some e := by
  obtain ⟨o, member, holds⟩ := List.countP_pos_iff.mp some_
  obtain ⟨p, found, out⟩ := Option.bind_eq_some_iff.mp (of_decide_eq_true holds)
  exact ⟨o, p, List.mem_range.mp member, found, out⟩

theorem holders_pos {p : α} (below : o < n) (found : table o = some p) (out : ticket p = some e) :
    0 < holders ticket table n e := by
  apply List.countP_pos_iff.mpr
  refine ⟨o, List.mem_range.mpr below, decide_eq_true ?_⟩
  rw [found]
  exact out

theorem holders_le_one (unique : ∀ o o' p p', table o = some p → table o' = some p' →
    ticket p = some e → ticket p' = some e → o = o') : holders ticket table n e ≤ 1 := by
  induction n with
  | zero => exact Nat.zero_le 1
  | succ n ih =>
    rw [holders_succ]
    split
    · rename_i last
      obtain ⟨p, found, out⟩ := Option.bind_eq_some_iff.mp last
      have none_ : ¬ 0 < holders ticket table n e := by
        intro some_
        obtain ⟨o, p', below, found', out'⟩ := exists_of_holders some_
        exact Nat.ne_of_lt below (unique o n p' p found' found out' out)
      omega
    · exact ih

end Holders

section Bags
variable {bag : β → List τ} {bags : List β} {i j : Nat} {e : τ} {old new : β}

theorem inBags_set (bag : β → List τ) (new : β) (e : τ) (found : bags[i]? = some old) :
    inBags bag (bags.set i new) e + (bag old).count e = inBags bag bags e + (bag new).count e := by
  unfold inBags
  induction bags generalizing i with
  | nil => cases found
  | cons head tail ih =>
    cases i with
    | zero =>
      obtain rfl : head = old := by simpa using found
      simp only [List.set_cons_zero, List.flatMap_cons, List.count_append]
      omega
    | succ i =>
      have rest := ih (by simpa using found : tail[i]? = some old)
      simp only [List.set_cons_succ, List.flatMap_cons, List.count_append]
      omega

theorem inBags_ge (bag : β → List τ) (e : τ) (found : bags[i]? = some old) : (bag old).count e ≤ inBags bag bags e := by
  have inside : bag old ∈ bags.map bag := List.mem_map_of_mem (List.mem_of_getElem? found)
  have sub := (List.sublist_flatten_of_mem inside).count_le e
  rw [← List.flatMap_def] at sub
  exact sub

theorem inBags_two (apart : i ≠ j) (found : bags[i]? = some old) (found' : bags[j]? = some new)
    (member : e ∈ bag old) (member' : e ∈ bag new) : 2 ≤ inBags bag bags e := by
  have one := List.count_pos_iff.mpr member
  have one' := List.count_pos_iff.mpr member'
  induction bags generalizing i j with
  | nil => cases found
  | cons head tail ih =>
    have split : inBags bag (head :: tail) e = (bag head).count e + inBags bag tail e := by
      simp only [inBags, List.flatMap_cons, List.count_append]
    rw [split]
    cases i with
    | zero =>
      obtain ⟨j, rfl⟩ := Nat.exists_eq_succ_of_ne_zero (Ne.symm apart)
      obtain rfl : head = old := by simpa using found
      have rest := inBags_ge bag e (by simpa using found' : tail[j]? = some new)
      omega
    | succ i =>
      cases j with
      | zero =>
        obtain rfl : head = new := by simpa using found'
        have rest := inBags_ge bag e (by simpa using found : tail[i]? = some old)
        omega
      | succ j =>
        have rest := ih (by omega : i ≠ j) (by simpa using found) (by simpa using found')
        omega

end Bags
end Lib.Tickets
