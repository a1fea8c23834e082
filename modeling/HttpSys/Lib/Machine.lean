import Mathlib.Data.List.Basic
import Mathlib.Logic.Function.Basic

/-! Finite runs of a partial step function over a schedule of labels. The labels
resolve every choice of the environment, so a statement about all schedules is
a statement about all interleavings. -/
namespace Lib.Machine

variable {σ ε : Type} {step : σ → ε → Option σ} {s t u : σ} {e : ε} {es fs : List ε}

/-- Follow a schedule; `none` when one of its steps is not enabled. -/
def run (step : σ → ε → Option σ) (s : σ) (es : List ε) : Option σ := es.foldlM step s

@[simp] theorem run_nil : run step s [] = some s := rfl

theorem run_cons : run step s (e :: es) = some t ↔ ∃ m, step s e = some m ∧ run step m es = some t := by
  simp [run, List.foldlM_cons, Option.bind_eq_some_iff]

theorem run_append : run step s (es ++ fs) = some t ↔
    ∃ m, run step s es = some m ∧ run step m fs = some t := by
  simp [run, List.foldlM_append, Option.bind_eq_some_iff]

theorem of_guard {P : Prop} [Decidable P] (h : (if P then some s else none) = some t) : P ∧ s = t := by
  split at h
  · rename_i holds
    exact ⟨holds, Option.some.inj h⟩
  · cases h

theorem run_invariant {P : σ → Prop} (keep : ∀ s e t, P s → step s e = some t → P t)
    (start : P s) (h : run step s es = some t) : P t := by
  induction es generalizing s with
  | nil => cases h; exact start
  | cons e es ih =>
    obtain ⟨m, first, rest⟩ := run_cons.mp h
    exact ih (keep s e m start first) rest

/-- Every step of the schedule is taken in a state where `Q` allows it. -/
def Meets (step : σ → ε → Option σ) (Q : σ → ε → Prop) : σ → List ε → Prop
  | _, [] => True
  | s, e :: es => Q s e ∧ ∀ t, step s e = some t → Meets step Q t es

theorem run_invariant_of_meets {P : σ → Prop} {Q : σ → ε → Prop}
    (keep : ∀ s e t, P s → Q s e → step s e = some t → P t)
    (start : P s) (meets : Meets step Q s es) (h : run step s es = some t) : P t := by
  induction es generalizing s with
  | nil => cases h; exact start
  | cons e es ih =>
    obtain ⟨m, first, rest⟩ := run_cons.mp h
    exact ih (keep s e m start meets.1 first) (meets.2 m first) rest

theorem meets_of_invariant {P : σ → Prop} {Q : σ → ε → Prop}
    (keep : ∀ s e t, P s → step s e = some t → P t) (enough : ∀ s e t, P s → step s e = some t → Q s e)
    (start : P s) (h : run step s es = some t) : Meets step Q s es := by
  induction es generalizing s with
  | nil => trivial
  | cons e es ih =>
    obtain ⟨m, first, rest⟩ := run_cons.mp h
    refine ⟨enough s e m start first, ?_⟩
    intro m' other
    obtain rfl : m = m' := Option.some.inj (first.symm.trans other)
    exact ih (keep s e m start first) rest

theorem meets_of_forall {Q : ε → Prop} (all : ∀ e ∈ es, Q e) : Meets step (fun _ e => Q e) s es := by
  induction es generalizing s with
  | nil => trivial
  | cons e es ih =>
    exact ⟨all e List.mem_cons_self, fun t _ => ih fun e member => all e (List.mem_cons_of_mem _ member)⟩

theorem meets_of_free {Q : σ → ε → Prop} (free : ∀ e ∈ es, ∀ s, Q s e) : Meets step Q s es := by
  induction es generalizing s with
  | nil => trivial
  | cons e es ih =>
    exact ⟨free e List.mem_cons_self s, fun t _ => ih fun e member => free e (List.mem_cons_of_mem _ member)⟩

theorem meets_append {Q : σ → ε → Prop} (first : Meets step Q s es)
    (second : ∀ t, run step s es = some t → Meets step Q t fs) : Meets step Q s (es ++ fs) := by
  induction es generalizing s with
  | nil => exact second s rfl
  | cons e es ih =>
    refine ⟨first.1, fun t stepped => ih (first.2 t stepped) ?_⟩
    intro u ran
    exact second u (run_cons.mpr ⟨t, stepped, ran⟩)

def Reachable (step : σ → ε → Option σ) (s t : σ) : Prop := ∃ es, run step s es = some t

theorem reachable_refl : Reachable step s s := ⟨[], rfl⟩

theorem reachable_trans (first : Reachable step s t) (second : Reachable step t u) :
    Reachable step s u := by
  obtain ⟨es, left⟩ := first
  obtain ⟨fs, right⟩ := second
  exact ⟨es ++ fs, run_append.mpr ⟨t, left, right⟩⟩

/-- An entry of a table of processes after one of them was replaced. -/
theorem update_eq_some {α : Type} {table : Nat → Option α} {i j : Nat} {new entry : α}
    (found : Function.update table i (some new) j = some entry) :
    (j = i ∧ entry = new) ∨ (j ≠ i ∧ table j = some entry) := by
  by_cases same : j = i
  · subst same
    rw [Function.update_self] at found
    exact Or.inl ⟨rfl, (Option.some.inj found).symm⟩
  · rw [Function.update_of_ne same] at found
    exact Or.inr ⟨same, found⟩

theorem countP_set {α : Type} (p : α → Bool) {table : List α} {i : Nat} {old : α} (new : α)
    (found : table[i]? = some old) :
    (table.set i new).countP p + (if p old then 1 else 0) = table.countP p + (if p new then 1 else 0) := by
  induction table generalizing i with
  | nil => simp at found
  | cons head tail ih =>
    cases i with
    | zero =>
      obtain rfl : head = old := by simpa using found
      simp only [List.set_cons_zero, List.countP_cons]
      omega
    | succ i =>
      have rest := ih (by simpa using found : tail[i]? = some old)
      simp only [List.set_cons_succ, List.countP_cons]
      omega

end Lib.Machine
