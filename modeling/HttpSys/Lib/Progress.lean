import HttpSys.Lib.Machine

/-! Runs that have to end. Steps of a kind that always use up some work can be taken only so often, and
the work of a system is the sum of what is left for each of its processes. -/
namespace Lib.Progress
open Lib.Machine

variable {σ ε α : Type}

/-- Steps outside `costly` may come in any number, but leave no more work than there was. -/
theorem countP_add_work_le {step : σ → ε → Option σ} {I : σ → Prop} {P : ε → Prop} (costly : ε → Bool) (work : σ → Nat)
    {s t : σ} {es : List ε}
    (keep : ∀ s e t, I s → P e → step s e = some t → I t ∧ work t + (if costly e then 1 else 0) ≤ work s)
    (start : I s) (all : ∀ e ∈ es, P e) (h : run step s es = some t) : es.countP costly + work t ≤ work s := by
  induction es generalizing s with
  | nil =>
    cases h
    exact Nat.le_of_eq (Nat.zero_add _)
  | cons e es ih =>
    obtain ⟨m, first, rest⟩ := run_cons.mp h
    obtain ⟨kept, less⟩ := keep s e m start (all e List.mem_cons_self) first
    have bound := ih kept (fun e member => all e (List.mem_cons_of_mem _ member)) rest
    rw [List.countP_cons]
    omega

theorem length_add_work_le {step : σ → ε → Option σ} {I : σ → Prop} {P : ε → Prop} (work : σ → Nat) {s t : σ}
    {es : List ε} (keep : ∀ s e t, I s → P e → step s e = some t → I t ∧ work t < work s)
    (start : I s) (all : ∀ e ∈ es, P e) (h : run step s es = some t) : es.length + work t ≤ work s := by
  have bound := countP_add_work_le (fun _ => true) work keep start all h
  rw [List.countP_true] at bound
  exact bound

/-- What is left for the first `n` processes of a table. -/
def load (weight : α → Nat) (table : Nat → Option α) : Nat → Nat
  | 0 => 0
  | n + 1 => load weight table n + ((table n).map weight).getD 0

variable {weight : α → Nat} {table : Nat → Option α} {n o : Nat} {old : α}

theorem load_congr {table' : Nat → Option α} (same : ∀ o < n, table' o = table o) :
    load weight table' n = load weight table n := by
  induction n with
  | zero => rfl
  | succ n ih =>
    rw [load, load, same n (Nat.lt_succ_self n), ih fun o below => same o (Nat.lt_succ_of_lt below)]

theorem load_update (weight : α → Nat) (new : α) (below : o < n) (found : table o = some old) :
    load weight (Function.update table o (some new)) n + weight old = load weight table n + weight new := by
  induction n with
  | zero => omega
  | succ n ih =>
    rw [load, load]
    rcases Nat.lt_succ_iff_lt_or_eq.mp below with earlier | rfl
    · rw [Function.update_of_ne (Nat.ne_of_gt earlier)]
      have before := ih earlier
      omega
    · have before : load weight (Function.update table o (some new)) o = load weight table o := by
        apply load_congr
        intro i earlier
        rw [Function.update_of_ne (Nat.ne_of_lt earlier)]
      rw [before, Function.update_self, found]
      simp only [Option.map_some, Option.getD_some]
      omega

theorem load_le {weight' : α → Nat} {table' : Nat → Option α}
    (each : ∀ o < n, ((table' o).map weight').getD 0 ≤ ((table o).map weight).getD 0) :
    load weight' table' n ≤ load weight table n := by
  induction n with
  | zero => exact Nat.le_refl 0
  | succ n ih =>
    have rest := ih fun o below => each o (Nat.lt_succ_of_lt below)
    exact Nat.add_le_add rest (each n (Nat.lt_succ_self n))

/-- One process uses up work, and none gets more. -/
theorem load_lt {weight' : α → Nat} {table' : Nat → Option α} (below : o < n)
    (each : ∀ o < n, ((table' o).map weight').getD 0 ≤ ((table o).map weight).getD 0)
    (less : ((table' o).map weight').getD 0 < ((table o).map weight).getD 0) :
    load weight' table' n < load weight table n := by
  induction n with
  | zero => cases below
  | succ n ih =>
    have before : ∀ p < n, ((table' p).map weight').getD 0 ≤ ((table p).map weight).getD 0 :=
      fun p inside => each p (Nat.lt_succ_of_lt inside)
    rcases Nat.lt_succ_iff_lt_or_eq.mp below with earlier | rfl
    · exact Nat.add_lt_add_of_lt_of_le (ih earlier before) (each n (Nat.lt_succ_self n))
    · exact Nat.add_lt_add_of_le_of_lt (load_le before) less

/-- The processes of a list. -/
def listLoad (weight : α → Nat) (processes : List α) : Nat := load weight (fun i => processes[i]?) processes.length

theorem listLoad_le {bound : Nat} {processes : List α} (each : ∀ process ∈ processes, weight process ≤ bound) :
    listLoad weight processes ≤ bound * processes.length := by
  have below : ∀ m, m ≤ processes.length → load weight (fun i => processes[i]?) m ≤ bound * m := by
    intro m
    induction m with
    | zero => exact fun _ => Nat.le_refl 0
    | succ m ih =>
      intro inside
      have one := each _ (List.getElem_mem inside)
      have rest := ih (Nat.le_of_succ_le inside)
      rw [load, List.getElem?_eq_getElem inside, Nat.mul_succ]
      simp only [Option.map_some, Option.getD_some]
      omega
  exact below _ (Nat.le_refl _)

theorem listLoad_concat (weight : α → Nat) (processes : List α) (last : α) :
    listLoad weight (processes ++ [last]) = listLoad weight processes + weight last := by
  have before : load weight (fun i => (processes ++ [last])[i]?) processes.length =
      load weight (fun i => processes[i]?) processes.length := by
    apply load_congr
    intro i inside
    exact List.getElem?_append_left inside
  rw [listLoad, List.length_append, List.length_singleton, load, before, List.getElem?_concat_length]
  rfl

theorem listLoad_set (weight : α → Nat) {processes : List α} {i : Nat} (new : α) (found : processes[i]? = some old) :
    listLoad weight (processes.set i new) + weight old = listLoad weight processes + weight new := by
  obtain ⟨below, -⟩ := List.getElem?_eq_some_iff.mp found
  have table : (fun j => (processes.set i new)[j]?) = Function.update (fun j => processes[j]?) i (some new) := by
    funext j
    by_cases same : j = i
    · subst same
      rw [Function.update_self, List.getElem?_set_self below]
    · rw [Function.update_of_ne same, List.getElem?_set_ne (Ne.symm same)]
  unfold listLoad
  rw [table, List.length_set]
  exact load_update weight new below found

theorem listLoad_set_lt {weight' : α → Nat} {processes : List α} {i : Nat} {new : α}
    (found : processes[i]? = some old) (less : weight' new < weight old)
    (others : ∀ j process, j ≠ i → processes[j]? = some process → weight' process ≤ weight process) :
    listLoad weight' (processes.set i new) < listLoad weight processes := by
  obtain ⟨below, -⟩ := List.getElem?_eq_some_iff.mp found
  unfold listLoad
  rw [List.length_set]
  apply load_lt below
  · intro j inside
    by_cases same : j = i
    · subst same
      rw [List.getElem?_set_self below, found]
      exact Nat.le_of_lt less
    · rw [List.getElem?_set_ne (Ne.symm same), List.getElem?_eq_getElem inside]
      exact others j _ same (List.getElem?_eq_getElem inside)
  · rw [List.getElem?_set_self below, found]
    exact less

end Lib.Progress
