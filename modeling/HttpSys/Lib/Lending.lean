import Mathlib.Data.List.Perm.Basic
import Mathlib.Data.List.Nodup

/-! A bounded free list that lends its items out. Every item ever made has a number
of its own, so that what happens to one item can be followed while it is idle, held
or gone. Idle items have type `α`, held ones type `β`. -/
namespace Lib.Lending

structure Ledger (α β : Type) where
  free : List (Nat × α) := []
  held : List (Nat × β) := []
  freed : List Nat := []
  made : Nat := 0

namespace Ledger
variable {α β : Type} (l : Ledger α β)

/-- The oldest idle item goes out, or a fresh one if there is none. -/
def lend (fresh : α) (out : α → β) : Ledger α β :=
  match l.free with
  | item :: rest => { l with free := rest, held := l.held ++ [(item.1, out item.2)] }
  | [] => { l with held := l.held ++ [(l.made, out fresh)], made := l.made + 1 }

def update (holder id : Nat) (value : β) : Ledger α β := { l with held := l.held.set holder (id, value) }

def discard (holder id : Nat) : Ledger α β :=
  { l with held := l.held.eraseIdx holder, freed := l.freed ++ [id] }

def giveBack (slots holder id : Nat) (value : α) : Ledger α β :=
  if l.free.length < slots then
    { l with free := l.free ++ [(id, value)], held := l.held.eraseIdx holder }
  else l.discard holder id

/-- Where every item is, each place once for each item in it. -/
def places : List Nat := l.free.map Prod.fst ++ l.held.map Prod.fst ++ l.freed

/-- No item is lost, and none is in two places. -/
def Accounted : Prop := l.places.Perm (List.range l.made)

variable {l}

theorem accounted_empty : ({} : Ledger α β).Accounted := by simp [Accounted, places]

theorem Accounted.once (accounted : l.Accounted) {id : Nat} (known : id < l.made) :
    (l.free.map Prod.fst).count id + (l.held.map Prod.fst).count id + l.freed.count id = 1 := by
  have counted := accounted.count_eq id
  rw [List.count_eq_one_of_mem List.nodup_range (List.mem_range.mpr known)] at counted
  rwa [places, List.count_append, List.count_append] at counted

theorem Accounted.known (accounted : l.Accounted) {id : Nat} (placed : id ∈ l.places) : id < l.made :=
  List.mem_range.mp (accounted.mem_iff.mp placed)

theorem Accounted.nodup (accounted : l.Accounted) : l.places.Nodup :=
  accounted.nodup_iff.mpr List.nodup_range

theorem lend_cases (fresh : α) (out : α → β) :
    (∃ id value rest, l.free = (id, value) :: rest ∧
      l.lend fresh out = { l with free := rest, held := l.held ++ [(id, out value)] }) ∨
    (l.free = [] ∧ l.lend fresh out = { l with held := l.held ++ [(l.made, out fresh)], made := l.made + 1 }) := by
  unfold lend
  split
  · rename_i item rest idle
    exact Or.inl ⟨item.1, item.2, rest, idle, rfl⟩
  · rename_i idle
    exact Or.inr ⟨idle, rfl⟩

theorem accounted_lend (fresh : α) (out : α → β) (accounted : l.Accounted) : (l.lend fresh out).Accounted := by
  rcases lend_cases (l := l) fresh out with ⟨id, value, rest, idle, popped⟩ | ⟨idle, made⟩
  · rw [popped]
    refine List.Perm.trans ?_ accounted
    simp only [places, idle, List.map_append, List.map_cons, List.map_nil, List.perm_iff_count,
      List.count_append, List.count_cons, List.count_nil]
    intro other
    omega
  · rw [made]
    have counted := List.perm_iff_count.mp accounted
    simp only [Accounted, places, idle, List.range_succ, List.map_append, List.map_cons, List.map_nil,
      List.perm_iff_count, List.count_append, List.count_cons, List.count_nil] at counted ⊢
    intro id
    have before := counted id
    omega

theorem held_count {holder id : Nat} {value : β} (found : l.held[holder]? = some (id, value)) (other : Nat) :
    (l.held.map Prod.fst).count other =
      ((l.held.eraseIdx holder).map Prod.fst).count other + if id = other then 1 else 0 := by
  obtain ⟨bound, entry⟩ := List.getElem?_eq_some_iff.mp found
  have erased := ((List.getElem_cons_eraseIdx_perm bound).map Prod.fst).count_eq other
  rw [entry, List.map_cons, List.count_cons] at erased
  simpa using erased.symm

theorem accounted_update {holder id : Nat} {old : β} (value : β) (accounted : l.Accounted)
    (found : l.held[holder]? = some (id, old)) : (l.update holder id value).Accounted := by
  have same : (l.held.set holder (id, value)).map Prod.fst = l.held.map Prod.fst := by
    have first : (l.held.map Prod.fst)[holder]? = some id := by rw [List.getElem?_map, found, Option.map_some]
    obtain ⟨inside, same⟩ := List.getElem?_eq_some_iff.mp first
    rw [List.map_set, ← same, List.set_getElem_self]
  simpa [Accounted, places, update, same] using accounted

theorem accounted_discard {holder id : Nat} {value : β} (accounted : l.Accounted)
    (found : l.held[holder]? = some (id, value)) : (l.discard holder id).Accounted := by
  refine List.Perm.trans ?_ accounted
  simp only [places, discard, List.perm_iff_count, List.count_append, List.count_cons, List.count_nil]
  intro other
  rw [held_count found other]
  simp only [beq_iff_eq]
  omega

theorem accounted_giveBack {holder id : Nat} {old : β} (slots : Nat) (value : α) (accounted : l.Accounted)
    (found : l.held[holder]? = some (id, old)) : (l.giveBack slots holder id value).Accounted := by
  unfold giveBack
  split
  · refine List.Perm.trans ?_ accounted
    simp only [places, List.map_append, List.map_cons, List.map_nil, List.perm_iff_count, List.count_append,
      List.count_cons, List.count_nil]
    intro other
    rw [held_count found other]
    simp only [beq_iff_eq]
    omega
  · exact accounted_discard accounted found

/-- What holds in every reachable state: of the numbers, of the length of the free
list, of every idle item and of every held one. -/
structure Sound (slots : Nat) (idle : α → Prop) (lent : β → Prop) (l : Ledger α β) : Prop where
  accounted : l.Accounted
  bounded : l.free.length ≤ slots
  idle : ∀ item ∈ l.free, idle item.2
  lent : ∀ item ∈ l.held, lent item.2

section
variable {slots : Nat} {idle : α → Prop} {lent : β → Prop}

theorem sound_empty : Sound slots idle lent ({} : Ledger α β) :=
  ⟨accounted_empty, Nat.zero_le _, by simp, by simp⟩

theorem sound_lend {fresh : α} {out : α → β} (sound : Sound slots idle lent l)
    (new : l.free = [] → lent (out fresh))
    (old : ∀ item, l.free.head? = some item → idle item.2 → lent (out item.2)) :
    Sound slots idle lent (l.lend fresh out) := by
  have accounted := accounted_lend fresh out sound.accounted
  rcases lend_cases (l := l) fresh out with ⟨id, value, rest, popped, after⟩ | ⟨empty, after⟩
  · rw [after] at accounted ⊢
    have bound := sound.bounded
    rw [popped, List.length_cons] at bound
    refine ⟨accounted, Nat.le_of_succ_le bound, ?_, ?_⟩
    · intro item member
      exact sound.idle item (popped ▸ List.mem_cons_of_mem _ member)
    · intro item member
      rcases List.mem_append.mp member with before | added
      · exact sound.lent item before
      · obtain rfl := List.mem_singleton.mp added
        exact old (id, value) (by rw [popped, List.head?_cons]) (sound.idle (id, value) (popped ▸ List.mem_cons_self))
  · rw [after] at accounted ⊢
    refine ⟨accounted, sound.bounded, sound.idle, ?_⟩
    intro item member
    rcases List.mem_append.mp member with before | added
    · exact sound.lent item before
    · obtain rfl := List.mem_singleton.mp added
      exact new empty

theorem sound_update {holder id : Nat} {old value : β} (sound : Sound slots idle lent l)
    (found : l.held[holder]? = some (id, old)) (good : lent value) :
    Sound slots idle lent (l.update holder id value) := by
  refine ⟨accounted_update value sound.accounted found, sound.bounded, sound.idle, ?_⟩
  intro item member
  rcases List.mem_or_eq_of_mem_set member with before | rfl
  · exact sound.lent item before
  · exact good

theorem sound_discard {holder id : Nat} {old : β} (sound : Sound slots idle lent l)
    (found : l.held[holder]? = some (id, old)) : Sound slots idle lent (l.discard holder id) :=
  ⟨accounted_discard sound.accounted found, sound.bounded, sound.idle,
    fun item member => sound.lent item (List.mem_of_mem_eraseIdx member)⟩

theorem sound_giveBack {holder id : Nat} {old : β} {value : α} (sound : Sound slots idle lent l)
    (found : l.held[holder]? = some (id, old)) (good : idle value) :
    Sound slots idle lent (l.giveBack slots holder id value) := by
  have accounted := accounted_giveBack slots value sound.accounted found
  unfold giveBack at accounted ⊢
  split
  · rename_i room
    rw [if_pos room] at accounted
    refine ⟨accounted, ?_, ?_, fun item member => sound.lent item (List.mem_of_mem_eraseIdx member)⟩
    · simp only [List.length_append, List.length_singleton]
      exact room
    · intro item member
      rcases List.mem_append.mp member with before | added
      · exact sound.idle item before
      · obtain rfl := List.mem_singleton.mp added
        exact good
  · exact sound_discard sound found

end

/-! ### As many items as are out at a time -/

theorem Accounted.length (accounted : l.Accounted) : l.free.length + l.held.length + l.freed.length = l.made := by
  have sizes := List.Perm.length_eq accounted
  simpa [places, Nat.add_assoc] using sizes

/-- Every item is still in use or idle, and there are at most `n`. -/
structure Snug (n : Nat) (l : Ledger α β) : Prop where
  accounted : l.Accounted
  kept : l.freed = []
  few : l.made ≤ n

section
variable {n : Nat}

theorem snug_empty : Snug n ({} : Ledger α β) := ⟨accounted_empty, rfl, Nat.zero_le n⟩

theorem snug_lend (fresh : α) (out : α → β) (snug : Snug n l) (room : l.held.length < n) : Snug n (l.lend fresh out) := by
  have accounted := accounted_lend fresh out snug.accounted
  rcases lend_cases (l := l) fresh out with ⟨id, value, rest, idle, after⟩ | ⟨idle, after⟩
  · rw [after] at accounted ⊢
    exact ⟨accounted, snug.kept, snug.few⟩
  · -- Without an idle item, those that are out are all there are.
    have sizes := snug.accounted.length
    rw [idle, snug.kept] at sizes
    simp only [List.length_nil] at sizes
    rw [after] at accounted ⊢
    refine ⟨accounted, snug.kept, ?_⟩
    show l.made + 1 ≤ n
    omega

theorem snug_update {holder id : Nat} {old : β} (value : β) (snug : Snug n l) (found : l.held[holder]? = some (id, old)) :
    Snug n (l.update holder id value) :=
  ⟨accounted_update value snug.accounted found, snug.kept, snug.few⟩

theorem snug_giveBack {slots holder id : Nat} {old : β} (value : α) (snug : Snug n l)
    (found : l.held[holder]? = some (id, old)) (fits : n ≤ slots) : Snug n (l.giveBack slots holder id value) := by
  have accounted := accounted_giveBack slots value snug.accounted found
  have sizes := snug.accounted.length
  rw [snug.kept] at sizes
  simp only [List.length_nil] at sizes
  have out := (List.getElem?_eq_some_iff.mp found).1
  have few := snug.few
  unfold giveBack at accounted ⊢
  have room : l.free.length < slots := by omega
  rw [if_pos room] at accounted ⊢
  exact ⟨accounted, snug.kept, snug.few⟩

end

/-! ### Following one item -/

section
variable {r : α → α → Prop} {s t u : Ledger α α}

def items (l : Ledger α α) : List (Nat × α) := l.free ++ l.held

/-- Of the items that there were before, those that are left have only moved along `r`. -/
structure Descends (r : α → α → Prop) (s t : Ledger α α) : Prop where
  made : s.made ≤ t.made
  items : ∀ item ∈ t.items, item.1 < s.made → ∃ old, (item.1, old) ∈ s.items ∧ r old item.2

theorem Accounted.item_known (accounted : s.Accounted) {item : Nat × α} (member : item ∈ s.items) : item.1 < s.made := by
  apply accounted.known
  have listed := List.mem_map_of_mem (f := Prod.fst) member
  rw [items, List.map_append] at listed
  exact List.mem_append_left _ listed

theorem Accounted.item_unique (accounted : s.Accounted) {id : Nat} {a b : α} (left : (id, a) ∈ s.items)
    (right : (id, b) ∈ s.items) : a = b := by
  have distinct : (s.items.map Prod.fst).Nodup := by
    rw [items, List.map_append]
    exact (List.nodup_append.mp accounted.nodup).1
  exact (Prod.mk.inj (List.inj_on_of_nodup_map distinct left right rfl)).2

/-- An idle item is not held. -/
theorem Accounted.apart {l : Ledger α β} (accounted : l.Accounted) {id : Nat} (idle : id ∈ l.free.map Prod.fst) :
    id ∉ l.held.map Prod.fst := by
  intro lent
  have distinct := (List.nodup_append.mp accounted.nodup).1
  exact (List.nodup_append.mp distinct).2.2 id idle id lent rfl

theorem descends_refl (refl : ∀ a, r a a) (s : Ledger α α) : Descends r s s :=
  ⟨Nat.le_refl _, fun item member _ => ⟨item.2, member, refl item.2⟩⟩

theorem Descends.trans (first : Descends r s t) (second : Descends r t u) (trans : ∀ a b c, r a b → r b c → r a c) :
    Descends r s u := by
  refine ⟨Nat.le_trans first.made second.made, ?_⟩
  intro item member known
  obtain ⟨middle, between, later⟩ := second.items item member (Nat.lt_of_lt_of_le known first.made)
  obtain ⟨old, before, earlier⟩ := first.items (item.1, middle) between known
  exact ⟨old, before, trans _ _ _ earlier later⟩

theorem descends_lend (refl : ∀ a, r a a) (fresh : α) : Descends r s (s.lend fresh id) := by
  rcases lend_cases (l := s) fresh id with ⟨number, value, rest, idle, popped⟩ | ⟨idle, made⟩
  · rw [popped]
    refine ⟨Nat.le_refl _, ?_⟩
    intro item member known
    rcases List.mem_append.mp member with free | held
    · exact ⟨item.2, List.mem_append_left _ (idle ▸ List.mem_cons_of_mem _ free), refl item.2⟩
    · rcases List.mem_append.mp held with before | added
      · exact ⟨item.2, List.mem_append_right _ before, refl item.2⟩
      · obtain rfl := List.mem_singleton.mp added
        exact ⟨value, List.mem_append_left _ (idle ▸ List.mem_cons_self), refl value⟩
  · rw [made]
    refine ⟨Nat.le_succ _, ?_⟩
    intro item member known
    rcases List.mem_append.mp member with free | held
    · exact ⟨item.2, List.mem_append_left _ free, refl item.2⟩
    · rcases List.mem_append.mp held with before | added
      · exact ⟨item.2, List.mem_append_right _ before, refl item.2⟩
      · obtain rfl := List.mem_singleton.mp added
        exact (Nat.lt_irrefl _ known).elim

theorem descends_update (refl : ∀ a, r a a) {holder number : Nat} {old value : α}
    (found : s.held[holder]? = some (number, old)) (moved : r old value) :
    Descends r s (s.update holder number value) := by
  refine ⟨Nat.le_refl _, ?_⟩
  intro item member known
  rcases List.mem_append.mp member with free | held
  · exact ⟨item.2, List.mem_append_left _ free, refl item.2⟩
  · rcases List.mem_or_eq_of_mem_set held with before | rfl
    · exact ⟨item.2, List.mem_append_right _ before, refl item.2⟩
    · exact ⟨old, List.mem_append_right _ (List.mem_of_getElem? found), moved⟩

theorem descends_giveBack (refl : ∀ a, r a a) {slots holder number : Nat} {value : α}
    (found : s.held[holder]? = some (number, value)) : Descends r s (s.giveBack slots holder number value) := by
  have kept : ∀ item ∈ (s.giveBack slots holder number value).items, item ∈ s.items := by
    intro item member
    unfold giveBack at member
    split at member
    · rcases List.mem_append.mp member with free | held
      · rcases List.mem_append.mp free with before | added
        · exact List.mem_append_left _ before
        · obtain rfl := List.mem_singleton.mp added
          exact List.mem_append_right _ (List.mem_of_getElem? found)
      · exact List.mem_append_right _ (List.mem_of_mem_eraseIdx held)
    · rcases List.mem_append.mp member with free | held
      · exact List.mem_append_left _ free
      · exact List.mem_append_right _ (List.mem_of_mem_eraseIdx held)
  refine ⟨?_, fun item member _ => ⟨item.2, kept item member, refl item.2⟩⟩
  unfold giveBack
  split <;> exact Nat.le_refl _

end
end Ledger
end Lib.Lending
