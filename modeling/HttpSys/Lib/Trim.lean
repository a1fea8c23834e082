import HttpSys.Lib.Strings
import Mathlib.Data.List.DropRight
import Mathlib.Data.List.Infix

/-! The parts of `str` that cut a text at its ends: trimming, ASCII case and suffixes. -/
namespace Lib.Strings

/-- `char::is_whitespace`, the property `White_Space` of Unicode. -/
def isWhitespace (c : Char) : Bool :=
  let n := c.toNat
  (9 ≤ n && n ≤ 13) || n == 0x20 || n == 0x85 || n == 0xA0 || n == 0x1680 || (0x2000 ≤ n && n ≤ 0x200A) ||
    n == 0x2028 || n == 0x2029 || n == 0x202F || n == 0x205F || n == 0x3000

/-- `str::trim`. -/
def trim (text : Text) : Text := (text.dropWhile isWhitespace).rdropWhile isWhitespace

/-- `str::to_ascii_lowercase`. -/
def toAsciiLowercase (text : Text) : Text := text.map Char.toLower

/-- `str::ends_with`. -/
def endsWith (text suffix : Text) : Bool := suffix.isSuffixOf text

section Runs
variable {α : Type} {p : α → Bool} {a b : List α}

theorem rdropWhile_append_of_all (all : ∀ x ∈ b, p x = true) : (a ++ b).rdropWhile p = a.rdropWhile p := by
  induction b using List.reverseRecOn with
  | nil => rw [List.append_nil]
  | append_singleton b x ih =>
    rw [← List.append_assoc, List.rdropWhile_concat_pos _ _ _ (all x (List.mem_append_right _ List.mem_cons_self))]
    exact ih fun y member => all y (List.mem_append_left _ member)

theorem rdropWhile_of_none (none_ : ∀ x ∈ a, p x = false) : a.rdropWhile p = a := by
  apply List.rdropWhile_eq_self_iff.mpr
  intro nonempty holds
  rw [none_ _ (List.getLast_mem nonempty)] at holds
  cases holds

theorem rtakeWhile_append_of_all (none_ : ∀ x ∈ a, p x = false) (all : ∀ x ∈ b, p x = true) :
    (a ++ b).rtakeWhile p = b := by
  have whole := List.rdropWhile_append_rtakeWhile (p := p) (l := a ++ b)
  rw [rdropWhile_append_of_all all, rdropWhile_of_none none_] at whole
  exact List.append_cancel_left whole

/-- A list that starts outside the run still does after it is cut short. -/
theorem dropWhile_of_isPrefix (cut : b <+: a) (fresh : a.dropWhile p = a) : b.dropWhile p = b := by
  cases b with
  | nil => rfl
  | cons x b =>
    obtain ⟨rest, rfl⟩ := cut
    cases holds : p x with
    | false => exact List.dropWhile_cons_of_neg (by rw [holds]; exact Bool.false_ne_true)
    | true =>
      have shorter := (List.dropWhile_sublist p (l := b ++ rest)).length_le
      rw [List.cons_append, List.dropWhile_cons_of_pos holds] at fresh
      rw [fresh, List.length_cons] at shorter
      omega

end Runs

theorem trim_starts (text : Text) : (trim text).dropWhile isWhitespace = trim text :=
  dropWhile_of_isPrefix (List.rdropWhile_prefix _ _) (List.dropWhile_idempotent _ _)

theorem trim_trim (text : Text) : trim (trim text) = trim text := by
  show ((trim text).dropWhile isWhitespace).rdropWhile isWhitespace = trim text
  rw [trim_starts]
  exact List.rdropWhile_idempotent ..

/-- Trimming a text that starts with no whitespace cuts off a run at its end. -/
theorem trim_split {text : Text} (starts : text.dropWhile isWhitespace = text) :
    ∃ blank : Text, (∀ c ∈ blank, isWhitespace c = true) ∧ text = trim text ++ blank := by
  refine ⟨text.rtakeWhile isWhitespace, fun c => List.mem_rtakeWhile_imp, ?_⟩
  rw [trim, starts]
  exact List.rdropWhile_append_rtakeWhile.symm

theorem trim_append_blank {word blank : Text} (solid : ∀ c ∈ word, isWhitespace c = false)
    (white : ∀ c ∈ blank, isWhitespace c = true) : trim (word ++ blank) = word := by
  cases word with
  | nil =>
    have none_ : blank.dropWhile isWhitespace = [] := List.dropWhile_eq_nil_iff.mpr white
    rw [List.nil_append, trim, none_, List.rdropWhile_nil]
  | cons c word =>
    have first : ¬ isWhitespace c = true := by
      rw [solid c List.mem_cons_self]
      exact Bool.false_ne_true
    rw [trim, List.cons_append, List.dropWhile_cons_of_neg first, ← List.cons_append, rdropWhile_append_of_all white,
      rdropWhile_of_none solid]

theorem toAsciiLowercase_append (a b : Text) : toAsciiLowercase (a ++ b) = toAsciiLowercase a ++ toAsciiLowercase b :=
  List.map_append

/-! ### Kinds of characters -/

theorem isDigit_iff (c : Char) : c.isDigit = true ↔ 48 ≤ c.toNat ∧ c.toNat ≤ 57 := by
  simp [Char.isDigit, UInt32.le_iff_toNat_le]

theorem isAlpha_iff (c : Char) :
    c.isAlpha = true ↔ (65 ≤ c.toNat ∧ c.toNat ≤ 90) ∨ (97 ≤ c.toNat ∧ c.toNat ≤ 122) := by
  show (decide (c.val ≥ 'A'.val ∧ c.val ≤ 'Z'.val) || (c.val ≥ 'a'.val && c.val ≤ 'z'.val)) = true ↔ _
  simp [UInt32.le_iff_toNat_le]

theorem whitespace_bounds {c : Char} (white : isWhitespace c = true) :
    (9 ≤ c.toNat ∧ c.toNat ≤ 13) ∨ c.toNat = 32 ∨ 133 ≤ c.toNat := by
  simp only [isWhitespace, Bool.or_eq_true, Bool.and_eq_true, decide_eq_true_eq, beq_iff_eq] at white
  omega

theorem whitespace_not_alpha {c : Char} (white : isWhitespace c = true) : c.isAlpha = false := by
  have bounds := whitespace_bounds white
  apply Bool.eq_false_iff.mpr
  rw [Ne, isAlpha_iff]
  omega

theorem digit_not_alpha {c : Char} (digit : c.isDigit = true) : c.isAlpha = false := by
  rw [isDigit_iff] at digit
  apply Bool.eq_false_iff.mpr
  rw [Ne, isAlpha_iff]
  omega

theorem digit_not_whitespace {c : Char} (digit : c.isDigit = true) : isWhitespace c = false := by
  rw [isDigit_iff] at digit
  apply Bool.eq_false_iff.mpr
  intro white
  have bounds := whitespace_bounds white
  omega

theorem alpha_of_toLower {c : Char} (letter : c.toLower.isAlpha = true) : c.isAlpha = true := by
  by_cases upper : c.val ≥ 'A'.val ∧ c.val ≤ 'Z'.val
  · exact (isAlpha_iff c).mpr (Or.inl ⟨UInt32.le_iff_toNat_le.mp upper.1, UInt32.le_iff_toNat_le.mp upper.2⟩)
  · have same : c.toLower = c := dif_neg upper
    rwa [same] at letter

theorem accepted_digits {max n : Nat} {digits : Text}
    (accepted : (if digits.isEmpty || !digits.all Char.isDigit || max < decimal digits then none
      else some (decimal digits)) = some n) :
    digits ≠ [] ∧ n ≤ max ∧ ∀ c ∈ digits, isWhitespace c = false ∧ c.isAlpha = false := by
  split at accepted
  · cases accepted
  · rename_i conditions
    cases accepted
    simp only [Bool.or_eq_true, Bool.not_eq_true', decide_eq_true_eq, not_or, Bool.not_eq_false,
      List.all_eq_true] at conditions
    obtain ⟨⟨nonempty, digit⟩, small⟩ := conditions
    refine ⟨?_, by omega, fun c member => ⟨digit_not_whitespace (digit c member), digit_not_alpha (digit c member)⟩⟩
    intro empty
    exact nonempty (List.isEmpty_iff.mpr empty)

/-- A suffix of letters does not reach past a part that has none. -/
theorem endsWith_append {front back suffix : Text} (plain : ∀ c ∈ front, c.isAlpha = false)
    (letters : suffix.all Char.isAlpha = true) : endsWith (front ++ back) suffix = endsWith back suffix := by
  apply Bool.eq_iff_iff.mpr
  simp only [endsWith, List.isSuffixOf_iff_suffix]
  constructor
  · intro ends
    rcases List.suffix_or_suffix_of_suffix ends (List.suffix_append front back) with inside | reaching
    · exact inside
    · obtain ⟨start, rfl⟩ := reaching
      obtain ⟨before, same⟩ := ends
      rw [← List.append_assoc] at same
      have cut : before ++ start = front := List.append_cancel_right same
      cases start with
      | nil => exact List.suffix_refl _
      | cons c start =>
        have letter := List.all_eq_true.mp letters c (List.mem_append_left _ List.mem_cons_self)
        have other := plain c (by rw [← cut]; exact List.mem_append_right _ List.mem_cons_self)
        rw [letter] at other
        cases other
  · intro ends
    exact ends.trans (List.suffix_append front back)

/-- A numeral that parses is not empty and has neither whitespace nor letters. -/
theorem parseUnsigned_chars {max n : Nat} {text : Text} (parsed : parseUnsigned max text = some n) :
    text ≠ [] ∧ n ≤ max ∧ ∀ c ∈ text, isWhitespace c = false ∧ c.isAlpha = false := by
  unfold parseUnsigned at parsed
  split at parsed
  · rename_i digits
    obtain ⟨-, small, solid⟩ := accepted_digits parsed
    refine ⟨List.cons_ne_nil _ _, small, ?_⟩
    intro c member
    rcases List.mem_cons.mp member with rfl | member
    · exact ⟨rfl, rfl⟩
    · exact solid c member
  · exact accepted_digits parsed

/-! ### Cutting at a character -/

/-- `str::trim_end_matches` with a character. -/
def trimEndMatches (c : Char) (text : Text) : Text := text.rdropWhile (· == c)

/-- `str::rsplit_once` with a character. -/
def rsplitOnce (c : Char) (text : Text) : Option (Text × Text) :=
  if c ∈ text then some ((text.rdropWhile (· != c)).dropLast, text.rtakeWhile (· != c)) else none

theorem rsplitOnce_eq_some {c : Char} {text head tail : Text} (h : rsplitOnce c text = some (head, tail)) :
    text = head ++ c :: tail ∧ c ∉ tail := by
  unfold rsplitOnce at h
  split at h
  · rename_i member
    obtain ⟨rfl, rfl⟩ := Prod.mk.inj (Option.some.inj h)
    have whole := List.rdropWhile_append_rtakeWhile (p := (· != c)) (l := text)
    have solid : c ∉ text.rtakeWhile (· != c) := by
      intro inside
      have other := List.mem_rtakeWhile_imp inside
      simp at other
    have nonempty : text.rdropWhile (· != c) ≠ [] := by
      intro empty
      exact solid (by rwa [← whole, empty, List.nil_append] at member)
    have last : (text.rdropWhile (· != c)).getLast nonempty = c := by
      simpa using List.rdropWhile_last_not (· != c) text nonempty
    refine ⟨?_, solid⟩
    conv_lhs => rw [← whole, ← List.dropLast_append_getLast nonempty, last]
    rw [List.append_assoc, List.singleton_append]
  · cases h

theorem rsplitOnce_eq_none {c : Char} {text : Text} (h : rsplitOnce c text = none) : c ∉ text := by
  unfold rsplitOnce at h
  split at h
  · cases h
  · assumption

theorem trimEndMatches_split (c : Char) (text : Text) :
    ∃ n, text = trimEndMatches c text ++ List.replicate n c := by
  refine ⟨(text.rtakeWhile (· == c)).length, ?_⟩
  have run : text.rtakeWhile (· == c) = List.replicate (text.rtakeWhile (· == c)).length c := by
    apply List.eq_replicate_of_mem
    intro x member
    simpa using List.mem_rtakeWhile_imp member
  rw [← run]
  exact List.rdropWhile_append_rtakeWhile.symm

/-- What ends in `c` and starts a text starts the part up to the last `c`. -/
theorem prefix_of_split {c : Char} {text head tail : Text} (cut : text <+: head ++ c :: tail)
    (ends : text.getLast? = some c) (solid : c ∉ tail) : text <+: head ++ [c] := by
  have whole : head ++ [c] <+: head ++ c :: tail := by
    rw [List.append_cons head c tail]
    exact List.prefix_append _ _
  rcases List.prefix_or_prefix_of_prefix cut whole with short | ⟨more, rfl⟩
  · exact short
  · rw [List.append_cons head c tail] at cut
    have inside : more <+: tail := (List.prefix_append_right_inj _).mp cut
    have empty : more = [] := by
      by_contra nonempty
      rw [List.getLast?_append_of_ne_nil _ nonempty] at ends
      exact solid (inside.subset (List.mem_of_getLast? ends))
    rw [empty, List.append_nil]

theorem prefix_segment {c : Char} {a b rest : Text} (cut : a ++ c :: rest <+: b ++ [c]) (first : c ∉ a) (second : c ∉ b) :
    a = b ∧ rest = [] := by
  induction a generalizing b with
  | nil =>
    cases b with
    | nil =>
      have short := cut.length_le
      simp only [List.nil_append, List.length_cons, List.length_nil] at short
      exact ⟨rfl, List.eq_nil_of_length_eq_zero (by omega)⟩
    | cons y b =>
      obtain ⟨rfl, -⟩ := List.cons_prefix_cons.mp cut
      exact (second List.mem_cons_self).elim
  | cons x a ih =>
    cases b with
    | nil =>
      obtain ⟨rfl, -⟩ := List.cons_prefix_cons.mp cut
      exact (first List.mem_cons_self).elim
    | cons y b =>
      obtain ⟨rfl, rest⟩ := List.cons_prefix_cons.mp cut
      obtain ⟨rfl, empty⟩ := ih rest (fun inside => first (List.mem_cons_of_mem _ inside))
        (fun inside => second (List.mem_cons_of_mem _ inside))
      exact ⟨rfl, empty⟩

end Lib.Strings
