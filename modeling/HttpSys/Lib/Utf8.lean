import HttpSys.Lib.Strings

/-! The decoder of UTF-8 against the encoder: it reads back every text, and what it reads strictly is the
encoding of nothing else. -/
namespace Lib.Strings

/-! ### Bytes as numbers -/

theorem forall_byte {P : UInt8 → Prop} (each : ∀ n : Fin 256, P (UInt8.ofNat n)) (b : UInt8) : P b := by
  have whole := each ⟨b.toNat, b.toNat_lt⟩
  simpa using whole

theorem low_eq : ∀ b : UInt8, low b = b.toNat % 64 :=
  forall_byte (by decide +kernel)

theorem lead_two : ∀ b : UInt8, (b &&& 0x1F).toNat = b.toNat % 32 :=
  forall_byte (by decide +kernel)

theorem lead_three : ∀ b : UInt8, (b &&& 0x0F).toNat = b.toNat % 16 :=
  forall_byte (by decide +kernel)

theorem lead_four : ∀ b : UInt8, (b &&& 0x07).toNat = b.toNat % 8 :=
  forall_byte (by decide +kernel)

theorem isContinuation_iff : ∀ b : UInt8, isContinuation b = true ↔ 128 ≤ b.toNat ∧ b.toNat < 192 :=
  forall_byte (by decide +kernel)

theorem byte_range (low high b : UInt8) : (low ≤ b && b ≤ high) = true ↔ low.toNat ≤ b.toNat ∧ b.toNat ≤ high.toNat := by
  simp [UInt8.le_iff_toNat_le]

theorem byte_eq (a b : UInt8) : (a == b) = true ↔ a.toNat = b.toNat := by
  rw [beq_iff_eq, UInt8.toNat_inj]

/-- The second byte is a continuation, and the character is neither overlong, nor a surrogate, nor too large. -/
theorem secondByte_iff (lead second : UInt8) : secondByte lead second = true ↔ 128 ≤ second.toNat ∧ second.toNat < 192 ∧
    (lead.toNat = 0xE0 → 0xA0 ≤ second.toNat) ∧ (lead.toNat = 0xED → second.toNat < 0xA0) ∧
    (lead.toNat = 0xF0 → 0x90 ≤ second.toNat) ∧ (lead.toNat = 0xF4 → second.toNat < 0x90) := by
  unfold secondByte
  split
  · rename_i lead_
    rw [byte_range]
    have same := (byte_eq _ _).mp lead_
    simp only [UInt8.reduceToNat] at same ⊢
    omega
  · rename_i notE0
    have notE0 := mt (byte_eq _ _).mpr notE0
    split
    · rename_i lead_
      rw [byte_range]
      have same := (byte_eq _ _).mp lead_
      simp only [UInt8.reduceToNat] at same notE0 ⊢
      omega
    · rename_i notED
      have notED := mt (byte_eq _ _).mpr notED
      split
      · rename_i lead_
        rw [byte_range]
        have same := (byte_eq _ _).mp lead_
        simp only [UInt8.reduceToNat] at same notE0 notED ⊢
        omega
      · rename_i notF0
        have notF0 := mt (byte_eq _ _).mpr notF0
        split
        · rename_i lead_
          rw [byte_range]
          have same := (byte_eq _ _).mp lead_
          simp only [UInt8.reduceToNat] at same notE0 notED notF0 ⊢
          omega
        · rename_i notF4
          have notF4 := mt (byte_eq _ _).mpr notF4
          rw [isContinuation_iff]
          simp only [UInt8.reduceToNat] at notE0 notED notF0 notF4 ⊢
          omega

/-! ### Encoding and decoding one character -/

theorem byte_ofNat {n : Nat} (small : n < 256) : (UInt8.ofNat n).toNat = n := by
  rw [UInt8.toNat_ofNat']
  exact Nat.mod_eq_of_lt small

/-! The lead bytes, by the length of their sequence. -/

theorem lead_one_iff (lead : UInt8) : lead < 0x80 ↔ lead.toNat < 128 := UInt8.lt_iff_toNat_lt

theorem lead_two_iff (lead : UInt8) : (0xC2 ≤ lead && lead ≤ 0xDF) = true ↔ 194 ≤ lead.toNat ∧ lead.toNat ≤ 223 :=
  byte_range 0xC2 0xDF lead

theorem lead_three_iff (lead : UInt8) : (0xE0 ≤ lead && lead ≤ 0xEF) = true ↔ 224 ≤ lead.toNat ∧ lead.toNat ≤ 239 :=
  byte_range 0xE0 0xEF lead

theorem lead_four_iff (lead : UInt8) : (0xF0 ≤ lead && lead ≤ 0xF4) = true ↔ 240 ≤ lead.toNat ∧ lead.toNat ≤ 244 :=
  byte_range 0xF0 0xF4 lead

section
variable {lead b d e : UInt8} {rest : List UInt8}

theorem next_two (range : 194 ≤ lead.toNat ∧ lead.toNat ≤ 223) (second : isContinuation b = true) :
    next lead (b :: rest) = (some (Char.ofNat (64 * (lead.toNat % 32) + b.toNat % 64)), 1) := by
  have high : ¬ lead < 0x80 := by
    rw [lead_one_iff]
    omega
  unfold next
  rw [if_neg high, if_pos ((lead_two_iff lead).mpr range)]
  dsimp only
  rw [if_pos second, low_eq, lead_two]

theorem next_three (range : 224 ≤ lead.toNat ∧ lead.toNat ≤ 239) (second : secondByte lead b = true)
    (third : isContinuation d = true) : next lead (b :: d :: rest) =
      (some (Char.ofNat (4096 * (lead.toNat % 16) + 64 * (b.toNat % 64) + d.toNat % 64)), 2) := by
  have high : ¬ lead < 0x80 := by
    rw [lead_one_iff]
    omega
  have notTwo : ¬ (0xC2 ≤ lead && lead ≤ 0xDF) = true := by
    rw [lead_two_iff]
    omega
  unfold next
  rw [if_neg high, if_neg notTwo, if_pos ((lead_three_iff lead).mpr range)]
  dsimp only
  rw [if_pos second, if_pos third, low_eq, low_eq, lead_three]

theorem next_four (range : 240 ≤ lead.toNat ∧ lead.toNat ≤ 244) (second : secondByte lead b = true)
    (third : isContinuation d = true) (fourth : isContinuation e = true) : next lead (b :: d :: e :: rest) =
      (some (Char.ofNat (262144 * (lead.toNat % 8) + 4096 * (b.toNat % 64) + 64 * (d.toNat % 64) + e.toNat % 64)), 3) := by
  have high : ¬ lead < 0x80 := by
    rw [lead_one_iff]
    omega
  have notTwo : ¬ (0xC2 ≤ lead && lead ≤ 0xDF) = true := by
    rw [lead_two_iff]
    omega
  have notThree : ¬ (0xE0 ≤ lead && lead ≤ 0xEF) = true := by
    rw [lead_three_iff]
    omega
  unfold next
  rw [if_neg high, if_neg notTwo, if_neg notThree, if_pos ((lead_four_iff lead).mpr range)]
  dsimp only
  rw [if_pos second, if_pos third, if_pos fourth, low_eq, low_eq, low_eq, lead_four]

end

theorem char_range (c : Char) : c.toNat < 0xD800 ∨ 0xDFFF < c.toNat ∧ c.toNat < 0x110000 := c.valid

theorem ofNat_of_eq {c : Char} {n : Nat} (same : n = c.toNat) : Char.ofNat n = c := by
  rw [same, Char.ofNat_toNat]

theorem next_encode (c : Char) (rest : List UInt8) : ∃ lead tail, String.utf8EncodeChar c = lead :: tail ∧
    next lead (tail ++ rest) = (some c, tail.length) := by
  have valid := char_range c
  unfold String.utf8EncodeChar
  dsimp only
  change c.toNat < _ ∨ _ at valid
  rw [show c.val.toNat = c.toNat from rfl]
  split
  · exact ⟨_, [], rfl, next_ascii (by omega) rest⟩
  · split
    · refine ⟨_, [_], rfl, ?_⟩
      have first := byte_ofNat (show c.toNat / 64 % 32 + 192 < 256 by omega)
      have second := byte_ofNat (show c.toNat % 64 + 128 < 256 by omega)
      rw [List.singleton_append, next_two (by omega) ((isContinuation_iff _).mpr (by omega)), first, second]
      refine Prod.ext (congrArg some (ofNat_of_eq ?_)) rfl
      omega
    · split
      · refine ⟨_, [_, _], rfl, ?_⟩
        have first := byte_ofNat (show c.toNat / 4096 % 16 + 224 < 256 by omega)
        have second := byte_ofNat (show c.toNat / 64 % 64 + 128 < 256 by omega)
        have third := byte_ofNat (show c.toNat % 64 + 128 < 256 by omega)
        rw [List.cons_append, List.singleton_append, next_three (by omega) ((secondByte_iff _ _).mpr (by omega))
          ((isContinuation_iff _).mpr (by omega)), first, second, third]
        refine Prod.ext (congrArg some (ofNat_of_eq ?_)) rfl
        omega
      · refine ⟨_, [_, _, _], rfl, ?_⟩
        have first := byte_ofNat (show c.toNat / 262144 % 8 + 240 < 256 by omega)
        have second := byte_ofNat (show c.toNat / 4096 % 64 + 128 < 256 by omega)
        have third := byte_ofNat (show c.toNat / 64 % 64 + 128 < 256 by omega)
        have fourth := byte_ofNat (show c.toNat % 64 + 128 < 256 by omega)
        rw [List.cons_append, List.cons_append, List.singleton_append, next_four (by omega)
          ((secondByte_iff _ _).mpr (by omega)) ((isContinuation_iff _).mpr (by omega))
          ((isContinuation_iff _).mpr (by omega)), first, second, third, fourth]
        refine Prod.ext (congrArg some (ofNat_of_eq ?_)) rfl
        omega

/-! What a character decodes from determines its bytes. -/

theorem toNat_ofNat_of_valid {n : Nat} (valid : n < 0xD800 ∨ 0xDFFF < n ∧ n < 0x110000) : (Char.ofNat n).toNat = n := by
  rw [Char.ofNat, dif_pos valid]
  rfl

theorem byte_eq_ofNat {b : UInt8} {n : Nat} (same : b.toNat = n) : UInt8.ofNat n = b := by
  rw [← same, UInt8.ofNat_toNat]

theorem encode_one {n : Nat} {lead : UInt8} (value : lead.toNat = n) (small : n < 128) :
    String.utf8EncodeChar (Char.ofNat n) = [lead] := by
  have same := toNat_ofNat_of_valid (show n < 0xD800 ∨ _ by omega)
  unfold String.utf8EncodeChar
  dsimp only
  rw [show (Char.ofNat n).val.toNat = n from same, if_pos (by omega), byte_eq_ofNat value]

theorem encode_two {n : Nat} {lead b : UInt8} (large : 128 ≤ n) (small : n < 2048) (first : lead.toNat = n / 64 % 32 + 192)
    (second : b.toNat = n % 64 + 128) : String.utf8EncodeChar (Char.ofNat n) = [lead, b] := by
  have same := toNat_ofNat_of_valid (show n < 0xD800 ∨ _ by omega)
  unfold String.utf8EncodeChar
  dsimp only
  rw [show (Char.ofNat n).val.toNat = n from same, if_neg (by omega), if_pos (by omega), byte_eq_ofNat first,
    byte_eq_ofNat second]

theorem encode_three {n : Nat} {lead b d : UInt8} (large : 2048 ≤ n) (small : n < 65536)
    (valid : n < 0xD800 ∨ 0xDFFF < n ∧ n < 0x110000) (first : lead.toNat = n / 4096 % 16 + 224)
    (second : b.toNat = n / 64 % 64 + 128) (third : d.toNat = n % 64 + 128) :
    String.utf8EncodeChar (Char.ofNat n) = [lead, b, d] := by
  have same := toNat_ofNat_of_valid valid
  unfold String.utf8EncodeChar
  dsimp only
  rw [show (Char.ofNat n).val.toNat = n from same, if_neg (by omega), if_neg (by omega), if_pos (by omega),
    byte_eq_ofNat first, byte_eq_ofNat second, byte_eq_ofNat third]

theorem encode_four {n : Nat} {lead b d e : UInt8} (large : 65536 ≤ n) (small : n < 0x110000)
    (first : lead.toNat = n / 262144 % 8 + 240) (second : b.toNat = n / 4096 % 64 + 128)
    (third : d.toNat = n / 64 % 64 + 128) (fourth : e.toNat = n % 64 + 128) :
    String.utf8EncodeChar (Char.ofNat n) = [lead, b, d, e] := by
  have same := toNat_ofNat_of_valid (show n < 0xD800 ∨ 0xDFFF < n ∧ n < 0x110000 by omega)
  unfold String.utf8EncodeChar
  dsimp only
  rw [show (Char.ofNat n).val.toNat = n from same, if_neg (by omega), if_neg (by omega), if_neg (by omega),
    byte_eq_ofNat first, byte_eq_ofNat second, byte_eq_ofNat third, byte_eq_ofNat fourth]

theorem next_sound {lead : UInt8} {rest : List UInt8} {c : Char} {extra : Nat} (h : next lead rest = (some c, extra)) :
    String.utf8EncodeChar c = lead :: rest.take extra := by
  have bound := lead.toNat_lt
  unfold next at h
  split at h
  · rename_i one
    cases h
    exact encode_one rfl ((lead_one_iff lead).mp one)
  · split at h
    · rename_i two
      have two := (lead_two_iff lead).mp two
      split at h
      · rename_i b rest
        split at h
        · rename_i second
          have second := (isContinuation_iff b).mp second
          cases h
          rw [low_eq, lead_two]
          exact encode_two (by omega) (by omega) (by omega) (by omega)
        · cases h
      · cases h
    · split at h
      · rename_i three
        have three := (lead_three_iff lead).mp three
        split at h
        · rename_i b d rest
          split at h
          · rename_i second
            have second := (secondByte_iff lead b).mp second
            split at h
            · rename_i third
              have third := (isContinuation_iff d).mp third
              cases h
              rw [low_eq, low_eq, lead_three]
              exact encode_three (by omega) (by omega) (by omega) (by omega) (by omega) (by omega)
            · cases h
          · cases h
        · cases h
        · cases h
      · split at h
        · rename_i four
          have four := (lead_four_iff lead).mp four
          split at h
          · rename_i b d e rest
            split at h
            · rename_i second
              have second := (secondByte_iff lead b).mp second
              split at h
              · rename_i third
                have third := (isContinuation_iff d).mp third
                split at h
                · rename_i fourth
                  have fourth := (isContinuation_iff e).mp fourth
                  cases h
                  rw [low_eq, low_eq, low_eq, lead_four]
                  exact encode_four (by omega) (by omega) (by omega) (by omega) (by omega) (by omega)
                · cases h
              · cases h
            · cases h
          · cases h
          · cases h
          · cases h
        · cases h

/-! ### Texts -/

theorem scan_utf8 (text : Text) {fuel : Nat} (enough : (utf8 text).length ≤ fuel) :
    scan fuel (utf8 text) = text.map some := by
  induction text generalizing fuel with
  | nil => cases fuel <;> rfl
  | cons c text ih =>
    obtain ⟨lead, tail, encoded, decoded⟩ := next_encode c (utf8 text)
    have bytes : utf8 (c :: text) = lead :: (tail ++ utf8 text) := by
      show String.utf8EncodeChar c ++ utf8 text = _
      rw [encoded, List.cons_append]
    rw [bytes, List.length_cons, List.length_append] at enough
    obtain ⟨fuel, rfl⟩ := Nat.exists_eq_succ_of_ne_zero (show fuel ≠ 0 by omega)
    rw [bytes, scan, decoded]
    dsimp only
    rw [List.drop_left, ih (by omega)]
    rfl

theorem utf8_of_scan {fuel : Nat} {bytes : List UInt8} {text : Text} (enough : bytes.length ≤ fuel)
    (read : (scan fuel bytes).mapM id = some text) : utf8 text = bytes := by
  induction fuel generalizing bytes text with
  | zero =>
    obtain rfl := List.length_eq_zero_iff.mp (Nat.le_zero.mp enough)
    cases read
    rfl
  | succ fuel ih =>
    cases bytes with
    | nil =>
      cases read
      rfl
    | cons lead rest =>
      rw [List.length_cons] at enough
      cases step : next lead rest with
      | mk first extra =>
        rw [scan, step] at read
        cases first with
        | none => simp at read
        | some c =>
          simp only [List.mapM_cons, id, Option.bind_eq_bind, Option.bind_some] at read
          obtain ⟨later, decoded, same⟩ := Option.bind_eq_some_iff.mp read
          cases same
          have shorter : (rest.drop extra).length ≤ fuel := by
            rw [List.length_drop]
            omega
          show String.utf8EncodeChar c ++ utf8 later = lead :: rest
          rw [next_sound step, ih shorter decoded, List.cons_append, List.take_append_drop]

/-- The strict decoder accepts the encodings of texts and nothing else, and inverts them. -/
theorem fromUtf8_iff (bytes : List UInt8) (text : Text) : fromUtf8 bytes = some text ↔ bytes = utf8 text := by
  constructor
  · intro read
    exact (utf8_of_scan (Nat.le_refl _) read).symm
  · rintro rfl
    rw [fromUtf8, scan_utf8 text (Nat.le_refl _)]
    induction text with
    | nil => rfl
    | cons c text ih => simp [ih]

/-- The lossy decoder loses nothing of a well-formed text. -/
theorem fromUtf8Lossy_utf8 (text : Text) : fromUtf8Lossy (utf8 text) = text := by
  rw [fromUtf8Lossy, scan_utf8 text (Nat.le_refl _), List.map_map]
  exact List.map_id text

end Lib.Strings
