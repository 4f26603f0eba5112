import Nodal.Proofs.Decimal.Grammar
import Nodal.Proofs.Decimal.Shortest
/-!
# Texts of doubles read back

Every finite double is read back from its text (`Decimal.value?_text`): the text is a literal, digits with at
most one point among them (`Decimal.IsLiteral`), and writes a decimal that the double stands for.
-/

namespace Nodal.Decimal

open Float.Model
open Float.Model.UnpackedFloat (Sign)

/-! ### Digits -/

/-- The digits of a number have its value. -/
lemma ofDigits_toDigits (n : Nat) : ofDigits (Nat.toDigits 10 n) = n :=
  Nat.ofDigitChars_ten_toDigits

/-- Zeros at the end multiply by a power of ten. -/
lemma ofDigits_append_replicate (ds : List Char) (n : Nat) :
    ofDigits (ds ++ List.replicate n '0') = ofDigits ds * 10 ^ n := by
  change Nat.ofDigitChars 10 (ds ++ List.replicate n '0') 0 = Nat.ofDigitChars 10 ds 0 * 10 ^ n
  rw [Nat.ofDigitChars_append, Nat.ofDigitChars_replicate_zero, Nat.mul_comm]

/-- Zeros in front do not count. -/
lemma ofDigits_replicate_append (n : Nat) (ds : List Char) :
    ofDigits (List.replicate n '0' ++ ds) = ofDigits ds := by
  change Nat.ofDigitChars 10 (List.replicate n '0' ++ ds) 0 = Nat.ofDigitChars 10 ds 0
  rw [Nat.ofDigitChars_append, Nat.ofDigitChars_replicate_zero, Nat.mul_zero]

/-! ### Literals -/

/-- Whether a text is the digits `whole` and, if there are any, the digits `fraction` behind a point. -/
structure IsLiteral (whole fraction s : List Char) : Prop where
  eq : s = whole ++ if fraction = [] then [] else '.' :: fraction
  whole_ne_nil : whole ≠ []
  areDigits : ∀ c ∈ whole ++ fraction, c.isDigit = true

/-- A decimal literal is a mantissa. -/
lemma IsLiteral.isMantissa {whole fraction s : List Char} (h : IsLiteral whole fraction s) :
    IsMantissa s whole fraction := by
  rw [h.eq]
  split
  · rename_i hf
    subst hf
    rw [List.append_nil]
    exact .whole h.whole_ne_nil fun c hc => h.areDigits c (List.mem_append_left _ hc)
  · exact .point (fun hc => h.whole_ne_nil (List.append_eq_nil_iff.1 hc).1) h.areDigits

/-- A literal is a numeral without suffix, with or without a sign in front of it. -/
lemma IsLiteral.read? {whole fraction s : List Char} (h : IsLiteral whole fraction s) (negative : Bool) :
    Numeral.read? (if negative then '-' :: s else s) = some ⟨negative, whole, fraction, 0, none⟩ := by
  have hread : ∀ sign, IsSign sign negative →
      Numeral.read? (sign ++ s) = some ⟨negative, whole, fraction, 0, none⟩ := by
    intro sign hsign
    have hr := read?_append hsign h.isMantissa .absent .absent rfl
    rwa [List.append_nil, List.append_nil] at hr
  cases negative with
  | false => exact hread [] .absent
  | true => exact hread ['-'] .minus

/-- Digits with the point among them are a literal, and no digit that counts is added. -/
lemma isLiteral_placePoint {ds : List Char} (hne : ds ≠ []) (hd : ∀ c ∈ ds, c.isDigit = true) (n : Nat) :
    ∃ whole fraction, IsLiteral whole fraction (placePoint ds n) ∧
      ofDigits (whole ++ fraction) = ofDigits ds ∧ fraction.length = n := by
  unfold placePoint
  split
  · rename_i hn
    exact ⟨ds, [], ⟨by simp, hne, by simpa using hd⟩, by rw [List.append_nil], hn.symm⟩
  · rename_i hn
    split
    · -- the point stands among the digits
      rename_i hlt
      have hlen : (ds.drop (ds.length - n)).length = n := by
        rw [List.length_drop]
        omega
      have hf : ds.drop (ds.length - n) ≠ [] := by
        rw [← List.length_pos_iff]
        omega
      have hw : ds.take (ds.length - n) ≠ [] := by
        rw [← List.length_pos_iff, List.length_take]
        omega
      refine ⟨ds.take (ds.length - n), ds.drop (ds.length - n), ⟨by rw [if_neg hf], hw, ?_⟩, ?_, hlen⟩
      · rwa [List.take_append_drop]
      · rw [List.take_append_drop]
    · -- zeros in front of the digits, one of them before the point
      rename_i hlt
      have hzeros : ∀ c ∈ List.replicate (n - ds.length) '0' ++ ds, c.isDigit = true := by
        intro c hc
        rcases List.mem_append.1 hc with hc | hc
        · rw [List.eq_of_mem_replicate hc]
          decide
        · exact hd c hc
      refine ⟨['0'], List.replicate (n - ds.length) '0' ++ ds, ⟨?_, by simp, ?_⟩, ?_, ?_⟩
      · rw [if_neg (by simp [hne])]
        rfl
      · intro c hc
        rcases List.mem_cons.1 hc with rfl | hc
        · decide
        · exact hzeros c hc
      · exact (ofDigits_replicate_append 1 _).trans (ofDigits_replicate_append _ ds)
      · rw [List.length_append, List.length_replicate]
        omega

namespace Scaled

/-- The zeros at the end of the digits are a power of ten. -/
lemma strip_spec (d : Scaled) :
    ∃ n : Nat, Nat.toDigits 10 d.digits = d.strip.1 ++ List.replicate n '0' ∧
      d.strip.2 = d.exponent + n := by
  obtain ⟨n, hn⟩ : ∃ n, (Nat.toDigits 10 d.digits).reverse.takeWhile (· == '0') = List.replicate n '0' :=
    ⟨_, List.eq_replicate_iff.2
      ⟨rfl, fun c hc => beq_iff_eq.1 (List.mem_takeWhile_imp (p := (· == '0')) hc)⟩⟩
  have hsplit : Nat.toDigits 10 d.digits = d.strip.1 ++ List.replicate n '0' := by
    rw [← List.reverse_replicate, ← hn, strip, ← List.reverse_append, List.takeWhile_append_dropWhile,
      List.reverse_reverse]
  refine ⟨n, hsplit, ?_⟩
  have hlen := congrArg List.length hsplit
  rw [List.length_append, List.length_replicate] at hlen
  change d.exponent + ((Nat.toDigits 10 d.digits).length - d.strip.1.length : Nat) = _
  omega

/-- A positive decimal is written as a literal for the same number. -/
lemma isLiteral_text {d : Scaled} (hpos : 0 < d.digits) :
    ∃ whole fraction, IsLiteral whole fraction d.text ∧
      (ofDigits (whole ++ fraction) : ℚ) * 10 ^ (-(fraction.length : Int)) =
        d.digits * 10 ^ d.exponent := by
  obtain ⟨n, hdigits, hexp⟩ := d.strip_spec
  have hvalue : d.digits = ofDigits d.strip.1 * 10 ^ n := by
    rw [← ofDigits_append_replicate, ← hdigits, ofDigits_toDigits]
  have hne : d.strip.1 ++ List.replicate d.strip.2.toNat '0' ≠ [] := by
    intro hc
    rw [(List.append_eq_nil_iff.1 hc).1] at hvalue
    exact hpos.ne' (hvalue.trans (Nat.zero_mul _))
  have hd : ∀ c ∈ d.strip.1 ++ List.replicate d.strip.2.toNat '0', c.isDigit = true := by
    intro c hc
    rcases List.mem_append.1 hc with hc | hc
    · exact Nat.isDigit_of_mem_toDigits (by decide) (by decide)
        (hdigits ▸ List.mem_append_left _ hc)
    · rw [List.eq_of_mem_replicate hc]
      decide
  obtain ⟨whole, fraction, hlit, hof, hlen⟩ := isLiteral_placePoint hne hd (-d.strip.2).toNat
  refine ⟨whole, fraction, hlit, ?_⟩
  have hten : (10 : ℚ) ≠ 0 := by norm_num
  rw [hof, hlen, ofDigits_append_replicate, hvalue]
  push_cast
  rw [pow_toNat hten d.strip.2, zpow_neg, zpow_natCast, hexp, zpow_add₀ hten, zpow_natCast]
  field_simp

end Scaled

/-! ### Texts -/

/-- Whether a character can stand in the text of a finite double. -/
def isTextChar (c : Char) : Bool :=
  c.isDigit || c == '.' || c == '-'

/-- A decimal literal consists of the characters of a text. -/
lemma IsLiteral.isTextChar {whole fraction s : List Char} (h : IsLiteral whole fraction s) {c : Char}
    (hc : c ∈ s) : isTextChar c = true := by
  rcases h.isMantissa.isDigit_or_eq hc with hd | rfl
  · rw [Decimal.isTextChar, hd]
    rfl
  · rfl

/-- No character of the text of a double is blank. -/
lemma isWhite_of_isTextChar {c : Char} (h : isTextChar c = true) : Text.isWhite c = false := by
  have hrange : 0x21 ≤ c.toNat ∧ c.toNat < 0x85 := by
    simp only [isTextChar, Char.isDigit, Bool.or_eq_true, Bool.and_eq_true, decide_eq_true_eq,
      beq_iff_eq] at h
    rcases h with (⟨h1, h2⟩ | rfl) | rfl
    · have h1 : 48 ≤ c.toNat := h1
      have h2 : c.toNat ≤ 57 := h2
      omega
    · decide
    · decide
  obtain ⟨h1, h2⟩ := hrange
  -- four flips lie below these characters, the fifth one above
  change Text.InversionList.parity c.toNat (0x9 :: 0xE :: 0x20 :: 0x21 :: 0x85 :: _) = false
  rw [Text.InversionList.parity_cons_of_le (by omega), Text.InversionList.parity_cons_of_le (by omega),
    Text.InversionList.parity_cons_of_le (by omega), Text.InversionList.parity_cons_of_le h1,
    Text.InversionList.parity_cons_of_lt h2]
  rfl

/-- There is nothing to trim from the text of a double. -/
lemma trimWhite_of_isTextChar {s : List Char} (h : ∀ c ∈ s, isTextChar c = true) : Text.trimWhite s = s := by
  have hdrop : ∀ s : List Char, (∀ c ∈ s, isTextChar c = true) → s.dropWhile Text.isWhite = s := by
    intro s h
    rw [List.dropWhile_eq_self_iff]
    intro hl
    rw [isWhite_of_isTextChar (h _ (List.getElem_mem hl))]
    exact Bool.false_ne_true
  rw [Text.trimWhite, hdrop s h, hdrop s.reverse (fun c hc => h c (List.mem_reverse.1 hc)),
    List.reverse_reverse]

/-- Nearest to zero is zero, whatever the power of ten. -/
lemma nearest_zero (e : Int) : nearest 0 e = 0.0 :=
  if_pos (.inl rfl)

section Text

variable {x : Float} (hfin : x.isFinite = true)

include hfin

/-- A finite double is not NaN. -/
lemma isNaN_eq_false : x.isNaN = false := by
  change x.toModel.unpack.isFinite = true at hfin
  change x.toModel.unpack.isNaN = false
  cases hu : x.toModel.unpack <;> rw [hu] at hfin <;> first | rfl | cases hfin

/-- A finite double is not infinite. -/
lemma isInf_eq_false : x.isInf = false := by
  change x.toModel.unpack.isFinite = true at hfin
  change x.toModel.unpack.isInf = false
  cases hu : x.toModel.unpack <;> rw [hu] at hfin <;> first | rfl | cases hfin

/-- A finite double is zero iff its mantissa is. -/
lemma beq_zero_iff : (x == 0.0) = true ↔ (Dyadic.ofBits x.toBits).mantissa = 0 := by
  have hzero : (0.0 : Float).toModel.unpack = .zero .positive := rfl
  change x.toModel.unpack.beq (0.0 : Float).toModel.unpack = true ↔ _
  rw [hzero]
  rcases Nat.eq_zero_or_pos (Dyadic.ofBits x.toBits).mantissa with h | h
  · rw [unpack_zero hfin h]
    exact iff_of_true rfl h
  · rw [unpack_finite hfin h]
    refine iff_of_false ?_ h.ne'
    cases signOf x <;> exact Bool.false_ne_true

/-- A double is its absolute value with its sign. -/
lemma unpack_eq_abs :
    x.toModel.unpack = if signBit x then x.toModel.unpack.abs.neg else x.toModel.unpack.abs := by
  rcases Nat.eq_zero_or_pos (Dyadic.ofBits x.toBits).mantissa with h | h
  · rw [unpack_zero hfin h, signOf]
    cases signBit x <;> rfl
  · rw [unpack_finite hfin h, signOf]
    cases signBit x <;> rfl

/-- The text of a finite double without its sign is a literal, for a number that the double stands for. -/
lemma isLiteral_magnitudeText :
    ∃ whole fraction, IsLiteral whole fraction (magnitudeText x) ∧
      (nearest (ofDigits (whole ++ fraction)) (-(fraction.length : Int))).toModel.unpack =
        x.toModel.unpack.abs := by
  have hinf : ¬x.isInf = true := by
    rw [isInf_eq_false hfin]
    exact Bool.false_ne_true
  rw [magnitudeText, if_neg hinf]
  rcases Nat.eq_zero_or_pos (Dyadic.ofBits x.toBits).mantissa with h | h
  · rw [if_pos ((beq_zero_iff hfin).2 h), unpack_zero hfin h]
    have hdigit : ∀ c ∈ ['0'] ++ [], c.isDigit = true := by
      intro c hc
      rw [List.mem_singleton.1 hc]
      rfl
    refine ⟨['0'], [], ⟨rfl, by simp, hdigit⟩, ?_⟩
    have h0 : ofDigits (['0'] ++ []) = 0 := rfl
    rw [h0, nearest_zero]
    rfl
  · have hx := normal_ofBits hfin h
    have hcov := Dyadic.covers_shortest hx
    obtain ⟨whole, fraction, hlit, hvalue⟩ := Scaled.isLiteral_text (pos_of_covers hx hcov)
    rw [if_neg (fun hc => h.ne' ((beq_zero_iff hfin).1 hc)), unpack_finite hfin h]
    refine ⟨whole, fraction, hlit, unpack_nearest hx ?_⟩
    rwa [hvalue]

/-- The text of a finite double is a literal with the sign in front of it. -/
lemma toList_text : (text x).toList = if signBit x then '-' :: magnitudeText x else magnitudeText x := by
  have hnan : ¬x.isNaN = true := by
    rw [isNaN_eq_false hfin]
    exact Bool.false_ne_true
  rw [text, if_neg hnan, String.toList_ofList]

/-- The text of a finite double consists of digits, a point and a sign. -/
lemma isTextChar_of_mem {c : Char} (hc : c ∈ (text x).toList) : isTextChar c = true := by
  obtain ⟨whole, fraction, hlit, -⟩ := isLiteral_magnitudeText hfin
  rw [toList_text hfin] at hc
  split at hc
  · rcases List.mem_cons.1 hc with rfl | hc
    · rfl
    · exact hlit.isTextChar hc
  · exact hlit.isTextChar hc

/-- A finite double is read back from its text. -/
theorem value?_text : value? (text x) = some x := by
  obtain ⟨whole, fraction, hlit, hvalue⟩ := isLiteral_magnitudeText hfin
  rw [value?, trimWhite_of_isTextChar (fun c hc => isTextChar_of_mem hfin hc), toList_text hfin,
    hlit.read? (signBit x), Option.map_some]
  congr 1
  apply eq_of_unpack_eq hfin
  have hmag : nearest (ofDigits (whole ++ fraction)) (0 - (fraction.length : Int)) =
      nearest (ofDigits (whole ++ fraction)) (-(fraction.length : Int)) := by
    rw [Int.zero_sub]
  rw [unpack_eq_abs hfin, ← hvalue]
  change (if signBit x then -nearest (ofDigits (whole ++ fraction)) (0 - (fraction.length : Int))
    else nearest (ofDigits (whole ++ fraction)) (0 - (fraction.length : Int))).toModel.unpack = _
  rw [hmag]
  split
  · exact unpack_neg _
  · rfl

end Text

end Nodal.Decimal
