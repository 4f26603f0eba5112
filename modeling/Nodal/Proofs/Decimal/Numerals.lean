import Nodal.Proofs.Decimal.One
import Nodal.Proofs.Decimal.Positional
/-!
# Numerals and their values

The numerals are just the texts of their grammar, and the value of a text is that of the numeral in it
(`Decimal.numeral_grammar`). A letter that can be a suffix ends a numeral only as its suffix
(`Decimal.IsUnscaled.partSuffix_append`).
-/

namespace Nodal.Decimal

/-! ### Values -/

/-- The value of a numeral is its unscaled value times its multiplier. -/
lemma Numeral.value_eq (n : Numeral) : n.value = n.unscaled * multiplier n.suffix := by
  rw [value]
  split
  · rename_i h
    rw [h, multiplier, times_one]
  · rename_i h
    rw [h, multiplier]

/-- A text can be read iff it is a numeral of the grammar, and its value is the one that the grammar says. -/
lemma map_value_read?_eq_some_iff {s : List Char} {x : Float} :
    (Numeral.read? s).map Numeral.value = some x ↔ Writes s x := by
  rw [Option.map_eq_some_iff]
  constructor
  · rintro ⟨n, hn, rfl⟩
    rw [n.value_eq]
    exact writes_of_read? hn
  · intro h
    obtain ⟨n, hn, hx⟩ := h.exists_read?
    exact ⟨n, hn, n.value_eq.trans hx⟩

/-! ### White space around a numeral -/

/-- A digit is not blank. -/
lemma isWhite_of_isDigit {c : Char} (h : c.isDigit = true) : Text.isWhite c = false :=
  isWhite_of_isTextChar (by rw [isTextChar, h]; rfl)

/-- A sign has no blanks. -/
lemma IsSign.isWhite_eq_false {s : List Char} {negative : Bool} (h : IsSign s negative) :
    ∀ c ∈ s, Text.isWhite c = false := by
  cases h with
  | absent => exact nofun
  | plus | minus => exact List.forall_mem_singleton.2 (by decide)

/-- An exponent has no blanks. -/
lemma IsExponent.isWhite_eq_false {s : List Char} {power : Int} (h : IsExponent s power) :
    ∀ c ∈ s, Text.isWhite c = false := by
  cases h with
  | absent => exact nofun
  | power hc hsign _ hd =>
    intro c hm
    rcases List.mem_cons.1 hm with rfl | hm
    · rcases hc with rfl | rfl <;> decide
    · exact (List.mem_append.1 hm).elim (hsign.isWhite_eq_false c) fun hm => isWhite_of_isDigit (hd c hm)

/-- A suffix has no blanks. -/
lemma IsSuffix.isWhite_eq_false {s : List Char} {factor : Float} (h : IsSuffix s factor) :
    ∀ c ∈ s, Text.isWhite c = false := by
  cases h with
  | absent => exact nofun
  | pico | nano | micro | microSign | milli | kilo | kiloCapital | mega | giga =>
    exact List.forall_mem_singleton.2 (by decide)

/-- There is no white space in a numeral. -/
lemma Writes.isWhite_eq_false {s : List Char} {x : Float} (h : Writes s x) :
    ∀ c ∈ s, Text.isWhite c = false := by
  obtain ⟨⟨hsign, hmantissa, hexponent⟩, hsuffix⟩ := h
  intro c hc
  rcases List.mem_append.1 hc with hc | hc
  · rcases List.mem_append.1 hc with hc | hc
    · exact hsign.isWhite_eq_false c hc
    · rcases List.mem_append.1 hc with hc | hc
      · rcases hmantissa.isDigit_or_eq hc with hd | rfl
        · exact isWhite_of_isDigit hd
        · decide
      · exact hexponent.isWhite_eq_false c hc
  · exact hsuffix.isWhite_eq_false c hc

/-- A numeral is not empty. -/
lemma Writes.ne_nil {s : List Char} {x : Float} (h : Writes s x) : s ≠ [] := by
  obtain ⟨⟨_, hmantissa, _⟩, _⟩ := h
  simp [hmantissa.ne_nil]

/-- Only the blanks in front of a text are dropped. -/
lemma dropWhile_isWhite {before s : List Char} (hb : ∀ c ∈ before, Text.isWhite c = true)
    (hs : ∀ c ∈ s.head?, Text.isWhite c = false) : (before ++ s).dropWhile Text.isWhite = s := by
  rw [List.dropWhile_append_of_pos hb]
  cases s with
  | nil => rfl
  | cons c s =>
    rw [List.dropWhile_cons_of_neg]
    rw [hs c rfl]
    exact Bool.false_ne_true

/-- Blanks around a text without blanks are trimmed away. -/
lemma trimWhite_append {before core behind : List Char} (hw : ∀ c ∈ before ++ behind, Text.isWhite c = true)
    (hne : core ≠ []) (hc : ∀ c ∈ core, Text.isWhite c = false) :
    Text.trimWhite (before ++ core ++ behind) = core := by
  have hhead : ∀ c ∈ (core ++ behind).head?, Text.isWhite c = false := by
    intro c hm
    rw [List.head?_append_of_ne_nil _ hne] at hm
    exact hc c (List.mem_of_mem_head? hm)
  have hlast : ∀ c ∈ core.reverse.head?, Text.isWhite c = false := fun c hm =>
    hc c (List.mem_reverse.1 (List.mem_of_mem_head? hm))
  have hbehind : ∀ c ∈ behind.reverse, Text.isWhite c = true := fun c hm =>
    hw c (List.mem_append_right before (List.mem_reverse.1 hm))
  rw [Text.trimWhite, List.append_assoc,
    dropWhile_isWhite (fun c hm => hw c (List.mem_append_left behind hm)) hhead, List.reverse_append,
    dropWhile_isWhite hbehind hlast, List.reverse_reverse]

/-- What is taken away around a text is white space. -/
lemma exists_eq_trimWhite (s : List Char) : ∃ before behind, s = before ++ Text.trimWhite s ++ behind ∧
    ∀ c ∈ before ++ behind, Text.isWhite c = true := by
  refine ⟨s.takeWhile Text.isWhite, ((s.dropWhile Text.isWhite).reverse.takeWhile Text.isWhite).reverse, ?_, ?_⟩
  · rw [Text.trimWhite, List.append_assoc, ← List.reverse_append, List.takeWhile_append_dropWhile,
      List.reverse_reverse, List.takeWhile_append_dropWhile]
  · intro c hc
    rcases List.mem_append.1 hc with hc | hc
    · exact List.mem_takeWhile_imp hc
    · exact List.mem_takeWhile_imp (List.mem_reverse.1 hc)

/-! ### The suffix at the end -/

/-- A digit is no suffix. -/
lemma ofChar?_of_isDigit {c : Char} (h : c.isDigit = true) : Suffix.ofChar? c = none := by
  unfold Suffix.ofChar?
  split <;> first | rfl | cases h

/-- What stands in front of the suffix does not end with a letter that could be one. -/
lemma IsUnscaled.ofChar?_getLast {s : List Char} {x : Float} (h : IsUnscaled s x) :
    ∀ c ∈ s.getLast?, Suffix.ofChar? c = none := by
  obtain ⟨_, hmantissa, hexponent⟩ := h
  intro c hc
  rw [← List.append_assoc] at hc
  cases hexponent with
  | absent =>
    rw [List.append_nil, List.getLast?_append_of_ne_nil _ hmantissa.ne_nil] at hc
    rcases hmantissa.isDigit_or_eq (List.mem_of_getLast? hc) with hd | rfl
    · exact ofChar?_of_isDigit hd
    · rfl
  | @power e sign' _ ds _ _ hne hd =>
    rw [← List.cons_append, ← List.append_assoc, List.getLast?_append_of_ne_nil _ hne] at hc
    exact ofChar?_of_isDigit (hd c (List.mem_of_getLast? hc))

/-- The text in front of the suffix and the factor of the suffix, by the last character. -/
def partSuffix (s : List Char) : List Char × Float :=
  match s.getLast?.bind Suffix.ofChar? with
  | some suffix => (s.dropLast, suffix.factor)
  | none => (s, 1)

/-- The last character of a numeral is its suffix if it can be one. -/
lemma IsUnscaled.partSuffix_append {s suffix : List Char} {x factor : Float} (h : IsUnscaled s x)
    (hs : IsSuffix suffix factor) : partSuffix (s ++ suffix) = (s, factor) := by
  unfold partSuffix
  cases hs with
  | absent =>
    have hlast : s.getLast?.bind Suffix.ofChar? = none := Option.bind_eq_none_iff.2 h.ofChar?_getLast
    rw [List.append_nil, hlast]
  | pico | nano | micro | microSign | milli | kilo | kiloCapital | mega | giga =>
    rw [List.getLast?_concat, List.dropLast_concat]
    rfl

/-- A text is a numeral iff the grammar has it, and its value is the double in front of the suffix times the
factor that the last character stands for. -/
theorem numeral_grammar :
    (∀ s : String, isNumeral s = true ↔ ∃ x, Writes s.toList x) ∧
    (∀ (t : String) (x : Float), value? t = some x ↔ ∃ before core behind,
      t.toList = before ++ core ++ behind ∧ (∀ c ∈ before ++ behind, Text.isWhite c = true) ∧ Writes core x) ∧
    (∀ s x suffix factor, IsUnscaled s x → IsSuffix suffix factor →
      partSuffix (s ++ suffix) = (s, factor)) := by
  refine ⟨fun s => ?_, fun t x => ?_, fun s x suffix factor h hs => h.partSuffix_append hs⟩
  · rw [isNumeral, Option.isSome_iff_exists]
    constructor
    · rintro ⟨n, hn⟩
      exact ⟨_, writes_of_read? hn⟩
    · rintro ⟨x, hx⟩
      obtain ⟨n, hn, -⟩ := hx.exists_read?
      exact ⟨n, hn⟩
  · rw [value?, map_value_read?_eq_some_iff]
    constructor
    · intro h
      obtain ⟨before, behind, ht, hw⟩ := exists_eq_trimWhite t.toList
      exact ⟨before, _, behind, ht, hw, h⟩
    · rintro ⟨before, core, behind, ht, hw, h⟩
      rwa [ht, trimWhite_append hw h.ne_nil h.isWhite_eq_false]

/-- A numeral with all its parts, between blanks. -/
theorem numeral_grammar_micro :
    let x := Numeral.unscaled ⟨true, ['1'], ['5'], 3, none⟩
    IsUnscaled "-1.5e3".toList x ∧ IsSuffix ['\u00b5'] 1e-6 ∧ value? " -1.5e3\u00b5\t" = some (x * 1e-6) ∧
      partSuffix "-1.5e3\u00b5".toList = ("-1.5e3".toList, 1e-6) := by
  intro x
  have hm : IsMantissa ['1', '.', '5'] ['1'] ['5'] := @IsMantissa.point ['1'] ['5'] (by simp) (by simp)
  have he : IsExponent ['e', '3'] 3 :=
    @IsExponent.power 'e' [] false ['3'] (.inl rfl) .absent (by simp) (by simp)
  have hx : IsUnscaled "-1.5e3".toList x := .intro .minus hm he
  have hw : ∀ c ∈ [' '] ++ ['\t'], Text.isWhite c = true :=
    List.forall_mem_cons.2 ⟨by decide, List.forall_mem_singleton.2 (by decide)⟩
  exact ⟨hx, .microSign, (numeral_grammar.2.1 _ _).2 ⟨[' '], _, ['\t'], rfl, hw, .intro hx .microSign⟩,
    numeral_grammar.2.2 _ _ _ _ hx .microSign⟩

end Nodal.Decimal
