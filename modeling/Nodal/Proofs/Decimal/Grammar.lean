import Mathlib.Data.List.Basic
import Mathlib.Data.List.TakeWhile
import Nodal.Decimal.Numeral
/-!
# The grammar of numerals

A numeral is a sign, a mantissa, an exponent and a suffix one behind the other (`Decimal.Writes`). Each of these
is what is read at its place (`Decimal.writes_of_read?`), and none of them is read on into the next one
(`Decimal.read?_append`).
-/

namespace Nodal.Decimal

/-! ### The grammar -/

/-- A sign that may be absent, and whether it is a minus sign. -/
inductive IsSign : List Char → Bool → Prop where
  | absent : IsSign [] false
  | plus : IsSign ['+'] false
  | minus : IsSign ['-'] true

/-- Digits with at most one point among them, and the digits on either side of it. -/
inductive IsMantissa : List Char → List Char → List Char → Prop where
  | whole {whole} :
    whole ≠ [] →
    (∀ c ∈ whole, c.isDigit = true) →
    IsMantissa whole whole []
  | point {whole fraction} :
    whole ++ fraction ≠ [] →
    (∀ c ∈ whole ++ fraction, c.isDigit = true) →
    IsMantissa (whole ++ '.' :: fraction) whole fraction

/-- An exponent that may be absent, and the power of ten that it stands for. -/
inductive IsExponent : List Char → Int → Prop where
  | absent : IsExponent [] 0
  | power {c sign negative ds} :
    c = 'e' ∨ c = 'E' →
    IsSign sign negative →
    ds ≠ [] →
    (∀ c ∈ ds, c.isDigit = true) →
    IsExponent (c :: (sign ++ ds)) (if negative then -ofDigits ds else ofDigits ds)

/-- A suffix that may be absent, and the factor that it stands for. -/
inductive IsSuffix : List Char → Float → Prop where
  | absent : IsSuffix [] 1
  | pico : IsSuffix ['p'] 1e-12
  | nano : IsSuffix ['n'] 1e-9
  | micro : IsSuffix ['u'] 1e-6
  | microSign : IsSuffix ['\u00b5'] 1e-6
  | milli : IsSuffix ['m'] 1e-3
  | kilo : IsSuffix ['k'] 1e3
  | kiloCapital : IsSuffix ['K'] 1e3
  | mega : IsSuffix ['M'] 1e6
  | giga : IsSuffix ['G'] 1e9

/-- A numeral without suffix, and the double nearest to the number that it writes. -/
inductive IsUnscaled : List Char → Float → Prop where
  | intro {sign mantissa exponent negative whole fraction power} :
    IsSign sign negative →
    IsMantissa mantissa whole fraction →
    IsExponent exponent power →
    IsUnscaled (sign ++ (mantissa ++ exponent))
      (Numeral.unscaled { negative, whole, fraction, exponent := power, suffix := none })

/-- A numeral, and its value. -/
inductive Writes : List Char → Float → Prop where
  | intro {s x suffix factor} :
    IsUnscaled s x →
    IsSuffix suffix factor →
    Writes (s ++ suffix) (x * factor)

/-! ### Parts of a numeral -/

/-- Digits are read up to the first other character. -/
lemma takeWhile_digits {ds rest : List Char} (hd : ∀ c ∈ ds, c.isDigit = true)
    (hr : ∀ c ∈ rest.head?, c.isDigit = false) :
    (ds ++ rest).takeWhile Char.isDigit = ds ∧ (ds ++ rest).dropWhile Char.isDigit = rest := by
  rw [List.takeWhile_append_of_pos hd, List.dropWhile_append_of_pos hd]
  cases rest with
  | nil => exact ⟨List.append_nil ds, rfl⟩
  | cons c rest =>
    have hc : ¬c.isDigit = true := by
      rw [hr c rfl]
      exact Bool.false_ne_true
    rw [List.takeWhile_cons_of_neg hc, List.dropWhile_cons_of_neg hc]
    exact ⟨List.append_nil ds, rfl⟩

/-- Any text starts with a sign, which may be empty. -/
lemma exists_isSign (s : List Char) : ∃ sign, IsSign sign (readSign s).1 ∧ s = sign ++ (readSign s).2 := by
  unfold readSign
  split
  · exact ⟨_, .minus, rfl⟩
  · exact ⟨_, .plus, rfl⟩
  · exact ⟨_, .absent, rfl⟩

/-- A sign is read back when no further sign follows. -/
lemma IsSign.readSign_append {sign rest : List Char} {negative : Bool} (h : IsSign sign negative)
    (hr : ∀ c ∈ rest.head?, c ≠ '-' ∧ c ≠ '+') : readSign (sign ++ rest) = (negative, rest) := by
  cases h with
  | plus | minus => rfl
  | absent =>
    rw [List.nil_append]
    unfold readSign
    split
    · exact absurd rfl (hr _ rfl).1
    · exact absurd rfl (hr _ rfl).2
    · rfl

/-- What is read as whole digits and a fraction is a mantissa. -/
lemma exists_isMantissa {s : List Char}
    (h : s.takeWhile Char.isDigit ++ (readFraction (s.dropWhile Char.isDigit)).1 ≠ []) :
    ∃ mantissa, IsMantissa mantissa (s.takeWhile Char.isDigit) (readFraction (s.dropWhile Char.isDigit)).1 ∧
      s = mantissa ++ (readFraction (s.dropWhile Char.isDigit)).2 := by
  have hsplit : s.takeWhile Char.isDigit ++ s.dropWhile Char.isDigit = s := List.takeWhile_append_dropWhile
  have hwhole : ∀ c ∈ s.takeWhile Char.isDigit, c.isDigit = true := fun c hc =>
    List.mem_takeWhile_imp hc
  unfold readFraction at h ⊢
  split at h
  · rename_i r hr
    have hfraction : ∀ c ∈ r.takeWhile Char.isDigit, c.isDigit = true := fun c hc =>
      List.mem_takeWhile_imp hc
    refine ⟨_, .point h fun c hc => (List.mem_append.1 hc).elim (hwhole c) (hfraction c), ?_⟩
    rw [List.append_assoc, List.cons_append, List.takeWhile_append_dropWhile, ← hr, hsplit]
  · rw [List.append_nil] at h
    exact ⟨_, .whole h hwhole, hsplit.symm⟩

/-- A mantissa is read back when neither a digit nor a point follows. -/
lemma IsMantissa.readFraction_append {mantissa whole fraction rest : List Char}
    (h : IsMantissa mantissa whole fraction) (hr : ∀ c ∈ rest.head?, c.isDigit = false ∧ c ≠ '.') :
    (mantissa ++ rest).takeWhile Char.isDigit = whole ∧
      readFraction ((mantissa ++ rest).dropWhile Char.isDigit) = (fraction, rest) := by
  have hrest : ∀ c ∈ rest.head?, c.isDigit = false := fun c hc => (hr c hc).1
  cases h with
  | whole _ hd =>
    obtain ⟨ht, hdrop⟩ := takeWhile_digits hd hrest
    refine ⟨ht, ?_⟩
    rw [hdrop]
    unfold readFraction
    split
    · exact absurd rfl (hr _ rfl).2
    · rfl
  | point _ hd =>
    have hpoint : ∀ c ∈ ('.' :: (fraction ++ rest)).head?, c.isDigit = false := by
      rintro _ ⟨⟩
      rfl
    obtain ⟨ht, hdrop⟩ := takeWhile_digits (fun c hc => hd c (List.mem_append_left fraction hc)) hpoint
    obtain ⟨ht', hdrop'⟩ := takeWhile_digits (fun c hc => hd c (List.mem_append_right whole hc)) hrest
    rw [List.append_assoc, List.cons_append]
    refine ⟨ht, ?_⟩
    rw [hdrop, readFraction, ht', hdrop']

/-- A power that is read has a sign and digits. -/
lemma exists_of_readPower? {s rest : List Char} {power : Int} (h : readPower? s = some (power, rest)) :
    ∃ sign negative ds, IsSign sign negative ∧ ds ≠ [] ∧ (∀ c ∈ ds, c.isDigit = true) ∧
      power = (if negative then -(ofDigits ds : Int) else ofDigits ds) ∧ s = sign ++ ds ++ rest := by
  obtain ⟨sign, hsign, hs⟩ := exists_isSign s
  unfold readPower? at h
  simp only at h
  split at h
  · cases h
  · rename_i hne
    cases h
    refine ⟨sign, _, _, hsign, hne, fun c hc => List.mem_takeWhile_imp hc, rfl, ?_⟩
    rw [List.append_assoc, List.takeWhile_append_dropWhile, ← hs]

/-- A sign and digits are read back as a power when no further digit follows. -/
lemma readPower?_append {sign ds rest : List Char} {negative : Bool} (hsign : IsSign sign negative)
    (hne : ds ≠ []) (hd : ∀ c ∈ ds, c.isDigit = true) (hr : ∀ c ∈ rest.head?, c.isDigit = false) :
    readPower? (sign ++ ds ++ rest) = some (if negative then -(ofDigits ds : Int) else ofDigits ds, rest) := by
  have hhead : ∀ c ∈ (ds ++ rest).head?, c ≠ '-' ∧ c ≠ '+' := by
    intro c hc
    rw [List.head?_append_of_ne_nil _ hne] at hc
    have hdigit := hd c (List.mem_of_mem_head? hc)
    constructor <;> rintro rfl <;> cases hdigit
  obtain ⟨ht, hdrop⟩ := takeWhile_digits hd hr
  rw [List.append_assoc, readPower?, hsign.readSign_append hhead]
  simp only [ht, hdrop]

/-- What is read as an exponent is one. -/
lemma exists_isExponent {s rest : List Char} {power : Int} (h : readExponent? s = some (power, rest)) :
    ∃ exponent, IsExponent exponent power ∧ s = exponent ++ rest := by
  unfold readExponent? at h
  split at h
  · obtain ⟨sign, _, ds, hsign, hne, hd, rfl, rfl⟩ := exists_of_readPower? h
    exact ⟨_, .power (.inl rfl) hsign hne hd, rfl⟩
  · obtain ⟨sign, _, ds, hsign, hne, hd, rfl, rfl⟩ := exists_of_readPower? h
    exact ⟨_, .power (.inr rfl) hsign hne hd, rfl⟩
  · cases h
    exact ⟨[], .absent, rfl⟩

/-- An exponent is read back when what follows could not be part of it. -/
lemma IsExponent.readExponent?_append {exponent rest : List Char} {power : Int} (h : IsExponent exponent power)
    (hr : ∀ c ∈ rest.head?, c.isDigit = false ∧ c ≠ 'e' ∧ c ≠ 'E') :
    readExponent? (exponent ++ rest) = some (power, rest) := by
  cases h with
  | absent =>
    rw [List.nil_append]
    unfold readExponent?
    split
    · exact absurd rfl (hr _ rfl).2.1
    · exact absurd rfl (hr _ rfl).2.2
    · rfl
  | power hc hsign hne hd =>
    have hpower := readPower?_append hsign hne hd fun c hc => (hr c hc).1
    rcases hc with rfl | rfl
    · exact hpower
    · exact hpower

/-- The factor that a suffix stands for, one if there is none. -/
def multiplier : Option Suffix → Float
  | none => 1
  | some suffix => suffix.factor

/-- What is read as a suffix is one. -/
lemma isSuffix_of_readSuffix? {s : List Char} {suffix : Option Suffix} (h : readSuffix? s = some suffix) :
    IsSuffix s (multiplier suffix) := by
  unfold readSuffix? at h
  split at h
  · cases h
    exact .absent
  · rename_i c
    obtain ⟨suffix, hs, rfl⟩ := Option.map_eq_some_iff.1 h
    unfold Suffix.ofChar? at hs
    split at hs <;> cases hs
    · exact .pico
    · exact .nano
    · exact .micro
    · exact .microSign
    · exact .milli
    · exact .kilo
    · exact .kiloCapital
    · exact .mega
    · exact .giga
  · cases h

/-- A suffix is read back with the factor that it stands for. -/
lemma IsSuffix.readSuffix?_eq {s : List Char} {factor : Float} (h : IsSuffix s factor) :
    ∃ suffix, readSuffix? s = some suffix ∧ factor = multiplier suffix := by
  cases h <;> exact ⟨_, rfl, rfl⟩

/-! ### Parts one behind the other -/

/-- A suffix starts with no character of a number. -/
lemma IsSuffix.head {s : List Char} {factor : Float} (h : IsSuffix s factor) :
    ∀ c ∈ s.head?, c.isDigit = false ∧ c ≠ '.' ∧ c ≠ 'e' ∧ c ≠ 'E' := by
  cases h <;> rintro _ ⟨⟩ <;> decide

/-- Neither an exponent nor what follows it starts like a mantissa that goes on. -/
lemma IsExponent.head_append {exponent rest : List Char} {power : Int} (h : IsExponent exponent power)
    (hr : ∀ c ∈ rest.head?, c.isDigit = false ∧ c ≠ '.') :
    ∀ c ∈ (exponent ++ rest).head?, c.isDigit = false ∧ c ≠ '.' := by
  cases h with
  | absent => exact hr
  | power hc _ _ _ =>
    rintro _ ⟨⟩
    rcases hc with rfl | rfl <;> decide

/-- A mantissa is not empty. -/
lemma IsMantissa.ne_nil {mantissa whole fraction : List Char} (h : IsMantissa mantissa whole fraction) :
    mantissa ≠ [] := by
  cases h with
  | whole hne _ => exact hne
  | point _ _ => simp

/-- A mantissa has a digit. -/
lemma IsMantissa.digits_ne_nil {mantissa whole fraction : List Char}
    (h : IsMantissa mantissa whole fraction) : whole ++ fraction ≠ [] := by
  cases h with
  | whole hne _ => simpa using hne
  | point hne _ => exact hne

/-- A mantissa consists of digits and points. -/
lemma IsMantissa.isDigit_or_eq {mantissa whole fraction : List Char} (h : IsMantissa mantissa whole fraction)
    {c : Char} (hc : c ∈ mantissa) : c.isDigit = true ∨ c = '.' := by
  cases h with
  | whole _ hd => exact .inl (hd c hc)
  | point _ hd =>
    rcases List.mem_append.1 hc with hc | hc
    · exact .inl (hd c (List.mem_append_left _ hc))
    · rcases List.mem_cons.1 hc with rfl | hc
      · exact .inr rfl
      · exact .inl (hd c (List.mem_append_right _ hc))

/-- A mantissa does not start with a sign. -/
lemma IsMantissa.head_append {mantissa whole fraction rest : List Char}
    (h : IsMantissa mantissa whole fraction) : ∀ c ∈ (mantissa ++ rest).head?, c ≠ '-' ∧ c ≠ '+' := by
  intro c hc
  rw [List.head?_append_of_ne_nil _ h.ne_nil] at hc
  rcases h.isDigit_or_eq (List.mem_of_mem_head? hc) with hd | rfl
  · constructor <;> rintro rfl <;> cases hd
  · decide

/-- The parts of a numeral are read one behind the other. -/
lemma read?_append {sign mantissa exponent text whole fraction : List Char} {negative : Bool} {power : Int}
    {factor : Float} {suffix : Option Suffix} (hsign : IsSign sign negative)
    (hmantissa : IsMantissa mantissa whole fraction) (hexponent : IsExponent exponent power)
    (hsuffix : IsSuffix text factor) (hread : readSuffix? text = some suffix) :
    Numeral.read? (sign ++ (mantissa ++ (exponent ++ text))) = some ⟨negative, whole, fraction, power, suffix⟩ := by
  have hend : ∀ c ∈ (exponent ++ text).head?, c.isDigit = false ∧ c ≠ '.' :=
    hexponent.head_append fun c hc => ⟨(hsuffix.head c hc).1, (hsuffix.head c hc).2.1⟩
  obtain ⟨hwhole, hfraction⟩ := hmantissa.readFraction_append hend
  have hexp := hexponent.readExponent?_append fun c hc => ⟨(hsuffix.head c hc).1, (hsuffix.head c hc).2.2⟩
  have hs : readSign (sign ++ (mantissa ++ (exponent ++ text))) =
      (negative, mantissa ++ (exponent ++ text)) := hsign.readSign_append hmantissa.head_append
  rw [Numeral.read?, hs]
  simp only [hwhole, hfraction, if_neg hmantissa.digits_ne_nil, hexp, hread, Option.bind_some, Option.map_some]

/-- What is read is a numeral of the grammar. -/
lemma writes_of_read? {s : List Char} {n : Numeral} (h : Numeral.read? s = some n) :
    Writes s (n.unscaled * multiplier n.suffix) := by
  unfold Numeral.read? at h
  simp only at h
  obtain ⟨sign, hsign, hs⟩ := exists_isSign s
  split at h
  · cases h
  · rename_i hne
    obtain ⟨mantissa, hmantissa, hs'⟩ := exists_isMantissa hne
    obtain ⟨⟨power, rest⟩, hpower, h⟩ := Option.bind_eq_some_iff.1 h
    obtain ⟨exponent, hexponent, hs''⟩ := exists_isExponent hpower
    obtain ⟨suffix, hsuffix, rfl⟩ := Option.map_eq_some_iff.1 h
    have hw := Writes.intro (.intro hsign hmantissa hexponent) (isSuffix_of_readSuffix? hsuffix)
    rwa [List.append_assoc, List.append_assoc, ← hs'', ← hs', ← hs] at hw

/-- Every numeral of the grammar is read. -/
lemma Writes.exists_read? {s : List Char} {x : Float} (h : Writes s x) :
    ∃ n, Numeral.read? s = some n ∧ n.unscaled * multiplier n.suffix = x := by
  obtain ⟨@⟨sign, mantissa, exponent, negative, whole, fraction, power, hsign, hmantissa, hexponent⟩,
    hsuffix⟩ := h
  obtain ⟨suffix, hread, rfl⟩ := hsuffix.readSuffix?_eq
  refine ⟨⟨negative, whole, fraction, power, suffix⟩, ?_, rfl⟩
  rw [List.append_assoc, List.append_assoc]
  exact read?_append hsign hmantissa hexponent hsuffix hread

end Nodal.Decimal
