import Nodal.Proofs.Netlist.Steps
/-!
# Records of a netlist

Invariants of reading. What holds of the item of every line holds of all items of a netlist, inside
and outside of subcircuits (`Netlist.items_of_read`); so every element line of a known kind has as
many nets as the kind has terminals (`Netlist.fits_of_read`). An item that was taken is never lost
(`Reader.mem_items_of_run`). The lines that the records consist of, in the order of the records, are the
lines of the text that are not blank (`Netlist.lineNumbers_of_read`).
-/

namespace Nodal

namespace Kind

/-- Upper case does not change the kind that a letter designates. -/
@[simp] lemma ofLetter?_toUpper (c : Char) : ofLetter? c.toUpper = ofLetter? c := by
  have h : c.toUpper.toUpper = c.toUpper := by
    unfold Char.toUpper
    split
    · rw [dif_neg]
      grind [UInt32.toNat_add, Char.toNat_val]
    · rfl
  simp only [ofLetter?, h]

/-- Only letters designate kinds. -/
lemma isAlpha_of_ofLetter? {c : Char} {k : Kind} (h : ofLetter? c = some k) : c.isAlpha = true := by
  by_cases hl : 'a'.val ≤ c.val ∧ c.val ≤ 'z'.val
  · have hlower : c.isLower = true := (Bool.and_eq_true _ _).mpr
      ⟨decide_eq_true hl.1, decide_eq_true hl.2⟩
    exact (Bool.or_eq_true _ _).mpr (.inr hlower)
  · have hu : c.toUpper = c := dif_neg hl
    rw [ofLetter?, hu] at h
    split at h
    all_goals first | rfl | cases h

end Kind

namespace ElementLine

/-- Whether a line has as many nets as its kind has terminals; a line of no kind may have any. -/
def Fits (l : ElementLine) : Prop :=
  ∀ k, Kind.ofLetter? l.letter = some k → l.nets.length = k.terminalCount

/-- What is known of the words that are recognised as an element. -/
structure OfWords (d : Dialect) (words : List String) (e : ElementLine) : Prop where
  words_eq : words = e.name :: e.nets ++ [e.value]
  isName : isNetName e.name = true
  free : d.reservesName e.name = false
  nets_ne_nil : e.nets ≠ []
  areNets : ∀ net ∈ e.nets, isNetName net = true
  letter : ∃ letter tail, e.name.toList = letter :: tail ∧ letter.isAlpha = true ∧
    e.letter = letter.toUpper ∧ admits d letter e.nets words = true

/-- What is read as an element line has the words of one and the number of its line. -/
lemma ofWords?_eq_some {d : Dialect} {n : Nat} {words : List String} {e : ElementLine}
    (h : ofWords? d n words = some e) : e.OfWords d words ∧ e.line = n := by
  unfold ofWords? at h
  split at h
  · rename_i name net rest
    split at h
    · rename_i value letter tail hv hn
      obtain ⟨init, rfl⟩ := List.getLast?_eq_some_iff.1 hv
      rw [List.dropLast_concat] at h
      simp only at h
      split at h
      · rename_i hc
        simp only [Bool.and_eq_true, Bool.not_eq_true'] at hc
        obtain ⟨⟨⟨⟨ha, hname⟩, hfree⟩, hadmits⟩, hnets⟩ := hc
        cases h
        exact ⟨⟨rfl, hname, hfree, List.cons_ne_nil _ _, List.all_eq_true.1 hnets,
          letter, tail, hn, ha, rfl, hadmits⟩, rfl⟩
      · cases h
    · cases h
  · cases h

/-- Words that are recognised as an element fit its kind. -/
lemma OfWords.fits {d : Dialect} {words : List String} {e : ElementLine} (h : e.OfWords d words) :
    e.Fits := by
  obtain ⟨letter, -, -, -, hl, ha⟩ := h.letter
  intro k hk
  rw [hl, Kind.ofLetter?_toUpper] at hk
  simp only [admits, hk] at ha
  exact eq_of_beq ha

end ElementLine

namespace Item

/-- Whether an item, if it is an element line, fits its kind. -/
def Fits (i : Item) : Prop :=
  ∀ e, i = .element e → e.Fits

/-- A line that is recognised as an element has the words of one. -/
lemma ofWords_of_ofLine? {d : Dialect} {l : Line} {e : ElementLine}
    (h : ofLine? d l = some (.element e)) : e.OfWords d l.words := by
  unfold ofLine? at h
  split at h
  · rename_i e' he'
    cases h
    exact (ElementLine.ofWords?_eq_some he').1
  · split at h
    · cases h
    · split at h <;> cases h

/-- An item has the number of the line it is read from. -/
lemma line_of_ofLine? {d : Dialect} {l : Line} {i : Item} (h : ofLine? d l = some i) :
    i.line = l.number := by
  unfold ofLine? at h
  split at h
  · rename_i e he
    cases h
    exact (ElementLine.ofWords?_eq_some he).2
  · split at h
    · cases h
      rfl
    · split at h
      · cases h
        rfl
      · cases h

/-- What a line is recognised as fits its kind. -/
lemma fits_of_ofLine? {d : Dialect} {l : Line} {i : Item} (h : ofLine? d l = some i) :
    i.Fits := by
  intro e he
  subst he
  exact (ofWords_of_ofLine? h).fits

end Item

/-- What holds of the element lines among the items of a body holds of its element lines. -/
lemma Subcircuit.forall_elementLines {P : ElementLine → Prop} {s : Subcircuit}
    (h : ∀ i ∈ s.body, ∀ l, i = .element l → P l) : ∀ l ∈ s.elementLines, P l := by
  intro l hl
  obtain ⟨i, hi, he⟩ := List.mem_filterMap.1 hl
  cases i with
  | element l' =>
    cases he
    exact h _ hi l rfl
  | directive _ | comment _ => cases he

namespace Record

/-- The items that a record consists of or holds in its body. -/
def items : Record → List Item
  | .item i => [i]
  | .subcircuit s => s.body
  | .call _ => []

/-- A record starts at one of its lines. -/
lemma sublist_lineNumbers (rs : List Record) :
    (rs.map line).Sublist (rs.flatMap lineNumbers) := by
  induction rs with
  | nil => exact .slnil
  | cons r rs ih =>
    have hr : [r.line].Sublist r.lineNumbers := by
      cases r <;> simp [line, lineNumbers]
    exact hr.append ih

end Record

namespace Reader

/-- The items of the open block. -/
def items (r : Reader) : List Item :=
  match r.block with
  | none => []
  | some b => b.body

section Items

variable {P : Item → Prop}

/-- What holds of an item and of those in the state holds of all when the item is taken. -/
lemma items_of_take {r r' : Reader} {i : Item} {out : Option Record} (h : r.take i = (r', out))
    (hr : ∀ j ∈ r.items, P j) (hi : P i) :
    (∀ j ∈ r'.items, P j) ∧ ∀ record ∈ out, ∀ j ∈ record.items, P j := by
  unfold take at h
  split at h
  · cases h
    refine ⟨hr, ?_⟩
    rintro record ⟨⟩ j hj
    rw [List.mem_singleton.1 hj]
    exact hi
  · rename_i b hb
    cases h
    refine ⟨fun j hj => ?_, nofun⟩
    rcases List.mem_append.1 hj with hj | hj
    · apply hr
      simpa only [items, hb] using hj
    · rw [List.mem_singleton.1 hj]
      exact hi

/-- A step keeps what holds of the items so far and of the items of the line. -/
lemma Step.items {r r' : Reader} {l : Line} {out : Option Record} (h : r.Step l r' out)
    (hline : ∀ d i, Item.ofLine? d l = some i → P i)
    (hswitch : ∀ d, P (.directive (Directive.ofLine d l)))
    (hr : ∀ j ∈ r.items, P j) :
    (∀ j ∈ r'.items, P j) ∧ ∀ record ∈ out, ∀ j ∈ record.items, P j := by
  cases h with
  | blank => exact ⟨hr, nofun⟩
  | switch _ _ ht => exact items_of_take ht hr (hswitch _)
  | item _ _ _ hi ht => exact items_of_take ht hr (hline _ _ hi)
  | title => exact ⟨nofun, nofun⟩
  | call =>
    refine ⟨hr, ?_⟩
    rintro record ⟨⟩
    nofun
  | close _ _ hb _ =>
    refine ⟨nofun, ?_⟩
    rintro record ⟨⟩ j hj
    apply hr
    simp only [Reader.items, hb]
    exact hj

/-- Reading keeps what holds of the items so far and of the items of all lines. -/
lemma items_of_run {r : Reader} {ls : List Line} {n : Netlist} (h : r.run ls = .ok n)
    (hline : ∀ d l i, Item.ofLine? d l = some i → P i)
    (hswitch : ∀ d l, P (.directive (Directive.ofLine d l)))
    (hr : ∀ j ∈ r.items, P j) :
    ∀ record ∈ n.records, ∀ j ∈ record.items, P j := by
  induction ls generalizing r n with
  | nil =>
    obtain ⟨-, hn, -⟩ := run_nil_eq_ok h
    simp [hn]
  | cons l ls ih =>
    obtain ⟨r', out, m, hs, hm, hn, -⟩ := run_cons_eq_ok h
    obtain ⟨hr', hout⟩ := hs.items (fun d i => hline d l i) (fun d => hswitch d l) hr
    intro record hrec
    rw [hn] at hrec
    rcases List.mem_append.1 hrec with hrec | hrec
    · exact hout record (Option.mem_toList.1 hrec)
    · exact ih hm hr' record hrec

end Items

section Kept

variable {i : Item}

/-- An item that is taken stands in the open block or in the record that is given out. -/
lemma mem_items_of_take {r r' : Reader} {out : Option Record} (h : r.take i = (r', out)) :
    i ∈ r'.items ∨ ∃ record ∈ out, i ∈ record.items := by
  unfold take at h
  split at h
  · cases h
    exact .inr ⟨_, rfl, List.mem_singleton.2 rfl⟩
  · cases h
    exact .inl (List.mem_append_right _ (List.mem_singleton.2 rfl))

/-- A step loses no item of the open block. -/
lemma Step.mem_items {r r' : Reader} {l : Line} {out : Option Record} (h : r.Step l r' out)
    (hi : i ∈ r.items) : i ∈ r'.items ∨ ∃ record ∈ out, i ∈ record.items := by
  have htake : ∀ {r₁ : Reader} {j}, r₁.take j = (r', out) → r₁.block = r.block → i ∈ r'.items := by
    intro r₁ j ht hr
    simp only [take, hr] at ht
    simp only [Reader.items] at hi
    split at ht
    · rename_i hb
      rw [hb] at hi
      cases hi
    · rename_i b hb
      cases ht
      rw [hb] at hi
      exact List.mem_append_left _ hi
  cases h with
  | blank => exact .inl hi
  | switch _ _ ht => exact .inl (htake ht rfl)
  | item _ _ _ _ ht => exact .inl (htake ht rfl)
  | title _ _ hb =>
    simp only [Reader.items, hb] at hi
    cases hi
  | call => exact .inl hi
  | close _ _ hb =>
    simp only [Reader.items, hb] at hi
    exact .inr ⟨_, rfl, hi⟩

/-- The items of the open block come to stand in a record. -/
lemma mem_items_of_run {r : Reader} {ls : List Line} {n : Netlist} (h : r.run ls = .ok n)
    (hi : i ∈ r.items) : ∃ record ∈ n.records, i ∈ record.items := by
  induction ls generalizing r n with
  | nil =>
    obtain ⟨hb, -, -⟩ := run_nil_eq_ok h
    simp only [items, hb] at hi
    cases hi
  | cons l ls ih =>
    obtain ⟨r', out, m, hs, hm, hn, -⟩ := run_cons_eq_ok h
    rw [hn]
    rcases hs.mem_items hi with hi' | ⟨record, hrec, hi'⟩
    · obtain ⟨record, hrec, hi''⟩ := ih hm hi'
      exact ⟨record, List.mem_append_right _ hrec, hi''⟩
    · exact ⟨record, List.mem_append_left _ (Option.mem_toList.2 hrec), hi'⟩

end Kept

section LineNumbers

/-- The numbers of the lines that the open block consists of so far. -/
def openNumbers (r : Reader) : List Nat :=
  match r.block with
  | none => []
  | some b => b.opening.number :: b.body.map Item.line

/-- A step turns the lines of the open block and the line that it reads into lines of a record or of the
open block. -/
lemma Step.lineNumbers {r r' : Reader} {l : Line} {out : Option Record} (h : r.Step l r' out) :
    out.toList.flatMap Record.lineNumbers ++ r'.openNumbers =
      r.openNumbers ++ ([l].filter (!·.isBlank)).map Line.number := by
  have htake : ∀ {r₁ : Reader} {i : Item}, r₁.take i = (r', out) → i.line = l.number →
      out.toList.flatMap Record.lineNumbers ++ r'.openNumbers = r₁.openNumbers ++ [l.number] := by
    intro r₁ i ht hi
    unfold take at ht
    split at ht
    · rename_i hb
      cases ht
      simp [openNumbers, hb, Record.lineNumbers, hi]
    · rename_i b hb
      cases ht
      simp [openNumbers, hb, hi]
  cases h with
  | blank hl => simp [hl]
  | switch hl _ ht =>
    rw [htake ht rfl]
    simp [hl, openNumbers]
  | item hl _ _ hi ht =>
    rw [htake ht (Item.line_of_ofLine? hi)]
    simp [hl]
  | title hl _ hb => simp [hl, openNumbers, hb]
  | call hl _ hb => simp [hl, openNumbers, hb, Record.lineNumbers]
  | close hl _ hb => simp [hl, openNumbers, hb, Record.lineNumbers, OpenBlock.close]

/-- The lines that records consist of are the lines that were read, without the blank ones. -/
lemma lineNumbers_of_run {r : Reader} {ls : List Line} {n : Netlist} (h : r.run ls = .ok n) :
    n.records.flatMap Record.lineNumbers =
      r.openNumbers ++ (ls.filter (!·.isBlank)).map Line.number := by
  induction ls generalizing r n with
  | nil =>
    obtain ⟨hb, hn, -⟩ := run_nil_eq_ok h
    simp [hn, openNumbers, hb]
  | cons l ls ih =>
    obtain ⟨r', out, m, hs, hm, hn, -⟩ := run_cons_eq_ok h
    calc
      n.records.flatMap Record.lineNumbers
        = out.toList.flatMap Record.lineNumbers ++ m.records.flatMap Record.lineNumbers := by
        rw [hn, List.flatMap_append]
      _ = r.openNumbers ++ ([l].filter (!·.isBlank)).map Line.number ++
          (ls.filter (!·.isBlank)).map Line.number := by
        rw [ih hm, ← List.append_assoc, hs.lineNumbers]
      _ = r.openNumbers ++ ((l :: ls).filter (!·.isBlank)).map Line.number := by
        rw [List.append_assoc, ← List.map_append, ← List.filter_append, List.singleton_append]

end LineNumbers

end Reader

namespace Source

/-- The numbers of lines ascend. -/
lemma pairwise_numbered (number offset : Nat) (raws : List (List Char)) :
    ((numbered number offset raws).map Line.number).Pairwise (· < ·) := by
  have h : ∀ number offset, (numbered number offset raws).map Line.number =
      List.range' number raws.length := by
    induction raws with
    | nil => exact fun _ _ => rfl
    | cons raw raws ih =>
      intro number offset
      simp only [numbered, List.map_cons, ih, List.length_cons, List.range'_succ, lineOf]
  rw [h]
  exact List.pairwise_lt_range'

end Source

namespace Netlist

/-- A netlist is what the reader makes of the lines of its text. -/
lemma run_of_read {d : Dialect} {text : String} {n : Netlist} (h : read d text = .ok n) :
    Reader.run { dialect := d } (Source.lines text) = .ok n := by
  simp only [read] at h
  split at h
  · rename_i n' hn
    cases h
    exact hn
  · cases h

/-- What holds of the items on lines, and of switches, holds of all items of a netlist. -/
lemma items_of_read {P : Item → Prop} {d : Dialect} {text : String} {n : Netlist}
    (h : read d text = .ok n) (hline : ∀ d l i, Item.ofLine? d l = some i → P i)
    (hswitch : ∀ d l, P (.directive (Directive.ofLine d l))) :
    ∀ record ∈ n.records, ∀ j ∈ record.items, P j :=
  Reader.items_of_run (run_of_read h) hline hswitch nofun

/-- All items of a netlist fit their kinds. -/
lemma fits_of_read {d : Dialect} {text : String} {n : Netlist} (h : read d text = .ok n) :
    ∀ record ∈ n.records, ∀ i ∈ record.items, i.Fits :=
  items_of_read h (fun _ _ _ => Item.fits_of_ofLine?) fun _ _ => nofun

/-- The lines that the records of a netlist consist of are the lines of the text that are not blank. -/
lemma lineNumbers_of_read {d : Dialect} {text : String} {n : Netlist} (h : read d text = .ok n) :
    n.records.flatMap Record.lineNumbers =
      ((Source.lines text).filter (!·.isBlank)).map Line.number :=
  Reader.lineNumbers_of_run (run_of_read h)

/-- The numbers of the lines of records ascend. -/
lemma lineNumbers_ascend {d : Dialect} {text : String} {n : Netlist} (h : read d text = .ok n) :
    (n.records.flatMap Record.lineNumbers).Pairwise (· < ·) := by
  rw [lineNumbers_of_read h]
  exact (Source.pairwise_numbered 1 0 _).sublist (List.filter_sublist.map _)

/-- The records of a netlist stand in the order of their lines. -/
lemma lines_ascend {d : Dialect} {text : String} {n : Netlist} (h : read d text = .ok n) :
    (n.records.map Record.line).Pairwise (· < ·) :=
  (lineNumbers_ascend h).sublist (Record.sublist_lineNumbers _)

end Netlist

end Nodal
