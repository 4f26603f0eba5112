import Mathlib.Data.List.Nodup
import Nodal.Proofs.Netlist.Accounting
/-!
# Notes of a netlist

The notes of a text are its comments and directives, in and outside of subcircuits. What a line is can be
said without the lines before it (`Line.item?`), given the dialect in effect on it, with one exception: a
line that closes a subcircuit may look like a directive. Records gather lines, but keep their order, so the
items of the records are those of the lines, one after another (`Netlist.items_of_lines`), and those that
stand outside of subcircuits are those of the lines that no subcircuit encloses
(`Netlist.outerItems_of_lines`).
-/

namespace Nodal

namespace Item

/-- The text of a comment or directive. -/
def note? : Item → Option String
  | .element _ => none
  | .directive d => some d.text
  | .comment c => some c.text

def directive? : Item → Option Directive
  | .directive d => some d
  | _ => none

def isComment : Item → Bool
  | .comment _ => true
  | _ => false

end Item

namespace Line

/-- The item that a line is where an item may stand, in the dialect in effect on it; a switch is a directive of
the dialect that it chooses. -/
def item? (d : Dialect) (l : Line) : Option Item :=
  if (Dialect.switch? l.words).isSome then some (.directive (Directive.ofLine d l)) else Item.ofLine? d l

/-- Whether a line is a directive, such as a switch. -/
def isDirective (d : Dialect) (l : Line) : Bool :=
  (l.item? d).any fun i => i.directive?.isSome

def isComment (d : Dialect) (l : Line) : Bool :=
  (l.item? d).any Item.isComment

/-- A line that is read as an item is this item. -/
lemma ReadAs.item?_eq {d : Dialect} {l : Line} {i : Item} (h : l.ReadAs d i) : l.item? d = some i := by
  cases h with
  | switch hs => rw [item?, if_pos (by rw [hs]; rfl)]
  | item hs hi => rw [item?, if_neg (by rw [hs]; decide), hi]

/-- A line that is neither a switch nor read as an item is none. -/
lemma item?_eq_none {d : Dialect} {l : Line} (hs : Dialect.switch? l.words = none)
    (hi : Item.ofLine? d l = none) : l.item? d = none := by
  rw [item?, if_neg (by rw [hs]; decide), hi]

/-- A blank line is no item. -/
lemma item?_of_isBlank {d : Dialect} {l : Line} (h : l.isBlank = true) : l.item? d = none := by
  have hw : l.words = [] := by simpa [isBlank, words] using h
  refine item?_eq_none (by rw [hw]; rfl) ?_
  cases d <;> simp [Item.ofLine?, hw, ElementLine.ofWords?, Dialect.isDirective, Dialect.isComment]

/-- A comment or directive keeps the text of its line, and a directive is the one that the line describes. -/
lemma item?_cases {d : Dialect} {l : Line} {i : Item} (h : l.item? d = some i) :
    (∃ e, i = .element e) ∨ i = .directive (Directive.ofLine d l) ∨
      i = .comment { text := l.trimmed, line := l.number } := by
  unfold item? at h
  split at h
  · cases h
    exact .inr (.inl rfl)
  · unfold Item.ofLine? at h
    split at h
    · cases h
      exact .inl ⟨_, rfl⟩
    · split at h
      · cases h
        exact .inr (.inl rfl)
      · split at h <;> cases h
        exact .inr (.inr rfl)

/-- The text of a line is noted iff it is a directive or a comment. -/
lemma bind_note?_item? (d : Dialect) (l : Line) :
    (l.item? d).bind Item.note? = if l.isDirective d || l.isComment d then some l.trimmed else none := by
  cases h : l.item? d with
  | none => simp [isDirective, isComment, h]
  | some i =>
    rcases item?_cases h with ⟨e, rfl⟩ | rfl | rfl <;>
      simp [isDirective, isComment, h, Item.note?, Item.directive?, Item.isComment, Directive.ofLine]

/-- The directive of a line is noted iff it is one. -/
lemma bind_directive?_item? (d : Dialect) (l : Line) :
    (l.item? d).bind Item.directive? = if l.isDirective d then some (Directive.ofLine d l) else none := by
  cases h : l.item? d with
  | none => simp [isDirective, h]
  | some i =>
    rcases item?_cases h with ⟨e, rfl⟩ | rfl | rfl <;>
      simp [isDirective, h, Item.directive?]

end Line

section Records

variable {ls : List Line} {inEffect : Nat → Dialect} {item : Nat → Option Item}
  (hitem : ∀ l ∈ ls, item l.number = l.item? (inEffect l.number))

include hitem in
/-- An item in an open block is the one that stands on its line. -/
lemma OpenBlock.ReadFrom.item_line {b : OpenBlock} (h : b.ReadFrom ls inEffect) :
    ∀ i ∈ b.body, item i.line = some i := by
  intro i hi
  obtain ⟨l, hl, hread, -⟩ := h.body i hi
  rw [hread.line, hitem l hl, hread.item?_eq]

include hitem in
/-- On the line of a title stands no item. -/
lemma OpenBlock.ReadFrom.item_opening {b : OpenBlock} (h : b.ReadFrom ls inEffect) :
    item b.opening.number = none := by
  rw [hitem _ h.opening_mem]
  exact Line.item?_eq_none h.opens.noSwitch h.opens.noItem

namespace Record

/-- The item that a record consists of. -/
def outerItems : Record → List Item
  | .item i => [i]
  | _ => []

/-- Whether a record is a subcircuit that the line with a number closes. -/
def isClosedAt (number : Nat) : Record → Bool
  | .subcircuit s => s.lastLine == number
  | _ => false

/-- Whether a record is a subcircuit that the line with a number belongs to. -/
def encloses (number : Nat) : Record → Bool
  | .subcircuit s => decide (s.line ≤ number) && decide (number ≤ s.lastLine)
  | _ => false

/-- Whether all lines of a record stand before all lines of another. -/
def Before (r r' : Record) : Prop :=
  ∀ x ∈ r.lineNumbers, ∀ y ∈ r'.lineNumbers, x < y

/-- The lines of a subcircuit ascend from the title through the body to the closing line. -/
lemma lines_of_pairwise {s : Subcircuit} (h : (lineNumbers (.subcircuit s)).Pairwise (· < ·)) :
    s.line < s.lastLine ∧ ∀ i ∈ s.body, s.line < i.line ∧ i.line < s.lastLine := by
  obtain ⟨hfirst, hrest⟩ := List.pairwise_cons.1 h
  obtain ⟨-, -, hlast⟩ := List.pairwise_append.1 hrest
  refine ⟨hfirst _ (by simp), fun i hi => ⟨hfirst _ ?_, hlast _ (List.mem_map_of_mem hi) _ (by simp)⟩⟩
  exact List.mem_append_left _ (List.mem_map_of_mem hi)

include hitem in
/-- The items that a record takes in are those of its lines, but for a closing line. -/
lemma ReadFrom.filterMap_items {r : Record} (h : r.ReadFrom ls inEffect)
    (hr : r.lineNumbers.Pairwise (· < ·)) :
    r.lineNumbers.filterMap (fun k => if r.isClosedAt k then none else item k) = r.items := by
  cases h with
  | item hl hi => simp [lineNumbers, items, isClosedAt, hi.line, hitem _ hl, hi.item?_eq]
  | @subcircuit b last hb =>
    obtain ⟨-, hbody⟩ := lines_of_pairwise hr
    let pick (k : Nat) : Option Item := if last.number == k then none else item k
    have hpick : ∀ i ∈ b.body, (pick ∘ Item.line) i = some i := by
      intro i hi
      rw [← hb.item_line hitem i hi]
      exact if_neg fun hc => Nat.ne_of_gt (hbody i hi).2 (eq_of_beq hc)
    have hopening : pick b.opening.number = none := by
      simp only [pick, hb.item_opening hitem, ite_self]
    have hlast : pick last.number = none := if_pos (beq_self_eq_true _)
    change (b.opening.number :: (b.body.map Item.line ++ [last.number])).filterMap pick = b.body
    rw [List.filterMap_cons_none hopening, List.filterMap_append, List.filterMap_cons_none hlast,
      List.filterMap_map, List.filterMap_congr hpick, List.filterMap_some]
    exact List.append_nil _
  | call hl hs hi => simp [lineNumbers, items, isClosedAt, hitem _ hl, Line.item?_eq_none hs hi]

/-- A subcircuit encloses all its lines. -/
lemma encloses_of_mem {s : Subcircuit} (h : (lineNumbers (.subcircuit s)).Pairwise (· < ·)) :
    ∀ k ∈ lineNumbers (.subcircuit s), encloses k (.subcircuit s) = true := by
  obtain ⟨hs, hbody⟩ := lines_of_pairwise h
  intro k hk
  simp only [lineNumbers, List.cons_append, List.mem_cons, List.mem_append, List.mem_map,
    List.not_mem_nil, or_false] at hk
  simp only [encloses, Bool.and_eq_true, decide_eq_true_eq]
  rcases hk with rfl | ⟨i, hi, rfl⟩ | rfl
  · exact ⟨Nat.le_refl _, Nat.le_of_lt hs⟩
  · exact ⟨Nat.le_of_lt (hbody i hi).1, Nat.le_of_lt (hbody i hi).2⟩
  · exact ⟨Nat.le_of_lt hs, Nat.le_refl _⟩

include hitem in
/-- Outside of a subcircuit the items are those of the lines that it does not enclose. -/
lemma ReadFrom.filterMap_outerItems {r : Record} (h : r.ReadFrom ls inEffect)
    (hr : r.lineNumbers.Pairwise (· < ·)) :
    r.lineNumbers.filterMap (fun k => if r.encloses k then none else item k) = r.outerItems := by
  cases h with
  | item hl hi => simp [lineNumbers, outerItems, encloses, hi.line, hitem _ hl, hi.item?_eq]
  | subcircuit =>
    refine List.filterMap_eq_nil_iff.2 fun k hk => ?_
    rw [if_pos (encloses_of_mem hr k hk)]
  | call hl hs hi => simp [lineNumbers, outerItems, encloses, hitem _ hl, Line.item?_eq_none hs hi]

end Record

end Records

namespace Source

/-- The number of a line tells it from all others. -/
lemma find?_number {text : String} {l : Line} (hl : l ∈ lines text) :
    (lines text).find? (·.number == l.number) = some l := by
  have hnodup : ((lines text).map Line.number).Nodup :=
    (pairwise_numbered 1 0 _).imp Nat.ne_of_lt
  cases hf : (lines text).find? (·.number == l.number) with
  | none => exact absurd (beq_self_eq_true l.number) (List.find?_eq_none.1 hf l hl)
  | some l' =>
    have hn : (l'.number == l.number) = true := List.find?_some (p := fun l' : Line => l'.number == l.number) hf
    rw [List.inj_on_of_nodup_map hnodup (List.mem_of_find?_eq_some hf) hl (eq_of_beq hn)]

end Source

namespace Netlist

/-- Whether the line with a number closes a subcircuit. -/
def isClosing (n : Netlist) (number : Nat) : Bool :=
  n.records.any (·.isClosedAt number)

/-- Whether the line with a number belongs to a subcircuit. -/
def encloses (n : Netlist) (number : Nat) : Bool :=
  n.records.any (·.encloses number)

/-- The lines that are comments or directives, in and outside of subcircuits. -/
def notes (n : Netlist) (inEffect : Nat → Dialect) (ls : List Line) : List Line :=
  ls.filter fun l =>
    !n.isClosing l.number && (l.isDirective (inEffect l.number) || l.isComment (inEffect l.number))

variable {d : Dialect} {text : String} {n : Netlist} {r r' : Record}

/-- The lines of a record stand before or behind all lines of any other. -/
lemma before_of_read (h : read d text = .ok n) (hr : r ∈ n.records) (hr' : r' ∈ n.records) :
    r = r' ∨ r.Before r' ∨ r'.Before r := by
  obtain ⟨-, hp⟩ := List.pairwise_flatMap.1 (lineNumbers_ascend h)
  have hbefore : n.records.Pairwise Record.Before := hp
  refine List.Pairwise.forall_of_forall_of_flip (R := fun r r' => r = r' ∨ r.Before r' ∨ r'.Before r)
    (fun r _ => .inl rfl) ?_ ?_ hr hr'
  · exact hbefore.imp fun h => .inr (.inl h)
  · exact hbefore.imp fun h => .inr (.inr h)

/-- What is true of a record only between its own lines is true of some record at a line just if it is true of
the record of that line. -/
lemma any_records_eq (h : read d text = .ok n) (hr : r ∈ n.records) {k : Nat} (hk : k ∈ r.lineNumbers)
    {p : Record → Bool}
    (hp : ∀ r, p r = true → ∃ x ∈ r.lineNumbers, ∃ y ∈ r.lineNumbers, x ≤ k ∧ k ≤ y) :
    n.records.any p = p r := by
  rw [Bool.eq_iff_iff, List.any_eq_true]
  refine ⟨?_, fun hpr => ⟨r, hr, hpr⟩⟩
  rintro ⟨r', hr', hpr⟩
  obtain ⟨x, hx, y, hy, hxk, hky⟩ := hp r' hpr
  rcases before_of_read h hr hr' with rfl | hbefore | hbehind
  · exact hpr
  · exact absurd (hbefore k hk x hx) (Nat.not_lt.2 hxk)
  · exact absurd (hbehind y hy k hk) (Nat.not_lt.2 hky)

/-- Of all records, the one that a line belongs to decides whether the line closes a subcircuit. -/
lemma isClosing_eq (h : read d text = .ok n) (hr : r ∈ n.records) {k : Nat} (hk : k ∈ r.lineNumbers) :
    n.isClosing k = r.isClosedAt k := by
  refine any_records_eq h hr hk fun r' hp => ?_
  cases r' with
  | subcircuit s =>
    obtain rfl : s.lastLine = k := eq_of_beq hp
    exact ⟨_, by simp [Record.lineNumbers], _, by simp [Record.lineNumbers], Nat.le_refl _, Nat.le_refl _⟩
  | item i => cases hp
  | call c => cases hp

/-- Of all records, the one that a line belongs to decides whether it stands in a subcircuit. -/
lemma encloses_eq (h : read d text = .ok n) (hr : r ∈ n.records) {k : Nat} (hk : k ∈ r.lineNumbers) :
    n.encloses k = r.encloses k := by
  refine any_records_eq h hr hk fun r' hp => ?_
  cases r' with
  | subcircuit s =>
    simp only [Record.encloses, Bool.and_eq_true, decide_eq_true_eq] at hp
    exact ⟨s.line, by simp [Record.lineNumbers], s.lastLine, by simp [Record.lineNumbers], hp⟩
  | item i => cases hp
  | call c => cases hp

/-- What the records take in is what their lines are read as, but for lines that are passed over. Whether one
is passed over depends on its own record. -/
lemma flatMap_of_lines (h : read d text = .ok n) {skips : Nat → Bool} {recordSkips : Nat → Record → Bool}
    {takes : Record → List Item}
    (hskips : ∀ r ∈ n.records, ∀ k ∈ r.lineNumbers, skips k = recordSkips k r)
    (htakes : ∀ item : Nat → Option Item, (∀ l ∈ Source.lines text,
        item l.number = l.item? (d.onLine (Source.lines text) l.number)) →
      ∀ r ∈ n.records,
        r.lineNumbers.filterMap (fun k => if recordSkips k r then none else item k) = takes r) :
    n.records.flatMap takes = (Source.lines text).filterMap fun l =>
      if skips l.number then none else l.item? (d.onLine (Source.lines text) l.number) := by
  let item (k : Nat) : Option Item :=
    ((Source.lines text).find? (·.number == k)).bind (·.item? (d.onLine (Source.lines text) k))
  have hitem : ∀ l ∈ Source.lines text,
      item l.number = l.item? (d.onLine (Source.lines text) l.number) := by
    intro l hl
    simp only [item, Source.find?_number hl, Option.bind_some]
  calc
    n.records.flatMap takes
      = n.records.flatMap fun r => r.lineNumbers.filterMap fun k => if skips k then none else item k := by
      refine List.flatMap_congr fun r hr => ?_
      rw [← htakes item hitem r hr]
      refine List.filterMap_congr fun k hk => ?_
      rw [hskips r hr k hk]
    _ = (((Source.lines text).filter (!·.isBlank)).map Line.number).filterMap
        fun k => if skips k then none else item k := by
      rw [← lineNumbers_of_read h, List.filterMap_flatMap]
    _ = (Source.lines text).filterMap fun l =>
        if !l.isBlank then (if skips l.number then none else item l.number) else none := by
      rw [List.filterMap_map, List.filterMap_filter]
      rfl
    _ = _ := by
      refine List.filterMap_congr fun l hl => ?_
      rw [hitem l hl]
      cases hb : l.isBlank with
      | true => simp [Line.item?_of_isBlank hb]
      | false => rfl

/-- The items of the records are those of the lines that close no subcircuit, in order. -/
theorem items_of_lines (h : read d text = .ok n) :
    n.records.flatMap Record.items = (Source.lines text).filterMap fun l =>
      if n.isClosing l.number then none else l.item? (d.onLine (Source.lines text) l.number) := by
  refine flatMap_of_lines h (fun r hr k hk => isClosing_eq h hr hk) fun item hitem r hr => ?_
  exact (readFrom_of_read h r hr).filterMap_items hitem
    ((List.pairwise_flatMap.1 (lineNumbers_ascend h)).1 r hr)

/-- The items outside of subcircuits are those of the lines that no subcircuit encloses, in order. -/
theorem outerItems_of_lines (h : read d text = .ok n) :
    n.records.flatMap Record.outerItems = (Source.lines text).filterMap fun l =>
      if n.encloses l.number then none else l.item? (d.onLine (Source.lines text) l.number) := by
  refine flatMap_of_lines h (fun r hr k hk => encloses_eq h hr hk) fun item hitem r hr => ?_
  exact (readFrom_of_read h r hr).filterMap_outerItems hitem
    ((List.pairwise_flatMap.1 (lineNumbers_ascend h)).1 r hr)

/-- The notes of a text are those that its records hold, in order. -/
lemma map_trimmed_notes (h : read d text = .ok n) :
    (n.notes (d.onLine (Source.lines text)) (Source.lines text)).map Line.trimmed =
      (n.records.flatMap Record.items).filterMap Item.note? := by
  rw [items_of_lines h, List.filterMap_filterMap, notes, ← List.filterMap_eq_map, List.filterMap_filter]
  refine List.filterMap_congr fun l _ => ?_
  cases n.isClosing l.number with
  | true => simp
  | false => simp [Line.bind_note?_item?]

/-- The comments among the noted lines are those in the records. -/
lemma countP_comments (h : read d text = .ok n) :
    ((n.notes (d.onLine (Source.lines text)) (Source.lines text)).countP fun l =>
        l.isComment (d.onLine (Source.lines text) l.number)) =
      (n.records.flatMap Record.items).countP Item.isComment := by
  rw [items_of_lines h, List.countP_filterMap, notes, List.countP_filter]
  refine List.countP_congr fun l _ => ?_
  cases n.isClosing l.number with
  | true => simp
  | false =>
    -- a comment is one of the notes
    simp only [Line.isComment, Bool.not_false, Bool.true_and, Bool.false_eq_true, if_false]
    cases Line.item? _ l <;> simp +contextual

/-- The directives outside of subcircuits are those of the lines that no subcircuit encloses, in order. -/
lemma map_outer_directives (h : read d text = .ok n) :
    (((Source.lines text).filter fun l =>
        !n.encloses l.number && l.isDirective (d.onLine (Source.lines text) l.number)).map fun l =>
          Directive.ofLine (d.onLine (Source.lines text) l.number) l) =
      (n.records.flatMap Record.outerItems).filterMap Item.directive? := by
  rw [outerItems_of_lines h, List.filterMap_filterMap, ← List.filterMap_eq_map, List.filterMap_filter]
  refine List.filterMap_congr fun l _ => ?_
  cases n.encloses l.number with
  | true => simp
  | false => simp [Line.bind_directive?_item?]

end Netlist

end Nodal
