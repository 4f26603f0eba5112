import Nodal.Proofs.LinearSystem.Assembly
/-!
# Labels of the unknowns

The labels of a system are written element by element into places that hold the nets at first. No index
belongs to two elements, so no label is written over another. A label therefore stands at an index just
if it is the net of this number or the owner of the index has it there
(`LinearSystem.getElem?_unknownLabels`). Elements of distinct names without dots have distinct labels,
since each label parts from the name at its only dot (`LinearSystem.nodup_unknownLabels`).
-/

namespace Nodal

namespace Kind

/-- No kind has two equal suffixes. -/
lemma nodup_auxSuffixes (k : Kind) : k.auxSuffixes.Nodup := by
  cases k <;> decide

/-- A suffix starts with its only dot. -/
lemma dot_of_mem_auxSuffixes {k : Kind} {suffix : String} (h : suffix ∈ k.auxSuffixes) :
    ∃ cs, suffix.toList = '.' :: cs ∧ '.' ∉ cs := by
  have hd : ∀ suffix ∈ k.auxSuffixes,
      suffix.toList = '.' :: suffix.toList.tail ∧ '.' ∉ suffix.toList.tail := by
    cases k <;> decide
  exact ⟨_, hd suffix h⟩

end Kind

namespace Element

variable {K : Type} {e : Element K} {offset : Option Nat} {n k : Nat} {label label' : String}

/-- Whether an element whose auxiliary unknowns start at `offset` labels the unknown with index `n`. -/
def Labels (e : Element K) (offset : Option Nat) (n : Nat) (label : String) : Prop :=
  ∃ k j, offset = some k ∧ n = k + j ∧ e.auxLabels[j]? = some label

/-- An element without an offset labels nothing. -/
lemma not_labels_none : ¬ e.Labels none n label := by
  rintro ⟨k, j, ⟨⟩, -⟩

/-- An element labels the unknowns from its offset on, in the order of its labels. -/
lemma labels_some_iff : e.Labels (some k) n label ↔ k ≤ n ∧ e.auxLabels[n - k]? = some label := by
  constructor
  · rintro ⟨k, j, ⟨⟩, rfl, hj⟩
    exact ⟨Nat.le_add_right k j, by rwa [Nat.add_sub_cancel_left]⟩
  · rintro ⟨hk, hl⟩
    exact ⟨k, n - k, rfl, (Nat.add_sub_cancel' hk).symm, hl⟩

/-- An element has one label for each of its unknowns. -/
lemma Labels.unique (h : e.Labels offset n label) (h' : e.Labels offset n label') : label = label' := by
  cases offset with
  | none => exact absurd h not_labels_none
  | some k =>
    have hl := (labels_some_iff.1 h).2
    rw [(labels_some_iff.1 h').2] at hl
    exact (Option.some.inj hl).symm

/-- A label is the name of the element with one of the suffixes of its kind. -/
lemma Labels.exists_suffix (h : e.Labels offset n label) :
    ∃ k j suffix, offset = some k ∧ n = k + j ∧ e.kind.auxSuffixes[j]? = some suffix ∧
      e.name ++ suffix = label := by
  obtain ⟨k, j, ho, hn, hj⟩ := h
  rw [auxLabels, List.getElem?_map, Option.map_eq_some_iff] at hj
  obtain ⟨suffix, hs, hl⟩ := hj
  exact ⟨k, j, suffix, ho, hn, hs, hl⟩

end Element

namespace LinearSystem

variable {K : Type}

/-- Writing labels from an index on changes the places of this index and the indices behind it. -/
lemma getElem?_place? {places places' labels : List String} {k : Nat} (hk : 1 ≤ k)
    (h : place? places k labels = some places') (q : Nat) :
    places'[q]? =
      if k ≤ q + 1 ∧ q + 1 < k + labels.length then labels[q + 1 - k]? else places[q]? := by
  induction labels generalizing places k with
  | nil =>
    cases h
    rw [if_neg]
    rw [List.length_nil]
    omega
  | cons label rest ih =>
    rw [place?] at h
    split at h
    · rename_i hlt
      rw [ih (Nat.le_add_left 1 k) h, List.length_cons]
      by_cases hq : q = k - 1
      · subst hq
        rw [if_neg (by omega), if_pos (by omega), List.getElem?_set_self hlt]
        rw [show k - 1 + 1 - k = 0 by omega, List.getElem?_cons_zero]
      · by_cases hin : k + 1 ≤ q + 1 ∧ q + 1 < k + 1 + rest.length
        · rw [if_pos hin, if_pos (by omega), show q + 1 - k = q + 1 - (k + 1) + 1 by omega,
            List.getElem?_cons_succ]
        · rw [if_neg hin, if_neg (by omega), List.getElem?_set_ne (Ne.symm hq)]
    · cases h

/-- A label that stands at a place, or is written there, remains if no other label is written there. -/
lemma getElem?_placeAll {places places' : List String} {ps : List (Element K × Option Nat)}
    (h : placeAll places ps = .ok places') (hpos : ∀ p ∈ ps, ∀ k, p.2 = some k → 1 ≤ k) {q : Nat}
    {label : String} (hu : ∀ p ∈ ps, ∀ label', p.1.Labels p.2 (q + 1) label' → label' = label)
    (hq : places[q]? = some label ∨ ∃ p ∈ ps, p.1.Labels p.2 (q + 1) label) :
    places'[q]? = some label := by
  -- an element that comes later leaves the place alone, or writes the same label there
  induction ps generalizing places with
  | nil =>
    cases h
    rcases hq with hq | ⟨p, hm, -⟩
    · exact hq
    · cases hm
  | cons p ps ih =>
    have hpos' : ∀ p ∈ ps, ∀ k, p.2 = some k → 1 ≤ k := fun p hp => hpos p (List.mem_cons_of_mem _ hp)
    have hu' : ∀ p ∈ ps, ∀ label', p.1.Labels p.2 (q + 1) label' → label' = label :=
      fun p hp => hu p (List.mem_cons_of_mem _ hp)
    obtain ⟨e, offset⟩ := p
    cases offset with
    | none =>
      refine ih h hpos' hu' (hq.imp_right ?_)
      rintro ⟨p, hp, hl⟩
      rcases List.mem_cons.1 hp with rfl | hp
      · exact absurd hl Element.not_labels_none
      · exact ⟨p, hp, hl⟩
    | some k =>
      simp only [placeAll] at h
      split at h
      · rename_i places₁ hplace
        have hat := getElem?_place? (hpos _ List.mem_cons_self k rfl) hplace q
        refine ih h hpos' hu' ?_
        by_cases hin : k ≤ q + 1 ∧ q + 1 < k + e.auxLabels.length
        · -- the element writes at this place, and so it writes the label
          have hget := List.getElem?_eq_getElem (show q + 1 - k < e.auxLabels.length by omega)
          have hl := hu _ List.mem_cons_self _ (Element.labels_some_iff.2 ⟨hin.1, hget⟩)
          rw [if_pos hin, hget, hl] at hat
          exact .inl hat
        · rw [if_neg hin] at hat
          rw [hat]
          refine hq.imp_right ?_
          rintro ⟨p, hp, hl⟩
          rcases List.mem_cons.1 hp with rfl | hp
          · obtain ⟨hk, hl⟩ := Element.labels_some_iff.1 hl
            have hlt : q + 1 - k < e.auxLabels.length := (List.getElem?_eq_some_iff.1 hl).1
            omega
          · exact ⟨p, hp, hl⟩
      · cases h

variable {elements : List (Element K)} {nodes : NodeTable} {n : Nat} {label : String}

/-- Whether an element labels the unknown with index `n`, with the offset that the layout gives it. -/
inductive AuxLabel (elements : List (Element K)) (nodes : NodeTable) (n : Nat) (label : String) :
    Prop where
  | element {i : Nat} {e offset} :
    elements[i]? = some e →
    (layoutOf elements nodes).offsets[i]? = some offset →
    e.Labels offset n label →
    AuxLabel elements nodes n label

/-- An element labels just the unknowns that belong to it. -/
lemma owns_iff_labels {i : Nat} :
    (layoutOf elements nodes).Owns i n ↔
      ∃ e offset label, elements[i]? = some e ∧
        (layoutOf elements nodes).offsets[i]? = some offset ∧ e.Labels offset n label := by
  constructor
  · rintro ⟨kind, k, hk, ho, h1, h2⟩
    obtain ⟨e, he, rfl⟩ : ∃ e, elements[i]? = some e ∧ e.kind = kind := by
      simpa [layoutOf] using hk
    have hlt : n - k < e.auxLabels.length := by
      rw [Element.length_auxLabels, Element.auxCount]
      omega
    exact ⟨e, some k, _, he, ho, Element.labels_some_iff.2 ⟨h1, List.getElem?_eq_getElem hlt⟩⟩
  · rintro ⟨e, offset, label, he, ho, hl⟩
    obtain ⟨k, j, rfl, rfl, hj⟩ := hl
    have hlt := (List.getElem?_eq_some_iff.1 hj).1
    rw [Element.length_auxLabels, Element.auxCount] at hlt
    exact ⟨e.kind, k, by simp [layoutOf, he], ho, Nat.le_add_right k j, Nat.add_lt_add_left hlt k⟩

/-- The unknowns that elements label are those behind the nodes. -/
lemma exists_auxLabel_iff :
    (∃ label, AuxLabel elements nodes n label) ↔
      nodes.count + 1 ≤ n ∧ n ≤ (layoutOf elements nodes).size := by
  refine Iff.trans ?_ (Layout.exists_owns_iff (l := layoutOf elements nodes))
  constructor
  · rintro ⟨label, ⟨he, ho, hl⟩⟩
    exact ⟨_, owns_iff_labels.2 ⟨_, _, label, he, ho, hl⟩⟩
  · rintro ⟨i, hi⟩
    obtain ⟨e, offset, label, he, ho, hl⟩ := owns_iff_labels.1 hi
    exact ⟨label, he, ho, hl⟩

/-- An unknown has at most one label of elements. -/
lemma AuxLabel.unique {label' : String} (h : AuxLabel elements nodes n label)
    (h' : AuxLabel elements nodes n label') : label = label' := by
  obtain ⟨he, ho, hl⟩ := h
  obtain ⟨he', ho', hl'⟩ := h'
  -- the two elements own the same index
  have hi := (owns_iff_labels.2 ⟨_, _, _, he, ho, hl⟩).unique (owns_iff_labels.2 ⟨_, _, _, he', ho', hl'⟩)
  subst hi
  rw [he] at he'
  rw [ho] at ho'
  cases he'
  cases ho'
  exact hl.unique hl'

/-- The label at an index is the net of this number, or else what the owner of the index has there. -/
theorem getElem?_unknownLabels {labels : List String} (h : unknownLabels elements nodes = .ok labels)
    {q : Nat} :
    labels[q]? = some label ↔
      nodes.names[q]? = some label ∨ AuxLabel elements nodes (q + 1) label := by
  obtain ⟨labels', h', hlen⟩ := unknownLabels_eq_ok elements nodes
  rw [h] at h'
  cases h'
  have hpos : ∀ p ∈ elements.zip (layoutOf elements nodes).offsets, ∀ k, p.2 = some k → 1 ≤ k :=
    fun p hp k hk => Nat.zero_lt_of_lt ((placed_of_mem hp).of_some k hk).1
  have hmem : ∀ p ∈ elements.zip (layoutOf elements nodes).offsets, ∀ label,
      p.1.Labels p.2 (q + 1) label → AuxLabel elements nodes (q + 1) label := by
    intro p hp label hl
    obtain ⟨i, hi⟩ := List.mem_iff_getElem?.1 hp
    obtain ⟨he, ho⟩ := List.getElem?_zip_eq_some.1 hi
    exact ⟨he, ho, hl⟩
  have hnode : ∀ {label}, nodes.names[q]? = some label → labels[q]? = some label := by
    intro label hn
    have hlt := (List.getElem?_eq_some_iff.1 hn).1
    refine getElem?_placeAll h hpos (fun p hp label' hl => ?_) (.inl ?_)
    · have hb := (exists_auxLabel_iff.1 ⟨label', hmem p hp label' hl⟩).1
      exact absurd hlt (Nat.not_lt.2 (Nat.le_of_succ_le_succ hb))
    · rw [List.getElem?_append_left hlt]
      exact hn
  have haux : ∀ {label}, AuxLabel elements nodes (q + 1) label → labels[q]? = some label := by
    intro label ha
    refine getElem?_placeAll h hpos (fun p hp label' hl => (hmem p hp label' hl).unique ha) (.inr ?_)
    obtain @⟨i, e, offset, he, ho, hl⟩ := ha
    have hi : (elements.zip (layoutOf elements nodes).offsets)[i]? = some (e, offset) :=
      List.getElem?_zip_eq_some.2 ⟨he, ho⟩
    exact ⟨_, List.mem_of_getElem? hi, hl⟩
  -- an index in front is that of a net, and one behind has an owner
  constructor
  · intro hq
    by_cases hlt : q < nodes.names.length
    · have hn := List.getElem?_eq_getElem hlt
      rw [hnode hn] at hq
      exact .inl (hn.trans hq)
    · have hsize := (List.getElem?_eq_some_iff.1 hq).1
      obtain ⟨label', ha⟩ := exists_auxLabel_iff.2
        ⟨Nat.succ_le_succ (Nat.le_of_not_lt hlt), hlen ▸ hsize⟩
      rw [haux ha] at hq
      cases hq
      exact .inr ha
  · exact fun hq => hq.elim hnode haux

/-- The label of an auxiliary unknown has a dot. -/
lemma AuxLabel.dot_mem (h : AuxLabel elements nodes n label) : '.' ∈ label.toList := by
  obtain ⟨-, -, hl⟩ := h
  obtain ⟨k, j, suffix, -, -, hs, rfl⟩ := hl.exists_suffix
  obtain ⟨cs, hcs, -⟩ := Kind.dot_of_mem_auxSuffixes (List.mem_of_getElem? hs)
  rw [String.toList_append, hcs]
  exact List.mem_append_right _ List.mem_cons_self

section Distinct

variable {n' : Nat} (hdots : ∀ e ∈ elements, '.' ∉ e.name.toList)
include hdots

/-- The name of an element is parted from the suffix at the only dot of a label. -/
lemma AuxLabel.index_unique (hnames : (elements.map Element.name).Nodup)
    (h : AuxLabel elements nodes n label) (h' : AuxLabel elements nodes n' label) : n = n' := by
  obtain @⟨i, e, offset, he, ho, hl⟩ := h
  obtain @⟨i', e', offset', he', ho', hl'⟩ := h'
  obtain ⟨k, j, suffix, rfl, rfl, hs, rfl⟩ := hl.exists_suffix
  obtain ⟨k', j', suffix', rfl, rfl, hs', heq⟩ := hl'.exists_suffix
  obtain ⟨cs, hcs, -⟩ := Kind.dot_of_mem_auxSuffixes (List.mem_of_getElem? hs)
  obtain ⟨cs', hcs', hdot⟩ := Kind.dot_of_mem_auxSuffixes (List.mem_of_getElem? hs')
  have hlist := congrArg String.toList heq
  rw [String.toList_append, String.toList_append, hcs, hcs',
    List.append_cons_inj_of_notMem (hdots e' (List.mem_of_getElem? he')) hdot] at hlist
  obtain ⟨hname, -, hcs₂⟩ := hlist
  -- the names make it one element, and the suffixes one of its unknowns
  have hi : i = i' := by
    have hlt := (List.getElem?_eq_some_iff.1 he).1
    refine (List.getElem?_inj (by rwa [List.length_map]) hnames).1 ?_
    rw [List.getElem?_map, List.getElem?_map, he, he', Option.map_some, Option.map_some,
      String.toList_inj.1 hname]
  subst hi
  rw [he] at he'
  rw [ho] at ho'
  cases he'
  cases ho'
  have hsuffix : suffix = suffix' := String.toList_inj.1 (by rw [hcs, hcs', hcs₂])
  subst hsuffix
  have hj : j = j' := (List.getElem?_inj (List.getElem?_eq_some_iff.1 hs).1 e.kind.nodup_auxSuffixes).1
    (hs.trans hs'.symm)
  rw [hj]

/-- Elements of distinct names have distinct labels, which no net without a dot has. -/
theorem nodup_unknownLabels (hnames : (elements.map Element.name).Nodup)
    (hnodes : ∀ name ∈ nodes.names, '.' ∉ name.toList) {labels : List String}
    (h : unknownLabels elements nodes = .ok labels) : labels.Nodup := by
  have hapart : ∀ {q q' label}, nodes.names[q]? = some label →
      ¬ AuxLabel elements nodes (q' + 1) label := fun hq ha =>
    hnodes _ (List.mem_of_getElem? hq) ha.dot_mem
  rw [List.nodup_iff_pairwise_ne, List.pairwise_iff_getElem]
  intro q q' hq hq' hlt heq
  have hlabel := List.getElem?_eq_getElem hq
  rw [heq] at hlabel
  rcases (getElem?_unknownLabels h).1 hlabel with hq | hq <;>
    rcases (getElem?_unknownLabels h).1 (List.getElem?_eq_getElem hq') with hq' | hq'
  · have hn := (List.getElem?_inj (List.getElem?_eq_some_iff.1 hq).1 nodes.nodup).1 (hq.trans hq'.symm)
    omega
  · exact hapart hq hq'
  · exact hapart hq' hq
  · have hn := hq.index_unique hdots hnames hq'
    omega

end Distinct

end LinearSystem

end Nodal
