import Mathlib.Algebra.GroupWithZero.Nat
import Mathlib.Tactic.ByContra
import Mathlib.Tactic.Lemma
import Mathlib.Tactic.Push
import Nodal.LinearSystem.Layout
/-!
# The unknowns tile the system

Offsets are given out in the order of the elements, each from the counter of its family, but the
blocks stand in the order of the families. `Layout.getElem?_offsets` says in closed form which offset
an element gets: the start of its block, moved by the members of its family before it. From this
`Layout.offsets_tile` concludes that the places of the elements tile the indices behind the nodes.
-/

namespace Nodal

namespace Family

/-- Each member of a family has an auxiliary unknown. -/
lemma width_pos (f : Family) : 0 < f.width := by
  cases f <;> decide

end Family

namespace Kind

/-- A kind has as many auxiliary unknowns as its family is wide. -/
lemma auxCount_of_family? {k : Kind} {f : Family} (h : k.family? = some f) :
    k.auxCount = f.width := by
  simp only [auxCount, h]

/-- A kind has no auxiliary unknowns iff it has no family. -/
lemma auxCount_eq_zero_iff {k : Kind} : k.auxCount = 0 ↔ k.family? = none := by
  cases k <;> decide

end Kind

namespace Allocator

/-- To take an offset moves the next one of its family on, and no other. -/
lemma next_take (a : Allocator) (f g : Family) :
    (a.take f).next g = a.next g + if f = g then g.width else 0 := by
  by_cases h : g = f
  · subst h
    simp [take]
  · simp [take, h, Ne.symm h]

/-- Every element is assigned an offset, which may be none. -/
@[simp] lemma length_assign (a : Allocator) (ks : List Kind) : (a.assign ks).length = ks.length := by
  induction ks generalizing a with
  | nil => rfl
  | cons k ks ih =>
    simp only [assign]
    cases k.family? <;> simp [ih]

/-- The offset of an element is the counter of its family, moved by the members before it. -/
lemma getElem?_assign (a : Allocator) (ks : List Kind) (i : Nat) :
    (a.assign ks)[i]? = ks[i]?.map fun k => k.family?.map fun f =>
      a.next f + (ks.take i).countP (·.family? == some f) * f.width := by
  -- the allocator changes from element to element, so the induction is for all of them
  induction ks generalizing a i with
  | nil => rfl
  | cons k ks ih =>
    cases i with
    | zero =>
      cases h : k.family? <;> simp [assign, h, offset]
    | succ i =>
      cases h : k.family? with
      | none =>
        simp only [assign, h, List.getElem?_cons_succ, ih, List.take_succ_cons]
        simp [h]
      | some f =>
        simp only [assign, h, List.getElem?_cons_succ, ih, next_take, List.take_succ_cons,
          List.countP_cons]
        congr 1
        funext k'
        congr 1
        funext g
        by_cases hg : f = g
        · subst hg
          simp only [beq_self_eq_true, if_true]
          rw [Nat.add_mul, Nat.one_mul]
          omega
        · simp [hg]

end Allocator

namespace Layout

/-- The number of members of a family among the first `i` elements. -/
def before (l : Layout) (f : Family) (i : Nat) : Nat :=
  (l.kinds.take i).countP (·.family? == some f)

/-- Whether `n` is the index of an auxiliary unknown of element number `i`. -/
def Owns (l : Layout) (i n : Nat) : Prop :=
  ∃ kind k, l.kinds[i]? = some kind ∧ l.offsets[i]? = some (some k) ∧ k ≤ n ∧ n < k + kind.auxCount

/-- Whether element number `i` belongs to the family `f` and has the offset `n`. -/
def HasOffset (l : Layout) (i : Nat) (f : Family) (n : Nat) : Prop :=
  ∃ k, l.kinds[i]? = some k ∧ k.family? = some f ∧ l.offsets[i]? = some (some n)

/-- The offset of an element counts the members of its family before it. -/
lemma getElem?_offsets (l : Layout) (i : Nat) :
    l.offsets[i]? = l.kinds[i]?.map fun k => k.family?.map fun f =>
      l.start f + l.before f i * f.width :=
  Allocator.getElem?_assign _ _ _

/-- An element of a family starts behind the members before it. -/
lemma offset_of_family? {l : Layout} {i : Nat} {k : Kind} {f : Family}
    (hk : l.kinds[i]? = some k) (hf : k.family? = some f) :
    l.offsets[i]? = some (some (l.start f + l.before f i * f.width)) := by
  simp [getElem?_offsets, hk, hf]

/-- An element with an offset has a family, and starts behind the members before it. -/
lemma family?_of_offset {l : Layout} {i n : Nat} {k : Kind} (hk : l.kinds[i]? = some k)
    (ho : l.offsets[i]? = some (some n)) :
    ∃ f, k.family? = some f ∧ n = l.start f + l.before f i * f.width := by
  simp only [getElem?_offsets, hk, Option.map_some, Option.some.injEq, Option.map_eq_some_iff] at ho
  obtain ⟨f, hf, rfl⟩ := ho
  exact ⟨f, hf, rfl⟩

/-- An offset belongs to an element of its family. -/
lemma HasOffset.eq {l : Layout} {i n : Nat} {f : Family} (h : l.HasOffset i f n) :
    ∃ k, l.kinds[i]? = some k ∧ k.family? = some f ∧ n = l.start f + l.before f i * f.width := by
  obtain ⟨k, hk, hf, ho⟩ := h
  rw [offset_of_family? hk hf, Option.some.injEq, Option.some.injEq] at ho
  exact ⟨k, hk, hf, ho.symm⟩

/-! ### Members before an element -/

/-- A later element has the earlier ones of its family before it. -/
lemma before_succ_le {l : Layout} {i j : Nat} {k : Kind} {f : Family}
    (hk : l.kinds[i]? = some k) (hf : k.family? = some f) (hij : i < j) :
    l.before f i + 1 ≤ l.before f j := by
  have hi : l.before f (i + 1) = l.before f i + 1 := by
    simp [before, List.take_add_one, hk, hf]
  have hj : l.before f (i + 1) ≤ l.before f j := by
    apply List.Sublist.countP_le
    exact List.take_sublist_take_left hij
  omega

/-- An element of a family is one of its members. -/
lemma before_lt_count {l : Layout} {i : Nat} {k : Kind} {f : Family}
    (hk : l.kinds[i]? = some k) (hf : k.family? = some f) : l.before f i < l.count f := by
  have hi : i < l.kinds.length := (List.getElem?_eq_some_iff.1 hk).1
  have h := before_succ_le hk hf hi
  simp only [before, List.take_length] at h
  exact h

/-- Every place in a block belongs to some member. -/
lemma exists_before_eq {l : Layout} {f : Family} {q : Nat} (h : q < l.count f) :
    ∃ i k, l.kinds[i]? = some k ∧ k.family? = some f ∧ l.before f i = q := by
  obtain ⟨n, ks⟩ := l
  simp only [count, before] at *
  induction ks generalizing q with
  | nil => simp at h
  | cons k ks ih =>
    by_cases hk : k.family? = some f
    · cases q with
      | zero => exact ⟨0, k, by simp, hk, by simp⟩
      | succ q =>
        rw [List.countP_cons_of_pos (by simpa using hk)] at h
        obtain ⟨i, k', hi, hf, hq⟩ := ih (q := q) (by omega)
        exact ⟨i + 1, k', by simpa using hi, hf, by simp [hk, hq]⟩
    · rw [List.countP_cons_of_neg (by simpa using hk)] at h
      obtain ⟨i, k', hi, hf, hq⟩ := ih h
      exact ⟨i + 1, k', by simpa using hi, hf, by simp [hk, hq]⟩

/-! ### Blocks -/

/-- The block of a family ends before the blocks of later families start. -/
lemma start_add_auxCount_le (l : Layout) {f g : Family}
    (h : Family.all.idxOf f < Family.all.idxOf g) : l.start f + l.auxCount f ≤ l.start g := by
  revert h
  cases f <;> cases g <;> simp +decide [start, auxTotal, Family.all] <;> omega

/-- Every block starts behind the nodes. -/
lemma nodeCount_lt_start (l : Layout) (f : Family) : l.nodeCount < l.start f := by
  simp only [start]
  omega

/-- Every block ends within the system. -/
lemma start_add_auxCount_le_size (l : Layout) (f : Family) :
    l.start f + l.auxCount f ≤ l.size + 1 := by
  cases f <;> simp [start, size, auxTotal, Family.all] <;> omega

/-- Every index behind the nodes lies in a block. -/
lemma exists_block {l : Layout} {n : Nat} (h1 : l.nodeCount + 1 ≤ n) (h2 : n ≤ l.size) :
    ∃ f, l.start f ≤ n ∧ n < l.start f + l.auxCount f := by
  -- if `n` is in none of the six blocks, it is behind each of them and so behind the last
  by_contra hn
  push Not at hn
  have hi := hn .impedance
  have hv := hn .voltageSource
  have ho := hn .opamp
  have he := hn .vcvs
  have hf := hn .ccvs
  have hc := hn .cccs
  simp [start, auxTotal, Family.all] at hi hv ho he hf hc
  simp [size, auxTotal, Family.all] at h2
  omega

/-- An element ends before one of a later family starts. -/
lemma offset_add_width_le_of_family {l : Layout} {i j : Nat} {k : Kind} {f g : Family}
    (hk : l.kinds[i]? = some k) (hf : k.family? = some f)
    (hfg : Family.all.idxOf f < Family.all.idxOf g) :
    l.start f + l.before f i * f.width + f.width ≤ l.start g + l.before g j * g.width := by
  have h := l.start_add_auxCount_le hfg
  have hc : (l.before f i + 1) * f.width ≤ l.count f * f.width :=
    Nat.mul_le_mul_right _ (before_lt_count hk hf)
  rw [Nat.add_mul, Nat.one_mul] at hc
  simp only [auxCount] at h
  omega

/-- An element ends before the next one of its family starts. -/
lemma offset_add_width_le_of_member {l : Layout} {i j : Nat} {k : Kind} {f : Family}
    (hk : l.kinds[i]? = some k) (hf : k.family? = some f) (hij : i < j) :
    l.start f + l.before f i * f.width + f.width ≤ l.start f + l.before f j * f.width := by
  have hc : (l.before f i + 1) * f.width ≤ l.before f j * f.width :=
    Nat.mul_le_mul_right _ (before_succ_le hk hf hij)
  rw [Nat.add_mul, Nat.one_mul] at hc
  omega

/-- An element ends within the block of its family. -/
lemma offset_add_width_le {l : Layout} {i : Nat} {k : Kind} {f : Family}
    (hk : l.kinds[i]? = some k) (hf : k.family? = some f) :
    l.start f + l.before f i * f.width + f.width ≤ l.start f + l.auxCount f := by
  have hc : (l.before f i + 1) * f.width ≤ l.count f * f.width :=
    Nat.mul_le_mul_right _ (before_lt_count hk hf)
  rw [Nat.add_mul, Nat.one_mul] at hc
  simp only [auxCount]
  omega

/-! ### Places of the elements -/

/-- An element owns the indices from its offset on, as many as its family is wide. -/
lemma owns_iff {l : Layout} {i n : Nat} :
    l.Owns i n ↔ ∃ k f, l.kinds[i]? = some k ∧ k.family? = some f ∧
      l.start f + l.before f i * f.width ≤ n ∧
      n < l.start f + l.before f i * f.width + f.width := by
  constructor
  · rintro ⟨k, o, hk, ho, h1, h2⟩
    obtain ⟨f, hf, rfl⟩ := family?_of_offset hk ho
    rw [Kind.auxCount_of_family? hf] at h2
    exact ⟨k, f, hk, hf, h1, h2⟩
  · rintro ⟨k, f, hk, hf, h1, h2⟩
    refine ⟨k, _, hk, offset_of_family? hk hf, h1, ?_⟩
    rw [Kind.auxCount_of_family? hf]
    exact h2

/-- An index lies in one block only. -/
lemma family_eq_of_mem_block {l : Layout} {f g : Family} {n : Nat}
    (hf : l.start f ≤ n) (hf' : n < l.start f + l.auxCount f)
    (hg : l.start g ≤ n) (hg' : n < l.start g + l.auxCount g) : f = g := by
  rcases Nat.lt_trichotomy (Family.all.idxOf f) (Family.all.idxOf g) with h | h | h
  · have := l.start_add_auxCount_le h
    omega
  · revert h
    cases f <;> cases g <;> decide
  · have := l.start_add_auxCount_le h
    omega

/-- An index that stands behind an offset belongs to the element. -/
lemma owns_of_offset {l : Layout} {i j k : Nat} {kind : Kind} (hk : l.kinds[i]? = some kind)
    (ho : l.offsets[i]? = some (some k)) (hj : j < kind.auxCount) : l.Owns i (k + j) :=
  ⟨kind, k, hk, ho, Nat.le_add_right k j, Nat.add_lt_add_left hj k⟩

/-- No index belongs to two elements. -/
lemma Owns.unique {l : Layout} {i j n : Nat} (hi : l.Owns i n) (hj : l.Owns j n) : i = j := by
  obtain ⟨k, f, hk, hf, h1, h2⟩ := owns_iff.1 hi
  obtain ⟨k', g, hk', hg, h3, h4⟩ := owns_iff.1 hj
  have hif := offset_add_width_le hk hf
  have hjg := offset_add_width_le hk' hg
  have hfg : f = g := by
    apply family_eq_of_mem_block (l := l) (n := n) <;> omega
  subst hfg
  rcases Nat.lt_trichotomy i j with h | h | h
  · have := offset_add_width_le_of_member hk hf h
    omega
  · exact h
  · have := offset_add_width_le_of_member hk' hg h
    omega

/-- The indices that belong to elements are those behind the nodes. -/
lemma exists_owns_iff {l : Layout} {n : Nat} :
    (∃ i, l.Owns i n) ↔ l.nodeCount + 1 ≤ n ∧ n ≤ l.size := by
  constructor
  · rintro ⟨i, hi⟩
    obtain ⟨k, f, hk, hf, h1, h2⟩ := owns_iff.1 hi
    have hw := offset_add_width_le hk hf
    have hs := l.nodeCount_lt_start f
    have he := l.start_add_auxCount_le_size f
    omega
  · rintro ⟨h1, h2⟩
    obtain ⟨f, h3, h4⟩ := exists_block h1 h2
    -- the owner is the member of `f` with as many members before it as widths fit before `n`
    have hq : (n - l.start f) / f.width < l.count f := by
      rw [Nat.div_lt_iff_lt_mul f.width_pos]
      simp only [auxCount] at h4
      omega
    obtain ⟨i, k, hk, hf, hb⟩ := exists_before_eq hq
    have hd := Nat.div_add_mod (n - l.start f) f.width
    have hm := Nat.mod_lt (n - l.start f) f.width_pos
    rw [Nat.mul_comm] at hd
    exact ⟨i, owns_iff.2 ⟨k, f, hk, hf, by rw [hb]; omega, by rw [hb]; omega⟩⟩

/-- An element in front makes room for its own unknowns. -/
lemma size_cons (n : Nat) (k : Kind) (ks : List Kind) :
    size ⟨n, k :: ks⟩ = size ⟨n, ks⟩ + k.auxCount := by
  cases k <;>
    simp [size, auxTotal, auxCount, count, Family.all, Family.width, Kind.auxCount, Kind.family?] <;> omega

/-- A system has an unknown for each node and for each auxiliary unknown. -/
lemma size_eq (l : Layout) : l.size = l.nodeCount + (l.kinds.map Kind.auxCount).sum := by
  obtain ⟨n, ks⟩ := l
  induction ks with
  | nil => simp [size, auxTotal, auxCount, count, Family.all]
  | cons k ks ih =>
    rw [size_cons, ih]
    simp only [List.map_cons, List.sum_cons]
    omega

/-- The auxiliary unknowns of the elements tile the indices behind the nodes, in the order of the families
and, within a family, of the elements. -/
theorem offsets_tile (l : Layout) :
    l.offsets.length = l.kinds.length ∧
      (∀ (i : Nat) (k : Kind), l.kinds[i]? = some k → (l.offsets[i]? = some none ↔ k.auxCount = 0)) ∧
      (∀ i j n, l.Owns i n → l.Owns j n → i = j) ∧
      (∀ n, (∃ i, l.Owns i n) ↔ l.nodeCount + 1 ≤ n ∧ n ≤ l.size) ∧
      l.size = l.nodeCount + (l.kinds.map Kind.auxCount).sum ∧
      (∀ i j f g m n, l.HasOffset i f m → l.HasOffset j g n →
        Family.all.idxOf f < Family.all.idxOf g → m < n) ∧
      (∀ i j f m n, l.HasOffset i f m → l.HasOffset j f n → i < j → m < n) := by
  refine ⟨?_, ?_, fun _ _ _ => Owns.unique, fun _ => exists_owns_iff, l.size_eq, ?_, ?_⟩
  · exact Allocator.length_assign _ _
  · intro i k hk
    rw [Kind.auxCount_eq_zero_iff]
    simp [getElem?_offsets, hk]
  · intro i j f g m n hi hj hfg
    obtain ⟨k, hk, hf, rfl⟩ := hi.eq
    obtain ⟨k', hk', hg, rfl⟩ := hj.eq
    have h := offset_add_width_le_of_family (j := j) hk hf hfg
    have hw := f.width_pos
    omega
  · intro i j f m n hi hj hij
    obtain ⟨k, hk, hf, rfl⟩ := hi.eq
    obtain ⟨k', hk', hg, rfl⟩ := hj.eq
    have h := offset_add_width_le_of_member hk hf hij
    have hw := f.width_pos
    omega

end Layout

end Nodal
