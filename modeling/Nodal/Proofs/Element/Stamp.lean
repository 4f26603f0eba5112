import Mathlib.Data.List.Basic
import Mathlib.Tactic.Lemma
import Nodal.Element.Stamp
/-!
# Stamps of elements

`Element.Stamped` lists the stamps that there are, with the kinds, the nodes and the offset that each
of them needs; `Element.stamp_eq_ok_iff` shows that it is what `Element.stamp` computes. An element
with a node for each terminal and an offset for its auxiliary unknowns is stamped
(`Element.exists_stamped`), and its stamp stays at its own nodes and auxiliary unknowns
(`Element.Stamped.touches`).
-/

namespace Nodal

namespace Element

variable {K : Type}

/-- A stamp that needs an offset is written from the offset that it gets. -/
lemma stampAt_eq_ok {e : Element K} {offset : Option Nat} {stamp : Nat → List (Entry K)}
    {es : List (Entry K)} (h : e.stampAt offset stamp = .ok es) :
    ∃ k, offset = some k ∧ es = stamp k := by
  unfold stampAt at h
  cases offset with
  | none => cases h
  | some k =>
    cases h
    exact ⟨k, rfl, rfl⟩

variable [One K] [Neg K]

/-- The stamps of an element whose auxiliary unknowns start at an offset. -/
inductive Stamped (e : Element K) : Option Nat → List (Entry K) → Prop where
  | impedance {n m k} :
    e.kind.family? = some .impedance →
    e.nodes = [n, m] →
    Stamped e (some k) (Stamp.impedance n.index m.index e.value k)
  | voltageSource {n m k} :
    e.kind = .voltageSource →
    e.nodes = [n, m] →
    Stamped e (some k) (Stamp.voltageSource n.index m.index k)
  | currentSource {n m offset} :
    e.kind = .currentSource →
    e.nodes = [n, m] →
    Stamped e offset (Stamp.currentSource n.index m.index)
  | opamp {n m o k} :
    e.kind = .opamp →
    e.nodes = [n, m, o] →
    Stamped e (some k) (Stamp.opamp n.index m.index o.index k)
  | vcvs {n m p q k} :
    e.kind = .vcvs →
    e.nodes = [n, m, p, q] →
    Stamped e (some k) (Stamp.vcvs n.index m.index p.index q.index e.value k)
  | ccvs {n m p q k} :
    e.kind = .ccvs →
    e.nodes = [n, m, p, q] →
    Stamped e (some k) (Stamp.ccvs n.index m.index p.index q.index e.value k)
  | vccs {n m p q offset} :
    e.kind = .vccs →
    e.nodes = [n, m, p, q] →
    Stamped e offset (Stamp.vccs n.index m.index p.index q.index e.value)
  | cccs {n m p q k} :
    e.kind = .cccs →
    e.nodes = [n, m, p, q] →
    Stamped e (some k) (Stamp.cccs n.index m.index p.index q.index e.value k)
  | port {n m offset} :
    e.kind = .port →
    e.nodes = [n, m] →
    Stamped e offset []

/-- The stamps are what stamping computes. -/
theorem stamp_eq_ok_iff {e : Element K} {offset : Option Nat} {es : List (Entry K)} :
    e.stamp offset = .ok es ↔ e.Stamped offset es := by
  constructor
  · intro h
    unfold stamp at h
    split at h
    case h_1 hk hn | h_2 hk hn | h_3 hk hn =>
      obtain ⟨k, rfl, rfl⟩ := stampAt_eq_ok h
      exact .impedance (by rw [hk]; rfl) hn
    case h_4 hk hn =>
      obtain ⟨k, rfl, rfl⟩ := stampAt_eq_ok h
      exact .voltageSource hk hn
    case h_5 hk hn =>
      cases h
      exact .currentSource hk hn
    case h_6 hk hn =>
      obtain ⟨k, rfl, rfl⟩ := stampAt_eq_ok h
      exact .opamp hk hn
    case h_7 hk hn =>
      obtain ⟨k, rfl, rfl⟩ := stampAt_eq_ok h
      exact .vcvs hk hn
    case h_8 hk hn =>
      obtain ⟨k, rfl, rfl⟩ := stampAt_eq_ok h
      exact .ccvs hk hn
    case h_9 hk hn =>
      cases h
      exact .vccs hk hn
    case h_10 hk hn =>
      obtain ⟨k, rfl, rfl⟩ := stampAt_eq_ok h
      exact .cccs hk hn
    case h_11 hk hn =>
      cases h
      exact .port hk hn
    case h_12 => cases h
  · intro h
    cases h with
    | impedance hf hn =>
      -- the kinds outside the family contradict `hf`
      cases hk : e.kind <;> simp [hk, Kind.family?] at hf <;> simp [stamp, hk, hn, stampAt]
    | voltageSource hk hn => simp [stamp, hk, hn, stampAt]
    | currentSource hk hn => simp [stamp, hk, hn]
    | opamp hk hn => simp [stamp, hk, hn, stampAt]
    | vcvs hk hn => simp [stamp, hk, hn, stampAt]
    | ccvs hk hn => simp [stamp, hk, hn, stampAt]
    | vccs hk hn => simp [stamp, hk, hn]
    | cccs hk hn => simp [stamp, hk, hn, stampAt]
    | port hk hn => simp [stamp, hk, hn]

/-- An element has one stamp at most. -/
lemma Stamped.unique {e : Element K} {offset : Option Nat} {es es' : List (Entry K)}
    (h : e.Stamped offset es) (h' : e.Stamped offset es') : es = es' := by
  rw [← stamp_eq_ok_iff] at h h'
  rw [h] at h'
  exact Except.ok.inj h'

/-- An impedance has no other stamp. -/
lemma Stamped.eq_impedance {e : Element K} {k : Nat} {es : List (Entry K)}
    (h : e.Stamped (some k) es) (hf : e.kind.family? = some .impedance) :
    ∃ n m, e.nodes = [n, m] ∧ es = Stamp.impedance n.index m.index e.value k := by
  cases h with
  | impedance _ hn => exact ⟨_, _, hn, rfl⟩
  | voltageSource hk | currentSource hk | opamp hk | vcvs hk | ccvs hk | vccs hk | cccs hk | port hk =>
    rw [hk] at hf
    cases hf

/-- An element with a node for each terminal and an offset for its auxiliary unknowns, if it has any,
has a stamp. -/
lemma exists_stamped {e : Element K} {offset : Option Nat}
    (hn : e.nodes.length = e.kind.terminalCount)
    (ho : offset = none → e.kind.family? = none) : ∃ es, e.Stamped offset es := by
  -- each kind has its own number of nodes, and asks for an offset if it has a family
  cases hk : e.kind with
  | resistor | capacitor | inductor =>
    rw [hk] at hn ho
    obtain ⟨n, m, hn⟩ := List.length_eq_two.1 hn
    obtain ⟨k, rfl⟩ := Option.ne_none_iff_exists'.1 (fun h => nomatch ho h)
    exact ⟨_, .impedance (by rw [hk]; rfl) hn⟩
  | voltageSource =>
    rw [hk] at hn ho
    obtain ⟨n, m, hn⟩ := List.length_eq_two.1 hn
    obtain ⟨k, rfl⟩ := Option.ne_none_iff_exists'.1 (fun h => nomatch ho h)
    exact ⟨_, .voltageSource hk hn⟩
  | currentSource =>
    rw [hk] at hn
    obtain ⟨n, m, hn⟩ := List.length_eq_two.1 hn
    exact ⟨_, .currentSource hk hn⟩
  | opamp =>
    rw [hk] at hn ho
    obtain ⟨n, m, o, hn⟩ := List.length_eq_three.1 hn
    obtain ⟨k, rfl⟩ := Option.ne_none_iff_exists'.1 (fun h => nomatch ho h)
    exact ⟨_, .opamp hk hn⟩
  | vcvs =>
    rw [hk] at hn ho
    obtain ⟨n, m, p, q, hn⟩ := List.length_eq_four.1 hn
    obtain ⟨k, rfl⟩ := Option.ne_none_iff_exists'.1 (fun h => nomatch ho h)
    exact ⟨_, .vcvs hk hn⟩
  | ccvs =>
    rw [hk] at hn ho
    obtain ⟨n, m, p, q, hn⟩ := List.length_eq_four.1 hn
    obtain ⟨k, rfl⟩ := Option.ne_none_iff_exists'.1 (fun h => nomatch ho h)
    exact ⟨_, .ccvs hk hn⟩
  | vccs =>
    rw [hk] at hn
    obtain ⟨n, m, p, q, hn⟩ := List.length_eq_four.1 hn
    exact ⟨_, .vccs hk hn⟩
  | cccs =>
    rw [hk] at hn ho
    obtain ⟨n, m, p, q, hn⟩ := List.length_eq_four.1 hn
    obtain ⟨k, rfl⟩ := Option.ne_none_iff_exists'.1 (fun h => nomatch ho h)
    exact ⟨_, .cccs hk hn⟩
  | port =>
    rw [hk] at hn
    obtain ⟨n, m, hn⟩ := List.length_eq_two.1 hn
    exact ⟨_, .port hk hn⟩

/-- Whether an index is that of a node or of an auxiliary unknown of the element. -/
def Touches (e : Element K) (offset : Option Nat) (i : Nat) : Prop :=
  (∃ n ∈ e.nodes, n.index = i) ∨ ∃ k, offset = some k ∧ k ≤ i ∧ i < k + e.auxCount

/-- The entries of a stamp stand in rows and columns that belong to the element. -/
lemma Stamped.touches {e : Element K} {offset : Option Nat} {es : List (Entry K)}
    (h : e.Stamped offset es) :
    ∀ x ∈ es, e.Touches offset x.row ∧ e.Touches offset x.col := by
  intro x hx
  cases h with
  | impedance hf hn =>
    have ha : e.auxCount = 1 := by simp [auxCount, Kind.auxCount, hf, Family.width]
    simp only [Stamp.impedance, List.mem_cons, List.not_mem_nil, or_false] at hx
    rcases hx with rfl | rfl | rfl | rfl | rfl <;> simp [Touches, hn, ha]
  | voltageSource hk hn =>
    have ha : e.auxCount = 1 := by rw [auxCount, hk]; rfl
    simp only [Stamp.voltageSource, List.mem_cons, List.not_mem_nil, or_false] at hx
    rcases hx with rfl | rfl | rfl | rfl <;> simp [Touches, hn, ha]
  | currentSource => cases hx
  | opamp hk hn =>
    have ha : e.auxCount = 1 := by rw [auxCount, hk]; rfl
    simp only [Stamp.opamp, List.mem_cons, List.not_mem_nil, or_false] at hx
    rcases hx with rfl | rfl | rfl <;> simp [Touches, hn, ha]
  | vcvs hk hn =>
    have ha : e.auxCount = 1 := by rw [auxCount, hk]; rfl
    simp only [Stamp.vcvs, List.mem_cons, List.not_mem_nil, or_false] at hx
    rcases hx with rfl | rfl | rfl | rfl | rfl | rfl <;> simp [Touches, hn, ha]
  | ccvs hk hn =>
    have ha : e.auxCount = 2 := by rw [auxCount, hk]; rfl
    simp only [Stamp.ccvs, List.mem_cons, List.not_mem_nil, or_false] at hx
    rcases hx with rfl | rfl | rfl | rfl | rfl | rfl | rfl | rfl | rfl <;> simp [Touches, hn, ha]
  | vccs hk hn =>
    simp only [Stamp.vccs, List.mem_cons, List.not_mem_nil, or_false] at hx
    rcases hx with rfl | rfl | rfl | rfl <;> simp [Touches, hn]
  | cccs hk hn =>
    have ha : e.auxCount = 1 := by rw [auxCount, hk]; rfl
    simp only [Stamp.cccs, List.mem_cons, List.not_mem_nil, or_false] at hx
    rcases hx with rfl | rfl | rfl | rfl | rfl | rfl <;> simp [Touches, hn, ha]
  | port => cases hx

end Element

end Nodal
