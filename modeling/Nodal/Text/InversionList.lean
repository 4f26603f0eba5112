/-!
# Inversion lists

A set of code points written as the ascending list of the points where membership changes: the
first point is the first member, the second the first non-member after it, and so on. A point is a
member iff an odd number of the listed points are at most it (`InversionList.contains_iff`).
-/

namespace Nodal.Text

/-- Whether the points of a list rise from one to the next, with none of them below `low`. -/
def rises (low : Nat) : List Nat → Bool
  | [] => true
  | p :: ps => decide (low ≤ p) && rises (p + 1) ps

/-- The points of a list that rises from `low` on are at least `low`. -/
theorem le_of_rises {low : Nat} {ps : List Nat} (h : rises low ps = true) {p : Nat} (hp : p ∈ ps) :
    low ≤ p := by
  induction ps generalizing low with
  | nil => cases hp
  | cons q ps ih =>
    simp only [rises, Bool.and_eq_true, decide_eq_true_eq] at h
    cases hp with
    | head => exact h.1
    | tail _ hp => exact Nat.le_trans h.1 (Nat.le_of_succ_le (ih h.2 hp))

/-- A list that rises from point to point is ascending as a whole. -/
theorem pairwise_of_rises (low : Nat) {ps : List Nat} (h : rises low ps = true) :
    ps.Pairwise (· < ·) := by
  induction ps generalizing low with
  | nil => exact .nil
  | cons p ps ih =>
    simp only [rises, Bool.and_eq_true] at h
    exact .cons (fun _ hq => le_of_rises h.2 hq) (ih (p + 1) h.2)

/-- The ascending code points at which membership in a set changes. -/
structure InversionList where
  /-- The points of change; the first one enters the set. -/
  flips : List Nat
  ascending : flips.Pairwise (· < ·)

namespace InversionList

/-- Membership by parity: each flip at or below `n` turns the answer round. -/
def parity (n : Nat) : List Nat → Bool
  | [] => false
  | p :: ps => decide (p ≤ n) && !parity n ps

/-- Whether the code point `n` lies in the set. -/
def contains (s : InversionList) (n : Nat) : Bool :=
  parity n s.flips

/-- In front of the first flip nothing is a member. -/
theorem parity_cons_of_lt {p n : Nat} {ps : List Nat} (h : n < p) : parity n (p :: ps) = false := by
  simp [parity, Nat.not_le.2 h]

/-- Past a flip the rest of the list decides, turned round. -/
theorem parity_cons_of_le {p n : Nat} {ps : List Nat} (h : p ≤ n) :
    parity n (p :: ps) = !parity n ps := by
  simp [parity, h]

/-- On an ascending list the first flip above a point ends the count, so that the answer is the parity
of the flips up to the point. -/
theorem parity_eq_countP {ps : List Nat} (h : ps.Pairwise (· < ·)) (n : Nat) :
    parity n ps = decide (ps.countP (· ≤ n) % 2 = 1) := by
  induction h with
  | nil => rfl
  | @cons p ps hp _ ih =>
    by_cases hn : p ≤ n
    · rw [parity_cons_of_le hn, ih, List.countP_cons, if_pos (decide_eq_true hn), ← decide_not,
        decide_eq_decide]
      omega
    · have hn : n < p := Nat.not_le.1 hn
      have hz : (p :: ps).countP (· ≤ n) = 0 := by
        refine List.countP_eq_zero.2 fun q hq => ?_
        have hpq : p ≤ q := by
          cases hq with
          | head => exact Nat.le_refl p
          | tail _ hq => exact Nat.le_of_lt (hp q hq)
        exact fun hqn => Nat.not_le.2 (Nat.lt_of_lt_of_le hn hpq) (of_decide_eq_true hqn)
      rw [parity_cons_of_lt hn, hz]
      rfl

/-- A point is a member iff the set changes an odd number of times up to it. -/
theorem contains_iff (s : InversionList) (n : Nat) :
    s.contains n = true ↔ s.flips.countP (· ≤ n) % 2 = 1 := by
  rw [contains, parity_eq_countP s.ascending, decide_eq_true_iff]

end InversionList

end Nodal.Text
