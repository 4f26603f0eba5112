import Nodal.Proofs.Element.Stamp
/-!
# Columns of a stamp

The column of an auxiliary unknown shows which current the unknown is. The rows of nodes collect the currents
that leave them, so a current that flows through an element from one node to another stands there with one
and minus one (`FlowsThrough`). This is the column of every element with a single branch
(`Stamped.flowsThrough`), and half of it that of an amplifier, which draws no current elsewhere. A
current-controlled source has two branches, and its first unknown is the current of the controlling one
(`Stamped.flowsThrough_ccvs`).
-/

namespace Nodal

variable {K : Type} {nodeCount k : Nat} {es : List (Entry K)}

/-- What a list of entries has in the column `k` and the rows of nodes. -/
def nodeColumn (nodeCount : Nat) (es : List (Entry K)) (k : Nat) : List (Entry K) :=
  es.filter fun x => x.col == k && decide (x.row ≤ nodeCount)

/-- Whether the unknown `k` is a current that leaves the node `n`, enters the node `m` and is felt at no
other node. -/
def FlowsThrough [One K] [Neg K] (nodeCount : Nat) (es : List (Entry K)) (k : Nat) (n m : Node) : Prop :=
  nodeColumn nodeCount es k = [⟨n.index, k, .one⟩, ⟨m.index, k, -.one⟩]

/-- The kinds whose only auxiliary unknown is the current from their first terminal to their second. -/
def Kind.isBranch : Kind → Bool
  | .resistor => true
  | .capacitor => true
  | .inductor => true
  | .voltageSource => true
  | .vcvs => true
  | _ => false

namespace Element

variable [One K] [Neg K] {e : Element K} (hn : ∀ n ∈ e.nodes, n.index ≤ nodeCount) (hk : nodeCount < k)
include hn hk

/-- The current that flows through a branch leaves its first terminal and enters its second one. -/
lemma Stamped.flowsThrough (h : e.Stamped (some k) es) (hb : e.kind.isBranch = true) :
    ∃ n m rest, e.nodes = n :: m :: rest ∧ FlowsThrough nodeCount es k n m := by
  cases h with
  | impedance _ hnodes =>
    simp only [hnodes, List.forall_mem_cons] at hn
    refine ⟨_, _, _, hnodes, ?_⟩
    simp [FlowsThrough, nodeColumn, Stamp.impedance, hn, Nat.not_le.2 hk]
  | voltageSource _ hnodes =>
    simp only [hnodes, List.forall_mem_cons] at hn
    refine ⟨_, _, _, hnodes, ?_⟩
    simp [FlowsThrough, nodeColumn, Stamp.voltageSource, hn, Nat.not_le.2 hk]
  | vcvs _ hnodes =>
    simp only [hnodes, List.forall_mem_cons] at hn
    refine ⟨_, _, _, hnodes, ?_⟩
    simp [FlowsThrough, nodeColumn, Stamp.vcvs, hn, Nat.not_le.2 hk]
  | currentSource hkind | opamp hkind | ccvs hkind | vccs hkind | cccs hkind | port hkind =>
    rw [hkind] at hb
    cases hb

/-- The current of an amplifier leaves the node of the output and enters no node. -/
lemma Stamped.nodeColumn_opamp (h : e.Stamped (some k) es) (hkind : e.kind = .opamp) :
    ∃ n m out, e.nodes = [n, m, out] ∧ nodeColumn nodeCount es k = [⟨out.index, k, .one⟩] := by
  cases h with
  | opamp _ hnodes =>
    simp only [hnodes, List.forall_mem_cons] at hn
    refine ⟨_, _, _, hnodes, ?_⟩
    simp [nodeColumn, Stamp.opamp, hn, Nat.not_le.2 hk]
  | impedance hf =>
    rw [hkind] at hf
    cases hf
  | voltageSource h | currentSource h | vcvs h | ccvs h | vccs h | cccs h | port h =>
    rw [hkind] at h
    cases h

/-- The first unknown of a current-controlled voltage source is the current of the controlling pair, and the
second one that of the output pair. -/
lemma Stamped.flowsThrough_ccvs (h : e.Stamped (some k) es) (hkind : e.kind = .ccvs) :
    ∃ n m p q, e.nodes = [n, m, p, q] ∧ FlowsThrough nodeCount es k p q ∧
      FlowsThrough nodeCount es (k + 1) n m ∧
      es.filter (·.row == k) =
        [⟨k, n.index, .one⟩, ⟨k, m.index, -.one⟩, ⟨k, k, -e.value⟩] := by
  have hne : ∀ {n : Node}, n.index ≤ nodeCount → n.index ≠ k ∧ n.index ≠ k + 1 := by
    intro n h
    omega
  cases h with
  | ccvs _ hnodes =>
    simp only [hnodes, List.forall_mem_cons] at hn
    refine ⟨_, _, _, _, hnodes, ?_, ?_, ?_⟩
    · simp [FlowsThrough, nodeColumn, Stamp.ccvs, hn, hne, Nat.not_le.2 hk]
    · simp [FlowsThrough, nodeColumn, Stamp.ccvs, hn, hne, Nat.not_le.2 hk]
    · simp [Stamp.ccvs, hn, hne]
  | impedance hf =>
    rw [hkind] at hf
    cases hf
  | voltageSource h | currentSource h | opamp h | vcvs h | vccs h | cccs h | port h =>
    rw [hkind] at h
    cases h

end Element

end Nodal
