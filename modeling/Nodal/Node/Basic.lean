/-!
# Nodes and unknowns

A node is the index of a net: ground is node zero and the other nets are numbered from one. The
unknowns of a system are the voltages of the nodes other than ground, followed by auxiliary
unknowns.
-/

namespace Nodal

structure Node where
  /-- Zero for ground, from one for the other nets. -/
  index : Nat
deriving DecidableEq, Repr

namespace Node

def ground : Node := ⟨0⟩

def isGround (n : Node) : Bool :=
  n.index == 0

/-- The text of a node: `GND`, or `N` with its index. -/
def text (n : Node) : String :=
  if n.isGround then "GND" else "N" ++ toString n.index

instance : ToString Node where
  toString := text

end Node

/-- What a row or column of a system stands for. -/
inductive Unknown where
  | node (n : Node)
  /-- An auxiliary unknown, counted from zero behind the nodes. -/
  | aux (k : Nat)
deriving DecidableEq, Repr

namespace Unknown

/-- The unknown at an index, when the first `nodeCount` indices from one belong to nodes. -/
def classify? (index nodeCount : Nat) : Option Unknown :=
  if index = 0 then none
  else if index ≤ nodeCount then some (.node ⟨index⟩)
  else some (.aux (index - nodeCount - 1))

def index (nodeCount : Nat) : Unknown → Nat
  | .node n => n.index
  | .aux k => nodeCount + 1 + k

/-- The text of an unknown: a voltage `V(N1)` or an auxiliary unknown `X0`. -/
def text : Unknown → String
  | .node n => "V(" ++ n.text ++ ")"
  | .aux k => "X" ++ toString k

instance : ToString Unknown where
  toString := text

/-- An index is found again from the unknown that stands at it. -/
theorem index_of_classify? {i nodeCount : Nat} {u : Unknown} (h : classify? i nodeCount = some u) :
    u.index nodeCount = i := by
  unfold classify? at h
  split at h
  · simp at h
  · split at h <;> cases h
    · rfl
    · simp only [index]; omega

end Unknown

end Nodal
