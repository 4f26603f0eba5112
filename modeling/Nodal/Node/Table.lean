import Nodal.Error
import Nodal.Node.Basic
/-!
# The table of nets

Nets are numbered in the order in which they are first seen. Four names stand for ground; they are
in no table and always mean node zero.
-/

namespace Nodal

/-- The names that stand for the reference net. -/
def groundNames : List String :=
  ["0", "GND", "Gnd", "gnd"]

def isGroundName (name : String) : Bool :=
  groundNames.contains name

/-- The nets other than ground, in the order of their numbers. -/
structure NodeTable where
  /-- The names of the nodes one, two, and so on. -/
  names : List String := []
  /-- No net has two numbers. -/
  nodup : names.Nodup := by simp
  /-- Ground is not in the table. -/
  no_ground : ∀ s ∈ names, isGroundName s = false := by simp
deriving DecidableEq, Repr

namespace NodeTable

def empty : NodeTable := {}

instance : Inhabited NodeTable := ⟨empty⟩

/-- The number of nets other than ground. -/
def count (t : NodeTable) : Nat :=
  t.names.length

/-- The node of a net, if the net is ground or was seen. -/
def find? (t : NodeTable) (name : String) : Option Node :=
  if isGroundName name then some .ground else (t.names.idxOf? name).map fun i => ⟨i + 1⟩

/-- The node of a net, or the error that the net was never seen. -/
def find (t : NodeTable) (name : String) : Except Error Node :=
  match t.find? name with
  | some n => .ok n
  | none => .error (.nodeNotFound name)

/-- The name of a node; ground goes by the first of its names. -/
def name? (t : NodeTable) (n : Node) : Option String :=
  match n.index with
  | 0 => some "0"
  | i + 1 => t.names[i]?

/-- A name that is not found is no name of ground, since ground is always found. -/
theorem isGroundName_of_find?_eq_none {t : NodeTable} {name : String} (h : t.find? name = none) :
    isGroundName name = false := by
  unfold find? at h
  split at h
  · simp at h
  · simp_all

/-- A name that is not found is not in the table. -/
theorem not_mem_of_find?_eq_none {t : NodeTable} {name : String} (h : t.find? name = none) :
    name ∉ t.names := by
  simp only [find?, isGroundName_of_find?_eq_none h, Bool.false_eq_true, if_false] at h
  simpa [List.idxOf?_eq_none_iff] using h

/-- Gives the next number to a net that has none. -/
def push (t : NodeTable) (name : String) (h : t.find? name = none) : NodeTable where
  names := t.names ++ [name]
  nodup := by
    rw [List.nodup_append]
    refine ⟨t.nodup, by simp, ?_⟩
    intro a ha b hb hab
    simp only [List.mem_singleton] at hb
    subst hab
    subst hb
    exact not_mem_of_find?_eq_none h ha
  no_ground := by
    intro s hs
    rcases List.mem_append.1 hs with hs | hs
    · exact t.no_ground s hs
    · rw [List.mem_singleton.1 hs]
      exact isGroundName_of_find?_eq_none h

/-- The node of a net, and the table with the net in it. A net not seen before gets the next
number. -/
def intern (t : NodeTable) (name : String) : Node × NodeTable :=
  match h : t.find? name with
  | some n => (n, t)
  | none => (⟨t.count + 1⟩, t.push name h)

/-- The nodes of several nets, one after another. -/
def internAll (t : NodeTable) : List String → List Node × NodeTable
  | [] => ([], t)
  | name :: rest =>
    let (n, t) := t.intern name
    let (ns, t) := t.internAll rest
    (n :: ns, t)

/-- A new name comes at the end of the table. -/
@[simp] theorem names_push (t : NodeTable) (name : String) (h : t.find? name = none) :
    (t.push name h).names = t.names ++ [name] := rfl

/-- To intern a name that is found leaves the table as it is. -/
theorem intern_of_find?_eq_some {t : NodeTable} {name : String} {n : Node}
    (h : t.find? name = some n) : t.intern name = (n, t) := by
  unfold intern
  split <;> simp_all

/-- A name that is not found gets the next number. -/
theorem intern_of_find?_eq_none {t : NodeTable} {name : String} (h : t.find? name = none) :
    t.intern name = (⟨t.count + 1⟩, t.push name h) := by
  unfold intern
  split <;> simp_all

/-- Each request is answered by one node. -/
@[simp] theorem length_internAll (t : NodeTable) (names : List String) :
    (t.internAll names).1.length = names.length := by
  induction names generalizing t with
  | nil => rfl
  | cons name rest ih => simp [internAll, ih]

end NodeTable

end Nodal
