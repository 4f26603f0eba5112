import Mathlib.Data.List.Induction
import Nodal.Element.Reading
import Nodal.Proofs.Element.Stamp
import Nodal.Proofs.LinearSystem.Tiling
import Nodal.Proofs.Node.Numbering
/-!
# Histories of elements

The nets of an element and their nodes are kept apart and change in different ways: new nets clear the nodes,
a new name leaves them, resolving fills them in, and meanwhile the table of nets grows for the sake of other
elements. What holds after any sequence of such changes (`Element.Change`) is that the nodes are those of the
nets, in the table as it is, or that there are none (`Element.Change.tracks_applyAll`). So an element is never
stamped with nodes that are out of date (`Element.stamp_of_history`).
-/

namespace Nodal

/-- Every kind has a terminal. -/
lemma Kind.terminalCount_pos (k : Kind) : 0 < k.terminalCount := by
  cases k <;> decide

namespace Element

variable {K : Type}

section Stamping

variable [One K] [Neg K]

/-- A stamped element has a node for each terminal. -/
lemma Stamped.length_nodes {e : Element K} {offset : Option Nat} {es : List (Entry K)}
    (h : e.Stamped offset es) : e.nodes.length = e.kind.terminalCount := by
  cases h with
  | impedance hf hn =>
    rw [hn]
    cases hk : e.kind <;> simp [hk, Kind.family?] at hf <;> rfl
  | voltageSource hk hn | currentSource hk hn | opamp hk hn | vcvs hk hn | ccvs hk hn | vccs hk hn
  | cccs hk hn | port hk hn =>
    rw [hn, hk]
    rfl

/-- An element is stamped without an offset only if it has no auxiliary unknowns. -/
lemma Stamped.auxCount_of_none {e : Element K} {es : List (Entry K)} (h : e.Stamped none es) :
    e.auxCount = 0 := by
  cases h with
  | currentSource hk | vccs hk | port hk =>
    rw [auxCount, hk]
    rfl

/-- The elements that are stamped are those with a node for each terminal and an offset for their auxiliary
unknowns, if they have any. -/
lemma exists_stamp_iff {e : Element K} {offset : Option Nat} :
    (∃ es, e.stamp offset = .ok es) ↔
      e.nodes.length = e.kind.terminalCount ∧ (offset ≠ none ∨ e.auxCount = 0) := by
  simp only [stamp_eq_ok_iff]
  constructor
  · rintro ⟨es, h⟩
    refine ⟨h.length_nodes, ?_⟩
    cases offset with
    | none => exact .inr h.auxCount_of_none
    | some k => exact .inl nofun
  · rintro ⟨hn, ho⟩
    refine exists_stamped hn fun hnone => ?_
    exact Kind.auxCount_eq_zero_iff.1 (ho.resolve_left (not_not_intro hnone))

/-- The stamp as it is computed from the positions of the node list, or nothing if a node is wanted at a
position that the list does not have. -/
def stampByPosition (e : Element K) (offset : Option Nat) : Option (Except Error (List (Entry K))) :=
  if e.nodes.length ≠ e.kind.terminalCount then some (.error (.notStampable e.name .unresolved))
  else
    let node (i : Nat) : Option Nat := e.nodes[i]?.map Node.index
    match e.kind with
    | .resistor => do
      return e.stampAt offset (Stamp.impedance (← node 0) (← node 1) e.value)
    | .capacitor => do
      return e.stampAt offset (Stamp.impedance (← node 0) (← node 1) e.value)
    | .inductor => do
      return e.stampAt offset (Stamp.impedance (← node 0) (← node 1) e.value)
    | .voltageSource => do
      return e.stampAt offset (Stamp.voltageSource (← node 0) (← node 1))
    | .currentSource => do
      return .ok (Stamp.currentSource (← node 0) (← node 1))
    | .opamp => do
      return e.stampAt offset (Stamp.opamp (← node 0) (← node 1) (← node 2))
    | .vcvs => do
      return e.stampAt offset (Stamp.vcvs (← node 0) (← node 1) (← node 2) (← node 3) e.value)
    | .ccvs => do
      return e.stampAt offset (Stamp.ccvs (← node 0) (← node 1) (← node 2) (← node 3) e.value)
    | .vccs => do
      return .ok (Stamp.vccs (← node 0) (← node 1) (← node 2) (← node 3) e.value)
    | .cccs => do
      return e.stampAt offset (Stamp.cccs (← node 0) (← node 1) (← node 2) (← node 3) e.value)
    | .port => some (.ok [])

/-- Every position that a stamp asks for is there, and what is found makes up the stamp. -/
lemma stampByPosition_eq (e : Element K) (offset : Option Nat) :
    e.stampByPosition offset = some (e.stamp offset) := by
  by_cases hn : e.nodes.length = e.kind.terminalCount
  · cases hk : e.kind with
    | resistor | capacitor | inductor | voltageSource | currentSource | port =>
      rw [hk] at hn
      obtain ⟨n, m, hn⟩ := List.length_eq_two.1 hn
      simp [stampByPosition, stamp, hk, hn, Kind.terminalCount]
    | opamp =>
      rw [hk] at hn
      obtain ⟨n, m, o, hn⟩ := List.length_eq_three.1 hn
      simp [stampByPosition, stamp, hk, hn, Kind.terminalCount]
    | vcvs | ccvs | vccs | cccs =>
      rw [hk] at hn
      obtain ⟨n, m, p, q, hn⟩ := List.length_eq_four.1 hn
      simp [stampByPosition, stamp, hk, hn, Kind.terminalCount]
  · rw [stampByPosition, if_pos hn]
    unfold stamp
    -- each shape of the node list but the last has the right length for its kind
    split
    case h_12 => rfl
    all_goals exact absurd (by simp [*, Kind.terminalCount]) hn

end Stamping

/-- What happens to an element, or to the table that numbers its nets. -/
inductive Change where
  | setNets (nets : List String)
  | prependName (front : String)
  /-- The nets of the element are numbered. -/
  | resolve
  /-- Some net is numbered for another element. -/
  | intern (net : String)

namespace Change

def apply (p : Element K × NodeTable) : Change → Element K × NodeTable
  | setNets nets => (p.1.setNets nets, p.2)
  | prependName front => (p.1.prependName front, p.2)
  | resolve => p.1.resolve p.2
  | intern net => (p.1, (p.2.intern net).2)

/-- An element and a table after changes, the earliest first. -/
def applyAll (p : Element K × NodeTable) (history : List Change) : Element K × NodeTable :=
  history.foldl apply p

/-- The last change of a history is made to what the others led to. -/
lemma applyAll_concat (p : Element K × NodeTable) (history : List Change) (ch : Change) :
    applyAll p (history ++ [ch]) = ch.apply (applyAll p history) := by
  rw [applyAll, List.foldl_append]
  rfl

/-- Whether the nets were numbered in the course of a history and not replaced since. -/
def Numbers (history : List Change) : Prop :=
  ∃ before after, history = before ++ resolve :: after ∧ ∀ nets, setNets nets ∉ after

/-- Without a change an element is not numbered. -/
lemma not_numbers_nil : ¬ Numbers [] := by
  rintro ⟨before, after, h, -⟩
  exact absurd h.symm (List.append_ne_nil_of_right_ne_nil _ (List.cons_ne_nil _ _))

/-- After a change the nets count as numbered if it resolves them, or if they did before and it leaves them. -/
lemma numbers_concat_iff {history : List Change} {ch : Change} :
    Numbers (history ++ [ch]) ↔ ch = resolve ∨ Numbers history ∧ ∀ nets, ch ≠ setNets nets := by
  constructor
  · rintro ⟨before, after, h, hs⟩
    rcases List.eq_nil_or_concat after with rfl | ⟨after, last, rfl⟩
    · obtain ⟨-, hc⟩ := List.append_inj' h rfl
      exact .inl (List.singleton_inj.1 hc)
    · rw [List.concat_eq_append] at h hs
      rw [← List.cons_append, ← List.append_assoc] at h
      obtain ⟨rfl, hc⟩ := List.append_inj' h rfl
      obtain rfl := List.singleton_inj.1 hc
      exact .inr ⟨⟨before, after, rfl, fun nets hm => hs nets (List.mem_append_left _ hm)⟩,
        fun nets he => hs nets (List.mem_append_right _ (List.mem_singleton.2 he.symm))⟩
  · rintro (rfl | ⟨⟨before, after, rfl, hs⟩, hne⟩)
    · exact ⟨history, [], rfl, fun _ => List.not_mem_nil⟩
    · refine ⟨before, after ++ [ch], by simp, fun nets hm => ?_⟩
      rcases List.mem_append.1 hm with hm | hm
      · exact hs nets hm
      · exact hne nets (List.mem_singleton.1 hm).symm

/-- Whether an element has the nodes of its nets in the table if the nets count as numbered, and no nodes
otherwise. -/
def Tracks (numbered : Prop) (p : Element K × NodeTable) : Prop :=
  (numbered → p.1.Numbered p.2) ∧ (¬ numbered → p.1.nodes = [])

/-- What a change makes of nets that count as numbered or not. -/
lemma Tracks.apply {numbered : Prop} {p : Element K × NodeTable} (h : Tracks numbered p) (ch : Change) :
    Tracks (ch = resolve ∨ numbered ∧ ∀ nets, ch ≠ setNets nets) (ch.apply p) := by
  cases ch with
  | setNets nets =>
    refine ⟨?_, fun _ => rfl⟩
    rintro (hr | ⟨-, hs⟩)
    · cases hr
    · exact absurd rfl (hs nets)
  | prependName front =>
    refine ⟨?_, fun hr => h.2 fun hn => hr (.inr ⟨hn, nofun⟩)⟩
    rintro (hr | ⟨hn, -⟩)
    · cases hr
    · exact h.1 hn
  | resolve => exact ⟨fun _ => p.1.numbered_resolve p.2, fun hr => absurd (.inl rfl) hr⟩
  | intern net =>
    refine ⟨?_, fun hr => h.2 fun hn => hr (.inr ⟨hn, nofun⟩)⟩
    rintro (hr | ⟨hn, -⟩)
    · cases hr
    · exact (h.1 hn).mono (p.2.extends_intern net)

/-- After a history the nodes of an element are those of its nets, or there are none. -/
theorem tracks_applyAll {p : Element K × NodeTable} (h : p.1.nodes = []) (history : List Change) :
    Tracks (Numbers history) (applyAll p history) := by
  -- the last change tells whether the nets are numbered, so the history is taken apart at its end
  induction history using List.reverseRecOn with
  | nil => exact ⟨fun hn => absurd hn not_numbers_nil, fun _ => h⟩
  | append_singleton history ch ih =>
    rw [numbers_concat_iff, applyAll_concat]
    exact ih.apply ch

end Change

/-- Whether an index is that of a net of the element in a table, or of an auxiliary unknown of the element. -/
def Reaches (e : Element K) (t : NodeTable) (offset : Option Nat) (i : Nat) : Prop :=
  (∃ net ∈ e.nets, t.find? net = some ⟨i⟩) ∨ ∃ k, offset = some k ∧ k ≤ i ∧ i < k + e.auxCount

/-- What a numbered element touches are its nets in the table and its own unknowns. -/
lemma Numbered.reaches {e : Element K} {t : NodeTable} {offset : Option Nat} {i : Nat}
    (h : e.Numbered t) (hi : e.Touches offset i) : e.Reaches t offset i := by
  rcases hi with ⟨n, hn, rfl⟩ | haux
  · exact .inl (h.exists_net hn)
  · exact .inr haux

/-- After any changes an element is stamped iff its nets were numbered and not replaced since, and then every
entry stands at a net as it is numbered now or at an own unknown. -/
theorem stamp_of_history {l : ElementLine} {e₀ : Element Float} (hl : ofLine l = .ok e₀) (t₀ : NodeTable)
    (history : List Change) (offset : Option Nat) :
    let e := (Change.applyAll (e₀, t₀) history).1
    let t := (Change.applyAll (e₀, t₀) history).2
    ((∃ es, e.stamp offset = .ok es) ↔
      Change.Numbers history ∧ e.nets.length = e.kind.terminalCount ∧
        (offset ≠ none ∨ e.auxCount = 0)) ∧
    e.stampByPosition offset = some (e.stamp offset) ∧
    ∀ es, e.stamp offset = .ok es →
      ∀ x ∈ es, e.Reaches t offset x.row ∧ e.Reaches t offset x.col := by
  intro e t
  have h₀ : e₀.nodes = [] := by
    unfold ofLine at hl
    split at hl <;> cases hl
    rfl
  have htracks : Change.Tracks (Change.Numbers history) (e, t) := Change.tracks_applyAll h₀ history
  have hnumbers : e.nodes.length = e.kind.terminalCount → Change.Numbers history := by
    intro hn
    by_contra hc
    -- no kind makes do without nodes
    rw [htracks.2 hc] at hn
    exact Nat.ne_of_lt e.kind.terminalCount_pos hn
  refine ⟨⟨fun h => ?_, ?_⟩, e.stampByPosition_eq offset, fun es h x hx => ?_⟩
  · obtain ⟨hn, ho⟩ := exists_stamp_iff.1 h
    have hc := hnumbers hn
    exact ⟨hc, (htracks.1 hc).length_nodes.symm.trans hn, ho⟩
  · rintro ⟨hc, hn, ho⟩
    exact exists_stamp_iff.2 ⟨(htracks.1 hc).length_nodes.trans hn, ho⟩
  · have hs := stamp_eq_ok_iff.1 h
    have hnum := htracks.1 (hnumbers hs.length_nodes)
    exact ⟨hnum.reaches (hs.touches x hx).1, hnum.reaches (hs.touches x hx).2⟩

/-- A source that was numbered under other nets, renamed, and numbered again, with the nets of other elements
in between. -/
theorem stamp_of_history_renumbered :
    let l : ElementLine := ⟨'F', "F1", ["a", "b", "c", "d"], "r", 1⟩
    let history : List Change :=
      [.intern "z", .resolve, .setNets ["p", "0", "z", "a"], .prependName "X1/", .resolve, .intern "y"]
    let e₀ : Element Float :=
      { kind := .ccvs, name := "F1", nets := ["a", "b", "c", "d"], value := .sym "r" }
    let e : Element Float :=
      { kind := .ccvs, name := "X1/F1", nets := ["p", "0", "z", "a"], value := .sym "r"
        nodes := [⟨6⟩, ⟨0⟩, ⟨1⟩, ⟨2⟩] }
    ofLine l = .ok e₀ ∧ (Change.applyAll (e₀, .empty) history).1 = e ∧
      (∃ es, e.stamp (some 8) = .ok es) ∧ (¬ ∃ es, e.stamp none = .ok es) ∧
      ¬ ∃ es, (Change.applyAll (e₀, .empty) (history ++ [.setNets e.nets])).1.stamp (some 8) = .ok es := by
  intro l history e₀ e
  have hl : ofLine l = .ok e₀ := by
    simp only [l, e₀]
    rfl
  have he : (Change.applyAll (e₀, .empty) history).1 = e := by rfl
  have hnumbers : Change.Numbers history :=
    ⟨[.intern "z", .resolve, .setNets ["p", "0", "z", "a"], .prependName "X1/"], [.intern "y"], rfl,
      by simp⟩
  have hiff := fun offset => (stamp_of_history hl .empty history offset).1
  simp only [he] at hiff
  refine ⟨hl, he, (hiff _).2 ⟨hnumbers, rfl, .inl nofun⟩, fun h => ?_, fun h => ?_⟩
  · have ho : none ≠ none ∨ e.auxCount = 0 := ((hiff none).1 h).2.2
    exact ho.elim (fun ho => ho rfl) (by decide)
  · obtain ⟨hc, -⟩ := (stamp_of_history hl .empty _ (some 8)).1.1 h
    obtain hr | ⟨-, hs⟩ := Change.numbers_concat_iff.1 hc
    · cases hr
    · exact hs e.nets rfl

end Element

end Nodal
