import Nodal.Proofs.Node.Numbering
/-!
# Nets in the order of discovery

Every request for a net is answered with its node. `NodeTable.Answers` relates the requests so far to
the table that they led to: one more request keeps it (`Answers.intern`), and so do any number of them
(`Answers.internAll`). So the nets other than ground are numbered from one on without gaps, in the
order of their first requests, and looking a net up and naming a node undo each other
(`numbers_internAll`). The table itself lists the nets that were asked for in this order
(`names_internAll`).
-/

namespace Nodal.NodeTable

section Duplicates

variable {α : Type} [BEq α] [LawfulBEq α] {as : List α} {a : α}

/-- A member that comes again is left out. -/
lemma eraseDups_concat_of_mem (h : a ∈ as) : (as ++ [a]).eraseDups = as.eraseDups := by
  simp [List.eraseDups_append, List.removeAll, h]

/-- A member that is new stays at the end. -/
lemma eraseDups_concat_of_not_mem (h : a ∉ as) : (as ++ [a]).eraseDups = as.eraseDups ++ [a] := by
  simp [List.eraseDups_append, List.eraseDups_cons, List.removeAll, h]

end Duplicates

/-- The nodes that nets other than ground were given, each where it was given first. -/
def given (requests : List (String × Node)) : List Node :=
  ((requests.filter fun p => !isGroundName p.1).map Prod.snd).eraseDups

/-- Whether a table is what requests led to, each of them a net with the node it was given. -/
structure Answers (t : NodeTable) (requests : List (String × Node)) : Prop where
  found : ∀ p ∈ requests, t.find? p.1 = some p.2
  /-- Only nets that were asked for are in the table. -/
  requested : ∀ name ∈ t.names, ∃ n, (name, n) ∈ requests
  /-- The numbers run from one on in the order in which they were given. -/
  dense : given requests = (List.range' 1 t.count).map Node.mk

/-- An empty table is what no requests lead to. -/
lemma answers_empty : empty.Answers [] :=
  ⟨nofun, nofun, rfl⟩

section Given

variable {requests : List (String × Node)} {name : String} {n : Node}

/-- A node is among the given ones iff it was given to a net other than ground. -/
lemma mem_given : n ∈ given requests ↔ ∃ name, (name, n) ∈ requests ∧ isGroundName name = false := by
  simp [given, List.mem_eraseDups]

/-- A request for ground gives no number. -/
lemma given_concat_of_ground (h : isGroundName name = true) :
    given (requests ++ [(name, n)]) = given requests := by
  simp [given, List.filter_append, h]

/-- A request that is answered with a number given before gives no new one. -/
lemma given_concat_of_mem (h : n ∈ given requests) :
    given (requests ++ [(name, n)]) = given requests := by
  cases hg : isGroundName name with
  | true => exact given_concat_of_ground hg
  | false =>
    rw [given, List.mem_eraseDups] at h
    simp [given, List.filter_append, hg, eraseDups_concat_of_mem h]

/-- A number not given before is given last. -/
lemma given_concat_of_not_mem (hg : isGroundName name = false) (h : n ∉ given requests) :
    given (requests ++ [(name, n)]) = given requests ++ [n] := by
  rw [given, List.mem_eraseDups] at h
  simp [given, List.filter_append, hg, eraseDups_concat_of_not_mem h]

end Given

section Find

variable {t : NodeTable} {name : String} {n : Node} {i : Nat}

/-- A search with a report succeeds iff the search does, with the same node. -/
lemma find_eq_ok_iff_find? : t.find name = .ok n ↔ t.find? name = some n := by
  unfold find
  cases t.find? name with
  | none => simp
  | some m => simp

/-- The name at an index is found there. -/
lemma find?_of_name? (h : t.name? ⟨i + 1⟩ = some name) : t.find? name = some ⟨i + 1⟩ := by
  obtain ⟨hi, rfl⟩ := List.getElem?_eq_some_iff.1 h
  have hg := t.no_ground _ (List.getElem_mem hi)
  rw [find?, hg]
  refine Option.map_eq_some_iff.2 ⟨i, List.idxOf?_eq_some_iff.2 ⟨hi, rfl, fun j hj => ?_⟩, rfl⟩
  exact List.pairwise_iff_getElem.1 t.nodup j i (by omega) hi hj

/-- A name that is found, and is not ground, is in the table. -/
lemma mem_names_of_find? (h : t.find? name = some n) (hg : isGroundName name = false) :
    name ∈ t.names := by
  rw [find?, hg] at h
  obtain ⟨i, hi, -⟩ := Option.map_eq_some_iff.1 h
  obtain ⟨hlt, he, -⟩ := List.idxOf?_eq_some_iff.1 hi
  exact he ▸ List.getElem_mem hlt

/-- Each node up to the count has a name, under which it is found. -/
lemma exists_name?_of_le_count (hi : 1 ≤ i) (hc : i ≤ t.count) :
    ∃ name, t.name? ⟨i⟩ = some name ∧ t.find name = .ok ⟨i⟩ := by
  obtain ⟨j, rfl⟩ := Nat.exists_eq_add_of_le' hi
  have hn := List.getElem?_eq_getElem (Nat.lt_of_succ_le hc)
  exact ⟨_, hn, find_eq_ok_iff_find?.2 (find?_of_name? hn)⟩

/-- Beyond the count there is no name. -/
lemma name?_of_count_lt (hc : t.count < i) : t.name? ⟨i⟩ = none := by
  obtain ⟨j, rfl⟩ := Nat.exists_eq_add_of_le' (Nat.lt_of_le_of_lt (Nat.zero_le _) hc)
  exact List.getElem?_eq_none (Nat.le_of_lt_succ hc)

end Find

namespace Answers

variable {t : NodeTable} {requests : List (String × Node)}

/-- A net other than ground that is found was asked for. -/
lemma mem_of_find? (h : t.Answers requests) {name : String} {n : Node}
    (hn : t.find? name = some n) (hg : isGroundName name = false) : (name, n) ∈ requests := by
  obtain ⟨n', hr⟩ := h.requested name (mem_names_of_find? hn hg)
  have hf := h.found _ hr
  rw [hn] at hf
  cases hf
  exact hr

/-- One more request is answered as the earlier ones were. -/
lemma intern (h : t.Answers requests) (name : String) :
    (t.intern name).2.Answers (requests ++ [(name, (t.intern name).1)]) := by
  refine ⟨fun p hp => ?_, fun s hs => ?_, ?_⟩
  · rcases List.mem_append.1 hp with hp | hp
    · exact (extends_intern t name).find? (h.found p hp)
    · rw [List.mem_singleton.1 hp]
      exact find?_intern t name
  · cases hf : t.find? name with
    | some n =>
      rw [intern_of_find?_eq_some hf] at hs ⊢
      obtain ⟨m, hm⟩ := h.requested s hs
      exact ⟨m, List.mem_append_left _ hm⟩
    | none =>
      rw [intern_of_find?_eq_none hf] at hs ⊢
      rcases List.mem_append.1 hs with hs | hs
      · obtain ⟨m, hm⟩ := h.requested s hs
        exact ⟨m, List.mem_append_left _ hm⟩
      · rw [List.mem_singleton.1 hs]
        exact ⟨_, List.mem_append_right _ (List.mem_singleton.2 rfl)⟩
  · cases hf : t.find? name with
    | some n =>
      -- the net is ground, or its number was given before
      rw [intern_of_find?_eq_some hf]
      cases hg : isGroundName name with
      | true => rw [given_concat_of_ground hg, h.dense]
      | false => rw [given_concat_of_mem (mem_given.2 ⟨name, h.mem_of_find? hf hg, hg⟩), h.dense]
    | none =>
      have hg := isGroundName_of_find?_eq_none hf
      have hm : Node.mk (t.count + 1) ∉ given requests := by
        rw [h.dense]
        simp [Nat.add_comm 1]
      rw [intern_of_find?_eq_none hf, given_concat_of_not_mem hg hm, h.dense]
      simp [count, List.range'_1_concat, Nat.add_comm 1]

/-- Any number of requests are answered as the earlier ones were. -/
lemma internAll (h : t.Answers requests) (names : List String) :
    (t.internAll names).2.Answers (requests ++ names.zip (t.internAll names).1) := by
  induction names generalizing t requests with
  | nil => simpa [NodeTable.internAll] using h
  | cons name rest ih =>
    have hi := ih (h.intern name)
    rwa [List.append_assoc] at hi

/-- Nets other than ground have the same node iff they are the same. -/
lemma node_eq_iff (h : t.Answers requests) {p q : String × Node} (hp : p ∈ requests)
    (hq : q ∈ requests) (hg : p.1 ∉ groundNames) : p.2 = q.2 ↔ p.1 = q.1 := by
  have hfp := h.found p hp
  have hfq := h.found q hq
  constructor
  · intro hn
    exact eq_of_find?_eq_some hfp (hn ▸ hfq) hg
  · intro hn
    rw [hn, hfq] at hfp
    exact (Option.some.inj hfp).symm

/-- A net was given ground iff it is one of the names of ground. -/
lemma eq_ground_iff (h : t.Answers requests) {p : String × Node} (hp : p ∈ requests) :
    p.2 = .ground ↔ p.1 ∈ groundNames := by
  rw [← find?_eq_ground_iff (t := t), h.found p hp, Option.some.injEq]

/-- A net that is asked for again, whatever was asked for in between, has the node that it had. -/
lemma intern_internAll (h : t.Answers requests) {p : String × Node} (hp : p ∈ requests)
    (later : List String) : ((t.internAll later).2.intern p.1).1 = p.2 := by
  rw [intern_of_find?_eq_some ((extends_internAll t later).find? (h.found p hp))]

/-- What is found is ground, or was asked for. -/
lemma find_eq_ok_iff (h : t.Answers requests) {name : String} {n : Node} :
    t.find name = .ok n ↔
      name ∈ groundNames ∧ n = .ground ∨ name ∉ groundNames ∧ (name, n) ∈ requests := by
  rw [find_eq_ok_iff_find?]
  by_cases hg : name ∈ groundNames
  · rw [find?_eq_ground_iff.2 hg]
    simp [hg, eq_comm]
  · have hg' : isGroundName name = false := by simpa [isGroundName] using hg
    simp only [hg, false_and, not_false_eq_true, true_and, false_or]
    exact ⟨fun hf => h.mem_of_find? hf hg', h.found (name, n)⟩

end Answers

/-- Nets other than ground are numbered from one on in the order of their first requests, each keeps its node
through later ones, and no two of them share one. -/
theorem numbers_internAll (names : List String) :
    let nodes := (empty.internAll names).1
    let t := (empty.internAll names).2
    let requests := names.zip nodes
    nodes.length = names.length ∧
      given requests = (List.range' 1 t.count).map Node.mk ∧
      (∀ p ∈ requests, ∀ q ∈ requests, p.1 ∉ groundNames → q.1 ∉ groundNames →
        (p.2 = q.2 ↔ p.1 = q.1)) ∧
      (∀ p ∈ requests, p.2 = .ground ↔ p.1 ∈ groundNames) ∧
      (∀ p ∈ requests, ∀ later, ((t.internAll later).2.intern p.1).1 = p.2) ∧
      (∀ name n, t.find name = .ok n ↔
        name ∈ groundNames ∧ n = .ground ∨ name ∉ groundNames ∧ (name, n) ∈ requests) ∧
      (∀ i, 1 ≤ i → i ≤ t.count → ∃ name, t.name? ⟨i⟩ = some name ∧ t.find name = .ok ⟨i⟩) ∧
      ∀ i, t.count < i → t.name? ⟨i⟩ = none := by
  intro nodes t requests
  have h : t.Answers requests := answers_empty.internAll names
  refine ⟨length_internAll _ _, h.dense, ?_, ?_, ?_, ?_, ?_, ?_⟩
  · intro p hp q hq hg _
    exact h.node_eq_iff hp hq hg
  · intro p hp
    exact h.eq_ground_iff hp
  · intro p hp later
    exact h.intern_internAll hp later
  · intro name n
    exact h.find_eq_ok_iff
  · intro i hi hc
    exact exists_name?_of_le_count hi hc
  · intro i hc
    exact name?_of_count_lt hc

/-- A net that is asked for twice, with ground and another net in between. -/
theorem numbers_internAll_repeated :
    let names := ["a", "gnd", "b", "a"]
    let nodes := (empty.internAll names).1
    let t := (empty.internAll names).2
    nodes = [⟨1⟩, .ground, ⟨2⟩, ⟨1⟩] ∧ given (names.zip nodes) = (List.range' 1 2).map Node.mk ∧
      (Node.mk 1 = ⟨2⟩ ↔ "a" = "b") ∧ (Node.ground = .ground ↔ "gnd" ∈ groundNames) ∧
      ((t.internAll ["c", "a"]).2.intern "b").1 = ⟨2⟩ ∧ t.find "b" = .ok ⟨2⟩ ∧
      (∃ name, t.name? ⟨2⟩ = some name ∧ t.find name = .ok ⟨2⟩) ∧ t.name? ⟨3⟩ = none := by
  intro names nodes t
  obtain ⟨-, hgiven, hinj, hground, hlater, hfind, hname, hnone⟩ := numbers_internAll names
  have hnodes : nodes = [⟨1⟩, .ground, ⟨2⟩, ⟨1⟩] := by decide
  have ha : ("a", Node.mk 1) ∈ names.zip nodes := by decide
  have hg : ("gnd", Node.ground) ∈ names.zip nodes := by decide
  have hb : ("b", Node.mk 2) ∈ names.zip nodes := by decide
  exact ⟨hnodes, hgiven, hinj _ ha _ hb (by decide) (by decide), hground _ hg,
    hlater _ hb ["c", "a"], (hfind _ _).2 (.inr ⟨by decide, hb⟩), hname 2 (by decide) (by decide),
    hnone 3 (by decide)⟩

section Names

variable {t : NodeTable} {nets : List String}

/-- The nets other than ground, each where it stands first. -/
def discovered (nets : List String) : List String :=
  (nets.filter fun net => !isGroundName net).eraseDups

/-- A net is discovered iff it is requested and is not ground. -/
lemma mem_discovered {net : String} : net ∈ discovered nets ↔ net ∈ nets ∧ net ∉ groundNames := by
  simp [discovered, List.mem_eraseDups, isGroundName]

/-- One more net is listed last, unless it is ground or listed already. -/
lemma names_intern (h : t.names = discovered nets) (net : String) :
    (t.intern net).2.names = discovered (nets ++ [net]) := by
  cases hf : t.find? net with
  | some n =>
    rw [intern_of_find?_eq_some hf, h]
    cases hg : isGroundName net with
    | true => simp [discovered, List.filter_append, hg]
    | false =>
      have hm := mem_names_of_find? hf hg
      rw [h, discovered, List.mem_eraseDups] at hm
      simp [discovered, List.filter_append, hg, eraseDups_concat_of_mem hm]
  | none =>
    have hg := isGroundName_of_find?_eq_none hf
    have hm := not_mem_of_find?_eq_none hf
    rw [intern_of_find?_eq_none hf, names_push, h]
    rw [h, discovered, List.mem_eraseDups] at hm
    simp [discovered, List.filter_append, hg, eraseDups_concat_of_not_mem hm]

/-- Later requests append the nets that they discover. -/
lemma names_internAll (h : t.names = discovered nets) (later : List String) :
    (t.internAll later).2.names = discovered (nets ++ later) := by
  induction later generalizing t nets with
  | nil => simpa [internAll] using h
  | cons net later ih =>
    have hl := ih (names_intern h net)
    rwa [List.append_assoc] at hl

/-- Numbering the nets of elements lists them in the order of the elements and their terminals. -/
lemma names_resolveAll {K : Type} (h : t.names = discovered nets) (es : List (Element K)) :
    (t.resolveAll es).2.names = discovered (nets ++ es.flatMap Element.nets) := by
  induction es generalizing t nets with
  | nil => simpa [resolveAll] using h
  | cons e es ih =>
    have hl := ih (names_internAll h e.nets)
    rwa [List.append_assoc] at hl

/-- From an empty table on, elements number just the nets that they discover. -/
lemma names_resolveAll_empty {K : Type} (es : List (Element K)) :
    (empty.resolveAll es).2.names = discovered (es.flatMap Element.nets) := by
  have hempty : empty.names = discovered [] := rfl
  exact names_resolveAll hempty es

end Names

end Nodal.NodeTable
