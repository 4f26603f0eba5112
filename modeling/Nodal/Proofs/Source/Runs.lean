import Mathlib.Data.List.TakeWhile
import Nodal.Proofs.Source.Words
/-!
# Runs between separators

The words of a line are the runs of its characters between separators (`Source.words_eq_runs`). What stands on
the two sides of a separator has its runs apart (`Source.runs_append_cons`), so runs are taken off one by one with
the separators around them (`Source.runs_word`), and only so do they come about
(`Source.exists_of_runs_eq_cons`).
-/

namespace Nodal.Source

/-- The nonempty runs between the characters of a class. -/
def runs (p : Char → Bool) (cs : List Char) : List (List Char) :=
  (cs.splitOnP p).filter (· ≠ [])

/-- The words of a line are the runs of its characters. -/
lemma words_eq_runs {text : String} {l : Line} (h : l ∈ lines text) :
    l.words = (runs Text.isSeparator l.text.toList).map String.ofList := by
  obtain ⟨number, offset, raw, -, rfl⟩ := exists_eq_lineOf h
  rw [words_lineOf, runs, lineOf, String.toList_ofList]

variable {p : Char → Bool}

/-- An empty text has no runs. -/
@[simp] lemma runs_nil : runs p [] = [] := by
  simp [runs]

/-- The runs on the two sides of a separator. -/
lemma runs_append_cons {c : Char} (h : p c = true) (cs cs' : List Char) :
    runs p (cs ++ c :: cs') = runs p cs ++ runs p cs' := by
  rw [runs, List.splitOnP_append_cons cs cs' h, List.filter_append]
  rfl

/-- A break in front of a text leaves its runs alone. -/
lemma runs_cons {c : Char} (h : p c = true) (cs : List Char) : runs p (c :: cs) = runs p cs := by
  have hr := runs_append_cons h [] cs
  rwa [runs_nil, List.nil_append, List.nil_append] at hr

/-- Characters without separators are one run. -/
lemma runs_eq_singleton {cs : List Char} (hne : cs ≠ []) (h : ∀ c ∈ cs, p c = false) :
    runs p cs = [cs] := by
  rw [runs, List.splitOnP_eq_singleton h]
  simp [hne]

/-- Breaks in front of a text leave its runs alone. -/
lemma runs_append_left {front : List Char} (h : ∀ c ∈ front, p c = true) (cs : List Char) :
    runs p (front ++ cs) = runs p cs := by
  induction front with
  | nil => rfl
  | cons c front ih =>
    rw [List.cons_append, runs_cons (h c List.mem_cons_self)]
    exact ih fun c hc => h c (List.mem_cons_of_mem _ hc)

/-- A run goes on up to the next separator. -/
lemma runs_append_of_head {run back : List Char} (hne : run ≠ []) (h : ∀ c ∈ run, p c = false)
    (hb : ∀ c ∈ back.head?, p c = true) : runs p (run ++ back) = run :: runs p back := by
  cases back with
  | nil => rw [List.append_nil, runs_nil, runs_eq_singleton hne h]
  | cons c back =>
    have hc := hb c rfl
    rw [runs_append_cons hc, runs_cons hc, runs_eq_singleton hne h]
    rfl

/-- A word with separators on both sides is a run, in front of those behind it. -/
lemma runs_word {front word gap cs : List Char} (hf : ∀ c ∈ front, p c = true) (hne : word ≠ [])
    (hw : ∀ c ∈ word, p c = false) (hg : ∀ c ∈ gap, p c = true)
    (hcs : gap = [] → ∀ c ∈ cs.head?, p c = true) :
    runs p (front ++ word ++ gap ++ cs) = word :: runs p cs := by
  have hhead : ∀ c ∈ (gap ++ cs).head?, p c = true := by
    cases gap with
    | nil => exact hcs rfl
    | cons a gap =>
      rintro c ⟨⟩
      exact hg a List.mem_cons_self
  rw [List.append_assoc, List.append_assoc, runs_append_left hf, runs_append_of_head hne hw hhead,
    runs_append_left hg]

/-- Joined, the runs are the characters that are no separators. -/
lemma flatten_runs (cs : List Char) : (runs p cs).flatten = cs.filter (!p ·) := by
  rw [runs, List.flatten_filter_ne_nil]
  induction cs with
  | nil => rfl
  | cons c cs ih =>
    rw [List.splitOnP_cons_eq_if_modifyHead]
    cases hc : p c with
    | true => simpa [hc] using ih
    | false =>
      obtain ⟨run, later, hr⟩ := List.exists_cons_of_ne_nil (List.splitOnP_ne_nil p cs)
      rw [hr] at ih
      simpa [hc, hr] using ih

/-- A text without runs consists of breaks. -/
lemma of_runs_eq_nil {cs : List Char} (h : runs p cs = []) : ∀ c ∈ cs, p c = true := by
  have hf := flatten_runs (p := p) cs
  rw [h, List.flatten_nil] at hf
  simpa using List.filter_eq_nil_iff.1 hf.symm

/-- In front of the first run stand separators only, and it goes on up to the next one. -/
lemma exists_of_runs_eq_cons {cs run : List Char} {later : List (List Char)}
    (h : runs p cs = run :: later) :
    ∃ front back, cs = front ++ run ++ back ∧ (∀ c ∈ front, p c = true) ∧
      (∀ c ∈ back.head?, p c = true) ∧ runs p back = later := by
  induction cs with
  | nil =>
    rw [runs_nil] at h
    cases h
  | cons c cs ih =>
    cases hc : p c with
    | true =>
      rw [runs_cons hc] at h
      obtain ⟨front, back, rfl, hf, hb⟩ := ih h
      exact ⟨c :: front, back, rfl, List.forall_mem_cons.2 ⟨hc, hf⟩, hb⟩
    | false =>
      -- the first run starts here, and goes on up to the next break
      have hfree : ∀ a ∈ c :: cs.takeWhile (!p ·), p a = false := by
        intro a ha
        rcases List.mem_cons.1 ha with rfl | ha
        · exact hc
        · simpa using List.mem_takeWhile_imp ha
      have hstop : ∀ a ∈ (cs.dropWhile (!p ·)).head?, p a = true := by
        intro a ha
        have hh := List.head?_dropWhile_not (!p ·) cs
        rw [ha] at hh
        simpa using hh
      have hcs : c :: cs = (c :: cs.takeWhile (!p ·)) ++ cs.dropWhile (!p ·) := by
        rw [List.cons_append, List.takeWhile_append_dropWhile]
      rw [hcs, runs_append_of_head (List.cons_ne_nil _ _) hfree hstop] at h
      obtain ⟨rfl, rfl⟩ := List.cons.inj h
      exact ⟨[], cs.dropWhile (!p ·), hcs, nofun, hstop, rfl⟩

end Nodal.Source
