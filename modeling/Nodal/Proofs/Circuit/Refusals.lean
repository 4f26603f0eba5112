import Mathlib.Control.Monad.Basic
import Nodal.Proofs.Circuit.Copies
import Nodal.Proofs.Netlist.Faults
/-!
# Refused calls

A call is answered by the records before it if the last subcircuit that they define under its name has
a port for each of its nets (`Call.Answered`); if not, `Call.Refused` says which error it is refused
with. A netlist makes a valid circuit iff each of its calls is answered, and the first call that is not
leaves the circuit of the text before its line, which is no longer valid (`Circuit.reread_text`).
-/

namespace Nodal

namespace Call

/-- Whether the records before a call define a subcircuit of its name, of which the last has as many
ports as the call has nets. -/
def Answered (earlier : List Record) (c : Call) : Prop :=
  ∃ s, Record.Latest earlier c.subcircuit s ∧ s.ports.length = c.nets.length

/-- The error that a call is refused with behind other records. -/
inductive Refused (earlier : List Record) (c : Call) : Error → Prop where
  | unknown :
    Record.Undefined earlier c.subcircuit →
    Refused earlier c (.unknownSubcircuit c.subcircuit c.label c.line)
  | mismatch {s} :
    Record.Latest earlier c.subcircuit s →
    s.ports.length ≠ c.nets.length →
    Refused earlier c (.portMismatch s.name c.label s.ports.length c.nets.length)

/-- A call is not both refused and answered. -/
lemma Refused.not_answered {earlier : List Record} {c : Call} {e : Error} (h : c.Refused earlier e) :
    ¬ c.Answered earlier := by
  rintro ⟨s, hs, hl⟩
  cases h with
  | unknown hu =>
    obtain ⟨front, back, rfl, hn, -⟩ := hs
    exact hu s (List.mem_append_right _ List.mem_cons_self) hn
  | mismatch hs' hl' =>
    rw [hs'.unique hs] at hl'
    exact hl' hl

end Call

/-- Whether each of the calls among records is answered by the records before it. -/
def Record.AllAnswered (rs : List Record) : Prop :=
  ∀ front c back, rs = front ++ .call c :: back → c.Answered front

namespace Library

/-- A library that holds the last definitions expands the calls that are answered, and refuses the
others. -/
lemma Tracks.expand_spec {lib : Library} {rs : List Record} (h : lib.Tracks rs) (c : Call) :
    match lib.expand c with
    | .ok _ => c.Answered rs
    | .error e => c.Refused rs e := by
  cases hf : lib.find? c.subcircuit with
  | none =>
    simp only [expand, hf]
    exact .unknown (h.undefined hf)
  | some s =>
    simp only [expand, hf, Subcircuit.expand]
    by_cases hl : s.ports.length = c.nets.length
    · rw [if_pos hl]
      exact ⟨s, h.latest hf, hl⟩
    · rw [if_neg hl]
      exact .mismatch (h.latest hf) hl

end Library

namespace Draft

variable {o : Options} {d d' : Draft}

/-- Only a call can fail, and it fails as its expansion does. -/
lemma step_eq_error {r : Record} {e : Error} (h : d.step o r = .error e) :
    ∃ c, r = .call c ∧ d.library.expand c = .error e := by
  cases r with
  | item i => cases h
  | subcircuit s => cases h
  | call c =>
    simp only [step] at h
    split at h <;> cases h
    exact ⟨c, rfl, ‹_›⟩

/-- A run that fails has taken the records before a call that cannot be expanded. -/
lemma run_eq_some {rs : List Record} {e : Error} (h : d.run o rs = (d', some e)) :
    ∃ front c back, rs = front ++ .call c :: back ∧ d.run o front = (d', none) ∧
      d'.library.expand c = .error e := by
  induction rs generalizing d with
  | nil => cases h
  | cons r rs ih =>
    simp only [run] at h
    split at h
    · rename_i e' he
      cases h
      obtain ⟨c, rfl, hc⟩ := step_eq_error he
      exact ⟨[], c, rs, rfl, rfl, hc⟩
    · rename_i d₁ hd
      obtain ⟨front, c, back, rfl, hf, hc⟩ := ih h
      exact ⟨r :: front, c, back, rfl, by simp only [run, hd, hf], hc⟩

/-- A run without error takes the first records without error and goes on from there. -/
lemma run_append_eq_none {rs rs' : List Record} (h : d.run o (rs ++ rs') = (d', none)) :
    ∃ d₁, d.run o rs = (d₁, none) ∧ d₁.run o rs' = (d', none) := by
  induction rs generalizing d with
  | nil => exact ⟨d, rfl, h⟩
  | cons r rs ih =>
    rw [List.cons_append] at h
    simp only [run] at h ⊢
    split at h
    · cases h
    · exact ih h

/-- Behind a run without error the library holds the last definitions among all records. -/
lemma tracks_of_run {seen rs : List Record} (hd : d.library.Tracks seen)
    (h : d.run o rs = (d', none)) : d'.library.Tracks (seen ++ rs) := by
  induction rs generalizing d seen with
  | nil =>
    cases h
    rwa [List.append_nil]
  | cons r rs ih =>
    simp only [run] at h
    split at h
    · cases h
    · rename_i d₁ hd₁
      obtain ⟨-, -, hl, -⟩ := step_eq_ok hd₁
      have ht := hd.after r
      rw [← hl] at ht
      have hr := ih ht h
      rwa [List.append_assoc] at hr

/-- If a run succeeds, all calls among its records were answered. -/
lemma answered_of_run {rs : List Record} (h : run o {} rs = (d', none)) : Record.AllAnswered rs := by
  rintro front c back rfl
  obtain ⟨d₁, hf, hrest⟩ := run_append_eq_none h
  have hs := (tracks_of_run Library.tracks_nil hf).expand_spec c
  rw [List.nil_append] at hs
  cases hx : d₁.library.expand c with
  | ok x => simpa only [hx] using hs
  | error e =>
    simp only [run, step, hx] at hrest
    cases hrest

/-- A run that fails has taken the records before the first call that is not answered, and reports why
the call is refused. -/
lemma refused_of_run {rs : List Record} {e : Error} (h : run o {} rs = (d', some e)) :
    ∃ front c back, rs = front ++ .call c :: back ∧ run o {} front = (d', none) ∧
      Record.AllAnswered front ∧ c.Refused front e := by
  obtain ⟨front, c, back, rfl, hf, hx⟩ := run_eq_some h
  have hs := (tracks_of_run Library.tracks_nil hf).expand_spec c
  rw [hx] at hs
  exact ⟨front, c, back, rfl, hf, answered_of_run hf, hs⟩

end Draft

/-- The text of a netlist can be cut in front of the line of any call, and what stands before the cut is
the netlist of the records before the call. -/
lemma Netlist.exists_cut_of_call {d : Dialect} {text : String} {n : Netlist}
    (h : read d text = .ok n) {front back : List Record} {c : Call}
    (hn : n.records = front ++ .call c :: back) :
    ∃ p l ls m, Source.Cut text p l ls ∧ c.line = l.number ∧ read d p = .ok m ∧
      m.records = front := by
  obtain ⟨r, hs, -⟩ := Reader.run_eq_ok_iff.1 (run_of_read h)
  obtain ⟨ls₁, l, ls₂, r₁, r₂, hls, hf, hc⟩ := hs.exists_step hn
  obtain ⟨hb, hline, -⟩ := hc.of_call
  obtain ⟨p, rfl, hcut⟩ := Source.exists_cut hls
  exact ⟨p, l, ls₂, _, hcut, hline, read_of_steps hf hb, rfl⟩

namespace Circuit

section Read

variable {o : Options} {text : String} {n : Netlist} {d : Draft}

/-- Reading a netlist succeeds iff its calls are answered. -/
lemma error?_eq_none_iff (hn : Netlist.read o.dialect text = .ok n) :
    (read o text).error? = none ↔ Record.AllAnswered n.records := by
  obtain ⟨d, e?, hrun⟩ : ∃ d e?, Draft.run o {} n.records = (d, e?) := ⟨_, _, rfl⟩
  cases e? with
  | none =>
    rw [read_of_run_none hn hrun]
    exact iff_of_true rfl (Draft.answered_of_run hrun)
  | some e =>
    obtain ⟨front, c, back, hrs, -, -, hc⟩ := Draft.refused_of_run hrun
    rw [read_of_run_some hn hrun]
    exact iff_of_false nofun fun h => hc.not_answered (h front c back hrs)

/-- A netlist that does not make a valid circuit has a first call that is not answered. It is refused
with the error, and the circuit is that of the text before its line. -/
lemma exists_refused {e : Error} (hn : Netlist.read o.dialect text = .ok n)
    (he : (read o text).error? = some e) :
    ∃ front c back p rest, n.records = front ++ .call c :: back ∧ Record.AllAnswered front ∧
      c.Refused front e ∧ text = p ++ rest ∧ WholeLines p ∧ c.line = feedCount p + 1 ∧
      (read o p).error? = none ∧
      (read o text).circuit = { (read o p).circuit with valid := false } := by
  obtain ⟨d, e?, hrun⟩ : ∃ d e?, Draft.run o {} n.records = (d, e?) := ⟨_, _, rfl⟩
  cases e? with
  | none =>
    rw [read_of_run_none hn hrun] at he
    cases he
  | some e' =>
    rw [read_of_run_some hn hrun] at he ⊢
    cases he
    obtain ⟨front, c, back, hrs, hfront, hans, hc⟩ := Draft.refused_of_run hrun
    obtain ⟨p, l, ls, m, hcut, hline, hm, rfl⟩ := Netlist.exists_cut_of_call hn hrs
    refine ⟨m.records, c, back, p, _, hrs, hans, hc, hcut.eq_append, hcut.whole,
      hline.trans hcut.number_eq, ?_⟩
    -- the run over the records before the call is the whole run over those of `p`
    rw [read_of_run_none hm hfront, ← Draft.not_valid_of_run hrun]
    exact ⟨rfl, rfl⟩

end Read

/-- Whatever a circuit held before, reading a text succeeds iff the text is a netlist whose calls are
answered; otherwise the circuit is that of the text before the line at fault. -/
theorem reread_text (held : Circuit) (o : Options) (text : String) :
    ((held.reread o (.text text)).error? = none ↔
        ∃ n, Netlist.read o.dialect text = .ok n ∧ Record.AllAnswered n.records) ∧
      (∀ e, Netlist.read o.dialect text = .error e →
        held.reread o (.text text) = { circuit := .empty, error? := some (.malformed e) }) ∧
      ∀ n e, Netlist.read o.dialect text = .ok n → (held.reread o (.text text)).error? = some e →
        ∃ front c back p rest, n.records = front ++ .call c :: back ∧ Record.AllAnswered front ∧
          c.Refused front e ∧ text = p ++ rest ∧ WholeLines p ∧ c.line = feedCount p + 1 ∧
          (read o p).error? = none ∧
          (held.reread o (.text text)).circuit = { (read o p).circuit with valid := false } := by
  have hread : held.reread o (.text text) = read o text := rfl
  rw [hread]
  refine ⟨?_, fun e he => read_of_malformed he, fun n e hn he => exists_refused hn he⟩
  cases hn : Netlist.read o.dialect text with
  | ok n => simp [error?_eq_none_iff hn]
  | error e => simp [read_of_malformed hn]

/-- A netlist with a call that names too many nets, behind one that is answered and before one of a
subcircuit that is not defined. -/
theorem reread_text_mismatch :
    let o : Options := { echo := true }
    let text := ".subckt S p\n* µ\nR1 p 0 1\n.ends\nX1 a S\nX2 a b S\nX3 a T\n"
    let x := empty.reread o (.text text)
    x.error? = some (.portMismatch "S" "X2" 1 2) ∧
      ∃ n front c back p rest, Netlist.read .spice text = .ok n ∧
        n.records = front ++ .call c :: back ∧ Record.AllAnswered front ∧
        c.Refused front (.portMismatch "S" "X2" 1 2) ∧ text = p ++ rest ∧ WholeLines p ∧
        c.line = feedCount p + 1 ∧ (read o p).error? = none ∧
        x.circuit = { (read o p).circuit with valid := false } := by
  intro o text x
  have he : x.error? = some (.portMismatch "S" "X2" 1 2) := by decide +kernel
  obtain ⟨-, hmalformed, hrefused⟩ := reread_text empty o text
  refine ⟨he, ?_⟩
  cases hn : Netlist.read .spice text with
  | ok n =>
    obtain ⟨front, c, back, p, rest, h⟩ := hrefused n _ hn he
    exact ⟨n, front, c, back, p, rest, rfl, h⟩
  | error e =>
    have hx : x.error? = some (.malformed e) := by
      change (empty.reread o (.text text)).error? = _
      rw [hmalformed e hn]
    rw [he] at hx
    cases hx

end Circuit

end Nodal
