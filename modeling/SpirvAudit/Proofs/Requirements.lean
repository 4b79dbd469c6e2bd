/-
Checks that look at several requirements in turn.

`Enforces` relates a check to the list of what it requires, in the order in
which it looks. Such a check accepts if everything on the list is met
(`Enforces.eq_ok_iff`), and otherwise ends with what is told of the first thing
that is not (`Enforces.error_of_first`). A check made of others requires what
they require, one list after the other (`Enforces.bind`), and a judgement
requires that its faults do not hold (`Enforces.judge_cons`).
-/
import SpirvAudit.Proofs.SemanticsOrder

namespace SpirvAudit

/-- Something required of an instruction, and what is told of an instruction without it. -/
structure Requirement where
  met : Prop
  told : Violation → Prop

namespace Requirement

/-- Another check accepts. What it finds is told. -/
def accepts (x : Verdict) : Requirement where
  met := x = .ok ()
  told v := x = .error v

/-- Required under a rule, with this text, of a part of an instruction. -/
def under (i : Instruction) (subject : Subject) (rule : String) (met : Prop) : Requirement where
  met
  told v := v.diagnostic.opcode = some i.opcode ∧ v.diagnostic.context = subject.text ∧ v.diagnostic.rule = rule

/-- Required of a part of an instruction, which has this problem without it. -/
def lest (i : Instruction) (subject : Subject) (problem : Problem) (met : Prop) : Requirement where
  met
  told v := v = i.violation subject problem

end Requirement

variable {α β : Type}

/-- The check looks at the requirements in order, and ends at the first one that is not met. -/
inductive Enforces : Except Violation α → List Requirement → Prop
  | done (a : α) : Enforces (.ok a) []
  | met {x : Except Violation α} {r : Requirement} {rs : List Requirement} :
    r.met → Enforces x rs → Enforces x (r :: rs)
  | unmet {v : Violation} {r : Requirement} {rs : List Requirement} :
    ¬ r.met → r.told v → Enforces (.error v) (r :: rs)

namespace Enforces

variable {x : Except Violation α} {r : Requirement} {rs qs : List Requirement} {P : Violation → Prop}
  {i : Instruction} {subject : Subject} {fault : Fault} {faults : List Fault}

/-! ## What a check does -/

theorem eq_ok_iff {x : Verdict} (h : Enforces x rs) : x = .ok () ↔ ∀ r ∈ rs, r.met := by
  induction h with
  | done a => simp
  | met hr _ ih => simp [ih, hr]
  | unmet hr _ => simp [hr]

/-- The first requirement that is not met is the one that is told of. -/
theorem error_of_first (h : Enforces x rs) {earlier later : List Requirement} (hrs : rs = earlier ++ r :: later)
    (hearlier : ∀ q ∈ earlier, q.met) (hr : ¬ r.met) : ∃ v, x = .error v ∧ r.told v := by
  induction h generalizing earlier with
  | done a => simp at hrs
  | @met x q rs hq _ ih =>
    match earlier, hrs with
    | [], hrs =>
      obtain ⟨rfl, -⟩ := List.cons_eq_cons.mp hrs
      exact absurd hq hr
    | _ :: earlier, hrs =>
      obtain ⟨rfl, htail⟩ := List.cons_eq_cons.mp hrs
      exact ih htail fun q' hq' => hearlier q' (List.mem_cons_of_mem q hq')
  | @unmet v q rs hq htold =>
    match earlier, hrs with
    | [], hrs =>
      obtain ⟨rfl, -⟩ := List.cons_eq_cons.mp hrs
      exact ⟨v, rfl, htold⟩
    | _ :: earlier, hrs =>
      obtain ⟨rfl, -⟩ := List.cons_eq_cons.mp hrs
      exact absurd (hearlier q List.mem_cons_self) hq

/-- A check fails only for what its requirements tell. -/
theorem failsOnly (h : Enforces x rs) (hP : ∀ r ∈ rs, ∀ v, r.told v → P v) : FailsOnly P x := by
  induction h with
  | done a => exact .ok a
  | met _ _ ih => exact ih (List.forall_mem_cons.mp hP).2
  | @unmet v r _ _ htold => exact .error (hP r List.mem_cons_self v htold)

/-- What only one of the requirements tells is told because that one is not met, and those before it are. -/
theorem first_of_told {v : Violation} (h : Enforces x (qs ++ r :: rs)) (hx : x = .error v)
    (hqs : ∀ q ∈ qs, ¬ q.told v) (hrs : ∀ q ∈ rs, ¬ q.told v) : (∀ q ∈ qs, q.met) ∧ ¬ r.met ∧ r.told v := by
  induction qs with
  | nil =>
    cases h with
    | met hr h =>
      have hother : FailsOnly (· ≠ v) x := h.failsOnly fun q hq w hw hwv => hrs q hq (hwv ▸ hw)
      exact absurd rfl (hother v hx)
    | unmet hr htold =>
      cases hx
      exact ⟨by simp, hr, htold⟩
  | cons q qs ih =>
    obtain ⟨hq, hqs⟩ := List.forall_mem_cons.mp hqs
    cases h with
    | met hmet h =>
      obtain ⟨hall, hr⟩ := ih h hqs
      exact ⟨List.forall_mem_cons.mpr ⟨hmet, hall⟩, hr⟩
    | unmet _ htold =>
      cases hx
      exact absurd htold hq

/-! ## How checks combine -/

theorem of_forall_met (a : α) (h : ∀ r ∈ rs, r.met) : Enforces (.ok a : Except Violation α) rs := by
  induction rs with
  | nil => exact .done a
  | cons r rs ih =>
    obtain ⟨hr, hrs⟩ := List.forall_mem_cons.mp h
    exact .met hr (ih hrs)

/-- A check and the one after it require what each of them does. -/
theorem bind {f : α → Except Violation β} (hx : Enforces x rs) (hf : ∀ a, x = .ok a → Enforces (f a) qs) :
    Enforces (x >>= f) (rs ++ qs) := by
  induction hx with
  | done a => exact hf a rfl
  | met hr _ ih => exact .met hr (ih hf)
  | unmet hr htold => exact .unmet hr htold

theorem accepts (x : Verdict) : Enforces x [.accepts x] := by
  cases x with
  | ok a => exact .met rfl (.done a)
  | error v => exact .unmet nofun rfl

theorem judge_nil : Enforces (i.judge subject []) [] := .done ()

theorem judge_cons (hmet : r.met ↔ fault.holds = false) (htold : r.told (i.violation subject fault.problem))
    (h : Enforces (i.judge subject faults) rs) : Enforces (i.judge subject (fault :: faults)) (r :: rs) := by
  rw [Instruction.judge_cons]
  split
  next hfault => exact .unmet (by simp [hmet, hfault]) htold
  next hfault => exact .met (by simpa [hmet] using hfault) h

/-- A judgement requires that none of its faults holds. -/
theorem judge : Enforces (i.judge subject faults)
    (faults.map fun f => .lest i subject f.problem (f.holds = false)) := by
  induction faults with
  | nil => exact judge_nil
  | cons f faults ih => exact judge_cons Iff.rfl rfl ih

end Enforces

/-- An instruction is rejected for what only one of the faults has as its problem: this one holds, and none
before it does. -/
theorem Instruction.holds_of_judge {i : Instruction} {subject : Subject} {earlier later : List Fault} {fault : Fault}
    {v : Violation} (h : i.judge subject (earlier ++ fault :: later) = .error v)
    (hearlier : ∀ f ∈ earlier, v ≠ i.violation subject f.problem)
    (hlater : ∀ f ∈ later, v ≠ i.violation subject f.problem) :
    (∀ f ∈ earlier, f.holds = false) ∧ fault.holds = true := by
  have henforces := @Enforces.judge i subject (earlier ++ fault :: later)
  rw [List.map_append, List.map_cons] at henforces
  obtain ⟨hmet, hfault, -⟩ :=
    henforces.first_of_told h (List.forall_mem_map.mpr hearlier) (List.forall_mem_map.mpr hlater)
  exact ⟨List.forall_mem_map.mp hmet, by simpa [Requirement.lest] using hfault⟩

end SpirvAudit
