/-
How checks combine: a sequence of checks accepts when each of them does, and
ends with the first violation otherwise.
-/
import Mathlib
import SpirvAudit.Violation

namespace Except

variable {ε α β : Type}

@[simp] theorem ok_bind (a : α) (f : α → Except ε β) : (Except.ok a >>= f) = f a := rfl

@[simp] theorem error_bind (e : ε) (f : α → Except ε β) : (Except.error e >>= f) = .error e := rfl

@[simp] theorem pure_eq_ok_iff {a b : α} : (pure a : Except ε α) = .ok b ↔ a = b := by
  simp [pure, Except.pure]

theorem bind_eq_ok_iff {x : Except ε α} {f : α → Except ε β} {b : β} :
    (x >>= f) = .ok b ↔ ∃ a, x = .ok a ∧ f a = .ok b := by
  cases x <;> simp

end Except

namespace SpirvAudit.Verdict

variable {ε α : Type}

/-- A check and the one after it accept. -/
theorem bind_eq_ok_iff {x : Verdict} {f : Unit → Verdict} :
    (x >>= f) = .ok () ↔ x = .ok () ∧ f () = .ok () := by
  cases x <;> simp

/-- A check accepts, and what is returned after it is the value asked for. -/
theorem bind_pure_eq_ok_iff {x : Verdict} {a b : α} :
    (x >>= fun _ => pure a : Except Violation α) = .ok b ↔ x = .ok () ∧ a = b := by
  cases x <;> simp

/-- A check accepts for every element of a list. -/
theorem forM_eq_ok_iff {l : List α} {f : α → Verdict} :
    l.forM f = .ok () ↔ ∀ a ∈ l, f a = .ok () := by
  induction l with
  | nil => simp [pure, Except.pure]
  | cons a l ih =>
    rw [List.forM_eq_forM] at ih ⊢
    rw [List.forM_cons, bind_eq_ok_iff, ih, List.forall_mem_cons]

end SpirvAudit.Verdict

namespace SpirvAudit

variable {P : Violation → Prop} {α β : Type} {x : Except Violation α} {i : Instruction}
  {subject : Subject}

/-- Every violation that a check ends with has the property. -/
def FailsOnly (P : Violation → Prop) (x : Except Violation α) : Prop := ∀ v, x = .error v → P v

theorem FailsOnly.ok (a : α) : FailsOnly P (.ok a) := by
  intro v hv
  cases hv

theorem FailsOnly.error {v : Violation} (h : P v) : FailsOnly P (.error v : Except Violation α) := by
  intro w hw
  cases hw
  exact h

/-- A check fails only for `P` if it does so up to the first value it finds, and goes on to do so. -/
theorem FailsOnly.bind {f : α → Except Violation β} (hx : FailsOnly P x)
    (hf : ∀ a, x = .ok a → FailsOnly P (f a)) : FailsOnly P (x >>= f) := by
  intro v hv
  cases x with
  | error w =>
    cases hv
    exact hx v rfl
  | ok a => exact hf a rfl v hv

theorem FailsOnly.forM {l : List α} {f : α → Verdict} (h : ∀ a ∈ l, FailsOnly P (f a)) :
    FailsOnly P (l.forM f) := by
  induction l with
  | nil => exact .ok ()
  | cons a l ih =>
    obtain ⟨ha, hl⟩ := List.forall_mem_cons.mp h
    rw [List.forM_eq_forM] at ih ⊢
    rw [List.forM_cons]
    exact ha.bind fun _ _ => ih hl

theorem FailsOnly.required {index : Nat} (h : P (i.violation subject .missing)) :
    FailsOnly P (i.required index subject) := by
  rw [Instruction.required]
  cases i.operand? index with
  | none => exact .error h
  | some word => exact .ok word

theorem FailsOnly.judge {faults : List Fault}
    (h : ∀ f ∈ faults, f.holds = true → P (i.violation subject f.problem)) :
    FailsOnly P (i.judge subject faults) := by
  intro v hv
  obtain ⟨p, hp, rfl⟩ := Instruction.judge_eq_error_iff.mp hv
  obtain ⟨earlier, f, later, rfl, hf, rfl, -⟩ := firstProblem?_eq_some_iff.mp hp
  exact h f (by simp) hf

end SpirvAudit
