/-
Violations: the problem that rejects a module, and where it lies.

A check ends with the first violation it finds. Most checks are a list of
faults, conditions that should not hold, in the order in which they are
looked at; `judge` rejects an instruction for the first of them that does
hold.
-/
import SpirvAudit.Problem

namespace SpirvAudit

/-- What a problem is about. -/
inductive Subject
  /-- The instruction, or the module, as a whole. -/
  | whole
  | version | declaredMemoryModel
  | capability | addressingModel | memoryModel | executionModel | mode | storageClass | dim
  | decoration | name
  | executionScope | memoryScope | semantics | equalSemantics | unequalSemantics | namedBarrier
  | pointer | resultType
deriving DecidableEq, Repr

def Subject.text : Subject → String
  | .whole => ""
  | .version => "the SPIR-V version"
  | .declaredMemoryModel => "the memory model"
  | .capability => "Capability"
  | .addressingModel => "Addressing Model"
  | .memoryModel => "Memory Model"
  | .executionModel => "Execution Model"
  | .mode => "Mode"
  | .storageClass => "Storage Class"
  | .dim => "Dim"
  | .decoration => "Decoration"
  | .name => "Name"
  | .executionScope => "Execution Scope"
  | .memoryScope => "Memory Scope"
  | .semantics => "Memory Semantics"
  | .equalSemantics => "Equal Memory Semantics"
  | .unequalSemantics => "Unequal Memory Semantics"
  | .namedBarrier => "Named Barrier"
  | .pointer => "Pointer"
  | .resultType => "Result Type"

/-- The one violation that rejects a module. -/
structure Violation where
  /-- The opcode of the rejected instruction, if it is not the module as a whole. -/
  opcode : Option Opcode := none
  subject : Subject := .whole
  problem : Problem
deriving DecidableEq, Repr

/-- What is told of a violation. -/
def Violation.diagnostic (v : Violation) : Diagnostic where
  kind := v.problem.kind
  opcode := v.opcode
  context := v.subject.text
  problem := v.problem.text
  requires := v.problem.requires
  rule := v.problem.rule.text?.getD ""

/-- The outcome of a check. -/
abbrev Verdict := Except Violation Unit

/-- A condition that should not hold, and the problem if it does. -/
structure Fault where
  holds : Bool
  problem : Problem

/-- The problem of the first condition that holds. -/
def firstProblem? (faults : List Fault) : Option Problem :=
  (faults.find? (·.holds)).map (·.problem)

theorem firstProblem?_eq_none_iff {faults : List Fault} :
    firstProblem? faults = none ↔ ∀ f ∈ faults, f.holds = false := by
  simp [firstProblem?]

/-- The condition of the problem holds, and none before it does. -/
theorem firstProblem?_eq_some_iff {faults : List Fault} {p : Problem} :
    firstProblem? faults = some p ↔
      ∃ earlier f later, faults = earlier ++ f :: later ∧ f.holds = true ∧ f.problem = p ∧
        ∀ g ∈ earlier, g.holds = false := by
  simp only [firstProblem?, Option.map_eq_some_iff, List.find?_eq_some_iff_append]
  constructor
  · rintro ⟨f, ⟨hf, earlier, later, rfl, hearlier⟩, hp⟩
    exact ⟨earlier, f, later, rfl, hf, hp, by simpa using hearlier⟩
  · rintro ⟨earlier, f, later, rfl, hf, hp, hearlier⟩
    exact ⟨f, ⟨hf, earlier, later, rfl, by simpa using hearlier⟩, hp⟩

namespace Instruction

def violation (i : Instruction) (subject : Subject) (problem : Problem) : Violation :=
  { opcode := some i.opcode, subject, problem }

/-- Rejects the instruction for the first fault, if there is one. -/
def judge (i : Instruction) (subject : Subject) (faults : List Fault) : Verdict :=
  match firstProblem? faults with
  | some problem => .error (i.violation subject problem)
  | none => .ok ()

/-- The operand at `index`, which the instruction must have. -/
def required (i : Instruction) (index : Nat) (subject : Subject) : Except Violation Word :=
  match i.operand? index with
  | some word => .ok word
  | none => .error (i.violation subject .missing)

theorem judge_eq_ok_iff {i : Instruction} {subject : Subject} {faults : List Fault} :
    i.judge subject faults = .ok () ↔ ∀ f ∈ faults, f.holds = false := by
  rw [judge, ← firstProblem?_eq_none_iff]
  cases firstProblem? faults <;> simp

theorem judge_eq_error_iff {i : Instruction} {subject : Subject} {faults : List Fault}
    {v : Violation} :
    i.judge subject faults = .error v ↔
      ∃ p, firstProblem? faults = some p ∧ i.violation subject p = v := by
  rw [judge]
  cases firstProblem? faults <;> simp

theorem required_eq_ok_iff {i : Instruction} {index : Nat} {subject : Subject} {word : Word} :
    i.required index subject = .ok word ↔ i.operand? index = some word := by
  rw [required]
  cases i.operand? index <;> simp

end Instruction

end SpirvAudit
