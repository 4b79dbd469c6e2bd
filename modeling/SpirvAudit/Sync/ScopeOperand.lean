/-
The scope operands of atomics and barriers.

Both kinds of scope hold a value of the same enumeration. Which of its values
may be used depends on the kind, on the declared capabilities, and on whether
the environment is a Vulkan one; the declared memory model does not matter
here.
-/
import SpirvAudit.Sync.ConstantOperand

namespace SpirvAudit.Declarations

/-- The scope that an operand names, or `none` if it may stay unknown. -/
def scopeOperand (d : Declarations) (i : Instruction) (index : Nat) (subject : Subject) :
    Except Violation (Option Scope) := do
  match ← d.constantOperand i index subject .scope with
  | none => return none
  | some value =>
    match Scope.ofCode? value.toNat with
    | none => .error (i.violation subject (.unknownScope value))
    | some scope => do
      i.judge subject [⟨!d.enables scope.requires, .scopeNotEnabled scope⟩]
      return some scope

/-- What is wrong with a scope as an execution scope. -/
def executionScopeFaults (d : Declarations) (scope : Scope) : List Fault := [
  ⟨d.environment.isVulkan && scope != .workgroup && scope != .subgroup,
    .executionScopeInVulkan scope⟩]

/-- What is wrong with a scope as a memory scope. -/
def memoryScopeFaults (d : Declarations) (scope : Scope) : List Fault := [
  ⟨scope == .queueFamily && !d.has .vulkanMemoryModel, .queueFamilyNotEnabled⟩,
  ⟨scope == .device && d.has .vulkanMemoryModel && !d.has .vulkanMemoryModelDeviceScope,
    .deviceNotEnabled⟩,
  ⟨scope == .crossDevice && d.environment.isVulkan, .crossDeviceInVulkan⟩]

/-- Checks the execution-scope operand at `index`. -/
def checkExecutionScope (d : Declarations) (i : Instruction) (index : Nat) : Verdict := do
  match ← d.scopeOperand i index .executionScope with
  | none => return ()
  | some scope => i.judge .executionScope (d.executionScopeFaults scope)

/-- Checks the memory-scope operand at `index`. -/
def checkMemoryScope (d : Declarations) (i : Instruction) (index : Nat) : Verdict := do
  match ← d.scopeOperand i index .memoryScope with
  | none => return ()
  | some scope => i.judge .memoryScope (d.memoryScopeFaults scope)

end SpirvAudit.Declarations
