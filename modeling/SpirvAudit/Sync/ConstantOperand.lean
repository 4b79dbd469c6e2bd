/-
Operands that have to name a constant: the scopes and the memory semantics of
atomics and barriers.

Such an operand is the id of a 32-bit int. In a shader it has to be a
constant, or, where cooperative matrices are in use, one whose value is
chosen at specialization. A value that is not known is not looked into.
-/
import SpirvAudit.Declarations.Fold

namespace SpirvAudit.Declarations

/-- What is wrong with an operand whose value is not known. -/
def runtimeFaults (d : Declarations) (id : Id) (area : ConstantArea) : List Fault := [
  ⟨d.has .shader && !d.has .cooperativeMatrixNV, .notConstant area⟩,
  ⟨d.has .shader && !d.isConstant id, .notConstantInstruction area⟩]

/-- The value of an operand, or `none` if it may stay unknown. -/
def constantOperand (d : Declarations) (i : Instruction) (index : Nat) (subject : Subject)
    (area : ConstantArea) : Except Violation (Option Word) := do
  let id ← i.required index subject
  match d.fold id with
  | .notInt32 => .error (i.violation subject (.notInt32 area))
  | .runtime => do
    i.judge subject (d.runtimeFaults id area)
    return none
  | .constant value => return some value

end SpirvAudit.Declarations
