/-
Gating: an opcode or a value may be used only if a capability it depends on
is declared.

The instructions of the module level have operands whose values are gated;
`Opcode.gates` says where they stand. A gated value has to be one that the
grammar knows. The operand of `OpCapability` has to be known as well, but
declaring a capability needs no other.
-/
import SpirvAudit.Declarations
import SpirvAudit.OperandKind

namespace SpirvAudit

/-- An operand whose value is gated. -/
structure Gate where
  index : Nat
  kind : OperandKind
  subject : Subject

/-- The gated operands of an opcode. -/
def Opcode.gates : Opcode → List Gate
  | .opMemoryModel => [⟨0, .addressingModel, .addressingModel⟩, ⟨1, .memoryModel, .memoryModel⟩]
  | .opEntryPoint => [⟨0, .executionModel, .executionModel⟩]
  | .opExecutionMode | .opExecutionModeId => [⟨1, .executionMode, .mode⟩]
  | .opTypePointer | .opVariable => [⟨0, .storageClass, .storageClass⟩]
  | .opTypeImage => [⟨1, .dim, .dim⟩]
  | .opDecorate | .opDecorateId => [⟨1, .decoration, .decoration⟩]
  | .opMemberDecorate => [⟨2, .decoration, .decoration⟩]
  | _ => []

/-- The row of the value that an operand holds. -/
def Instruction.enumerant (i : Instruction) (g : Gate) : Except Violation Enumerant := do
  let code ← i.required g.index g.subject
  match g.kind.find? code.toNat with
  | some row => return row
  | none => .error (i.violation g.subject (.unknownValue code))

/-- Checks that `OpCapability` declares a capability that is known. -/
def Instruction.checkCapability (i : Instruction) : Verdict := do
  discard (i.enumerant ⟨0, .capability, .capability⟩)

namespace Declarations

/-- Checks the capabilities that the opcode depends on. -/
def checkOpcode (d : Declarations) (i : Instruction) : Verdict :=
  i.judge .whole [⟨!d.enables i.opcode.requires, .opcodeNotEnabled i.opcode.requires⟩]

/-- Checks the value of a gated operand. -/
def checkGate (d : Declarations) (i : Instruction) (g : Gate) : Verdict := do
  let row ← i.enumerant g
  i.judge g.subject [⟨!d.enables row.capabilities, .valueNotEnabled row.name row.capabilities⟩]

/-- Checks the gated operands of an instruction, in their order. -/
def checkGates (d : Declarations) (i : Instruction) : Verdict :=
  i.opcode.gates.forM (d.checkGate i)

end Declarations

end SpirvAudit
