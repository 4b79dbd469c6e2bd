/-
What an id stands for: the types that instructions declare, and the record
kept of the instruction that defines an id.

Only some types are looked into. Vectors, structures and the like are one
`other` type: no rule asks what they consist of. A type declaration that ends
before an operand its type needs declares no type, though it still defines
its id.
-/
import SpirvAudit.Instruction

namespace SpirvAudit

/-- A declared type, as far as a rule looks into it. -/
inductive DeclaredType
  | void
  | bool
  | int (width : Word) (signed : Bool)
  | float (width : Word)
  | pointer (storageClass : Word) (pointee : Id)
  | other
deriving DecidableEq, Repr

namespace DeclaredType

/-- The type that an instruction declares, if it declares one. -/
def ofInstruction? (i : Instruction) : Option DeclaredType :=
  match i.opcode with
  | .opTypeVoid => some .void
  | .opTypeBool => some .bool
  | .opTypeInt => do return .int (← i.operand? 0) ((← i.operand? 1) != 0)
  | .opTypeFloat => do return .float (← i.operand? 0)
  | .opTypePointer => do return .pointer (← i.operand? 0) (← i.operand? 1)
  | .opTypeVector | .opTypeMatrix | .opTypeImage | .opTypeSampler | .opTypeSampledImage
  | .opTypeArray | .opTypeRuntimeArray | .opTypeStruct | .opTypeOpaque | .opTypeFunction =>
    some .other
  | _ => none

def isInt : DeclaredType → Bool
  | .int .. => true
  | _ => false

def isFloat : DeclaredType → Bool
  | .float _ => true
  | _ => false

/-- Whether the type is an int of this width, signed or not. -/
def isIntOfWidth (width : Word) : DeclaredType → Bool
  | .int w _ => w == width
  | _ => false

theorem isIntOfWidth_iff {width : Word} {t : DeclaredType} :
    t.isIntOfWidth width = true ↔ ∃ signed, t = .int width signed := by
  cases t <;> simp [isIntOfWidth]

end DeclaredType

/-- The record of the instruction that defines an id. -/
@[ext] structure Definition where
  opcode : Opcode
  resultType? : Option Id
  /-- The operands of a constant. No other instruction's operands are kept. -/
  literals : List Word
  /-- The type the instruction declares. -/
  type? : Option DeclaredType
deriving DecidableEq, Repr

namespace Definition

def ofInstruction (i : Instruction) : Definition where
  opcode := i.opcode
  resultType? := i.resultType?
  literals := if i.opcode.isConstant then i.operands else []
  type? := DeclaredType.ofInstruction? i

end Definition

end SpirvAudit
