/-
Atomics.

Every atomic starts with a pointer, a memory scope and memory semantics. What
it works on is a scalar of the class that its opcode calls for: the type of
its result, or without a result the type the pointer points to.
-/
import SpirvAudit.Sync.ScopeOperand
import SpirvAudit.Sync.SemanticsOperand

namespace SpirvAudit

/-- Whether a type is a scalar type of the class. -/
def ScalarClass.accepts : ScalarClass → DeclaredType → Bool
  | .int, t => t.isInt
  | .float, t => t.isFloat
  | .intOrFloat, t => t.isInt || t.isFloat
  | .bool, t => t == .bool

/-- The scalars an atomic works on. A flag that is cleared may have any type. -/
def Opcode.scalarClass? : Opcode → Option ScalarClass
  | .opAtomicLoad | .opAtomicStore | .opAtomicExchange => some .intOrFloat
  | .opAtomicCompareExchange | .opAtomicCompareExchangeWeak | .opAtomicIIncrement
  | .opAtomicIDecrement | .opAtomicIAdd | .opAtomicISub | .opAtomicSMin | .opAtomicUMin
  | .opAtomicSMax | .opAtomicUMax | .opAtomicAnd | .opAtomicOr | .opAtomicXor => some .int
  | .opAtomicFMinEXT | .opAtomicFMaxEXT | .opAtomicFAddEXT => some .float
  | .opAtomicFlagTestAndSet => some .bool
  | _ => none

namespace Declarations

/-- The type that the pointer of an atomic points to. -/
def pointee (d : Declarations) (i : Instruction) : Except Violation Id := do
  let pointer ← i.required 0 .pointer
  match d.valueType? pointer with
  | some (.pointer _ pointee) => return pointee
  | _ => .error (i.violation .pointer .notPointer)

/-- Checks the type of the scalar that an atomic works on. A flag is tested through a pointer to
any type. -/
def checkScalar (d : Declarations) (i : Instruction) (scalar : ScalarClass) (pointee : Id) :
    Verdict := do
  let subject := if i.resultType?.isSome then Subject.resultType else .pointer
  let id := i.resultType?.getD pointee
  let type := d.type? id
  i.judge subject [⟨!type.any scalar.accepts, .notScalar scalar⟩]
  i.judge .pointer [⟨id != pointee && scalar != .bool, .pointeeMismatch⟩]
  i.judge subject [⟨type.any (·.isIntOfWidth 64) && !d.has .int64Atomics, .int64NotEnabled⟩]

/-- Checks the semantics operands of an atomic. A compare-exchange has two. -/
def checkAtomicSemantics (d : Declarations) (i : Instruction) : Verdict := do
  d.checkSemantics i 2 1
  if i.opcode.isCompareExchange then
    d.checkSemantics i 3 1

/-- Checks an instruction with the operands of an atomic. -/
def checkAtomic (d : Declarations) (i : Instruction) : Verdict := do
  let pointee ← d.pointee i
  i.opcode.scalarClass?.forM fun scalar => d.checkScalar i scalar pointee
  d.checkMemoryScope i 1
  d.checkAtomicSemantics i

end Declarations

end SpirvAudit
