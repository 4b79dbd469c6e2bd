/-
Folding an id to the 32-bit constant it names.

An id folds if its type is a 32-bit int and the module fixes its value: by a
constant, not one whose value is chosen at specialization. A constant's value
is its first word, and that of a null constant is zero.
-/
import SpirvAudit.Declarations

namespace SpirvAudit

/-- What is known of an id as a 32-bit int. -/
inductive Folded
  /-- The id is not defined, or is not a 32-bit int. -/
  | notInt32
  /-- The value is known only at run time or after specialization. -/
  | runtime
  | constant (value : Word)
deriving DecidableEq, Repr

namespace Folded

def isInt32 : Folded → Bool
  | .notInt32 => false
  | _ => true

def isConstant : Folded → Bool
  | .constant _ => true
  | _ => false

/-- The value, or zero if it is not known. -/
def value : Folded → Word
  | .constant value => value
  | _ => 0

end Folded

namespace Definition

/-- The value that a definition of a 32-bit int gives to its id. -/
def folded (x : Definition) : Folded :=
  if !x.opcode.isConstant || x.opcode.isSpecConstant then .runtime
  else if x.opcode = .opConstantNull then .constant 0
  else
    match x.literals with
    | [] => .runtime
    | value :: _ => .constant value

theorem isInt32_folded (x : Definition) : x.folded.isInt32 = true := by
  rw [folded]
  repeat' split
  all_goals rfl

end Definition

namespace Declarations

/-- What is known of an id as a 32-bit int. -/
def fold (d : Declarations) (id : Id) : Folded :=
  match d.definition? id with
  | none => .notInt32
  | some x => if (d.valueType? id).any (·.isIntOfWidth 32) then x.folded else .notInt32

theorem isInt32_fold_iff {d : Declarations} {id : Id} :
    (d.fold id).isInt32 = true ↔ ∃ signed, d.valueType? id = some (.int 32 signed) := by
  rw [fold]
  cases h : d.definition? id with
  | none => simp [Folded.isInt32, valueType?, h]
  | some x =>
    cases ht : d.valueType? id with
    | none => simp [Folded.isInt32]
    | some t =>
      by_cases hw : t.isIntOfWidth 32 = true
      · simpa [hw, Definition.isInt32_folded] using DeclaredType.isIntOfWidth_iff.mp hw
      · have hn := mt DeclaredType.isIntOfWidth_iff.mpr hw
        simpa [hw, Folded.isInt32] using hn

end Declarations

end SpirvAudit
