/-
Instructions, and the words that encode them.

The first word of an instruction holds its length in words and its opcode.
The type of the result and the id of the result follow, if the opcode has
them, and then the operands. Operands are counted from the word after the
ids. An instruction that is `WellFormed` has exactly one encoding, which
`ofWords` reads back.
-/
import SpirvAudit.DecodeError
import SpirvAudit.Literal

namespace SpirvAudit

/-- The name of a type, a constant or a value in a module. -/
abbrev Id := Word

def Id.text (id : Id) : String := "%" ++ toString id.toNat

structure Instruction where
  opcode : Opcode
  resultType? : Option Id
  result? : Option Id
  operands : List Word
deriving DecidableEq, Repr

namespace Instruction

def operand? (i : Instruction) (index : Nat) : Option Word := i.operands[index]?

/-- The literal string that starts at an operand. At the end of the operands
there is no string; past it there is no operand either. -/
def string (i : Instruction) (index : Nat) : Except DecodeError String :=
  if i.operands.length < index then .error (.missingOperand i.opcode)
  else
    match Literal.decode? (i.operands.drop index) with
    | some (text, _) => .ok text
    | none => .error .malformedString

/-! ## Reading -/

/-- The length in words that the first word of an instruction gives. -/
def countOf (first : Word) : Nat := first.toNat / 65536

/-- The code of the opcode that the first word of an instruction gives. -/
def codeOf (first : Word) : Nat := first.toNat % 65536

/-- Takes an id off the words, if one is expected there. -/
def takeId? : (expected : Bool) → List Word → Option (Option Id × List Word)
  | false, ws => some (none, ws)
  | true, id :: ws => some (some id, ws)
  | true, [] => none

/-- The instruction with this opcode and these words after the first one. -/
def ofWords (code : Nat) (ws : List Word) : Except DecodeError Instruction :=
  match Opcode.ofCode? code with
  | none => .error (.unknownOpcode code)
  | some opcode =>
    match takeId? opcode.hasResultType ws with
    | none => .error (.missingOperand opcode)
    | some (resultType?, ws) =>
      match takeId? opcode.hasResult ws with
      | none => .error (.missingOperand opcode)
      | some (result?, operands) => .ok { opcode, resultType?, result?, operands }

/-! ## Writing -/

/-- The words after the first one. -/
def tail (i : Instruction) : List Word := i.resultType?.toList ++ i.result?.toList ++ i.operands

/-- The length in words. -/
def wordCount (i : Instruction) : Nat := i.tail.length + 1

def encode (i : Instruction) : List Word :=
  UInt32.ofNat (65536 * i.wordCount + i.opcode.code) :: i.tail

/-- The ids are the ones the opcode has, and the length fits its half of the first word. -/
structure WellFormed (i : Instruction) : Prop where
  resultType : i.resultType?.isSome = i.opcode.hasResultType
  result : i.result?.isSome = i.opcode.hasResult
  wordCount_lt : i.wordCount < 65536

instance (i : Instruction) : Decidable i.WellFormed :=
  decidable_of_iff
    (i.resultType?.isSome = i.opcode.hasResultType ∧ i.result?.isSome = i.opcode.hasResult ∧ i.wordCount < 65536)
    ⟨fun ⟨resultType, result, wordCount_lt⟩ => { resultType, result, wordCount_lt },
      fun h => ⟨h.resultType, h.result, h.wordCount_lt⟩⟩

theorem length_encode (i : Instruction) : i.encode.length = i.wordCount := rfl

end Instruction

end SpirvAudit
