/-
Why a binary is not a sequence of instructions.
-/
import SpirvAudit.Opcode

namespace SpirvAudit

/-- Why a binary, or a literal string in it, cannot be read. -/
inductive DecodeError
  | missingHeader
  | wrongHeader
  | incompleteWord
  /-- The word at `offset` heads an instruction of no words. -/
  | zeroWordCount (offset : Nat)
  | incompleteInstruction
  | unknownOpcode (code : Nat)
  | missingOperand (opcode : Opcode)
  | malformedString
deriving DecidableEq, Repr

namespace DecodeError

/-- The name of the error, without its details. -/
def name : DecodeError → String
  | missingHeader => "MissingHeader"
  | wrongHeader => "WrongHeader"
  | incompleteWord => "IncompleteWord"
  | zeroWordCount _ => "InvalidWordCount"
  | incompleteInstruction => "IncompleteInstruction"
  | unknownOpcode _ => "UnknownOpcode"
  | missingOperand _ => "MissingOperand"
  | malformedString => "InvalidString"

/-- The name of the error with its details. -/
def detail : DecodeError → String
  | zeroWordCount offset => "InvalidWordCount \x7b offset: " ++ toString offset ++ " \x7d"
  | unknownOpcode code => "UnknownOpcode(" ++ toString code ++ ")"
  | missingOperand opcode => "MissingOperand(" ++ opcode.name ++ ")"
  | e => e.name

def message : DecodeError → String
  | missingHeader => "the SPIR-V binary is too short to contain a header"
  | wrongHeader => "the SPIR-V binary does not start with the magic number"
  | incompleteWord => "the length of the SPIR-V binary is not a multiple of 4 bytes"
  | zeroWordCount offset =>
    "the instruction at word " ++ toString offset ++ " has a word count of zero"
  | incompleteInstruction => "the last instruction extends past the end of the binary"
  | unknownOpcode code => "the opcode " ++ toString code ++ " is not known"
  | missingOperand opcode => "an Op" ++ opcode.name ++ " instruction is missing operands"
  | malformedString => "a literal string is malformed"

instance : ToString DecodeError := ⟨message⟩

end DecodeError

end SpirvAudit
