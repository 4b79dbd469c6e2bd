/-
Modules, and the binaries that encode them.

A binary is a header of five words and then instructions to its end. The
header's first word is the magic number; if it stands there with its bytes in
reverse order, so do the bytes of every other word. The second word gives the
version and the fourth the bound of the ids; the other two are not looked at.
-/
import SpirvAudit.Instruction
import SpirvAudit.Version

namespace SpirvAudit

structure Module where
  version : Version
  bound : Word
  instructions : List Instruction
deriving DecidableEq, Repr

namespace Module

/-- The word a binary starts with. -/
def magic : Word := 0x07230203

/-- The number of words before the first instruction. -/
def headerSize : Nat := 5

/-- The instructions that a list of words encodes. The list starts at word `offset` of the binary. -/
def decodeBody (offset : Nat) : List Word → Except DecodeError (List Instruction)
  | [] => .ok []
  | first :: rest =>
    let count := Instruction.countOf first
    let tail := rest.take (count - 1)
    if count = 0 then .error (.zeroWordCount offset)
    else if tail.length + 1 < count then .error .incompleteInstruction
    else do
      let i ← Instruction.ofWords (Instruction.codeOf first) tail
      let is ← decodeBody (offset + count) (rest.drop (count - 1))
      return i :: is
termination_by ws => ws.length

/-- The module with this header and body. -/
def ofParts (version bound : Word) (body : List Word) : Except DecodeError Module := do
  let instructions ← decodeBody headerSize body
  return { version := .ofWord version, bound, instructions }

/-- The module that a binary encodes, whichever its byte order. -/
def ofWords : List Word → Except DecodeError Module
  | first :: version :: _ :: bound :: _ :: body =>
    if first = magic then ofParts version bound body
    else if first.swap = magic then ofParts version.swap bound.swap (body.map Word.swap)
    else .error .wrongHeader
  | _ => .error .missingHeader

/-- The module that the bytes of a binary encode. -/
def ofBytes (bytes : List UInt8) : Except DecodeError Module :=
  match Word.listOfBytes? bytes with
  | some ws => ofWords ws
  | none => .error .incompleteWord

/-- The words of the instructions, without a header. -/
def encodeBody (is : List Instruction) : List Word := is.flatMap (·.encode)

end Module

end SpirvAudit
