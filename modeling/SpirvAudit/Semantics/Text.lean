/-
The text of a memory-semantics word: the names of the flags that are set,
lowest bit first, then the bits that are no flag as one hexadecimal number.
-/
import SpirvAudit.Semantics

namespace SpirvAudit.Semantics

/-- A word in lower-case hexadecimal. -/
def hex (w : Word) : String := "0x" ++ String.ofList (Nat.toDigits 16 w.toNat)

/-- The names of the flags that are set, and the bits that are no flag. -/
def parts (s : Semantics) : List String :=
  s.flags.map (·.name) ++ if s.unknown = ∅ then [] else [hex s.unknown.raw]

/-- The text of a word, `empty()` if no bit is set. -/
def text (s : Semantics) : String :=
  if s.parts.isEmpty then "empty()" else " | ".intercalate s.parts

end SpirvAudit.Semantics
