/-
Literal strings: UTF-8 packed into words, low byte first, ended by a zero
byte and filled up with zero bytes to a whole word.

A string that fills its last word takes one word more, for the zero byte.
`decode?` reads one off the front of a list of words; what follows the word
with the zero byte is left over, and the bytes after the zero byte in that
word are not looked at.
-/
import SpirvAudit.Word

namespace SpirvAudit.Literal

/-- The bytes of the words before the first zero byte. -/
def textBytes (ws : List Word) : List UInt8 := (ws.flatMap Word.bytes).takeWhile (· != 0)

/-- The string at the front of the words and the words after it, or `none` if
it does not end or is not UTF-8. -/
def decode? (ws : List Word) : Option (String × List Word) :=
  let text := textBytes ws
  let used := text.length / 4 + 1
  if used ≤ ws.length then (String.fromUTF8? ⟨text.toArray⟩).map (·, ws.drop used) else none

/-- The bytes, a zero byte, and zero bytes up to a whole word. -/
def pack : List UInt8 → List Word
  | [] => [Word.ofBytes 0 0 0 0]
  | [a] => [Word.ofBytes a 0 0 0]
  | [a, b] => [Word.ofBytes a b 0 0]
  | [a, b, c] => [Word.ofBytes a b c 0]
  | a :: b :: c :: d :: rest => Word.ofBytes a b c d :: pack rest

/-- The words that spell a string. -/
def encode (s : String) : List Word := pack s.toUTF8.data.toList

theorem length_pack (l : List UInt8) : (pack l).length = l.length / 4 + 1 := by
  fun_induction pack l with
  | case5 a b c d rest ih =>
    simp only [List.length_cons, ih]
    omega
  | _ => simp

end SpirvAudit.Literal
