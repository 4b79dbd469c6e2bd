/-
Words: the 32-bit units a SPIR-V binary is made of, and their bytes.

A word is stored low byte first. A binary written in the other byte order is
the same binary with the four bytes of each word reversed (`Word.swap`).
Bytes are taken and put together by division and remainder, so facts about
them are facts about naturals.
-/
namespace SpirvAudit

/-- A word of a SPIR-V binary. -/
abbrev Word := UInt32

namespace Word

/-- The word with these bytes, low byte first. -/
def ofBytes (a b c d : UInt8) : Word :=
  UInt32.ofNat (a.toNat + 256 * b.toNat + 65536 * c.toNat + 16777216 * d.toNat)

/-- Byte `k` of a word, counted from the low end. -/
def byte (w : Word) (k : Nat) : UInt8 := UInt8.ofNat (w.toNat >>> (8 * k))

/-- The four bytes of a word, low byte first. -/
def bytes (w : Word) : List UInt8 := [w.byte 0, w.byte 1, w.byte 2, w.byte 3]

/-- The word with its bytes in reverse order. -/
def swap (w : Word) : Word := ofBytes (w.byte 3) (w.byte 2) (w.byte 1) (w.byte 0)

/-- The words packed in a list of bytes, or `none` if the last one is incomplete. -/
def listOfBytes? : List UInt8 → Option (List Word)
  | [] => some []
  | a :: b :: c :: d :: rest => (listOfBytes? rest).map (ofBytes a b c d :: ·)
  | _ => none

theorem length_bytes (w : Word) : w.bytes.length = 4 := rfl

theorem toNat_byte (w : Word) (k : Nat) : (w.byte k).toNat = w.toNat >>> (8 * k) % 256 := by
  simp [byte]

theorem toNat_ofBytes (a b c d : UInt8) :
    (ofBytes a b c d).toNat = a.toNat + 256 * b.toNat + 65536 * c.toNat + 16777216 * d.toNat := by
  have := a.toNat_lt; have := b.toNat_lt; have := c.toNat_lt; have := d.toNat_lt
  simp only [ofBytes, UInt32.toNat_ofNat']
  omega

theorem byte_ofBytes (a b c d : UInt8) :
    (ofBytes a b c d).byte 0 = a ∧ (ofBytes a b c d).byte 1 = b ∧
      (ofBytes a b c d).byte 2 = c ∧ (ofBytes a b c d).byte 3 = d := by
  have := a.toNat_lt; have := b.toNat_lt; have := c.toNat_lt; have := d.toNat_lt
  simp only [← UInt8.toNat_inj, toNat_byte, toNat_ofBytes]
  omega

@[simp] theorem bytes_ofBytes (a b c d : UInt8) : (ofBytes a b c d).bytes = [a, b, c, d] := by
  obtain ⟨ha, hb, hc, hd⟩ := byte_ofBytes a b c d
  simp only [bytes, ha, hb, hc, hd]

@[simp] theorem ofBytes_byte (w : Word) : ofBytes (w.byte 0) (w.byte 1) (w.byte 2) (w.byte 3) = w := by
  have := w.toNat_lt
  simp only [← UInt32.toNat_inj, toNat_ofBytes, toNat_byte]
  omega

@[simp] theorem swap_swap (w : Word) : w.swap.swap = w := by
  obtain ⟨h0, h1, h2, h3⟩ := byte_ofBytes (w.byte 3) (w.byte 2) (w.byte 1) (w.byte 0)
  rw [swap, swap, h0, h1, h2, h3, ofBytes_byte]

theorem bytes_swap (w : Word) : w.swap.bytes = w.bytes.reverse := by
  rw [swap, bytes_ofBytes]
  rfl

/-- Reading the bytes of words gives the words back. -/
theorem listOfBytes?_flatMap_bytes (ws : List Word) : listOfBytes? (ws.flatMap bytes) = some ws := by
  induction ws with
  | nil => rfl
  | cons w ws ih => simp [bytes, listOfBytes?, ih]

end Word

end SpirvAudit
