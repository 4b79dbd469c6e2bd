/-
Versions of the SPIR-V specification, as a module's header declares them.

The header word is laid out as `0 | major | minor | 0`, one byte each from
high to low. The two outer bytes say nothing and are dropped on reading.
-/
import SpirvAudit.Word

namespace SpirvAudit

/-- A version of the SPIR-V specification. -/
structure Version where
  major : UInt8
  minor : UInt8
deriving DecidableEq, Repr

namespace Version

/-- The first version, which stands where none is given. -/
instance : Inhabited Version := ⟨⟨1, 0⟩⟩

/-- The version declared by a header word. -/
def ofWord (w : Word) : Version where
  major := w.byte 2
  minor := w.byte 1

/-- The header word that declares a version. -/
def toWord (v : Version) : Word := Word.ofBytes 0 v.minor v.major 0

/-- Major versions decide; minor versions break the tie. -/
instance : Ord Version where
  compare a b := (compare a.major b.major).then (compare a.minor b.minor)

instance : LT Version := ltOfOrd

instance : LE Version := leOfOrd

instance : ToString Version where
  toString v := toString v.major.toNat ++ "." ++ toString v.minor.toNat

theorem ofWord_toWord (v : Version) : ofWord v.toWord = v := by
  obtain ⟨-, hminor, hmajor, -⟩ := Word.byte_ofBytes 0 v.minor v.major 0
  simp only [ofWord, toWord, hminor, hmajor]

theorem toNat_toWord_ofWord (w : Word) :
    (ofWord w).toWord.toNat = w.toNat / 256 % 65536 * 256 := by
  simp only [toWord, ofWord, Word.toNat_ofBytes, Word.toNat_byte]
  simp
  omega

theorem lt_iff {a b : Version} :
    a < b ↔ a.major < b.major ∨ a.major = b.major ∧ a.minor < b.minor := by
  change (compare a.major b.major).then (compare a.minor b.minor) = .lt ↔ _
  rw [Ordering.then_eq_lt, Std.compare_eq_lt, Std.compare_eq_lt, Std.compare_eq_iff_eq]

end Version

end SpirvAudit
