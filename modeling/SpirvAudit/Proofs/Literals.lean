/-
Literal strings against the bytes of their words.

A literal is spelled by the bytes up to the first zero byte of its words, and
ends with the word that this byte is in (`Spells`). The decoder counts the words
from the number of these bytes. A word has four bytes, and the last word of a
literal has less than four before its zero byte, so the count is right also where
the text fills its words and the zero byte has a word of its own
(`decode?_append_cons`). Where a string is packed into words, its zero bytes are
those after it, since UTF-8 has a zero byte for the zero character only; so it is
read back, whatever words follow.
-/
import Mathlib
import SpirvAudit.Instruction

namespace SpirvAudit

namespace Literal

variable {ws full rest : List Word} {last : Word} {s : String} {l text after : List UInt8}

/-! ## The bytes of a string -/

/-- The bytes of a string in UTF-8. -/
def utf8 (s : String) : List UInt8 := s.toUTF8.data.toList

theorem utf8_eq_flatMap (s : String) : utf8 s = s.toList.flatMap String.utf8EncodeChar := by
  rw [utf8, String.toUTF8_eq_toByteArray, ← String.utf8Encode_toList, List.utf8Encode,
    List.toList_data_toByteArray]

theorem fromUTF8?_eq_some_iff : String.fromUTF8? ⟨l.toArray⟩ = some s ↔ l = utf8 s := by
  rw [String.fromUTF8?]
  constructor
  · intro h
    split at h
    · cases h
      rfl
    · cases h
  · rintro rfl
    have hvalid : (⟨(utf8 s).toArray⟩ : ByteArray) = s.toByteArray := rfl
    rw [hvalid, dif_pos s.isValidUTF8]
    rfl

/-- Only the zero character has a zero byte. -/
theorem zero_mem_utf8EncodeChar_iff {c : Char} : 0 ∈ String.utf8EncodeChar c ↔ c = '\x00' := by
  have hchar : c = '\x00' ↔ c.val.toNat = 0 := by
    rw [← Char.val_inj, ← UInt32.toNat_inj]
    rfl
  have hbyte : ∀ n : Nat, (0 : UInt8) = UInt8.ofNat n ↔ n % 256 = 0 := by
    intro n
    rw [← UInt8.toNat_inj, UInt8.toNat_ofNat']
    exact eq_comm
  rw [hchar, String.utf8EncodeChar.eq_1]
  -- One byte stands for itself; the bytes of a longer encoding have a high bit set.
  repeat' split
  all_goals
    simp only [List.mem_cons, List.not_mem_nil, or_false, hbyte]
    omega

theorem zero_mem_utf8_iff : 0 ∈ utf8 s ↔ '\x00' ∈ s.toList := by
  simp only [utf8_eq_flatMap, List.mem_flatMap, zero_mem_utf8EncodeChar_iff, exists_eq_right]

/-! ## The bytes of words -/

theorem length_flatMap_bytes (ws : List Word) : (ws.flatMap Word.bytes).length = 4 * ws.length := by
  induction ws with
  | nil => rfl
  | cons w ws ih =>
    rw [List.flatMap_cons, List.length_append, Word.length_bytes, ih, List.length_cons]
    omega

theorem textBytes_of_flatMap_bytes (h : ws.flatMap Word.bytes = text ++ 0 :: after) (htext : 0 ∉ text) :
    textBytes ws = text := by
  rw [textBytes, h, List.takeWhile_append_of_pos]
  · simp
  · intro b hb
    simpa using fun hzero : b = 0 => htext (hzero ▸ hb)

/-- Words with a zero byte have a first word with one. -/
theorem exists_eq_append_cons (h : 0 ∈ ws.flatMap Word.bytes) :
    ∃ full last rest, ws = full ++ last :: rest ∧ 0 ∉ full.flatMap Word.bytes ∧ 0 ∈ Word.bytes last := by
  induction ws with
  | nil => simp at h
  | cons w ws ih =>
    by_cases hw : 0 ∈ w.bytes
    · exact ⟨[], w, ws, rfl, by simp, hw⟩
    · rw [List.flatMap_cons, List.mem_append, or_iff_right hw] at h
      obtain ⟨full, last, rest, rfl, hfull, hlast⟩ := ih h
      refine ⟨w :: full, last, rest, rfl, ?_, hlast⟩
      rw [List.flatMap_cons, List.mem_append, not_or]
      exact ⟨hw, hfull⟩

/-! ## Reading -/

/-- The words spell the string: it is made of the bytes before the first zero byte, and `rest` are the words
after the one that this byte is in. -/
structure Spells (ws : List Word) (s : String) (rest : List Word) : Prop where
  text : ∃ after, ws.flatMap Word.bytes = utf8 s ++ 0 :: after
  zero_notMem : 0 ∉ utf8 s
  ends : ∃ full last, ws = full ++ last :: rest ∧ 0 ∉ full.flatMap Word.bytes ∧ 0 ∈ Word.bytes last

/-- Words that no zero byte ends are no literal. -/
theorem decode?_of_zero_notMem (h : 0 ∉ ws.flatMap Word.bytes) : decode? ws = none := by
  have htext : textBytes ws = ws.flatMap Word.bytes := by
    refine List.takeWhile_eq_self_iff.mpr fun b hb => ?_
    simpa using fun hzero : b = 0 => h (hzero ▸ hb)
  have hused : ¬ (textBytes ws).length / 4 + 1 ≤ ws.length := by
    rw [htext, length_flatMap_bytes]
    omega
  exact if_neg hused

/-- A literal ends with the first word that has a zero byte. -/
theorem decode?_append_cons (hfull : 0 ∉ full.flatMap Word.bytes) (hlast : 0 ∈ last.bytes) :
    decode? (full ++ last :: rest) =
      (String.fromUTF8? ⟨(textBytes (full ++ last :: rest)).toArray⟩).map (·, rest) := by
  obtain ⟨front, back, hsplit, hfront⟩ := List.eq_append_cons_of_mem hlast
  have hbytes : (full ++ last :: rest).flatMap Word.bytes =
      (full.flatMap Word.bytes ++ front) ++ 0 :: (back ++ rest.flatMap Word.bytes) := by
    simp [hsplit]
  have htext : textBytes (full ++ last :: rest) = full.flatMap Word.bytes ++ front := by
    refine textBytes_of_flatMap_bytes hbytes ?_
    rw [List.mem_append, not_or]
    exact ⟨hfull, hfront⟩
  -- The zero byte is one of the four bytes of its word.
  have hlength : front.length < 4 := by
    have := last.length_bytes
    rw [hsplit, List.length_append, List.length_cons] at this
    omega
  have hused : (textBytes (full ++ last :: rest)).length / 4 + 1 = full.length + 1 := by
    rw [htext, List.length_append, length_flatMap_bytes]
    omega
  have hle : full.length + 1 ≤ (full ++ last :: rest).length := by
    rw [List.length_append, List.length_cons]
    omega
  have hdrop : (full ++ last :: rest).drop (full.length + 1) = rest := by
    simp [List.drop_append]
  simp only [decode?, hused, if_pos hle, hdrop]

theorem decode?_eq_some_iff : decode? ws = some (s, rest) ↔ Spells ws s rest := by
  constructor
  · intro h
    have hzero : 0 ∈ ws.flatMap Word.bytes := by
      by_contra hzero
      rw [decode?_of_zero_notMem hzero] at h
      cases h
    obtain ⟨text, after, htext, hnotMem⟩ := List.eq_append_cons_of_mem hzero
    obtain ⟨full, last, rest', rfl, hfull, hlast⟩ := exists_eq_append_cons hzero
    rw [decode?_append_cons hfull hlast, textBytes_of_flatMap_bytes htext hnotMem] at h
    obtain ⟨s', hs', hpair⟩ := Option.map_eq_some_iff.mp h
    cases hpair
    rw [fromUTF8?_eq_some_iff] at hs'
    subst hs'
    exact ⟨⟨after, htext⟩, hnotMem, full, last, rfl, hfull, hlast⟩
  · intro h
    obtain ⟨after, htext⟩ := h.text
    obtain ⟨full, last, rfl, hfull, hlast⟩ := h.ends
    rw [decode?_append_cons hfull hlast, textBytes_of_flatMap_bytes htext h.zero_notMem,
      fromUTF8?_eq_some_iff.mpr rfl, Option.map_some]

theorem decode?_eq_none_iff : decode? ws = none ↔ ∀ s rest, ¬ Spells ws s rest := by
  simp only [Option.eq_none_iff_forall_ne_some, Prod.forall, ne_eq, decode?_eq_some_iff]

/-! ## Packed strings -/

/-- Packed bytes are followed by zero bytes, at least one, that fill the last word. -/
theorem flatMap_bytes_pack (l : List UInt8) :
    (pack l).flatMap Word.bytes = l ++ List.replicate (4 - l.length % 4) 0 := by
  fun_induction pack l with
  | case5 a b c d rest ih =>
    rw [List.flatMap_cons, Word.bytes_ofBytes, ih]
    have hlength : (a :: b :: c :: d :: rest).length % 4 = rest.length % 4 := by
      simp only [List.length_cons]
      omega
    rw [hlength]
    rfl
  | _ => simp [List.replicate]

/-- Packed bytes without a zero byte are read back from what other words may follow. -/
theorem textBytes_pack_append (h : 0 ∉ l) (rest : List Word) : textBytes (pack l ++ rest) = l := by
  have hlength : 4 - l.length % 4 = (3 - l.length % 4) + 1 := by
    have := Nat.mod_lt l.length (by decide : 0 < 4)
    omega
  have hbytes : (pack l ++ rest).flatMap Word.bytes =
      l ++ 0 :: (List.replicate (3 - l.length % 4) 0 ++ rest.flatMap Word.bytes) := by
    rw [List.flatMap_append, flatMap_bytes_pack, hlength, List.replicate_succ]
    simp
  exact textBytes_of_flatMap_bytes hbytes h

/-- A packed string is read back, and the words after it are left over. -/
theorem decode?_encode_append (h : '\x00' ∉ s.toList) (rest : List Word) :
    decode? (encode s ++ rest) = some (s, rest) := by
  have htext : textBytes (encode s ++ rest) = utf8 s := textBytes_pack_append (mt zero_mem_utf8_iff.mp h) rest
  have hused : (utf8 s).length / 4 + 1 = (encode s).length := (length_pack (utf8 s)).symm
  have hle : (encode s).length ≤ (encode s ++ rest).length := by
    rw [List.length_append]
    omega
  simp only [decode?, htext, hused, if_pos hle, List.drop_left, fromUTF8?_eq_some_iff.mpr rfl, Option.map_some]

end Literal

namespace Instruction

open Literal

variable {i : Instruction} {index : Nat} {s : String}

/-! ## String operands -/

theorem string_of_le (h : index ≤ i.operands.length) : i.string index =
    (decode? (i.operands.drop index)).elim (.error .malformedString) fun literal => .ok literal.1 := by
  rw [string, if_neg (Nat.not_lt.mpr h)]
  cases decode? (i.operands.drop index) <;> rfl

/-- The operands end before the index. -/
theorem string_of_lt (h : i.operands.length < index) : i.string index = .error (.missingOperand i.opcode) :=
  if_pos h

theorem string_eq_ok_iff : i.string index = .ok s ↔
    index ≤ i.operands.length ∧ ∃ rest, Spells (i.operands.drop index) s rest := by
  rcases Nat.lt_or_ge i.operands.length index with hlt | hle
  · simp [string_of_lt hlt, Nat.not_le.mpr hlt]
  · simp only [string_of_le hle, hle, true_and, ← decode?_eq_some_iff]
    cases decode? (i.operands.drop index) with
    | none => simp
    | some literal => simp [Prod.ext_iff]

theorem string_eq_malformedString_iff : i.string index = .error .malformedString ↔
    index ≤ i.operands.length ∧ ∀ s rest, ¬ Spells (i.operands.drop index) s rest := by
  rw [← decode?_eq_none_iff]
  rcases Nat.lt_or_ge i.operands.length index with hlt | hle
  · simp [string_of_lt hlt, Nat.not_le.mpr hlt]
  · rw [string_of_le hle]
    cases decode? (i.operands.drop index) <;> simp [hle]

end Instruction

namespace Literal

/-- **A literal is read exactly where words spell one, and packing is undone.** Words are read as a string
and the words left over if and only if they have a zero byte, the bytes before the first one are the
string in UTF-8, and the words left over are those after the word with this byte. Any other words are
rejected, and as an operand with the error for malformed strings. A string without zero characters is
packed with at least one zero byte after it, up to a whole word, and is read back from in front of any
words. -/
theorem decode?_spells :
    (∀ ws s rest, decode? ws = some (s, rest) ↔ Spells ws s rest) ∧
    (∀ ws, decode? ws = none ↔ ∀ s rest, ¬ Spells ws s rest) ∧
    (∀ (i : Instruction) (index : Nat),
      (∀ s, i.string index = .ok s ↔
        index ≤ i.operands.length ∧ ∃ rest, Spells (i.operands.drop index) s rest) ∧
      (i.string index = .error .malformedString ↔
        index ≤ i.operands.length ∧ ∀ s rest, ¬ Spells (i.operands.drop index) s rest)) ∧
    ∀ s : String, '\x00' ∉ s.toList →
      (encode s).flatMap Word.bytes = utf8 s ++ List.replicate (4 - (utf8 s).length % 4) 0 ∧
      ∀ rest, decode? (encode s ++ rest) = some (s, rest) :=
  ⟨fun _ _ _ => decode?_eq_some_iff, fun _ => decode?_eq_none_iff,
    fun _ _ => ⟨fun _ => Instruction.string_eq_ok_iff, Instruction.string_eq_malformedString_iff⟩,
    fun s h => ⟨flatMap_bytes_pack (utf8 s), decode?_encode_append h⟩⟩

/-- Four letters fill a word, so the zero byte has one of its own. -/
theorem decode?_spells_abcd :
    encode "abcd" = [0x64636261, 0] ∧ ∀ rest, decode? ([0x64636261, 0] ++ rest) = some ("abcd", rest) := by
  have hencode : encode "abcd" = [0x64636261, 0] := by cbv
  exact ⟨hencode, hencode ▸ (decode?_spells.2.2.2 "abcd" (by decide)).2⟩

end Literal

end SpirvAudit
