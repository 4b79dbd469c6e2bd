/-
The byte order of a binary, and the form in which it is handed over.

A binary comes as words in either byte order, or as bytes. The magic number is
not the same read backwards, so at most one of the two orders fits a binary, and
turning every word around changes which one it is and nothing else: the words
that are decoded stay the same, and with them the offsets in errors and the text
of strings. Bytes are read low byte first, so the bytes of a binary in the other
order are those of the words turned around.
-/
import SpirvAudit.Audit
import SpirvAudit.Proofs.Encoding

namespace SpirvAudit

namespace Word

/-- The words with their bytes turned around are the same ones written high byte first. -/
theorem flatMap_bytes_map_swap (ws : List Word) :
    (ws.map swap).flatMap bytes = ws.flatMap fun w => w.bytes.reverse := by
  simp only [List.flatMap_map, bytes_swap]

@[simp] theorem map_swap_map_swap (ws : List Word) : (ws.map swap).map swap = ws := by
  simp [Function.comp_def]

/-- Bytes are words unless some are left over. -/
theorem listOfBytes?_eq_none_iff {bytes : List UInt8} : listOfBytes? bytes = none ↔ ¬ 4 ∣ bytes.length := by
  fun_induction listOfBytes? bytes with
  | case1 => simp
  | case2 a b c d rest ih =>
    rw [Option.map_eq_none_iff, ih]
    simp only [List.length_cons]
    omega
  | case3 bytes hnil hcons =>
    -- One, two or three bytes are left.
    match bytes, hnil, hcons with
    | [_], _, _ | [_, _], _, _ | [_, _, _], _, _ => simp
    | a :: b :: c :: d :: rest, _, hcons => exact absurd rfl (hcons a b c d rest)

end Word

namespace Module

/-! ## Words -/

theorem swap_magic_ne : magic.swap ≠ magic := by decide

/-- A header that is turned around is read with the other byte order. -/
theorem ofWords_cons_map_swap (first version x bound y : Word) (body : List Word) :
    ofWords ((first :: version :: x :: bound :: y :: body).map Word.swap) =
      ofWords (first :: version :: x :: bound :: y :: body) := by
  simp only [List.map_cons, ofWords, Word.swap_swap, Word.map_swap_map_swap]
  by_cases hmagic : first = magic
  · rw [hmagic, if_neg swap_magic_ne, if_pos rfl, if_pos rfl]
  · rw [if_neg hmagic, if_neg hmagic]

theorem ofWords_map_swap (ws : List Word) : ofWords (ws.map Word.swap) = ofWords ws := by
  match ws with
  | first :: version :: x :: bound :: y :: body => exact ofWords_cons_map_swap first version x bound y body
  | [] | [_] | [_, _] | [_, _, _] | [_, _, _, _] => rfl

/-! ## Bytes -/

theorem ofBytes_flatMap_bytes (ws : List Word) : ofBytes (ws.flatMap Word.bytes) = ofWords ws := by
  rw [ofBytes, Word.listOfBytes?_flatMap_bytes]

theorem ofBytes_flatMap_reverse_bytes (ws : List Word) :
    ofBytes (ws.flatMap fun w => w.bytes.reverse) = ofWords ws := by
  rw [← Word.flatMap_bytes_map_swap, ofBytes_flatMap_bytes, ofWords_map_swap]

/-- Words are never short of a byte. -/
theorem decodeBody_ne_incompleteWord {offset : Nat} {ws : List Word} :
    decodeBody offset ws ≠ .error .incompleteWord := by
  fun_induction decodeBody offset ws with
  | case1 => intro h; cases h
  | case2 => intro h; cases h
  | case3 => intro h; cases h
  | case4 offset first rest count tail hcount htail ih =>
    intro h
    cases hi : Instruction.ofWords (Instruction.codeOf first) tail with
    | ok i =>
      rw [hi, Except.ok_bind] at h
      cases his : decodeBody (offset + count) (rest.drop (count - 1)) with
      | ok is => rw [his] at h; cases h
      | error e => rw [his] at h; cases h; exact ih his
    | error e =>
      rw [hi] at h
      cases h
      unfold Instruction.ofWords at hi
      split at hi
      · cases hi
      split at hi
      · cases hi
      split at hi <;> cases hi

theorem ofParts_ne_incompleteWord {version bound : Word} {body : List Word} :
    ofParts version bound body ≠ .error .incompleteWord := by
  intro h
  rw [ofParts] at h
  cases his : decodeBody headerSize body with
  | ok is => rw [his] at h; cases h
  | error e => rw [his] at h; cases h; exact decodeBody_ne_incompleteWord his

theorem ofWords_ne_incompleteWord {ws : List Word} : ofWords ws ≠ .error .incompleteWord := by
  unfold ofWords
  split
  · split
    · exact ofParts_ne_incompleteWord
    split
    · exact ofParts_ne_incompleteWord
    · exact nofun
  · exact nofun

theorem ofBytes_eq_incompleteWord_iff {bytes : List UInt8} :
    ofBytes bytes = .error .incompleteWord ↔ ¬ 4 ∣ bytes.length := by
  rw [← Word.listOfBytes?_eq_none_iff, ofBytes]
  cases Word.listOfBytes? bytes with
  | none => simp
  | some ws => simp [ofWords_ne_incompleteWord]

/-- **The byte order of a binary does not matter, nor whether it comes as words or as bytes.** Any words,
be they a binary or not, are read like the same words with their bytes turned around, to the same
module or with the same error, and so they are audited alike. Their bytes are read like the words,
low byte first or high byte first. Bytes that do not fill their last word are rejected for just
that. -/
theorem ofWords_swap_ofBytes :
    (∀ ws, ofWords (ws.map Word.swap) = ofWords ws) ∧
    (∀ env ws, auditWords env (ws.map Word.swap) = auditWords env ws) ∧
    (∀ ws, ofBytes (ws.flatMap Word.bytes) = ofWords ws ∧
      ofBytes (ws.flatMap fun w => w.bytes.reverse) = ofWords ws) ∧
    (∀ env ws, auditBytes env (ws.flatMap Word.bytes) = auditWords env ws ∧
      auditBytes env (ws.flatMap fun w => w.bytes.reverse) = auditWords env ws) ∧
    ∀ bytes, ofBytes bytes = .error .incompleteWord ↔ ¬ 4 ∣ bytes.length := by
  refine ⟨ofWords_map_swap, fun env ws => ?_, fun ws => ⟨ofBytes_flatMap_bytes ws, ofBytes_flatMap_reverse_bytes ws⟩,
    fun env ws => ⟨?_, ?_⟩, fun bytes => ofBytes_eq_incompleteWord_iff⟩
  · rw [auditWords, auditWords, ofWords_map_swap]
  · rw [auditBytes, auditWords, ofBytes_flatMap_bytes]
  · rw [auditBytes, auditWords, ofBytes_flatMap_reverse_bytes]

end Module

end SpirvAudit
