/-
The decoder against the encoding of instructions.

One instruction first: the head word gives back the length and the opcode that
were put into it, and `Instruction.ofWords` accepts exactly the tails that
`Instruction.tail` writes. Then the body of a binary: an encoded instruction in
front is read off whatever follows it (`decodeBody_encode_append`), and a body
that is read is the encoding of what was read (`encodeBody_of_decodeBody`). The
two make the decoder the inverse of `Module.encodeBody`.
-/
import SpirvAudit.Module
import SpirvAudit.Proofs.Verdict

namespace SpirvAudit

namespace Instruction

/-! ## The head word -/

theorem toNat_head {n : Nat} (hn : n < 65536) (op : Opcode) :
    (UInt32.ofNat (65536 * n + op.code)).toNat = 65536 * n + op.code := by
  have := op.code_lt
  rw [UInt32.toNat_ofNat']
  omega

theorem countOf_head {n : Nat} (hn : n < 65536) (op : Opcode) :
    countOf (UInt32.ofNat (65536 * n + op.code)) = n := by
  have := op.code_lt
  rw [countOf, toNat_head hn]
  omega

theorem codeOf_head {n : Nat} (hn : n < 65536) (op : Opcode) :
    codeOf (UInt32.ofNat (65536 * n + op.code)) = op.code := by
  have := op.code_lt
  rw [codeOf, toNat_head hn]
  omega

theorem countOf_lt (first : Word) : countOf first < 65536 := by
  have := first.toNat_lt
  rw [countOf]
  omega

/-- A head word is put together again from its two halves. -/
theorem head_of_halves {first : Word} {op : Opcode} (h : op.code = codeOf first) :
    UInt32.ofNat (65536 * countOf first + op.code) = first := by
  have hd : 65536 * countOf first + op.code = first.toNat := by
    rw [h, countOf, codeOf]
    omega
  rw [hd, UInt32.ofNat_toNat]

/-- The head word as a shift and a disjunction. -/
theorem head_eq_shift {n : Nat} (hn : n < 65536) (op : Opcode) :
    UInt32.ofNat (65536 * n + op.code) = UInt32.ofNat n <<< 16 ||| UInt32.ofNat op.code := by
  have hc : op.code < 2 ^ 16 := op.code_lt
  apply UInt32.toNat_inj.mp
  rw [toNat_head hn, UInt32.toNat_or, UInt32.toNat_shiftLeft, UInt32.toNat_ofNat', UInt32.toNat_ofNat',
    Nat.mod_eq_of_lt (by omega : n < 2 ^ 32), Nat.mod_eq_of_lt (by omega : op.code < 2 ^ 32)]
  have hs : n <<< 16 % 2 ^ 32 = 2 ^ 16 * n := by
    rw [Nat.shiftLeft_eq]
    omega
  show 65536 * n + op.code = n <<< 16 % 2 ^ 32 ||| op.code
  rw [hs]
  exact Nat.two_pow_add_eq_or_of_lt hc n

/-! ## The words after it -/

theorem takeId?_append {id? : Option Id} {expected : Bool} (h : id?.isSome = expected) (ws : List Word) :
    takeId? expected (id?.toList ++ ws) = some (id?, ws) := by
  subst h
  cases id? <;> rfl

theorem takeId?_eq_some {expected : Bool} {ws rest : List Word} {id? : Option Id}
    (h : takeId? expected ws = some (id?, rest)) : id?.isSome = expected ∧ ws = id?.toList ++ rest := by
  unfold takeId? at h
  split at h
  · simp only [Option.some.injEq, Prod.mk.injEq] at h
    obtain ⟨rfl, rfl⟩ := h
    exact ⟨rfl, rfl⟩
  · simp only [Option.some.injEq, Prod.mk.injEq] at h
    obtain ⟨rfl, rfl⟩ := h
    exact ⟨rfl, rfl⟩
  · cases h

/-- The words that `tail` writes are read back. -/
theorem ofWords_tail {i : Instruction} (hi : i.WellFormed) : ofWords i.opcode.code i.tail = .ok i := by
  have ht := takeId?_append hi.resultType (i.result?.toList ++ i.operands)
  have hr := takeId?_append hi.result i.operands
  rw [ofWords, Opcode.ofCode?_code, tail, List.append_assoc]
  simp only [ht, hr]

/-- What is read was written by `tail`. -/
theorem ofWords_eq_ok {code : Nat} {ws : List Word} {i : Instruction} (h : ofWords code ws = .ok i) :
    i.opcode.code = code ∧ i.resultType?.isSome = i.opcode.hasResultType ∧
      i.result?.isSome = i.opcode.hasResult ∧ ws = i.tail := by
  unfold ofWords at h
  split at h
  · cases h
  next opcode hop =>
  split at h
  · cases h
  next resultType? ws₁ ht =>
  split at h
  · cases h
  next result? operands hr =>
  cases h
  obtain ⟨hts, rfl⟩ := takeId?_eq_some ht
  obtain ⟨hrs, rfl⟩ := takeId?_eq_some hr
  exact ⟨Opcode.ofCode?_eq_some_iff.mp hop, hts, hrs, by simp [tail]⟩

/-- An instruction is well formed if it is read off as many words as its head says, and encodes to them. -/
theorem encode_of_ofWords {first : Word} {ws : List Word} {i : Instruction}
    (h : ofWords (codeOf first) ws = .ok i) (hcount : countOf first = ws.length + 1) :
    i.WellFormed ∧ i.encode = first :: ws := by
  obtain ⟨hcode, htype, hresult, rfl⟩ := ofWords_eq_ok h
  change countOf first = i.wordCount at hcount
  refine ⟨⟨htype, hresult, hcount ▸ countOf_lt first⟩, ?_⟩
  rw [encode, ← hcount, head_of_halves hcode]

end Instruction

namespace Module

open Instruction

theorem encodeBody_cons (i : Instruction) (is : List Instruction) :
    encodeBody (i :: is) = i.encode ++ encodeBody is := rfl

/-! ## The body -/

/-- An instruction in front is read, whatever follows. -/
theorem decodeBody_encode_append {i : Instruction} (hi : i.WellFormed) (offset : Nat) (ws : List Word) :
    decodeBody offset (i.encode ++ ws) =
      (decodeBody (offset + i.wordCount) ws >>= fun is => return i :: is) := by
  have hcount := countOf_head hi.wordCount_lt i.opcode
  have hcode := codeOf_head hi.wordCount_lt i.opcode
  have htake : (i.tail ++ ws).take (i.wordCount - 1) = i.tail := List.take_left
  have hdrop : (i.tail ++ ws).drop (i.wordCount - 1) = ws := List.drop_left
  rw [encode, List.cons_append, decodeBody]
  simp only [hcount, hcode, htake, hdrop, ofWords_tail hi, Except.ok_bind]
  rw [if_neg (by simp [wordCount]), if_neg (by simp [wordCount])]

/-- Instructions in front are read, whatever follows. -/
theorem decodeBody_encodeBody_append {is : List Instruction} (his : ∀ i ∈ is, i.WellFormed) (offset : Nat)
    (ws : List Word) :
    decodeBody offset (encodeBody is ++ ws) =
      (decodeBody (offset + (encodeBody is).length) ws >>= fun js => return is ++ js) := by
  induction is generalizing offset with
  | nil => exact (bind_pure (decodeBody offset ws)).symm
  | cons i is ih =>
    obtain ⟨hi, his⟩ := List.forall_mem_cons.mp his
    rw [encodeBody_cons, List.append_assoc, decodeBody_encode_append hi, ih his, List.length_append,
      length_encode, Nat.add_assoc]
    cases decodeBody (offset + (i.wordCount + (encodeBody is).length)) ws <;> rfl

/-- What is read is well formed, and its encoding is what it was read from. -/
theorem encodeBody_of_decodeBody {offset : Nat} {ws : List Word} {is : List Instruction}
    (h : decodeBody offset ws = .ok is) : (∀ i ∈ is, i.WellFormed) ∧ ws = encodeBody is := by
  fun_induction decodeBody offset ws generalizing is with
  | case1 => cases h; exact ⟨by simp, rfl⟩
  | case2 => cases h
  | case3 => cases h
  | case4 offset first rest count tail hcount htail =>
    rename_i ih
    obtain ⟨i, hi, h⟩ := Except.bind_eq_ok_iff.mp h
    obtain ⟨js, hjs, h⟩ := Except.bind_eq_ok_iff.mp h
    obtain rfl := Except.pure_eq_ok_iff.mp h
    obtain ⟨hwf, hrest⟩ := ih hjs
    -- Enough words follow the head, so the tail is as long as the head says.
    have hlength : count = tail.length + 1 := by
      have hle : tail.length ≤ count - 1 := List.length_take_le ..
      omega
    obtain ⟨hiwf, hencode⟩ := encode_of_ofWords hi hlength
    refine ⟨List.forall_mem_cons.mpr ⟨hiwf, hwf⟩, ?_⟩
    rw [encodeBody_cons, hencode, ← hrest, List.cons_append, List.take_append_drop]

theorem decodeBody_eq_ok_iff {offset : Nat} {ws : List Word} {is : List Instruction} :
    decodeBody offset ws = .ok is ↔ (∀ i ∈ is, i.WellFormed) ∧ ws = encodeBody is := by
  refine ⟨encodeBody_of_decodeBody, ?_⟩
  intro h
  obtain ⟨his, rfl⟩ := h
  have h := decodeBody_encodeBody_append his offset []
  simp only [decodeBody, List.append_nil, Except.ok_bind] at h
  exact h

/-- No two lists of instructions have the same encoding. -/
theorem encodeBody_injective {is js : List Instruction} (his : ∀ i ∈ is, i.WellFormed)
    (hjs : ∀ j ∈ js, j.WellFormed) (h : encodeBody is = encodeBody js) : is = js := by
  have hd : decodeBody 0 (encodeBody is) = .ok is := decodeBody_eq_ok_iff.mpr ⟨his, rfl⟩
  rw [h, decodeBody_eq_ok_iff.mpr ⟨hjs, rfl⟩] at hd
  exact (Except.ok.inj hd).symm

/-! ## Binaries -/

theorem ofParts_eq_ok_iff {version bound : Word} {body : List Word} {m : Module} :
    ofParts version bound body = .ok m ↔
      m.version = .ofWord version ∧ m.bound = bound ∧ decodeBody headerSize body = .ok m.instructions := by
  simp only [ofParts, Except.bind_eq_ok_iff, Except.pure_eq_ok_iff]
  constructor
  · intro h
    obtain ⟨is, his, rfl⟩ := h
    exact ⟨rfl, rfl, his⟩
  · obtain ⟨_, _, is⟩ := m
    intro h
    obtain ⟨rfl, rfl, his⟩ := h
    exact ⟨is, his, rfl⟩

/-- A binary in this byte order is its header and its body. -/
theorem ofWords_of_magic {ws : List Word} (hlen : 5 ≤ ws.length) (hmagic : ws[0] = magic) :
    ofWords ws = ofParts ws[1] ws[3] (ws.drop 5) := by
  match ws, hlen with
  | first :: version :: _ :: bound :: _ :: body, _ =>
    simp only [List.getElem_cons_zero] at hmagic
    rw [ofWords, if_pos hmagic]
    rfl

/-- What is put after a body that can be read adds instructions at its end, and changes nothing else. -/
theorem ofParts_append {version bound : Word} {ws ext : List Word} {m m' : Module}
    (h : ofParts version bound ws = .ok m) (h' : ofParts version bound (ws ++ ext) = .ok m') :
    m'.version = m.version ∧ ∃ js, m'.instructions = m.instructions ++ js := by
  obtain ⟨hversion, -, hbody⟩ := ofParts_eq_ok_iff.mp h
  obtain ⟨hversion', -, hbody'⟩ := ofParts_eq_ok_iff.mp h'
  obtain ⟨hwf, rfl⟩ := encodeBody_of_decodeBody hbody
  rw [decodeBody_encodeBody_append hwf] at hbody'
  obtain ⟨js, -, hjs⟩ := Except.bind_eq_ok_iff.mp hbody'
  exact ⟨hversion'.trans hversion.symm, js, (Except.pure_eq_ok_iff.mp hjs).symm⟩

/-- The same of a binary, in either byte order. -/
theorem ofWords_append {ws ext : List Word} {m m' : Module} (h : ofWords ws = .ok m)
    (h' : ofWords (ws ++ ext) = .ok m') :
    m'.version = m.version ∧ ∃ js, m'.instructions = m.instructions ++ js := by
  unfold ofWords at h
  split at h
  next first version _ bound _ ws₁ =>
    simp only [List.cons_append, ofWords] at h'
    split at h
    next hmagic =>
      rw [if_pos hmagic] at h'
      exact ofParts_append h h'
    next hmagic =>
      rw [if_neg hmagic] at h'
      split at h
      next hswap =>
        rw [if_pos hswap, List.map_append] at h'
        exact ofParts_append h h'
      · cases h
  · cases h

/-- **The decoder accepts exactly the encodings of well-formed instructions.** A binary in this byte
order is read as `is` if and only if `is` are well formed and encode to its body; the header gives the
version and the bound. The encoding of an instruction is its length and opcode in one word, its ids
and its operands, and no body is the encoding of two lists. -/
theorem ofWords_iff_encodeBody {ws : List Word} (hlen : 5 ≤ ws.length) (hmagic : ws[0] = magic) :
    (∀ is, (∃ m, ofWords ws = .ok m ∧ m.instructions = is) ↔
      (∀ i ∈ is, i.WellFormed) ∧ ws.drop 5 = encodeBody is) ∧
    (∀ m, ofWords ws = .ok m → m.version = .ofWord ws[1] ∧ m.bound = ws[3]) ∧
    (∀ i : Instruction, i.WellFormed →
      i.encode = (UInt32.ofNat i.wordCount <<< 16 ||| UInt32.ofNat i.opcode.code) ::
        (i.resultType?.toList ++ i.result?.toList ++ i.operands)) ∧
    ∀ is js, (∀ i ∈ is, i.WellFormed) → (∀ j ∈ js, j.WellFormed) → encodeBody is = encodeBody js →
      is = js := by
  rw [ofWords_of_magic hlen hmagic]
  refine ⟨fun is => ⟨?_, fun his => ?_⟩, fun m hm => ?_, fun i hi => ?_, fun _ _ => encodeBody_injective⟩
  · intro h
    obtain ⟨m, hm, rfl⟩ := h
    exact decodeBody_eq_ok_iff.mp (ofParts_eq_ok_iff.mp hm).2.2
  · exact ⟨⟨.ofWord ws[1], ws[3], is⟩, ofParts_eq_ok_iff.mpr ⟨rfl, rfl, decodeBody_eq_ok_iff.mpr his⟩, rfl⟩
  · obtain ⟨hversion, hbound, -⟩ := ofParts_eq_ok_iff.mp hm
    exact ⟨hversion, hbound⟩
  · rw [encode, head_eq_shift hi.wordCount_lt]
    rfl

/-- A capability, the memory model, and a constant with a type and an id. -/
theorem ofWords_iff_encodeBody_constant :
    ∃ m, ofWords [0x07230203, 0x00010300, 0, 8, 0, 0x00020011, 1, 0x0003000E, 0, 1, 0x0004002B, 2, 3, 7] = .ok m ∧
      m.instructions = [⟨.opCapability, none, none, [1]⟩, ⟨.opMemoryModel, none, none, [0, 1]⟩,
        ⟨.opConstant, some 2, some 3, [7]⟩] := by
  refine ((ofWords_iff_encodeBody (by decide) rfl).1 _).mpr ⟨?_, by decide⟩
  simp only [List.forall_mem_cons]
  exact ⟨⟨rfl, rfl, by decide⟩, ⟨rfl, rfl, by decide⟩, ⟨rfl, rfl, by decide⟩, by simp⟩

end Module

end SpirvAudit
