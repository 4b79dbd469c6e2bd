/-
Where a binary breaks off, and the error that says so.

The body of a binary that cannot be read is made of whole instructions up to
some word, and no instruction starts at that word (`BreaksAfter`). There is one
such word only, since no encoding is the beginning of another one. What is wrong
there is a matter of the head of the instruction that should follow: the first
of four faults that it has (`HeadFault`). A head has a fault exactly if no
instruction starts with it (`exists_headFault_iff`), and the decoder, which walks
over the whole instructions in front of it, ends with just this fault.
-/
import SpirvAudit.Proofs.Encoding

namespace SpirvAudit

namespace Opcode

/-- The number of ids that an instruction has before its operands. -/
def idCount (op : Opcode) : Nat := op.hasResultType.toNat + op.hasResult.toNat

theorem ofCode?_eq_none_iff {code : Nat} : ofCode? code = none ↔ ∀ op : Opcode, op.code ≠ code := by
  simp only [Option.eq_none_iff_forall_ne_some, ne_eq, ofCode?_eq_some_iff]

end Opcode

namespace Instruction

variable {i j : Instruction} {first : Word} {code : Nat} {ws ext : List Word}

/-! ## The head word as its two halves -/

theorem toNat_shiftRight_eq_countOf (first : Word) : (first >>> 16).toNat = countOf first := by
  rw [UInt32.toNat_shiftRight, countOf, Nat.shiftRight_eq_div_pow]
  rfl

theorem toNat_and_eq_codeOf (first : Word) : (first &&& 0xFFFF).toNat = codeOf first := by
  rw [UInt32.toNat_and, codeOf]
  exact Nat.and_two_pow_sub_one_eq_mod first.toNat 16

/-! ## The words after it -/

theorem takeId?_eq_none_iff {expected : Bool} : takeId? expected ws = none ↔ ws.length < expected.toNat := by
  cases expected <;> cases ws <;> simp [takeId?]

theorem length_of_takeId? {expected : Bool} {id? : Option Id} {rest : List Word}
    (h : takeId? expected ws = some (id?, rest)) : ws.length = expected.toNat + rest.length := by
  obtain ⟨hid, rfl⟩ := takeId?_eq_some h
  rw [List.length_append, ← hid]
  cases id? <;> rfl

theorem ofWords_eq_unknownOpcode (ws : List Word) (h : ∀ op : Opcode, op.code ≠ code) :
    ofWords code ws = .error (.unknownOpcode code) := by
  rw [ofWords, Opcode.ofCode?_eq_none_iff.mpr h]

theorem ofWords_eq_missingOperand {op : Opcode} (h : ws.length < op.idCount) :
    ofWords op.code ws = .error (.missingOperand op) := by
  rw [Opcode.idCount] at h
  rw [ofWords, Opcode.ofCode?_code]
  dsimp only
  split
  · rfl
  next resultType? ws₁ htype =>
    have hlength := length_of_takeId? htype
    rw [takeId?_eq_none_iff.mpr (by omega)]

theorem exists_ofWords_eq_ok {op : Opcode} (h : op.idCount ≤ ws.length) : ∃ i, ofWords op.code ws = .ok i := by
  rw [Opcode.idCount] at h
  obtain ⟨⟨resultType?, ws₁⟩, htype⟩ : ∃ x, takeId? op.hasResultType ws = some x :=
    Option.ne_none_iff_exists'.mp (mt takeId?_eq_none_iff.mp (by omega))
  have hlength := length_of_takeId? htype
  obtain ⟨⟨result?, operands⟩, hresult⟩ : ∃ x, takeId? op.hasResult ws₁ = some x :=
    Option.ne_none_iff_exists'.mp (mt takeId?_eq_none_iff.mp (by omega))
  exact ⟨⟨op, resultType?, result?, operands⟩, by simp only [ofWords, Opcode.ofCode?_code, htype, hresult]⟩

theorem WellFormed.idCount_lt (hi : i.WellFormed) : i.opcode.idCount < i.wordCount := by
  rw [Opcode.idCount, ← hi.resultType, ← hi.result, wordCount, tail]
  cases i.resultType? <;> cases i.result? <;> simp

/-! ## Instructions in front -/

/-- An instruction in front of other words is the only one there. -/
theorem encode_append_inj (hi : i.WellFormed) (hj : j.WellFormed) (h : i.encode ++ ws = j.encode ++ ext) :
    i = j ∧ ws = ext := by
  have hhead := (List.cons.inj h).1
  have hcount : i.wordCount = j.wordCount := by
    rw [← countOf_head hi.wordCount_lt i.opcode, hhead, countOf_head hj.wordCount_lt]
  obtain ⟨hencode, hrest⟩ := List.append_inj h hcount
  have hbody : Module.encodeBody [i] = Module.encodeBody [j] := by
    rw [Module.encodeBody_cons, hencode]
    rfl
  exact ⟨List.singleton_inj.mp (Module.encodeBody_injective (by simpa) (by simpa) hbody), hrest⟩

end Instruction

namespace Module

open Instruction

variable {body rest : List Word} {first : Word} {is : List Instruction} {i : Instruction} {offset : Nat}
  {e e' : DecodeError}

/-! ## Faults -/

/-- What is wrong with the head of an instruction at word `offset` of a binary, before the words `rest`:
the first of four faults that it has. -/
inductive HeadFault (offset : Nat) (first : Word) (rest : List Word) : DecodeError → Prop
  /-- The instruction is to have no words at all. -/
  | zeroWordCount (hzero : first >>> 16 = 0) : HeadFault offset first rest (.zeroWordCount offset)
  /-- The binary ends before the instruction does. -/
  | incompleteInstruction (hzero : first >>> 16 ≠ 0) (hshort : (first :: rest).length < (first >>> 16).toNat) :
    HeadFault offset first rest .incompleteInstruction
  | unknownOpcode (hzero : first >>> 16 ≠ 0) (hlong : (first >>> 16).toNat ≤ (first :: rest).length)
    (hcode : ∀ op : Opcode, op.code ≠ (first &&& 0xFFFF).toNat) :
    HeadFault offset first rest (.unknownOpcode (first &&& 0xFFFF).toNat)
  /-- The instruction is too short for its ids. -/
  | missingOperand (hzero : first >>> 16 ≠ 0) (hlong : (first >>> 16).toNat ≤ (first :: rest).length)
    {op : Opcode} (hcode : op.code = (first &&& 0xFFFF).toNat) (hids : (first >>> 16).toNat - 1 < op.idCount) :
    HeadFault offset first rest (.missingOperand op)

theorem shiftRight_eq_zero_iff : first >>> 16 = 0 ↔ countOf first = 0 := by
  rw [← UInt32.toNat_inj, toNat_shiftRight_eq_countOf]
  rfl

/-- Whole instructions have as many words after the head as the head says. -/
theorem length_take (hlong : countOf first ≤ (first :: rest).length) :
    (rest.take (countOf first - 1)).length = countOf first - 1 := by
  rw [List.length_cons] at hlong
  rw [List.length_take]
  omega

/-- An instruction starts with each head that has no fault. -/
theorem exists_headFault_of_forall_not_isPrefix (offset : Nat)
    (h : ∀ i : Instruction, i.WellFormed → ¬ i.encode <+: first :: rest) :
    ∃ e, HeadFault offset first rest e := by
  by_cases hzero : first >>> 16 = 0
  · exact ⟨_, .zeroWordCount hzero⟩
  by_cases hshort : (first :: rest).length < (first >>> 16).toNat
  · exact ⟨_, .incompleteInstruction hzero hshort⟩
  have hlong := Nat.not_lt.mp hshort
  by_cases hcode : ∀ op : Opcode, op.code ≠ (first &&& 0xFFFF).toNat
  · exact ⟨_, .unknownOpcode hzero hlong hcode⟩
  obtain ⟨op, hcode⟩ := not_forall_not.mp hcode
  refine ⟨_, .missingOperand hzero hlong hcode (Nat.lt_of_not_le fun hids => ?_)⟩
  rw [toNat_shiftRight_eq_countOf] at hlong hids
  rw [← length_take hlong] at hids
  obtain ⟨i, hi⟩ := exists_ofWords_eq_ok hids
  rw [hcode, toNat_and_eq_codeOf] at hi
  have hcount : countOf first = (rest.take (countOf first - 1)).length + 1 := by
    rw [length_take hlong]
    have := mt shiftRight_eq_zero_iff.mpr hzero
    omega
  obtain ⟨hwf, hencode⟩ := encode_of_ofWords hi hcount
  refine h i hwf ?_
  rw [hencode, List.cons_prefix_cons]
  exact ⟨rfl, List.take_prefix ..⟩

/-- No instruction starts with a head that has a fault. -/
theorem HeadFault.not_isPrefix (h : HeadFault offset first rest e) (hi : i.WellFormed) :
    ¬ i.encode <+: first :: rest := by
  rintro ⟨ws, hws⟩
  obtain ⟨hfirst, hrest⟩ := List.cons.inj hws
  have hcount : (first >>> 16).toNat = i.wordCount := by
    rw [toNat_shiftRight_eq_countOf, ← hfirst, countOf_head hi.wordCount_lt]
  have hcode : (first &&& 0xFFFF).toNat = i.opcode.code := by
    rw [toNat_and_eq_codeOf, ← hfirst, codeOf_head hi.wordCount_lt]
  cases h with
  | zeroWordCount hzero =>
    rw [hzero] at hcount
    cases hcount
  | incompleteInstruction _ hshort =>
    have hlength := congrArg List.length hws
    rw [List.length_append, length_encode] at hlength
    omega
  | unknownOpcode _ _ hunknown => exact hunknown i.opcode hcode.symm
  | missingOperand _ _ hop hids =>
    rw [hcode] at hop
    obtain rfl := Option.some.inj ((Opcode.ofCode?_eq_some_iff.mpr hop).symm.trans (Opcode.ofCode?_code _))
    have := hi.idCount_lt
    omega

theorem exists_headFault_iff : (∃ e, HeadFault offset first rest e) ↔
    ∀ i : Instruction, i.WellFormed → ¬ i.encode <+: first :: rest := by
  refine ⟨fun h i hi => ?_, exists_headFault_of_forall_not_isPrefix offset⟩
  obtain ⟨_, h⟩ := h
  exact h.not_isPrefix hi

/-- A head with enough words after it is read, and then what follows. -/
theorem decodeBody_of_le (hzero : countOf first ≠ 0) (hlong : countOf first ≤ (first :: rest).length) :
    decodeBody offset (first :: rest) = do
      let i ← Instruction.ofWords (codeOf first) (rest.take (countOf first - 1))
      let is ← decodeBody (offset + countOf first) (rest.drop (countOf first - 1))
      return i :: is := by
  have htake : ¬ (rest.take (countOf first - 1)).length + 1 < countOf first := by
    rw [length_take hlong]
    omega
  rw [decodeBody]
  exact (if_neg hzero).trans (if_neg htake)

/-- The decoder finds the fault of a head. -/
theorem HeadFault.decodeBody_eq (h : HeadFault offset first rest e) :
    decodeBody offset (first :: rest) = .error e := by
  cases h with
  | zeroWordCount hzero =>
    rw [decodeBody]
    exact if_pos (shiftRight_eq_zero_iff.mp hzero)
  | incompleteInstruction hzero hshort =>
    rw [toNat_shiftRight_eq_countOf, List.length_cons] at hshort
    have htake : (rest.take (countOf first - 1)).length + 1 < countOf first := by
      rw [List.length_take]
      omega
    rw [decodeBody]
    exact (if_neg (mt shiftRight_eq_zero_iff.mpr hzero)).trans (if_pos htake)
  | unknownOpcode hzero hlong hcode =>
    rw [toNat_shiftRight_eq_countOf] at hlong
    rw [toNat_and_eq_codeOf] at hcode ⊢
    rw [decodeBody_of_le (mt shiftRight_eq_zero_iff.mpr hzero) hlong, ofWords_eq_unknownOpcode _ hcode,
      Except.error_bind]
  | @missingOperand hzero hlong op hcode hids =>
    rw [toNat_shiftRight_eq_countOf] at hlong hids
    rw [toNat_and_eq_codeOf] at hcode
    rw [← length_take hlong] at hids
    rw [decodeBody_of_le (mt shiftRight_eq_zero_iff.mpr hzero) hlong, ← hcode, ofWords_eq_missingOperand hids,
      Except.error_bind]

theorem HeadFault.unique (h : HeadFault offset first rest e) (h' : HeadFault offset first rest e') : e = e' :=
  Except.error.inj (h.decodeBody_eq.symm.trans h'.decodeBody_eq)

/-! ## The place where a body breaks off -/

/-- The body is the encoding of `is` up to the word `first`, where no instruction starts. -/
structure BreaksAfter (body : List Word) (is : List Instruction) (first : Word) (rest : List Word) : Prop where
  wellFormed : ∀ i ∈ is, i.WellFormed
  body_eq : body = encodeBody is ++ first :: rest
  not_isPrefix : ∀ i : Instruction, i.WellFormed → ¬ i.encode <+: first :: rest

/-- Words are instructions as far as they go, and then words where no instruction starts, if any are left. -/
theorem exists_eq_encodeBody_append (body : List Word) :
    ∃ is ws, (∀ i ∈ is, Instruction.WellFormed i) ∧ body = encodeBody is ++ ws ∧
      ∀ i : Instruction, i.WellFormed → ¬ i.encode <+: ws := by
  by_cases h : ∃ i : Instruction, i.WellFormed ∧ i.encode <+: body
  · obtain ⟨i, hi, ws, rfl⟩ := h
    obtain ⟨is, ws, his, rfl, hws⟩ := exists_eq_encodeBody_append ws
    refine ⟨i :: is, ws, List.forall_mem_cons.mpr ⟨hi, his⟩, ?_, hws⟩
    rw [encodeBody_cons, List.append_assoc]
  · exact ⟨[], body, by simp, rfl, fun i hi hprefix => h ⟨i, hi, hprefix⟩⟩
termination_by body.length
decreasing_by
  subst_vars
  rw [List.length_append, length_encode, wordCount]
  omega

/-- A body that cannot be read breaks off somewhere. -/
theorem exists_breaksAfter (h : decodeBody offset body = .error e) :
    ∃ is first rest, BreaksAfter body is first rest := by
  obtain ⟨is, ws, his, rfl, hws⟩ := exists_eq_encodeBody_append body
  cases ws with
  | nil =>
    rw [List.append_nil, decodeBody_eq_ok_iff.mpr ⟨his, rfl⟩] at h
    cases h
  | cons first rest => exact ⟨is, first, rest, his, rfl, hws⟩

/-- It does so in one place only. -/
theorem BreaksAfter.unique {js : List Instruction} {first' : Word} {rest' : List Word}
    (h : BreaksAfter body is first rest) (h' : BreaksAfter body js first' rest') :
    is = js ∧ first = first' ∧ rest = rest' := by
  induction is generalizing body js with
  | nil =>
    obtain rfl := h.body_eq
    cases js with
    | nil => exact ⟨rfl, List.cons.inj h'.body_eq⟩
    | cons j js =>
      refine absurd ?_ (h.not_isPrefix j (h'.wellFormed j List.mem_cons_self))
      exact ⟨_, (List.append_assoc ..).symm.trans h'.body_eq.symm⟩
  | cons i is ih =>
    obtain ⟨hi, his⟩ := List.forall_mem_cons.mp h.wellFormed
    obtain rfl := h.body_eq
    cases js with
    | nil =>
      refine absurd ?_ (h'.not_isPrefix i hi)
      exact ⟨_, (List.append_assoc ..).symm.trans h'.body_eq⟩
    | cons j js =>
      obtain ⟨hj, hjs⟩ := List.forall_mem_cons.mp h'.wellFormed
      have hbody := h'.body_eq
      rw [encodeBody_cons, encodeBody_cons, List.append_assoc, List.append_assoc] at hbody
      obtain ⟨rfl, hbodies⟩ := encode_append_inj hi hj hbody
      obtain ⟨rfl, hrest⟩ := ih ⟨his, rfl, h.not_isPrefix⟩ ⟨hjs, hbodies, h'.not_isPrefix⟩
      exact ⟨rfl, hrest⟩

/-- The decoder gets as far as the body does, and ends with the fault that it finds there. -/
theorem BreaksAfter.decodeBody_eq (h : BreaksAfter body is first rest)
    (he : HeadFault (offset + (encodeBody is).length) first rest e) : decodeBody offset body = .error e := by
  rw [h.body_eq, decodeBody_encodeBody_append h.wellFormed, he.decodeBody_eq, Except.error_bind]

theorem decodeBody_eq_error_iff : decodeBody offset body = .error e ↔
    ∃ is first rest, BreaksAfter body is first rest ∧
      HeadFault (offset + (encodeBody is).length) first rest e := by
  constructor
  · intro h
    obtain ⟨is, first, rest, hbreaks⟩ := exists_breaksAfter h
    obtain ⟨e', he'⟩ := exists_headFault_iff.mpr hbreaks.not_isPrefix
    rw [hbreaks.decodeBody_eq he'] at h
    cases h
    exact ⟨is, first, rest, hbreaks, he'⟩
  · intro h
    obtain ⟨is, first, rest, hbreaks, he⟩ := h
    exact hbreaks.decodeBody_eq he

/-! ## Binaries -/

theorem ofParts_eq_error_iff {version bound : Word} :
    ofParts version bound body = .error e ↔ decodeBody headerSize body = .error e := by
  rw [ofParts]
  cases decodeBody headerSize body <;> simp [pure, Except.pure]

/-- **The error of a binary that cannot be read says where it breaks off, and why.** A binary in this byte
order ends in an error if and only if its body consists of whole instructions up to some word where no
instruction starts, and the error is the fault of the head that stands there. Instructions and place are
unique, and wherever a body breaks off, the head has exactly one fault: a word count of zero, reported
with its place in the binary, or a word count past the end, or an opcode that is not known, or too few
words for the ids of the opcode, looked for in this order. -/
theorem ofWords_eq_error_iff_breaksAfter {ws : List Word} (hlen : 5 ≤ ws.length) (hmagic : ws[0]? = some magic) :
    (∀ e, ofWords ws = .error e ↔ ∃ is first rest, BreaksAfter (ws.drop 5) is first rest ∧
      HeadFault (5 + (encodeBody is).length) first rest e) ∧
    (∀ is first rest js first' rest', BreaksAfter (ws.drop 5) is first rest →
      BreaksAfter (ws.drop 5) js first' rest' → is = js ∧ first = first' ∧ rest = rest') ∧
    ∀ is first rest, BreaksAfter (ws.drop 5) is first rest →
      ∃! e, HeadFault (5 + (encodeBody is).length) first rest e := by
  rw [ofWords_of_magic hlen (List.getElem_eq_iff _ |>.mpr hmagic)]
  refine ⟨fun e => ofParts_eq_error_iff.trans decodeBody_eq_error_iff, fun _ _ _ _ _ _ h h' => h.unique h',
    fun is first rest h => ?_⟩
  obtain ⟨e, he⟩ := exists_headFault_iff.mpr h.not_isPrefix
  exact ⟨e, he, fun e' he' => he'.unique he⟩

/-- A capability, and then a barrier that is to have no words. -/
theorem ofWords_eq_error_iff_breaksAfter_zero :
    ofWords [0x07230203, 0x00010300, 0, 8, 0, 0x00020011, 1, 0x000000E1, 2, 3] = .error (.zeroWordCount 7) := by
  refine ((ofWords_eq_error_iff_breaksAfter (by decide) rfl).1 _).mpr ?_
  have hfault : HeadFault 7 0x000000E1 [2, 3] (.zeroWordCount 7) := .zeroWordCount rfl
  have hcapability : Instruction.WellFormed ⟨.opCapability, none, none, [1]⟩ := ⟨rfl, rfl, by decide⟩
  exact ⟨[⟨.opCapability, none, none, [1]⟩], 0x000000E1, [2, 3],
    ⟨by simpa using hcapability, rfl, fun i hi => hfault.not_isPrefix hi⟩, hfault⟩

end Module

end SpirvAudit
