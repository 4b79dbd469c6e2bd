/-
What is recorded of an instruction that defines an id.

A record keeps four things of it (`Definition.Records`): the opcode, the type of
the result, the operands if it is a constant, and the type that it declares.
They are written out here apart from the functions that make the record: the
opcodes of constants by name, and the declared types as a relation with a row
for each kind of type (`Instruction.DeclaresType`). An instruction has exactly
one record, and it is the one that is made of it (`Definition.records_iff`).
-/
import SpirvAudit.DeclaredType

namespace SpirvAudit

variable {op : Opcode} {i : Instruction}

namespace Opcode

/-- The constants, those chosen at specialization among them. -/
def constants : List Opcode := [
  .opConstantTrue, .opConstantFalse, .opConstant, .opConstantComposite, .opConstantSampler, .opConstantNull,
  .opSpecConstantTrue, .opSpecConstantFalse, .opSpecConstant, .opSpecConstantComposite, .opSpecConstantOp]

/-- The declarations of types that no rule looks into. -/
def otherTypes : List Opcode := [
  .opTypeVector, .opTypeMatrix, .opTypeImage, .opTypeSampler, .opTypeSampledImage, .opTypeArray,
  .opTypeRuntimeArray, .opTypeStruct, .opTypeOpaque, .opTypeFunction]

theorem mem_constants_iff : op ∈ constants ↔ op.isConstant = true := by
  cases op <;> decide

end Opcode

/-! ## Declared types -/

/-- The instruction declares this type. It has the operands that the type is read from. -/
def Instruction.DeclaresType (i : Instruction) : DeclaredType → Prop
  | .void => i.opcode = .opTypeVoid
  | .bool => i.opcode = .opTypeBool
  | .int width signed => i.opcode = .opTypeInt ∧ i.operand? 0 = some width ∧
      ∃ signedness, i.operand? 1 = some signedness ∧ (signed = true ↔ signedness ≠ 0)
  | .float width => i.opcode = .opTypeFloat ∧ i.operand? 0 = some width
  | .pointer storageClass pointee => i.opcode = .opTypePointer ∧ i.operand? 0 = some storageClass ∧
      i.operand? 1 = some pointee
  | .other => i.opcode ∈ Opcode.otherTypes

theorem DeclaredType.ofInstruction?_eq_some_iff {t : DeclaredType} :
    ofInstruction? i = some t ↔ i.DeclaresType t := by
  constructor
  · intro h
    unfold ofInstruction? at h
    split at h
    case h_1 hop => cases h; exact hop
    case h_2 hop => cases h; exact hop
    case h_3 hop =>
      obtain ⟨width, hwidth, h⟩ := Option.bind_eq_some_iff.mp h
      obtain ⟨signedness, hsignedness, h⟩ := Option.bind_eq_some_iff.mp h
      cases h
      exact ⟨hop, hwidth, signedness, hsignedness, bne_iff_ne⟩
    case h_4 hop =>
      obtain ⟨width, hwidth, h⟩ := Option.bind_eq_some_iff.mp h
      cases h
      exact ⟨hop, hwidth⟩
    case h_5 hop =>
      obtain ⟨storageClass, hstorageClass, h⟩ := Option.bind_eq_some_iff.mp h
      obtain ⟨pointee, hpointee, h⟩ := Option.bind_eq_some_iff.mp h
      cases h
      exact ⟨hop, hstorageClass, hpointee⟩
    case h_16 => cases h
    all_goals
      rename_i hop
      cases h
      rw [Instruction.DeclaresType, hop]
      decide
  · intro h
    cases t with
    | void =>
      have hop : i.opcode = .opTypeVoid := h
      rw [ofInstruction?, hop]
    | bool =>
      have hop : i.opcode = .opTypeBool := h
      rw [ofInstruction?, hop]
    | int width signed =>
      obtain ⟨hop, hwidth, signedness, hsignedness, hsigned⟩ := h
      have heq : (signedness != 0) = signed := Bool.eq_iff_iff.mpr (bne_iff_ne.trans hsigned.symm)
      simp [ofInstruction?, hop, hwidth, hsignedness, heq]
    | float width =>
      obtain ⟨hop, hwidth⟩ := h
      simp [ofInstruction?, hop, hwidth]
    | pointer storageClass pointee =>
      obtain ⟨hop, hstorageClass, hpointee⟩ := h
      simp [ofInstruction?, hop, hstorageClass, hpointee]
    | other =>
      have hop : i.opcode ∈ Opcode.otherTypes := h
      simp only [Opcode.otherTypes, List.mem_cons, List.not_mem_nil, or_false] at hop
      rcases hop with hop | hop | hop | hop | hop | hop | hop | hop | hop | hop <;> rw [ofInstruction?, hop]

/-! ## Records -/

namespace Definition

variable {x : Definition} {x? : Option Definition} {i? : Option Instruction}

/-- This is what is to be recorded of an instruction. -/
structure Records (x : Definition) (i : Instruction) : Prop where
  opcode : x.opcode = i.opcode
  resultType? : x.resultType? = i.resultType?
  literals : x.literals = if i.opcode ∈ Opcode.constants then i.operands else []
  type?_eq_some_iff : ∀ t, x.type? = some t ↔ i.DeclaresType t

theorem records_ofInstruction (i : Instruction) : (ofInstruction i).Records i where
  opcode := rfl
  resultType? := rfl
  literals := by simp only [ofInstruction, Opcode.mem_constants_iff]
  type?_eq_some_iff _ := DeclaredType.ofInstruction?_eq_some_iff

/-- An instruction has one record. -/
theorem records_iff : x.Records i ↔ x = ofInstruction i := by
  refine ⟨fun h => ?_, fun h => h ▸ records_ofInstruction i⟩
  have h' := records_ofInstruction i
  have htype : x.type? = (ofInstruction i).type? :=
    Option.ext fun t => (h.type?_eq_some_iff t).trans (h'.type?_eq_some_iff t).symm
  exact Definition.ext h.opcode h.resultType? (h.literals.trans h'.literals.symm) htype

theorem rel_records_iff : Option.Rel Records x? i? ↔ x? = i?.map ofInstruction := by
  constructor
  · intro h
    cases h with
    | some h => rw [records_iff.mp h, Option.map_some]
    | none => rfl
  · rintro rfl
    cases i? with
    | none => exact .none
    | some i => exact .some (records_ofInstruction i)

end Definition

end SpirvAudit
