/-
Which ids fold to a constant.

An id folds through two definitions, its own and that of its type, and the first
instruction with a result is the one that defines it. So the history says which
ids are 32-bit ints (`DefinesInt32`), whatever else was registered, failed or
defined the id again. What such an id folds to is a matter of the instruction
that defines it. `OpConstant` and `OpConstantNull` fold to the value they stand
for (`Instruction.fixedValue?`). The operands of the other constants are recorded
like that of `OpConstant`, so they fold to their first operand, if they have one,
although it is not their value.
-/
import SpirvAudit.Declarations.Fold
import SpirvAudit.Proofs.History

namespace SpirvAudit

/-- The instruction that defines an id: the first one with this result. -/
def definer? (is : List Instruction) (id : Id) : Option Instruction := is.find? (·.result? = some id)

/-- The id is defined as the type of 32-bit ints, with both operands of `OpTypeInt`. -/
def DeclaresInt32 (is : List Instruction) (id : Id) : Prop :=
  ∃ t signedness, definer? is id = some t ∧ t.opcode = .opTypeInt ∧ t.operand? 0 = some 32 ∧
    t.operand? 1 = some signedness

/-- The instruction defines the id as a 32-bit int. -/
structure DefinesInt32 (is : List Instruction) (id : Id) (i : Instruction) : Prop where
  definer : definer? is id = some i
  resultType : ∃ t, i.resultType? = some t ∧ DeclaresInt32 is t

namespace Instruction

variable {i : Instruction}

/-- The value of a 32-bit int that the instruction defines, if the module fixes it. -/
def fixedValue? (i : Instruction) : Option Word :=
  if i.opcode = .opConstantNull then some 0
  else if i.opcode = .opConstant then i.operand? 0
  else none

/-- A constant other than a number that has operands. They are not its value. -/
def IsOtherConstant (i : Instruction) : Prop :=
  i.opcode ∈ [.opConstantTrue, .opConstantFalse, .opConstantComposite, .opConstantSampler] ∧ i.operands ≠ []

/-! ## One definition -/

/-- The constants whose value is not chosen at specialization. -/
theorem isConstant_and_not_isSpecConstant_iff {op : Opcode} : (op.isConstant && !op.isSpecConstant) = true ↔
    op = .opConstantNull ∨ op = .opConstant ∨
      op ∈ [.opConstantTrue, .opConstantFalse, .opConstantComposite, .opConstantSampler] := by
  cases op <;> decide

theorem folded_of_opConstantNull (hop : i.opcode = .opConstantNull) :
    (Definition.ofInstruction i).folded = .constant 0 := by
  simp [Definition.folded, Definition.ofInstruction, hop, Opcode.isConstant, Opcode.isSpecConstant]

/-- Any other constant folds to the first of its operands. -/
theorem folded_of_isConstant (hconstant : (i.opcode.isConstant && !i.opcode.isSpecConstant) = true)
    (hop : i.opcode ≠ .opConstantNull) :
    (Definition.ofInstruction i).folded = (i.operand? 0).elim .runtime .constant := by
  simp only [Bool.and_eq_true, Bool.not_eq_true'] at hconstant
  simp only [Definition.folded, Definition.ofInstruction, hconstant, operand?]
  cases i.operands <;> simp [hop]

theorem folded_of_not_isConstant (h : (i.opcode.isConstant && !i.opcode.isSpecConstant) = false) :
    (Definition.ofInstruction i).folded = .runtime := by
  rw [Definition.folded, if_pos]
  change (!i.opcode.isConstant || i.opcode.isSpecConstant) = true
  simpa [Decidable.imp_iff_not_or] using h

theorem folded_of_isOtherConstant (h : i.IsOtherConstant) :
    ∃ value, i.operand? 0 = some value ∧ (Definition.ofInstruction i).folded = .constant value := by
  obtain ⟨hop, hoperands⟩ := h
  obtain ⟨value, rest, hvalue⟩ := List.exists_cons_of_ne_nil hoperands
  have hoperand : i.operand? 0 = some value := by rw [operand?, hvalue]; rfl
  refine ⟨value, hoperand, ?_⟩
  rw [folded_of_isConstant (isConstant_and_not_isSpecConstant_iff.mpr (.inr (.inr hop))), hoperand]
  · rfl
  · rintro hnull
    rw [hnull] at hop
    exact absurd hop (by decide)

/-- The constants that are numbers fold to their value, and what is no constant to none. -/
theorem folded_of_not_isOtherConstant (h : ¬ i.IsOtherConstant) :
    (Definition.ofInstruction i).folded = i.fixedValue?.elim .runtime .constant := by
  by_cases hconstant : (i.opcode.isConstant && !i.opcode.isSpecConstant) = true
  · rcases isConstant_and_not_isSpecConstant_iff.mp hconstant with hop | hop | hop
    · rw [folded_of_opConstantNull hop, fixedValue?, if_pos hop]
      rfl
    · have hnull : i.opcode ≠ .opConstantNull := by rw [hop]; decide
      rw [folded_of_isConstant hconstant hnull, fixedValue?, if_neg hnull, if_pos hop]
    · have hnil : i.operands = [] := Classical.byContradiction fun hne => h ⟨hop, hne⟩
      have hnull : i.opcode ≠ .opConstantNull := by rintro hnull; rw [hnull] at hop; exact absurd hop (by decide)
      have hnumber : i.opcode ≠ .opConstant := by rintro hnumber; rw [hnumber] at hop; exact absurd hop (by decide)
      rw [folded_of_isConstant hconstant hnull, fixedValue?, if_neg hnull, if_neg hnumber, operand?, hnil]
      rfl
  · rw [folded_of_not_isConstant (Bool.not_eq_true _ ▸ hconstant)]
    have hnot := mt isConstant_and_not_isSpecConstant_iff.mpr hconstant
    rw [fixedValue?, if_neg fun hop => hnot (.inl hop), if_neg fun hop => hnot (.inr (.inl hop))]
    rfl

end Instruction

namespace Declarations

open Instruction

variable {env : Environment} {is : List Instruction} {i : Instruction} {id : Id}

/-! ## Any history -/

theorem definition?_registerEach_initial (his : ∀ i ∈ is, i.WellFormed) (id : Id) :
    ((initial env).registerEach is).definition? id = (definer? is id).map .ofInstruction :=
  (determinedBy_registerEach his).definition?_eq id

theorem type?_registerEach_initial_iff (env : Environment) (his : ∀ i ∈ is, i.WellFormed) :
    (∃ signed, ((initial env).registerEach is).type? id = some (.int 32 signed)) ↔ DeclaresInt32 is id := by
  simp only [type?, definition?_registerEach_initial his, Option.bind_map, Option.bind_eq_some_iff]
  constructor
  · intro h
    obtain ⟨signed, t, ht, htype⟩ := h
    obtain ⟨hop, hwidth, s, hs, -⟩ := DeclaredType.ofInstruction?_eq_some_iff.mp htype
    exact ⟨t, s, ht, hop, hwidth, hs⟩
  · intro h
    obtain ⟨t, s, ht, hop, hwidth, hs⟩ := h
    have hdeclares : t.DeclaresType (.int 32 (s != 0)) := ⟨hop, hwidth, s, hs, bne_iff_ne⟩
    exact ⟨s != 0, t, ht, DeclaredType.ofInstruction?_eq_some_iff.mpr hdeclares⟩

/-- The 32-bit ints are the ids that an instruction defines as such. -/
theorem isInt32_fold_registerEach_iff (env : Environment) (his : ∀ i ∈ is, i.WellFormed) :
    (((initial env).registerEach is).fold id).isInt32 = true ↔ ∃ i, DefinesInt32 is id i := by
  rw [isInt32_fold_iff]
  simp only [valueType?, Option.bind_eq_some_iff, definition?_registerEach_initial his, Option.map_eq_some_iff]
  constructor
  · intro h
    obtain ⟨signed, t, ⟨x, ⟨i, hi, rfl⟩, hresult⟩, htype⟩ := h
    exact ⟨i, hi, t, hresult, (type?_registerEach_initial_iff env his).mp ⟨signed, htype⟩⟩
  · intro h
    obtain ⟨i, hi, t, hresult, htype⟩ := h
    obtain ⟨signed, htype⟩ := (type?_registerEach_initial_iff env his).mpr htype
    exact ⟨signed, t, ⟨_, ⟨i, hi, rfl⟩, hresult⟩, htype⟩

/-- What a 32-bit int folds to is a matter of the instruction that defines it. -/
theorem fold_registerEach_of_definesInt32 (his : ∀ i ∈ is, i.WellFormed) (h : DefinesInt32 is id i) :
    ((initial env).registerEach is).fold id = (Definition.ofInstruction i).folded := by
  have hdefinition : ((initial env).registerEach is).definition? id = some (.ofInstruction i) := by
    rw [definition?_registerEach_initial his, h.definer]
    rfl
  obtain ⟨signed, htype⟩ := isInt32_fold_iff.mp ((isInt32_fold_registerEach_iff env his).mpr ⟨i, h⟩)
  rw [fold, hdefinition]
  simp [htype, DeclaredType.isIntOfWidth]

/-- **What an id folds to after any registrations.** It is no 32-bit int exactly if no instruction defines
it with a type that `OpTypeInt` declares to be 32 bits wide. If one does, the id folds to the value that
the instruction fixes, and stays unknown if it fixes none, but for one kind of constant: those that are
no numbers fold to their first operand, if they have one. -/
theorem fold_registerEach (his : ∀ i ∈ is, i.WellFormed) :
    (((initial env).registerEach is).fold id = .notInt32 ↔ ¬ ∃ i, DefinesInt32 is id i) ∧
    ∀ i, DefinesInt32 is id i →
      (((initial env).registerEach is).fold id = i.fixedValue?.elim .runtime .constant ↔ ¬ i.IsOtherConstant) ∧
      (i.IsOtherConstant → ∃ value, i.operand? 0 = some value ∧
        ((initial env).registerEach is).fold id = .constant value) := by
  refine ⟨?_, fun i hi => ?_⟩
  · rw [← isInt32_fold_registerEach_iff env his]
    cases ((initial env).registerEach is).fold id <;> simp [Folded.isInt32]
  rw [fold_registerEach_of_definesInt32 his hi]
  refine ⟨⟨fun h hother => ?_, folded_of_not_isOtherConstant⟩, folded_of_isOtherConstant⟩
  obtain ⟨value, -, hvalue⟩ := folded_of_isOtherConstant hother
  have hnone : i.fixedValue? = none := by
    obtain ⟨hop, -⟩ := hother
    simp only [List.mem_cons, List.not_mem_nil, or_false] at hop
    rcases hop with hop | hop | hop | hop <;> simp [fixedValue?, hop]
  rw [hvalue, hnone] at h
  cases h

/-- A number, and a composite constant of the same type with the id of the number as its operand. -/
def composite : List Instruction := [
  ⟨.opTypeInt, none, some 1, [32, 0]⟩,
  ⟨.opConstant, some 1, some 2, [4]⟩,
  ⟨.opConstantComposite, some 1, some 3, [2]⟩]

theorem wellFormed_composite : ∀ i ∈ composite, i.WellFormed := by decide

/-- The number folds to its value, the composite to an id, and the type is no int. -/
theorem fold_registerEach_composite :
    ((initial (.vulkan 0)).registerEach composite).fold 2 = .constant 4 ∧
    ((initial (.vulkan 0)).registerEach composite).fold 3 = .constant 2 ∧
    ((initial (.vulkan 0)).registerEach composite).fold 1 = .notInt32 := by
  have htype : DeclaresInt32 composite 1 := ⟨_, 0, rfl, rfl, rfl, rfl⟩
  refine ⟨?_, ?_, ?_⟩
  · have hnumber : DefinesInt32 composite 2 ⟨.opConstant, some 1, some 2, [4]⟩ := ⟨rfl, 1, rfl, htype⟩
    exact (((fold_registerEach wellFormed_composite).2 _ hnumber).1).mpr fun h => absurd h.1 (by decide)
  · have hcomposite : DefinesInt32 composite 3 ⟨.opConstantComposite, some 1, some 3, [2]⟩ := ⟨rfl, 1, rfl, htype⟩
    have hother : (⟨.opConstantComposite, some 1, some 3, [2]⟩ : Instruction).IsOtherConstant := ⟨by decide, nofun⟩
    obtain ⟨value, hvalue, hfold⟩ := ((fold_registerEach wellFormed_composite).2 _ hcomposite).2 hother
    cases hvalue
    exact hfold
  · refine ((fold_registerEach wellFormed_composite).1).mpr ?_
    rintro ⟨i, hdefiner, t, ht, -⟩
    cases hdefiner
    cases ht

/-- An id may fold to a constant that no number of the module has. -/
theorem not_forall_fold_eq_constant :
    ¬ ∀ (is : List Instruction) (id : Id) (value : Word), (∀ i ∈ is, i.WellFormed) →
      ((initial (.universal 6)).registerEach is).fold id = .constant value →
      ∃ i, definer? is id = some i ∧
        (i.opcode = .opConstant ∧ i.operand? 0 = some value ∨ i.opcode = .opConstantNull ∧ value = 0) := by
  intro h
  have hfold : ((initial (.universal 6)).registerEach composite).fold 3 = .constant 2 := by cbv
  obtain ⟨i, hdefiner, hnumber⟩ := h composite 3 2 wellFormed_composite hfold
  cases hdefiner
  rcases hnumber with ⟨hop, -⟩ | ⟨hop, -⟩ <;> cases hop

end Declarations

end SpirvAudit
