/-
The scopes that atomics and barriers may name.

What a scope operand has to satisfy is written here on the value it holds, in
the order in which it is looked at: that there is one, that it is an int, that
it is known if it has to be, that it is a scope, and that the declared
capabilities and the environment allow this scope
(`Declarations.memoryScopeRequirements`, `executionScopeRequirements`). Each of
the two checks enforces its list, so it accepts exactly the scopes that satisfy
all of it, and tells the rule of the first thing that fails (`checkScopes_exact`).
-/
import SpirvAudit.Proofs.Relaxation
import SpirvAudit.Proofs.Requirements

namespace SpirvAudit

namespace Scope

theorem code_le (s : Scope) : s.code ≤ 6 := by
  cases s <;> decide

/-- The codes of the scopes are those up to six. -/
theorem ofCode?_eq_none_iff {code : Nat} : ofCode? code = none ↔ 6 < code := by
  constructor
  · intro h
    refine Nat.lt_of_not_le fun hle => ?_
    interval_cases code <;> cases h
  · intro h
    refine Option.eq_none_iff_forall_ne_some.mpr fun s hs => ?_
    have hcode : s.code = code := ofCode?_eq_some_iff.mp hs
    have hle := code_le s
    omega

/-- The word that stands for a scope. -/
def word (s : Scope) : Word := .ofNat s.code

theorem toNat_word (s : Scope) : s.word.toNat = s.code := by
  cases s <;> rfl

theorem word_injective : Function.Injective word := by
  intro s t h
  have hs := ofCode?_code s
  rw [← toNat_word, h, toNat_word, ofCode?_code] at hs
  exact (Option.some.inj hs).symm

end Scope

namespace Declarations

variable {d : Declarations} {i : Instruction} {index : Nat} {subject : Subject} {area : ConstantArea}

/-! ## Requirements -/

/-- The operand is there, and its value is known to be this one. -/
def FoldsTo (d : Declarations) (i : Instruction) (index : Nat) (value : Word) : Prop :=
  ∃ id, i.operand? index = some id ∧ d.fold id = .constant value

/-- What is required of an operand that has to name a constant: that it is there, that it is an int, and
that in a shader it is known, or a constant for cooperative matrices. -/
def constantRequirements (d : Declarations) (i : Instruction) (index : Nat) (subject : Subject)
    (area : ConstantArea) : List Requirement := [
  .under i subject "SPIRV-Instruction-MissingOperand" (∃ id, i.operand? index = some id),
  .under i subject ("SPIRV-" ++ area.name ++ "-Type")
    (∀ id, i.operand? index = some id → d.fold id ≠ .notInt32),
  .under i subject ("SPIRV-" ++ area.name ++ "-NotConstant")
    (∀ id, i.operand? index = some id → d.fold id = .runtime → d.has .shader = true →
      d.has .cooperativeMatrixNV = true),
  .under i subject ("SPIRV-" ++ area.name ++ "-NotConstantInstruction")
    (∀ id, i.operand? index = some id → d.fold id = .runtime → d.has .shader = true →
      d.isConstant id = true)]

/-- What is required of a scope of either kind: that its value is one of the seven, and that the table
allows it. -/
def scopeRequirements (d : Declarations) (i : Instruction) (index : Nat) (subject : Subject) : List Requirement :=
  d.constantRequirements i index subject .scope ++ [
    .under i subject "SPIRV-Scope-Unknown" (∀ value, d.FoldsTo i index value → value ≤ 6),
    .under i subject "SPIRV-Scope-Capability" (d.FoldsTo i index 6 → d.has .rayTracingKHR = true)]

/-- What is required of a memory scope, in the order in which it is looked at. -/
def memoryScopeRequirements (d : Declarations) (i : Instruction) (index : Nat) : List Requirement :=
  d.scopeRequirements i index .memoryScope ++ [
    .under i .memoryScope "SPIRV-MemoryScope-QueueFamily"
      (d.FoldsTo i index 5 → d.has .vulkanMemoryModel = true),
    .under i .memoryScope "SPIRV-MemoryScope-DeviceScope"
      (d.FoldsTo i index 1 → d.has .vulkanMemoryModel = true → d.has .vulkanMemoryModelDeviceScope = true),
    .under i .memoryScope "VUID-StandaloneSpirv-None-04638"
      (d.environment.isVulkan = true → ¬ d.FoldsTo i index 0)]

/-- What is required of an execution scope, in the order in which it is looked at. -/
def executionScopeRequirements (d : Declarations) (i : Instruction) (index : Nat) : List Requirement :=
  d.scopeRequirements i index .executionScope ++ [
    .under i .executionScope "VUID-StandaloneSpirv-None-04636"
      (d.environment.isVulkan = true → ∀ value, d.FoldsTo i index value → value = 2 ∨ value = 3)]

/-! ## What the operand holds -/

theorem foldsTo_iff_of_constantOperand {value? : Option Word}
    (h : d.constantOperand i index subject area = .ok value?) (value : Word) :
    d.FoldsTo i index value ↔ value? = some value := by
  obtain ⟨id, hid, ⟨hfold, rfl, -⟩ | ⟨known, hfold, rfl⟩⟩ := constantOperand_eq_ok_iff.mp h
  · simp [FoldsTo, hid, hfold]
  · simp [FoldsTo, hid, hfold]

theorem foldsTo_iff_of_scopeOperand {scope? : Option Scope}
    (h : d.scopeOperand i index subject = .ok scope?) (value : Word) :
    d.FoldsTo i index value ↔ ∃ scope, scope? = some scope ∧ value = scope.word := by
  rcases scopeOperand_eq_ok_iff.mp h with ⟨hvalue, rfl⟩ | ⟨known, scope, hvalue, hscope, -, rfl⟩
  · simp [foldsTo_iff_of_constantOperand hvalue]
  · have hknown : known = scope.word := by
      rw [← UInt32.toNat_inj, Scope.toNat_word, Scope.ofCode?_eq_some_iff.mp hscope]
    simp [foldsTo_iff_of_constantOperand hvalue, hknown, eq_comm]

/-! ## The checks enforce the requirements -/

theorem constantOperand_enforces :
    Enforces (d.constantOperand i index subject area) (d.constantRequirements i index subject area) := by
  rw [constantOperand, Instruction.required]
  cases hid : i.operand? index with
  | none => exact .unmet (by simp [Requirement.under, hid]) ⟨rfl, rfl, rfl⟩
  | some id =>
    refine .met ⟨id, hid⟩ ?_
    rw [Except.ok_bind]
    cases hfold : d.fold id with
    | notInt32 => exact .unmet (fun h => h id hid hfold) ⟨rfl, rfl, by cases area <;> rfl⟩
    | constant value => exact .of_forall_met (some value) (by simp [Requirement.under, hid, hfold])
    | runtime =>
      refine .met (by simp [Requirement.under, hid, hfold]) ?_
      have hjudge : Enforces (i.judge subject (d.runtimeFaults id area))
          ((d.constantRequirements i index subject area).drop 2) := by
        refine .judge_cons ?_ ⟨rfl, rfl, by cases area <;> rfl⟩ <|
          .judge_cons ?_ ⟨rfl, rfl, by cases area <;> rfl⟩ .judge_nil
        · simp [Requirement.under, hid, hfold]
        · simp [Requirement.under, hid, hfold]
      exact hjudge.bind fun _ _ => .done none

theorem scopeOperand_enforces :
    Enforces (d.scopeOperand i index subject) (d.scopeRequirements i index subject) := by
  refine constantOperand_enforces.bind fun value? hvalue => ?_
  have hfolds := foldsTo_iff_of_constantOperand hvalue
  cases value? with
  | none => exact .of_forall_met none (by simp [Requirement.under, hfolds])
  | some value =>
    cases hscope : Scope.ofCode? value.toNat with
    | none =>
      have hlarge : ¬ value ≤ 6 := by
        rw [UInt32.le_iff_toNat_le]
        exact Nat.not_le.mpr (Scope.ofCode?_eq_none_iff.mp hscope)
      simp only [hscope]
      exact .unmet (by simpa [Requirement.under, hfolds] using hlarge) ⟨rfl, rfl, rfl⟩
    | some scope =>
      have hvalue : value = scope.word := by
        rw [← UInt32.toNat_inj, Scope.toNat_word, Scope.ofCode?_eq_some_iff.mp hscope]
      have hjudge : Enforces (i.judge subject [⟨!d.enables scope.requires, .scopeNotEnabled scope⟩])
          [.under i subject "SPIRV-Scope-Capability" (d.FoldsTo i index 6 → d.has .rayTracingKHR = true)] := by
        refine .judge_cons ?_ ⟨rfl, rfl, rfl⟩ .judge_nil
        simp only [Requirement.under, hfolds, Option.some.injEq, hvalue]
        cases scope <;> simp [Scope.word, Scope.code, Scope.requires, Scope.enumerant, enables, hasAny]
      simp only [hscope]
      refine .met ?_ (hjudge.bind fun _ _ => .done (some scope))
      simp only [Requirement.under, hfolds, Option.some.injEq, forall_eq', hvalue]
      cases scope <;> decide

theorem checkMemoryScope_enforces :
    Enforces (d.checkMemoryScope i index) (d.memoryScopeRequirements i index) := by
  refine scopeOperand_enforces.bind fun scope? hscope => ?_
  have hfolds : ∀ s : Scope, d.FoldsTo i index s.word ↔ scope? = some s := by
    intro s
    simp [foldsTo_iff_of_scopeOperand hscope, Scope.word_injective.eq_iff]
  have hqueue : d.FoldsTo i index 5 ↔ scope? = some .queueFamily := hfolds .queueFamily
  have hdevice : d.FoldsTo i index 1 ↔ scope? = some .device := hfolds .device
  have hcross : d.FoldsTo i index 0 ↔ scope? = some .crossDevice := hfolds .crossDevice
  cases scope? with
  | none => exact .of_forall_met () (by simp [Requirement.under, hqueue, hdevice, hcross])
  | some scope =>
    refine .judge_cons ?_ ⟨rfl, rfl, rfl⟩ <| .judge_cons ?_ ⟨rfl, rfl, rfl⟩ <|
      .judge_cons ?_ ⟨rfl, rfl, rfl⟩ .judge_nil
    · simp [Requirement.under, hqueue]
    · simp [Requirement.under, hdevice]
    · cases d.environment.isVulkan <;> simp [Requirement.under, hcross]

theorem checkExecutionScope_enforces :
    Enforces (d.checkExecutionScope i index) (d.executionScopeRequirements i index) := by
  refine scopeOperand_enforces.bind fun scope? hscope => ?_
  have hfolds := foldsTo_iff_of_scopeOperand hscope
  cases scope? with
  | none => exact .of_forall_met () (by simp [Requirement.under, hfolds])
  | some scope =>
    have hworkgroup : scope.word = 2 ↔ scope = .workgroup := Scope.word_injective.eq_iff (b := .workgroup)
    have hsubgroup : scope.word = 3 ↔ scope = .subgroup := Scope.word_injective.eq_iff (b := .subgroup)
    have hvalue : ∀ value, d.FoldsTo i index value ↔ value = scope.word := by simp [hfolds]
    refine .judge_cons ?_ ⟨rfl, rfl, rfl⟩ .judge_nil
    simp only [Requirement.under, hvalue, forall_eq, hworkgroup, hsubgroup]
    simp [Decidable.imp_iff_not_or, or_assoc]

/-! ## Accepted scopes -/

/-- A value that is not known may be used: outside shaders, and for cooperative matrices if it is a constant
that is chosen at specialization. -/
def AllowsRuntime (d : Declarations) (id : Id) : Prop :=
  d.has .shader = false ∨ d.has .cooperativeMatrixNV = true ∧ d.isConstant id = true

/-- A value that may be used as a memory scope. -/
structure AllowsMemoryScope (d : Declarations) (value : Word) : Prop where
  known : value ≤ 6
  shaderCall : value = 6 → d.has .rayTracingKHR = true
  queueFamily : value = 5 → d.has .vulkanMemoryModel = true
  device : value = 1 → d.has .vulkanMemoryModel = true → d.has .vulkanMemoryModelDeviceScope = true
  environment : d.environment.isVulkan = true → value ≠ 0

/-- A value that may be used as an execution scope. -/
structure AllowsExecutionScope (d : Declarations) (value : Word) : Prop where
  known : value ≤ 6
  shaderCall : value = 6 → d.has .rayTracingKHR = true
  environment : d.environment.isVulkan = true → value = 2 ∨ value = 3

/-- An operand is as required if its value may stay unknown, or is known and one of those that may be used. -/
theorem forall_constantRequirements_met_iff {P : Word → Prop} :
    ((∀ r ∈ d.constantRequirements i index subject area, r.met) ∧ ∀ value, d.FoldsTo i index value → P value) ↔
      ∃ id, i.operand? index = some id ∧
        (d.fold id = .runtime ∧ d.AllowsRuntime id ∨ ∃ value, d.fold id = .constant value ∧ P value) := by
  simp only [constantRequirements, Requirement.under, List.forall_mem_cons, FoldsTo, AllowsRuntime]
  cases hid : i.operand? index with
  | none => simp
  | some id =>
    simp only [Option.some.injEq, forall_eq', exists_eq_left', exists_eq', true_and]
    cases hfold : d.fold id with
    | notInt32 => simp
    | runtime => cases d.has .shader <;> simp
    | constant value => simp

theorem forall_memoryScopeRequirements_met_iff : (∀ r ∈ d.memoryScopeRequirements i index, r.met) ↔
    (∀ r ∈ d.constantRequirements i index .memoryScope .scope, r.met) ∧
      ∀ value, d.FoldsTo i index value → d.AllowsMemoryScope value := by
  simp only [memoryScopeRequirements, scopeRequirements, List.forall_mem_append, List.forall_mem_cons,
    Requirement.under]
  constructor
  · intro h
    obtain ⟨⟨hconstant, hknown, hcall, -⟩, hqueue, hdevice, hcross, -⟩ := h
    refine ⟨hconstant, fun value hvalue => ⟨hknown value hvalue, ?_, ?_, ?_, ?_⟩⟩
    · rintro rfl
      exact hcall hvalue
    · rintro rfl
      exact hqueue hvalue
    · rintro rfl
      exact hdevice hvalue
    · rintro hvulkan rfl
      exact hcross hvulkan hvalue
  · intro h
    obtain ⟨hconstant, hvalue⟩ := h
    exact ⟨⟨hconstant, fun v hv => (hvalue v hv).known, fun hv => (hvalue 6 hv).shaderCall rfl, by simp⟩,
      fun hv => (hvalue 5 hv).queueFamily rfl, fun hv => (hvalue 1 hv).device rfl,
      fun hvulkan hv => (hvalue 0 hv).environment hvulkan rfl, by simp⟩

theorem forall_executionScopeRequirements_met_iff : (∀ r ∈ d.executionScopeRequirements i index, r.met) ↔
    (∀ r ∈ d.constantRequirements i index .executionScope .scope, r.met) ∧
      ∀ value, d.FoldsTo i index value → d.AllowsExecutionScope value := by
  simp only [executionScopeRequirements, scopeRequirements, List.forall_mem_append, List.forall_mem_cons,
    Requirement.under]
  constructor
  · intro h
    obtain ⟨⟨hconstant, hknown, hcall, -⟩, hvulkan, -⟩ := h
    refine ⟨hconstant, fun value hvalue => ⟨hknown value hvalue, ?_, fun hv => hvulkan hv value hvalue⟩⟩
    rintro rfl
    exact hcall hvalue
  · intro h
    obtain ⟨hconstant, hvalue⟩ := h
    exact ⟨⟨hconstant, fun v hv => (hvalue v hv).known, fun hv => (hvalue 6 hv).shaderCall rfl, by simp⟩,
      fun hvulkan v hv => (hvalue v hv).environment hvulkan, by simp⟩

/-- **The scopes that are accepted, and what is told of the others.** Whatever is declared, an operand of an
instruction is accepted as a memory scope, or as an execution scope, if and only if it is there, and its
value either may stay unknown, or is known and one of those allowed for the kind. An operand that is not
accepted is told of with the opcode of the instruction, under the rule of the first requirement that it does
not meet. -/
theorem checkScopes_exact (d : Declarations) (i : Instruction) (index : Nat) :
    (d.checkMemoryScope i index = .ok () ↔ ∃ id, i.operand? index = some id ∧
      (d.fold id = .runtime ∧ d.AllowsRuntime id ∨
        ∃ value, d.fold id = .constant value ∧ d.AllowsMemoryScope value)) ∧
    (d.checkExecutionScope i index = .ok () ↔ ∃ id, i.operand? index = some id ∧
      (d.fold id = .runtime ∧ d.AllowsRuntime id ∨
        ∃ value, d.fold id = .constant value ∧ d.AllowsExecutionScope value)) ∧
    (∀ earlier r later, d.memoryScopeRequirements i index = earlier ++ r :: later →
      (∀ q ∈ earlier, q.met) → ¬ r.met → ∃ v, d.checkMemoryScope i index = .error v ∧ r.told v) ∧
    (∀ earlier r later, d.executionScopeRequirements i index = earlier ++ r :: later →
      (∀ q ∈ earlier, q.met) → ¬ r.met → ∃ v, d.checkExecutionScope i index = .error v ∧ r.told v) := by
  refine ⟨?_, ?_, fun _ _ _ => checkMemoryScope_enforces.error_of_first,
    fun _ _ _ => checkExecutionScope_enforces.error_of_first⟩
  · rw [checkMemoryScope_enforces.eq_ok_iff, forall_memoryScopeRequirements_met_iff,
      forall_constantRequirements_met_iff]
  · rw [checkExecutionScope_enforces.eq_ok_iff, forall_executionScopeRequirements_met_iff,
      forall_constantRequirements_met_iff]

end Declarations

end SpirvAudit
