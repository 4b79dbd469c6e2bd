/-
What registering instructions makes of the declarations.

One registration first. Whether an instruction can be registered is a matter
of its own operands (`Instruction.Registrable`), and what it changes is said
once, component by component (`Declarations.Registers`). Then any sequence of
registrations (`registerEach`): the declared capabilities are those reached
from a capability some instruction names, and the models are those of the last
instruction that declares any.
-/
import SpirvAudit.Declarations
import SpirvAudit.Proofs.Closure
import SpirvAudit.Proofs.Verdict

namespace SpirvAudit

open Capability (Reaches implies)

namespace Instruction

/-- The capability that an instruction declares by name, if it is a known one. -/
def capability? (i : Instruction) : Option Capability :=
  if i.opcode = .opCapability then (i.operand? 0).bind fun code => Capability.ofCode? code.toNat else none

/-- The addressing model that the operands of `OpMemoryModel` name, if it is a known one. -/
def addressingModel? (i : Instruction) : Option AddressingModel :=
  (i.operand? 0).bind fun code => AddressingModel.ofCode? code.toNat

/-- The memory model that the operands of `OpMemoryModel` name, if it is a known one. -/
def memoryModel? (i : Instruction) : Option MemoryModel :=
  (i.operand? 1).bind fun code => MemoryModel.ofCode? code.toNat

/-- The operands that registering an instruction reads are there. -/
structure Registrable (i : Instruction) : Prop where
  capability : i.opcode = .opCapability → (i.operand? 0).isSome = true
  extension : i.opcode = .opExtension → ∃ name, i.string 0 = .ok name
  models : i.opcode = .opMemoryModel → (i.operand? 0).isSome = true ∧ (i.operand? 1).isSome = true

theorem WellFormed.result?_eq_none {i : Instruction} (hi : i.WellFormed) (h : i.opcode.hasResult = false) :
    i.result? = none := by
  have hresult := hi.result
  rw [h] at hresult
  exact Option.isNone_iff_eq_none.mp (Option.isSome_eq_false_iff.mp hresult)

theorem required_eq_ok_of_isSome {i : Instruction} {index : Nat} {subject : Subject}
    (h : (i.operand? index).isSome = true) : ∃ word, i.required index subject = .ok word := by
  obtain ⟨word, hword⟩ := Option.isSome_iff_exists.mp h
  exact ⟨word, required_eq_ok_iff.mpr hword⟩

end Instruction

/-- An instruction of the list names a capability that is `c` or implies it. -/
def Declares (is : List Instruction) (c : Capability) : Prop :=
  ∃ i ∈ is, ∃ a, i.capability? = some a ∧ Reaches implies a c

theorem Declares.mono {is js : List Instruction} {c : Capability} (h : ∀ i ∈ is, i ∈ js)
    (hc : Declares is c) : Declares js c := by
  obtain ⟨i, hi, hnames⟩ := hc
  exact ⟨i, h i hi, hnames⟩

/-- Something that depends on these capabilities may be used after the list. -/
def Enabled (is : List Instruction) (cs : List Capability) : Prop := cs = [] ∨ ∃ c ∈ cs, Declares is c

namespace Declarations

variable {d d' : Declarations} {i : Instruction} {is : List Instruction} {c : Capability}

/-! ## One registration -/

/-- How the declarations change when an instruction is registered. -/
structure Registers (d : Declarations) (i : Instruction) (d' : Declarations) : Prop where
  environment : d'.environment = d.environment
  has : ∀ c, d'.has c = true ↔ d.has c = true ∨ ∃ a, i.capability? = some a ∧ Reaches implies a c
  hasExtension : ∀ name, d'.hasExtension name = true ↔
    d.hasExtension name = true ∨ i.opcode = .opExtension ∧ i.string 0 = .ok name
  addressingModel? : d'.addressingModel? =
    if i.opcode = .opMemoryModel then i.addressingModel? else d.addressingModel?
  memoryModel? : d'.memoryModel? = if i.opcode = .opMemoryModel then i.memoryModel? else d.memoryModel?
  memoryModelCount : d'.memoryModelCount = d.memoryModelCount + if i.opcode = .opMemoryModel then 1 else 0
  definition? : ∀ id, d'.definition? id =
    (d.definition? id).or (if i.result? = some id then some (.ofInstruction i) else none)

/-- Defining an id changes the definitions only. -/
theorem define_eq (d : Declarations) (id : Id) (x : Definition) :
    ∃ l, d.define id x = { d with definitions := l } := by
  rw [define]
  split
  · exact ⟨d.definitions, rfl⟩
  · exact ⟨_, rfl⟩

/-- Everything that recording what an instruction declares can do. -/
theorem registerDeclaration_cases (h : d.registerDeclaration i = .ok d') :
    (∃ code, i.opcode = .opCapability ∧ i.operand? 0 = some code ∧
      d' = (Capability.ofCode? code.toNat).elim d d.declare) ∨
    (∃ name, i.opcode = .opExtension ∧ i.string 0 = .ok name ∧
      d' = { d with extensions := name :: d.extensions }) ∨
    (i.opcode = .opMemoryModel ∧ (i.operand? 0).isSome = true ∧ (i.operand? 1).isSome = true ∧
      d' = { d with
        addressingModel? := i.addressingModel?
        memoryModel? := i.memoryModel?
        memoryModelCount := d.memoryModelCount + 1 }) ∨
    (i.opcode ≠ .opCapability ∧ i.opcode ≠ .opExtension ∧ i.opcode ≠ .opMemoryModel ∧ d' = d) := by
  unfold registerDeclaration at h
  split at h
  next hop =>
    obtain ⟨code, hcode, h⟩ := Except.bind_eq_ok_iff.mp h
    exact .inl ⟨code, hop, Instruction.required_eq_ok_iff.mp hcode, (Except.pure_eq_ok_iff.mp h).symm⟩
  next hop =>
    split at h
    next name hname => exact .inr (.inl ⟨name, hop, hname, (Except.ok.inj h).symm⟩)
    · cases h
  next hop =>
    obtain ⟨a, ha, h⟩ := Except.bind_eq_ok_iff.mp h
    obtain ⟨m, hm, h⟩ := Except.bind_eq_ok_iff.mp h
    rw [Instruction.required_eq_ok_iff] at ha hm
    obtain rfl := Except.pure_eq_ok_iff.mp h
    exact .inr (.inr (.inl ⟨hop, by simp [ha], by simp [hm], by
      simp [Instruction.addressingModel?, Instruction.memoryModel?, ha, hm]⟩))
  next hcap hext hmodel => exact .inr (.inr (.inr ⟨hcap, hext, hmodel, (Except.ok.inj h).symm⟩))

/-- Whether an instruction can be registered does not depend on what is declared. -/
theorem registerDeclaration_isOk_iff (d : Declarations) (i : Instruction) :
    (∃ d', d.registerDeclaration i = .ok d') ↔ i.Registrable := by
  constructor
  · intro h
    obtain ⟨d', h⟩ := h
    rcases registerDeclaration_cases h with ⟨code, hop, hcode, -⟩ | ⟨name, hop, hname, -⟩ |
      ⟨hop, ha, hm, -⟩ | ⟨hcap, hext, hmodel, -⟩
    · exact ⟨fun _ => by simp [hcode], by simp [hop], by simp [hop]⟩
    · exact ⟨by simp [hop], fun _ => ⟨name, hname⟩, by simp [hop]⟩
    · exact ⟨by simp [hop], by simp [hop], fun _ => ⟨ha, hm⟩⟩
    · exact ⟨fun h => absurd h hcap, fun h => absurd h hext, fun h => absurd h hmodel⟩
  · intro hi
    unfold registerDeclaration
    split
    next hop =>
      obtain ⟨code, hcode⟩ := Instruction.required_eq_ok_of_isSome (hi.capability hop)
      exact ⟨_, by rw [hcode]; rfl⟩
    next hop =>
      obtain ⟨name, hname⟩ := hi.extension hop
      exact ⟨_, by rw [hname]⟩
    next hop =>
      obtain ⟨ha, hm⟩ := hi.models hop
      obtain ⟨a, ha⟩ := Instruction.required_eq_ok_of_isSome ha
      obtain ⟨m, hm⟩ := Instruction.required_eq_ok_of_isSome hm
      exact ⟨_, by rw [ha, hm]; rfl⟩
    · exact ⟨d, rfl⟩

theorem register_isOk_iff (d : Declarations) (i : Instruction) :
    (∃ d', d.register i = .ok d') ↔ i.Registrable := by
  rw [← registerDeclaration_isOk_iff d i, register]
  cases d.registerDeclaration i <;> simp [pure, Except.pure]

theorem capability?_eq_none (h : i.opcode ≠ .opCapability) : i.capability? = none := if_neg h

/-- Recording what an instruction declares changes what `Registers` says, and no definition. -/
theorem registers_of_registerDeclaration {l : List (Id × Definition)}
    (h : d.registerDeclaration i = .ok d')
    (hl : ∀ id, ({ d' with definitions := l } : Declarations).definition? id =
      (d'.definition? id).or (if i.result? = some id then some (.ofInstruction i) else none)) :
    d.Registers i { d' with definitions := l } := by
  rcases registerDeclaration_cases h with ⟨code, hop, hcode, rfl⟩ | ⟨name, hop, hname, rfl⟩ |
    ⟨hop, -, -, rfl⟩ | ⟨hcap, hext, hmodel, rfl⟩
  · have hc : i.capability? = Capability.ofCode? code.toNat := by
      rw [Instruction.capability?, if_pos hop, hcode, Option.bind_some]
    cases ha : Capability.ofCode? code.toNat with
    | none =>
      rw [ha] at hc hl
      exact ⟨rfl, by simp [hc, has], by simp [hop, hasExtension], by simp [hop], by simp [hop],
        by simp [hop], hl⟩
    | some a =>
      rw [ha] at hc hl
      refine ⟨rfl, fun c => ?_, by simp [hop, hasExtension, declare], by simp [hop, declare],
        by simp [hop, declare], by simp [hop, declare], hl⟩
      have := has_declare d a c
      simp only [Capability.mem_implied_iff] at this
      simpa [hc, has, or_comm] using this
  · refine ⟨rfl, by simp [capability?_eq_none, hop, has], fun name' => ?_, by simp [hop], by simp [hop],
      by simp [hop], hl⟩
    have heq : name = name' ↔ name' = name := eq_comm
    simp [hop, hasExtension, hname, heq, or_comm]
  · exact ⟨rfl, by simp [capability?_eq_none, hop, has], by simp [hop, hasExtension], by simp [hop],
      by simp [hop], by simp [hop], hl⟩
  · exact ⟨rfl, by simp [capability?_eq_none hcap, has], by simp [hext, hasExtension], by simp [hmodel],
      by simp [hmodel], by simp [hmodel], hl⟩

theorem register_registers (h : d.register i = .ok d') : d.Registers i d' := by
  obtain ⟨d₁, h₁, h⟩ := Except.bind_eq_ok_iff.mp h
  obtain rfl := Except.pure_eq_ok_iff.mp h
  cases hr : i.result? with
  | none => exact registers_of_registerDeclaration (l := d₁.definitions) h₁ (by simp [hr])
  | some id =>
    obtain ⟨l, hl⟩ := define_eq d₁ id (.ofInstruction i)
    rw [Option.elim_some, hl]
    refine registers_of_registerDeclaration h₁ fun id' => ?_
    rw [← hl, definition?_define, hr]
    simp [eq_comm]

/-! ## Any sequence of registrations -/

/-- The declarations after an instruction. One that cannot be registered is passed over. -/
def registerOrSkip (d : Declarations) (i : Instruction) : Declarations :=
  match d.register i with
  | .ok d' => d'
  | .error _ => d

/-- The declarations after the instructions, registered in their order. -/
def registerEach (d : Declarations) (is : List Instruction) : Declarations := is.foldl registerOrSkip d

theorem register_eq_ok_iff : d.register i = .ok d' ↔ i.Registrable ∧ d.registerOrSkip i = d' := by
  rw [← register_isOk_iff d i, registerOrSkip]
  cases d.register i <;> simp

theorem registerOrSkip_registers (hi : i.Registrable) : d.Registers i (d.registerOrSkip i) :=
  register_registers (register_eq_ok_iff.mpr ⟨hi, rfl⟩)

theorem registerOrSkip_of_not_registrable (hi : ¬ i.Registrable) : d.registerOrSkip i = d := by
  rw [registerOrSkip]
  split
  next h => exact absurd (register_eq_ok_iff.mp h).1 hi
  · rfl

@[simp] theorem registerEach_nil : d.registerEach [] = d := rfl

@[simp] theorem registerEach_cons :
    d.registerEach (i :: is) = (d.registerOrSkip i).registerEach is := rfl

theorem registerEach_append (is js : List Instruction) :
    d.registerEach (is ++ js) = (d.registerEach is).registerEach js := List.foldl_append

/-- Registering changes what an instruction changes, unless it cannot be registered. -/
theorem registerOrSkip_induction {P : Declarations → Prop} (h : ∀ d', d.Registers i d' → P d') (hd : P d) :
    P (d.registerOrSkip i) := by
  by_cases hi : i.Registrable
  · exact h _ (registerOrSkip_registers hi)
  · rwa [registerOrSkip_of_not_registrable hi]

@[simp] theorem environment_registerOrSkip : (d.registerOrSkip i).environment = d.environment :=
  registerOrSkip_induction (P := fun d' => d'.environment = d.environment) (fun _ h => h.environment) rfl

@[simp] theorem environment_registerEach : (d.registerEach is).environment = d.environment := by
  induction is generalizing d with
  | nil => rfl
  | cons i is ih => rw [registerEach_cons, ih, environment_registerOrSkip]

/-! ## Capabilities -/

theorem capability?_eq_some_iff {a : Capability} : i.capability? = some a ↔
    i.opcode = .opCapability ∧ ∃ code, i.operand? 0 = some code ∧ a.code = code.toNat := by
  unfold Instruction.capability?
  split
  next hop => simp [hop, Option.bind_eq_some_iff, Capability.ofCode?_eq_some_iff]
  next hop => simp [hop]

theorem opcode_of_capability? {a : Capability} (h : i.capability? = some a) : i.opcode = .opCapability :=
  (capability?_eq_some_iff.mp h).1

/-- An instruction that names a capability can be registered. -/
theorem registrable_of_capability? {a : Capability} (h : i.capability? = some a) : i.Registrable := by
  obtain ⟨hop, code, hcode, -⟩ := capability?_eq_some_iff.mp h
  exact ⟨fun _ => by simp [hcode], by simp [hop], by simp [hop]⟩

theorem has_registerOrSkip :
    (d.registerOrSkip i).has c = true ↔
      d.has c = true ∨ ∃ a, i.capability? = some a ∧ Reaches implies a c := by
  by_cases hi : i.Registrable
  · exact (registerOrSkip_registers hi).has c
  · rw [registerOrSkip_of_not_registrable hi, or_iff_left]
    intro h
    obtain ⟨a, ha, -⟩ := h
    exact hi (registrable_of_capability? ha)

/-- What is declared after the instructions was declared before, or by one of them. -/
theorem has_registerEach : (d.registerEach is).has c = true ↔ d.has c = true ∨ Declares is c := by
  induction is generalizing d with
  | nil => simp [Declares]
  | cons i is ih => rw [registerEach_cons, ih, has_registerOrSkip]; simp [Declares, or_assoc]

theorem has_initial (env : Environment) (c : Capability) : (initial env).has c = false := rfl

theorem has_registerEach_initial {env : Environment} :
    ((initial env).registerEach is).has c = true ↔ Declares is c := by
  simp [has_registerEach, has_initial]

theorem enables_registerEach_initial {env : Environment} {cs : List Capability} :
    ((initial env).registerEach is).enables cs = true ↔ Enabled is cs := by
  simp [enables, hasAny, Enabled, has_registerEach_initial]

/-! ## Models -/

/-- A list that declares no models leaves them alone. -/
theorem memoryModel?_registerEach_of_forall_ne (h : ∀ i ∈ is, i.opcode ≠ .opMemoryModel) :
    (d.registerEach is).memoryModel? = d.memoryModel? := by
  induction is generalizing d with
  | nil => rfl
  | cons i is ih =>
    obtain ⟨hi, his⟩ := List.forall_mem_cons.mp h
    rw [registerEach_cons, ih his]
    exact registerOrSkip_induction (P := fun d' => d'.memoryModel? = d.memoryModel?)
      (fun _ hr => hr.memoryModel?.trans (if_neg hi)) rfl

/-- Where at most one instruction declares a memory model, it is the one that counts. -/
theorem memoryModel?_registerEach_of_mem (hone : is.countP (fun j => j.opcode = .opMemoryModel) ≤ 1)
    (hi : i ∈ is) (hreg : i.Registrable) (hop : i.opcode = .opMemoryModel) :
    (d.registerEach is).memoryModel? = i.memoryModel? := by
  obtain ⟨front, back, rfl⟩ := List.append_of_mem hi
  rw [List.countP_append, List.countP_cons_of_pos (by simp [hop])] at hone
  have hnone : back.countP (fun j => j.opcode = .opMemoryModel) = 0 := by omega
  have hback : ∀ j ∈ back, j.opcode ≠ .opMemoryModel := by simpa using List.countP_eq_zero.mp hnone
  rw [registerEach_append, registerEach_cons, memoryModel?_registerEach_of_forall_ne hback,
    (registerOrSkip_registers hreg).memoryModel?, if_pos hop]

theorem memoryModelCount_registerEach (h : ∀ i ∈ is, i.Registrable) :
    (d.registerEach is).memoryModelCount =
      d.memoryModelCount + is.countP (fun i => i.opcode = .opMemoryModel) := by
  induction is generalizing d with
  | nil => rfl
  | cons i is ih =>
    obtain ⟨hi, his⟩ := List.forall_mem_cons.mp h
    rw [registerEach_cons, ih his, (registerOrSkip_registers hi).memoryModelCount, List.countP_cons]
    simp only [decide_eq_true_eq]
    omega

theorem memoryModelCount_registerEach_initial {env : Environment} (h : ∀ i ∈ is, i.Registrable) :
    ((initial env).registerEach is).memoryModelCount = is.countP fun i => i.opcode = .opMemoryModel := by
  rw [memoryModelCount_registerEach h]
  exact Nat.zero_add _

end Declarations

end SpirvAudit
