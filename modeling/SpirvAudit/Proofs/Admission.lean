/-
Which modules are accepted, when they have no atomics and no barriers.

What is left to check of such a module is what it declares: its version, its
capabilities, its one memory model, and that every opcode and every gated
operand depends only on capabilities declared so far. `Module.Admissible` says
it of the list of instructions alone, with no declarations to keep, and the
audit accepts exactly the admissible modules (`audit_eq_ok_iff_admissible`).
-/
import SpirvAudit.Proofs.Walk

namespace SpirvAudit

/-- A gated operand of an opcode: where it stands, and the kind of its value. -/
structure GatedOperand where
  opcode : Opcode
  index : Nat
  kind : OperandKind
deriving DecidableEq, Repr

namespace GatedOperand

/-- All operands with gated values. -/
def all : List GatedOperand := [
  ⟨.opMemoryModel, 0, .addressingModel⟩,
  ⟨.opMemoryModel, 1, .memoryModel⟩,
  ⟨.opEntryPoint, 0, .executionModel⟩,
  ⟨.opExecutionMode, 1, .executionMode⟩,
  ⟨.opTypeImage, 1, .dim⟩,
  ⟨.opTypePointer, 0, .storageClass⟩,
  ⟨.opVariable, 0, .storageClass⟩,
  ⟨.opDecorate, 1, .decoration⟩,
  ⟨.opMemberDecorate, 2, .decoration⟩,
  ⟨.opExecutionModeId, 1, .executionMode⟩,
  ⟨.opDecorateId, 1, .decoration⟩]

/-- The table has the gates of every opcode, in the order of the opcodes. -/
theorem all_eq : all = Opcode.all.flatMap fun op => op.gates.map fun g => ⟨op, g.index, g.kind⟩ := by cbv

theorem mem_all_iff {o : GatedOperand} : o ∈ all ↔ ∃ g ∈ o.opcode.gates, g.index = o.index ∧ g.kind = o.kind := by
  rw [all_eq]
  simp only [List.mem_flatMap, List.mem_map, Opcode.mem_all, true_and]
  constructor
  · intro h
    obtain ⟨op, g, hg, rfl⟩ := h
    exact ⟨g, hg, rfl, rfl⟩
  · intro h
    obtain ⟨g, hg, hindex, hkind⟩ := h
    exact ⟨o.opcode, g, hg, by rw [hindex, hkind]⟩

/-- A gated operand has one value, so the capabilities are those of a row. -/
theorem requires?_kind {o : GatedOperand} (ho : o ∈ all) (code : Nat) :
    o.kind.requires? code = (o.kind.find? code).map (·.capabilities) := by
  have hkind : ∀ o ∈ all, o.kind ≠ .memorySemantics := by decide
  rw [OperandKind.requires?]
  exact hkind o ho

end GatedOperand

namespace Declarations

variable {d : Declarations} {i : Instruction}

/-- The gates of an instruction, told by the table of gated operands. -/
theorem checkGates_eq_ok_iff :
    (∀ g ∈ i.opcode.gates, d.checkGate i g = .ok ()) ↔
      ∀ o ∈ GatedOperand.all, o.opcode = i.opcode → ∃ word cs, i.operand? o.index = some word ∧
        o.kind.requires? word.toNat = some cs ∧ d.enables cs = true := by
  simp only [checkGate_eq_ok_iff]
  constructor
  · intro h o ho hop
    obtain ⟨g, hg, hindex, hkind⟩ := GatedOperand.mem_all_iff.mp ho
    obtain ⟨word, row, hword, hrow, hrequires⟩ := h g (hop ▸ hg)
    rw [hindex] at hword
    rw [hkind] at hrow
    exact ⟨word, row.capabilities, hword, by rw [GatedOperand.requires?_kind ho, hrow]; rfl, hrequires⟩
  · intro h g hg
    have ho : ⟨i.opcode, g.index, g.kind⟩ ∈ GatedOperand.all := GatedOperand.mem_all_iff.mpr ⟨g, hg, rfl, rfl⟩
    obtain ⟨word, cs, hword, hcs, hrequires⟩ := h _ ho rfl
    rw [GatedOperand.requires?_kind ho] at hcs
    obtain ⟨row, hrow, rfl⟩ := Option.map_eq_some_iff.mp hcs
    exact ⟨word, row, hword, hrow, hrequires⟩

/-- Beyond its opcode and its gates, little is checked of an instruction that does not synchronize. -/
theorem checkEffect_eq_ok_iff (hatomic : i.opcode.isAtomic = false) (hbarrier : i.opcode.isBarrier = false) :
    d.checkEffect i = .ok () ↔ (i.opcode = .opCapability → ∃ c, i.capability? = some c) ∧
      (i.opcode = .opMemoryModel → d.memoryModelCount ≤ 1) := by
  unfold checkEffect
  split
  next hop => rw [checkCapability_eq_ok_iff hop]; simp [hop]
  next hop => rw [checkFirstMemoryModel_eq_ok_iff]; simp [hop]
  next hop => rw [hop] at hbarrier; cases hbarrier
  next hop => rw [hop] at hbarrier; cases hbarrier
  next hop => rw [hop] at hbarrier; cases hbarrier
  next hcapability hmodel _ _ _ =>
    simp only [hatomic, Bool.false_eq_true, if_false, true_iff]
    exact ⟨fun h => absurd h hcapability, fun h => absurd h hmodel⟩

end Declarations

namespace Module

open Declarations

variable {env : Environment} {m : Module}

/-- What a module has to declare, and to depend on, without atomics and barriers. -/
structure Admissible (env : Environment) (m : Module) : Prop where
  version : m.version ≤ env.maxVersion
  extensions : ∀ i ∈ m.instructions, i.opcode = .opExtension → ∃ name, i.string 0 = .ok name
  memoryModel : m.memoryModelCount = 1
  capabilities : ∀ i ∈ m.instructions, i.opcode = .opCapability → ∃ c, i.capability? = some c
  opcodes : ∀ n i, m.instructions[n]? = some i → Enabled (m.instructions.take (n + 1)) i.opcode.requires
  operands : ∀ n i, m.instructions[n]? = some i → ∀ o ∈ GatedOperand.all, o.opcode = i.opcode →
    ∃ word cs, i.operand? o.index = some word ∧ o.kind.requires? word.toNat = some cs ∧
      Enabled (m.instructions.take (n + 1)) cs
  vulkan : Declares m.instructions .vulkanMemoryModel →
    ∃ i ∈ m.instructions, i.opcode = .opMemoryModel ∧ i.memoryModel? = some .vulkan

/-! ## Instructions -/

theorem Admissible.registrable (h : m.Admissible env) : ∀ i ∈ m.instructions, i.Registrable := by
  intro i hi
  refine ⟨fun hop => ?_, h.extensions i hi, fun hop => ?_⟩
  · obtain ⟨c, hc⟩ := h.capabilities i hi hop
    exact (registrable_of_capability? hc).capability hop
  · obtain ⟨n, hn⟩ := List.mem_iff_getElem?.mp hi
    obtain ⟨word₀, -, hword₀, -⟩ := h.operands n i hn ⟨.opMemoryModel, 0, .addressingModel⟩ (by decide) hop.symm
    obtain ⟨word₁, -, hword₁, -⟩ := h.operands n i hn ⟨.opMemoryModel, 1, .memoryModel⟩ (by decide) hop.symm
    exact ⟨by rw [hword₀]; rfl, by rw [hword₁]; rfl⟩

/-- The checks of an instruction, told by the instructions up to and including it. -/
theorem check_declarationsAfter_eq_ok_iff {n : Nat} {i : Instruction}
    (hreg : ∀ i ∈ m.instructions, i.Registrable) (hone : m.memoryModelCount = 1)
    (hatomic : i.opcode.isAtomic = false) (hbarrier : i.opcode.isBarrier = false) :
    (m.declarationsAfter env (n + 1)).check i = .ok () ↔
      Enabled (m.instructions.take (n + 1)) i.opcode.requires ∧
      (∀ o ∈ GatedOperand.all, o.opcode = i.opcode → ∃ word cs, i.operand? o.index = some word ∧
        o.kind.requires? word.toNat = some cs ∧ Enabled (m.instructions.take (n + 1)) cs) ∧
      (i.opcode = .opCapability → ∃ c, i.capability? = some c) := by
  have hcount : (m.declarationsAfter env (n + 1)).memoryModelCount ≤ 1 := by
    rw [memoryModelCount_declarationsAfter hreg, ← hone]
    exact (List.take_sublist _ _).countP_le
  rw [check_eq_ok_iff, checkGates_eq_ok_iff, checkEffect_eq_ok_iff hatomic hbarrier]
  simp only [declarationsAfter, enables_registerEach_initial]
  simp only [declarationsAfter] at hcount
  simp only [hcount, implies_true, and_true]

/-! ## The end of a module -/

theorem checkEnd_eq_ok_iff_vulkan (hreg : ∀ i ∈ m.instructions, i.Registrable) (hone : m.memoryModelCount = 1) :
    ((initial env).registerEach m.instructions).checkEnd = .ok () ↔
      (Declares m.instructions .vulkanMemoryModel →
        ∃ i ∈ m.instructions, i.opcode = .opMemoryModel ∧ i.memoryModel? = some .vulkan) := by
  have hcount : ((initial env).registerEach m.instructions).memoryModelCount ≠ 0 := by
    rw [memoryModelCount_registerEach_initial hreg]
    unfold memoryModelCount at hone
    omega
  obtain ⟨i, hi, hop⟩ : ∃ i ∈ m.instructions, i.opcode = .opMemoryModel := by
    simpa using List.countP_pos_iff.mp (Nat.lt_of_lt_of_eq Nat.one_pos hone.symm)
  have hmodel : ∀ j ∈ m.instructions, j.opcode = .opMemoryModel →
      ((initial env).registerEach m.instructions).memoryModel? = j.memoryModel? := fun j hj hop =>
    memoryModel?_registerEach_of_mem (Nat.le_of_eq hone) hj (hreg j hj) hop
  rw [checkEnd_eq_ok_iff, has_registerEach_initial]
  constructor
  · intro h hdeclares
    exact ⟨i, hi, hop, hmodel i hi hop ▸ h.2 hdeclares⟩
  · intro h
    refine ⟨hcount, fun hdeclares => ?_⟩
    obtain ⟨j, hj, hop, hvulkan⟩ := h hdeclares
    rw [hmodel j hj hop, hvulkan]

/-! ## Whole modules -/

/-- **What is accepted without atomics and barriers.** The audit accepts a module that has none of them
exactly when it is admissible. -/
theorem audit_eq_ok_iff_admissible
    (hsync : ∀ i ∈ m.instructions, i.opcode.isAtomic = false ∧ i.opcode.isBarrier = false) :
    m.audit env = .ok () ↔ m.Admissible env := by
  constructor
  · intro h
    have hone := memoryModelCount_eq_one_of_audit h
    obtain ⟨hversion, hreg, hchecks, hend⟩ := audit_eq_ok_iff.mp h
    have hcheck := fun n i hn =>
      have ⟨hatomic, hbarrier⟩ := hsync i (List.mem_of_getElem? hn)
      (check_declarationsAfter_eq_ok_iff hreg hone hatomic hbarrier).mp (hchecks n i hn)
    exact
      { version := hversion
        extensions := fun i hi => (hreg i hi).extension
        memoryModel := hone
        capabilities := fun i hi => by
          obtain ⟨n, hn⟩ := List.mem_iff_getElem?.mp hi
          exact (hcheck n i hn).2.2
        opcodes := fun n i hn => (hcheck n i hn).1
        operands := fun n i hn => (hcheck n i hn).2.1
        vulkan := (checkEnd_eq_ok_iff_vulkan hreg hone).mp hend }
  · intro h
    have hreg := h.registrable
    refine audit_eq_ok_iff.mpr ⟨h.version, hreg, fun n i hn => ?_,
      (checkEnd_eq_ok_iff_vulkan hreg h.memoryModel).mpr h.vulkan⟩
    have hi := List.mem_of_getElem? hn
    obtain ⟨hatomic, hbarrier⟩ := hsync i hi
    exact (check_declarationsAfter_eq_ok_iff hreg h.memoryModel hatomic hbarrier).mpr
      ⟨h.opcodes n i hn, h.operands n i hn, h.capabilities i hi⟩

/-- A module that declares geometry, and depends on shaders. -/
def geometry : Module where
  version := ⟨1, 0⟩
  bound := 3
  instructions := [
    ⟨.opCapability, none, none, [2]⟩,
    ⟨.opMemoryModel, none, none, [0, 1]⟩,
    ⟨.opTypeInt, none, some 1, [32, 0]⟩,
    ⟨.opTypePointer, none, some 2, [6, 1]⟩]

theorem audit_eq_ok_iff_admissible_geometry : geometry.Admissible (.universal 6) :=
  have haudit : geometry.audit (.universal 6) = .ok () := by cbv
  (audit_eq_ok_iff_admissible (by decide)).mp haudit

end Module

end SpirvAudit
