/-
Declarations moved to the front of a module.

An instruction is checked against what is declared up to it, though
capabilities and memory models are declared for the whole module. So an atomic
or a barrier can escape what a later declaration forbids, and a module with its
declarations in front (`Module.hoisted`) need not be accepted where the module
itself is. What is declared after an atomic or a barrier is all that can make
the difference (`audit_hoisted_iff`): gates only ever need more to be declared,
and the order in which definitions and uses of ids follow each other stays.
-/
import SpirvAudit.Proofs.Admission
import SpirvAudit.Proofs.DeclaredCapabilities
import SpirvAudit.Proofs.Relaxation

namespace SpirvAudit

/-- Whether an instruction declares something for the whole module: a capability, or the models. -/
def Opcode.isModuleWide (op : Opcode) : Bool := op == .opCapability || op == .opMemoryModel

theorem Opcode.isModuleWide_iff {op : Opcode} :
    op.isModuleWide = true ↔ op = .opCapability ∨ op = .opMemoryModel := by
  simp [isModuleWide]

theorem Opcode.isModuleWide_eq_false_iff {op : Opcode} :
    op.isModuleWide = false ↔ op ≠ .opCapability ∧ op ≠ .opMemoryModel := by
  simp [isModuleWide]

theorem Instruction.WellFormed.result?_of_isModuleWide {i : Instruction} (hi : i.WellFormed)
    (h : i.opcode.isModuleWide = true) : i.result? = none := by
  refine hi.result?_eq_none ?_
  rcases Opcode.isModuleWide_iff.mp h with hop | hop <;> rw [hop] <;> rfl

/-- The instructions declare the Vulkan memory model. -/
def DeclaresVulkanModel (is : List Instruction) : Prop :=
  ∃ i ∈ is, i.opcode = .opMemoryModel ∧ i.memoryModel? = some .vulkan

namespace Declarations

variable {d d' w : Declarations} {i : Instruction} {is : List Instruction}

/-- The declarations `d`, with the capabilities and the models of `w`. -/
def withDeclared (d w : Declarations) : Declarations :=
  { d with
    capabilities := w.capabilities
    addressingModel? := w.addressingModel?
    memoryModel? := w.memoryModel?
    memoryModelCount := w.memoryModelCount }

@[simp] theorem environment_withDeclared : (d.withDeclared w).environment = d.environment := rfl

@[simp] theorem definition?_withDeclared : (d.withDeclared w).definition? = d.definition? := rfl

@[simp] theorem has_withDeclared : (d.withDeclared w).has = w.has := rfl

@[simp] theorem memoryModel?_withDeclared : (d.withDeclared w).memoryModel? = w.memoryModel? := rfl

@[simp] theorem memoryModelCount_withDeclared : (d.withDeclared w).memoryModelCount = w.memoryModelCount := rfl

/-! ## Instructions that do not synchronize -/

/-- Where more capabilities are declared, whatever they are, an instruction that does not synchronize
passes too. -/
theorem check_mono (hatomic : i.opcode.isAtomic = false) (hbarrier : i.opcode.isBarrier = false)
    (h : ∀ c, d.has c = true → d'.has c = true) (hcount : i.opcode = .opMemoryModel → d'.memoryModelCount ≤ 1)
    (hc : d.check i = .ok ()) : d'.check i = .ok () := by
  obtain ⟨hopcode, hgates, heffect⟩ := check_eq_ok_iff.mp hc
  rw [checkEffect_eq_ok_iff hatomic hbarrier] at heffect
  exact check_eq_ok_iff.mpr ⟨enables_mono h hopcode, fun g hg => checkGate_mono h (hgates g hg),
    (checkEffect_eq_ok_iff hatomic hbarrier).mpr ⟨heffect.1, hcount⟩⟩

/-! ## Walks without the declarations -/

/-- What declares something for the whole module changes nothing once all of that is declared. -/
theorem Agrees.skip_moduleWide (h : (d.withDeclared w).Agrees d') (hresult : i.result? = none) :
    ((d.registerOrSkip i).withDeclared w).Agrees d' where
  memoryModel? := h.memoryModel?
  memoryModelCount := h.memoryModelCount
  has := h.has
  definition? := by simpa [definition?_registerOrSkip hresult] using h.definition?
  isVulkan := by simpa using h.isVulkan

theorem Agrees.register_other (h : (d.withDeclared w).Agrees d') (hop : i.opcode.isModuleWide = false) :
    ((d.registerOrSkip i).withDeclared w).Agrees (d'.registerOrSkip i) := by
  obtain ⟨hcapability, hmodel⟩ := Opcode.isModuleWide_eq_false_iff.mp hop
  have hmodels := sameModels_registerOrSkip (d := d') hmodel
  refine ⟨⟨hmodels.memoryModel?.trans h.memoryModel?, hmodels.memoryModelCount.trans h.memoryModelCount⟩,
    funext fun c => ?_, definition?_registerOrSkip_congr (d := d) h.definition?, by simpa using h.isVulkan⟩
  rw [Bool.eq_iff_iff, has_registerOrSkip, capability?_eq_none hcapability, h.has]
  simp

theorem Agrees.registerEach_others (hresult : ∀ i ∈ is, i.opcode.isModuleWide = true → i.result? = none)
    (h : (d.withDeclared w).Agrees d') :
    ((d.registerEach is).withDeclared w).Agrees (d'.registerEach (is.filter (!·.opcode.isModuleWide))) := by
  induction is generalizing d d' with
  | nil => exact h
  | cons i is ih =>
    obtain ⟨hresulti, hresult⟩ := List.forall_mem_cons.mp hresult
    cases hop : i.opcode.isModuleWide with
    | true =>
      rw [List.filter_cons_of_neg (by simp [hop])]
      exact ih hresult (h.skip_moduleWide (hresulti hop))
    | false =>
      rw [List.filter_cons_of_pos (by simp [hop])]
      exact ih hresult (h.register_other hop)

/-- A walk over the instructions that declare nothing for the whole module, where all that is declared
in `w`: it is not stopped if these instructions pass with `w` declared. -/
theorem run_others_iff (hresult : ∀ i ∈ is, i.opcode.isModuleWide = true → i.result? = none)
    (hreg : ∀ i ∈ is, i.Registrable) (h : (d.withDeclared w).Agrees d') :
    (∃ e, d'.run (is.filter (!·.opcode.isModuleWide)) = .ok e) ↔
      ∀ n i, is[n]? = some i → i.opcode.isModuleWide = false →
        ((d.registerEach (is.take (n + 1))).withDeclared w).check i = .ok () := by
  induction is generalizing d d' with
  | nil => simpa using ⟨d', rfl⟩
  | cons i is ih =>
    obtain ⟨hresulti, hresult⟩ := List.forall_mem_cons.mp hresult
    obtain ⟨hregi, hreg⟩ := List.forall_mem_cons.mp hreg
    cases hop : i.opcode.isModuleWide with
    | true =>
      rw [List.filter_cons_of_neg (by simp [hop]), ih hresult hreg (h.skip_moduleWide (hresulti hop))]
      constructor
      · intro hchecks n j hj hother
        cases n with
        | zero => cases hj; rw [hop] at hother; cases hother
        | succ n => exact hchecks n j hj hother
      · exact fun hchecks n j hj => hchecks (n + 1) j hj
    | false =>
      have h₁ : ((d.registerOrSkip i).withDeclared w).Agrees (d'.registerOrSkip i) := h.register_other hop
      rw [List.filter_cons_of_pos (by simp [hop])]
      simp only [run_cons, Except.bind_eq_ok_iff, step_eq_ok_iff]
      constructor
      · intro hrun
        obtain ⟨e, _, ⟨-, rfl, hcheck⟩, hrun⟩ := hrun
        intro n j hj hother
        cases n with
        | zero => cases hj; exact h₁.check.symm.trans hcheck
        | succ n => exact (ih hresult hreg h₁).mp ⟨e, hrun⟩ n j hj hother
      · intro hchecks
        obtain ⟨e, hrun⟩ := (ih hresult hreg h₁).mpr fun n j hj => hchecks (n + 1) j hj
        exact ⟨e, _, ⟨hregi, rfl, h₁.check.trans (hchecks 0 i rfl hop)⟩, hrun⟩

end Declarations

namespace Module

open Declarations

variable {env : Environment} {m : Module} {n : Nat} {i : Instruction}

/-- The capabilities of the module, and its memory model. -/
def front (m : Module) : List Instruction :=
  m.instructions.filter (·.opcode = .opCapability) ++ m.instructions.filter (·.opcode = .opMemoryModel)

/-- The module with its capabilities first, then its memory model, and then its other instructions. -/
def hoisted (m : Module) : Module :=
  { m with instructions := m.front ++ m.instructions.filter (!·.opcode.isModuleWide) }

/-- The declarations after the first `n` instructions, with the capabilities and the models of the
whole module. -/
def declarationsThroughout (env : Environment) (m : Module) (n : Nat) : Declarations :=
  (m.declarationsAfter env n).withDeclared ((initial env).registerEach m.instructions)

/-- What restricts atomics and barriers is declared, but not by the first `n` instructions: one of the
restrictive capabilities, or outside Vulkan's environments Vulkan's memory model. -/
def DeclaresLate (env : Environment) (m : Module) (n : Nat) : Prop :=
  (∃ c ∈ Capability.restrictive, Declares m.instructions c ∧ ¬ Declares (m.instructions.take n) c) ∨
  env.isVulkan = false ∧ DeclaresVulkanModel m.instructions ∧ ¬ DeclaresVulkanModel (m.instructions.take n)

/-! ## The declarations in front -/

theorem mem_front : i ∈ m.front ↔ i ∈ m.instructions ∧ i.opcode.isModuleWide = true := by
  simp [front, Opcode.isModuleWide_iff, and_or_left]

theorem declares_front {c : Capability} : Declares m.front c ↔ Declares m.instructions c := by
  refine declares_congr (fun a => exists_congr fun j => ?_) c
  rw [mem_front, Opcode.isModuleWide_iff]
  constructor
  · exact fun h => ⟨h.1.1, h.2⟩
  · exact fun h => ⟨⟨h.1, .inl (opcode_of_capability? h.2)⟩, h.2⟩

theorem countP_front : m.front.countP (fun i => i.opcode = .opMemoryModel) = m.memoryModelCount := by
  rw [front, List.countP_append, List.countP_filter, List.countP_filter, memoryModelCount]
  have hnone : m.instructions.countP
      (fun i => decide (i.opcode = .opMemoryModel) && decide (i.opcode = .opCapability)) = 0 := by
    refine List.countP_eq_zero.mpr fun i _ => ?_
    cases i.opcode <;> simp
  rw [hnone]
  simp

/-- The one `OpMemoryModel` of an accepted module. -/
theorem exists_memoryModel_of_audit (h : m.audit env = .ok ()) :
    ∃ i ∈ m.instructions, i.opcode = .opMemoryModel ∧ m.instructions.filter (·.opcode = .opMemoryModel) = [i] := by
  have hone := memoryModelCount_eq_one_of_audit h
  rw [memoryModelCount, List.countP_eq_length_filter] at hone
  obtain ⟨i, hi⟩ := List.length_eq_one_iff.mp hone
  have hmem : i ∈ m.instructions.filter (·.opcode = .opMemoryModel) := hi ▸ List.mem_singleton_self i
  obtain ⟨himem, hop⟩ := List.mem_filter.mp hmem
  exact ⟨i, himem, by simpa using hop, hi⟩

/-- More is declared throughout the module than after some of its instructions. -/
theorem has_of_declarationsAfter {c : Capability} (h : (m.declarationsAfter env n).has c = true) :
    ((initial env).registerEach m.instructions).has c = true :=
  has_registerEach_initial.mpr ((has_registerEach_initial.mp h).mono fun _ => List.mem_of_mem_take)

/-- The front of an accepted module declares what the whole module does, and defines nothing. -/
theorem agrees_front (hdecoded : ∀ i ∈ m.instructions, i.WellFormed) (h : m.audit env = .ok ()) :
    ((initial env).withDeclared ((initial env).registerEach m.instructions)).Agrees
      ((initial env).registerEach m.front) := by
  have hone := memoryModelCount_eq_one_of_audit h
  obtain ⟨-, hreg, -, -⟩ := audit_eq_ok_iff.mp h
  have hregfront : ∀ i ∈ m.front, i.Registrable := fun i hi => hreg i (mem_front.mp hi).1
  obtain ⟨i, hi, hop, -⟩ := exists_memoryModel_of_audit h
  have hifront : i ∈ m.front := mem_front.mpr ⟨hi, Opcode.isModuleWide_iff.mpr (.inr hop)⟩
  refine ⟨⟨?_, ?_⟩, funext fun c => ?_, ?_, by simp⟩
  · rw [memoryModel?_withDeclared, memoryModel?_registerEach_of_mem (Nat.le_of_eq hone) hi (hreg i hi) hop]
    exact memoryModel?_registerEach_of_mem (Nat.le_of_eq (countP_front.trans hone)) hifront (hreg i hi) hop
  · rw [memoryModelCount_withDeclared, memoryModelCount_registerEach_initial hreg,
      memoryModelCount_registerEach_initial hregfront, countP_front, memoryModelCount]
  · rw [has_withDeclared, Bool.eq_iff_iff, has_registerEach_initial, has_registerEach_initial, declares_front]
  · refine definition?_registerEach fun j hj => ?_
    obtain ⟨hj, hwide⟩ := mem_front.mp hj
    exact (hdecoded j hj).result?_of_isModuleWide hwide

theorem run_capabilities {is : List Instruction} {d : Declarations} (h : ∀ i ∈ is, ∃ c, i.capability? = some c) :
    d.run is = .ok (d.registerEach is) := by
  refine run_eq_ok_iff.mpr ⟨fun i hi => ?_, rfl, fun n i hn => ?_⟩
  · obtain ⟨c, hc⟩ := h i hi
    exact registrable_of_capability? hc
  · obtain ⟨c, hc⟩ := h i (List.mem_of_getElem? hn)
    exact (check_capability_eq_ok_iff (opcode_of_capability? hc)).mpr ⟨c, hc⟩

/-- The declarations of an accepted module can stand in front. -/
theorem run_front_of_audit (hdecoded : ∀ i ∈ m.instructions, i.WellFormed) (h : m.audit env = .ok ()) :
    (initial env).run m.front = .ok ((initial env).registerEach m.front) := by
  obtain ⟨-, hreg, hchecks, -⟩ := audit_eq_ok_iff.mp h
  obtain ⟨model, hmodel, hop, hfilter⟩ := exists_memoryModel_of_audit h
  have hagrees := agrees_front hdecoded h
  have hcapabilities : ∀ i ∈ m.instructions.filter (·.opcode = .opCapability), ∃ c, i.capability? = some c := by
    intro i hi
    obtain ⟨hi, hcap⟩ := List.mem_filter.mp hi
    obtain ⟨n, hn⟩ := List.mem_iff_getElem?.mp hi
    exact (check_capability_eq_ok_iff (by simpa using hcap)).mp (hchecks n i hn)
  rw [front, hfilter] at hagrees ⊢
  rw [registerEach_append] at hagrees ⊢
  rw [run_append, run_capabilities hcapabilities, Except.ok_bind, run_cons]
  obtain ⟨n, hn⟩ := List.mem_iff_getElem?.mp hmodel
  have hcheck : (((initial env).registerEach (m.instructions.filter (·.opcode = .opCapability))).registerEach
      [model]).check model = .ok () := by
    refine check_mono (by rw [hop]; rfl) (by rw [hop]; rfl) (fun c hc => ?_) (fun _ => ?_) (hchecks n model hn)
    · rw [hagrees.has]
      exact has_of_declarationsAfter hc
    · rw [hagrees.memoryModelCount, memoryModelCount_withDeclared, memoryModelCount_registerEach_initial hreg]
      exact Nat.le_of_eq (memoryModelCount_eq_one_of_audit h)
  rw [step_eq_ok_iff.mpr ⟨hreg model hmodel, rfl, hcheck⟩]
  rfl

/-! ## The other instructions -/

/-- The hoisted module is accepted if the other instructions pass with the declarations of the whole
module. -/
theorem audit_hoisted_iff_others (hdecoded : ∀ i ∈ m.instructions, i.WellFormed) (h : m.audit env = .ok ()) :
    m.hoisted.audit env = .ok () ↔
      ∀ n i, m.instructions[n]? = some i → i.opcode.isModuleWide = false →
        (m.declarationsThroughout env (n + 1)).check i = .ok () := by
  obtain ⟨hversion, hreg, -, hend⟩ := audit_eq_ok_iff.mp h
  have hresult : ∀ i ∈ m.instructions, i.opcode.isModuleWide = true → i.result? = none :=
    fun i hi => (hdecoded i hi).result?_of_isModuleWide
  have hagrees := agrees_front hdecoded h
  simp only [declarationsThroughout, declarationsAfter, ← run_others_iff hresult hreg hagrees]
  rw [audit, hoisted, Environment.checkVersion_eq_ok_iff.mpr hversion, Except.ok_bind, run_append,
    run_front_of_audit hdecoded h, Except.ok_bind, Except.bind_eq_ok_iff]
  refine exists_congr fun e => and_iff_left_of_imp fun hrun => ?_
  rw [← (run_eq_ok_iff.mp hrun).2.1, (hagrees.registerEach_others hresult).checkEnd]
  exact hend

/-! ## Late declarations -/

theorem declaresLate_of_succ (h : m.DeclaresLate env (n + 1)) : m.DeclaresLate env n := by
  have hmem : ∀ j ∈ m.instructions.take n, j ∈ m.instructions.take (n + 1) :=
    fun _ => (List.take_subset_take_left m.instructions (Nat.le_succ n) ·)
  rcases h with ⟨c, hc, hall, hnot⟩ | ⟨hvulkan, hall, hnot⟩
  · exact .inl ⟨c, hc, hall, fun hn => hnot (hn.mono hmem)⟩
  · exact .inr ⟨hvulkan, hall, fun ⟨j, hj, hop⟩ => hnot ⟨j, hmem j hj, hop⟩⟩

/-- Where nothing that restricts is declared late, all declarations together allow what those so far do. -/
theorem relaxes_declarationsThroughout (h : m.audit env = .ok ()) (hearly : ¬ m.DeclaresLate env n) :
    (m.declarationsAfter env n).Relaxes (m.declarationsThroughout env n) where
  definition? := rfl
  has _ hc := has_of_declarationsAfter hc
  restrictive c hrestrictive hc := by
    refine has_registerEach_initial.mpr (Classical.byContradiction fun hnot => hearly (.inl ?_))
    exact ⟨c, hrestrictive, has_registerEach_initial.mp hc, hnot⟩
  isVulkan hvulkan := hvulkan
  strict hstrict := by
    cases hvulkan : env.isVulkan with
    | true => simp [Declarations.strict, declarationsAfter, initial, hvulkan]
    | false =>
      have hone := Nat.le_of_eq (memoryModelCount_eq_one_of_audit h)
      have hreg := (audit_eq_ok_iff.mp h).2.1
      have hmodel : ((initial env).registerEach m.instructions).memoryModel? = some .vulkan := by
        simpa [Declarations.strict, declarationsThroughout, declarationsAfter, initial, hvulkan] using hstrict
      obtain ⟨i, hi, hop, -⟩ := exists_memoryModel_of_audit h
      have hdeclared : DeclaresVulkanModel m.instructions :=
        ⟨i, hi, hop, (memoryModel?_registerEach_of_mem hone hi (hreg i hi) hop).symm.trans hmodel⟩
      obtain ⟨j, hj, hop, hmodel⟩ : DeclaresVulkanModel (m.instructions.take n) :=
        Classical.byContradiction fun hnot => hearly (.inr ⟨hvulkan, hdeclared, hnot⟩)
      have hone : (m.instructions.take n).countP (fun i => i.opcode = .opMemoryModel) ≤ 1 :=
        Nat.le_trans (List.take_sublist _ _).countP_le hone
      have hafter : (m.declarationsAfter env n).memoryModel? = some .vulkan :=
        (memoryModel?_registerEach_of_mem hone hj (hreg j (List.mem_of_mem_take hj)) hop).trans hmodel
      simp [Declarations.strict, hafter]

/-! ## Whole modules -/

/-- **Which modules may have their declarations moved to the front.** Take an accepted module and move
its capabilities to the front, then its memory model. What restricts atomics and barriers is `Shader`,
`VulkanMemoryModel` and, outside Vulkan's environments, Vulkan's memory model. The moved module is
accepted if and only if every atomic and barrier in front of such a declaration also passes with all
declarations of the module; so always, if there is none in front of one. -/
theorem audit_hoisted_iff (hdecoded : ∀ i ∈ m.instructions, i.WellFormed) (h : m.audit env = .ok ()) :
    m.hoisted.audit env = .ok () ↔
      ∀ n i, m.instructions[n]? = some i → (i.opcode.isAtomic = true ∨ i.opcode.isBarrier = true) →
        m.DeclaresLate env n → (m.declarationsThroughout env (n + 1)).check i = .ok () := by
  rw [audit_hoisted_iff_others hdecoded h]
  obtain ⟨-, -, hchecks, -⟩ := audit_eq_ok_iff.mp h
  constructor
  · intro hall n i hi hsync _
    refine hall n i hi (Opcode.isModuleWide_eq_false_iff.mpr ⟨fun hop => ?_, fun hop => ?_⟩)
    · simp [hop, Opcode.isAtomic, Opcode.isBarrier] at hsync
    · simp [hop, Opcode.isAtomic, Opcode.isBarrier] at hsync
  · intro hlate n i hi hwide
    have hmodel := (Opcode.isModuleWide_eq_false_iff.mp hwide).2
    by_cases hsync : i.opcode.isAtomic = true ∨ i.opcode.isBarrier = true
    · by_cases hn : m.DeclaresLate env n
      · exact hlate n i hi hsync hn
      · have hrelaxes := relaxes_declarationsThroughout (n := n + 1) h (mt declaresLate_of_succ hn)
        exact hrelaxes.check (fun hop => absurd hop hmodel) (hchecks n i hi)
    · simp only [not_or, Bool.not_eq_true] at hsync
      exact check_mono hsync.1 hsync.2 (fun _ => has_of_declarationsAfter) (fun hop => absurd hop hmodel)
        (hchecks n i hi)

/-- A memory barrier between declarations. The scope of the barrier is what `scope` defines. -/
def fencing (before : List Instruction) (scope : Instruction) (after : List Instruction) : Module where
  version := ⟨1, 0⟩
  bound := 4
  instructions := before ++ [
    ⟨.opTypeInt, none, some 1, [32, 0]⟩,
    scope,
    ⟨.opConstantNull, some 1, some 3, []⟩,
    ⟨.opMemoryBarrier, none, none, [2, 3]⟩] ++ after

/-- `Shader` is declared after a barrier for the workgroup. -/
def fencingConstant : Module :=
  fencing [⟨.opCapability, none, none, [6]⟩, ⟨.opMemoryModel, none, none, [0, 2]⟩]
    ⟨.opConstant, some 1, some 2, [2]⟩ [⟨.opCapability, none, none, [1]⟩]

/-- A restrictive capability is declared late, but the operands of the barrier are constants, which
`Shader` does not mind. -/
theorem audit_hoisted_iff_fencing :
    fencingConstant.DeclaresLate (.universal 6) 5 ∧
      fencingConstant.hoisted.audit (.universal 6) = .ok () := by
  have haccepted : fencingConstant.audit (.universal 6) = .ok () := by cbv
  have hbarrier : (fencingConstant.declarationsThroughout (.universal 6) 6).check
      ⟨.opMemoryBarrier, none, none, [2, 3]⟩ = .ok () := by cbv
  have hlate : (fencingConstant.declarationsAfter (.universal 6) 5).has .shader = false := by cbv
  have honly : ∀ k : Fin 7,
      (fencingConstant.instructions.get k).opcode.isAtomic = true ∨
        (fencingConstant.instructions.get k).opcode.isBarrier = true → k = 5 := by
    decide
  constructor
  · refine .inl ⟨.shader, by decide, ⟨⟨.opCapability, none, none, [1]⟩, by decide, .shader, rfl, .refl⟩, ?_⟩
    exact fun hdeclared => Bool.eq_false_iff.mp hlate (has_registerEach_initial.mpr hdeclared)
  · refine (audit_hoisted_iff (by decide) haccepted).mpr fun n i hi hsync _ => ?_
    obtain ⟨hn, rfl⟩ := List.getElem?_eq_some_iff.mp hi
    obtain rfl : n = 5 := congrArg Fin.val (honly ⟨n, hn⟩ hsync)
    exact hbarrier

/-- `Shader` is declared after a barrier whose scope is not known. -/
def fencingUndefined : Module :=
  fencing [⟨.opCapability, none, none, [6]⟩, ⟨.opMemoryModel, none, none, [0, 2]⟩]
    ⟨.opUndef, some 1, some 2, []⟩ [⟨.opCapability, none, none, [1]⟩]

/-- `VulkanMemoryModel` is declared after a barrier for the device. -/
def fencingDevice : Module :=
  fencing [⟨.opCapability, none, none, [1]⟩]
    ⟨.opConstant, some 1, some 2, [1]⟩
    [⟨.opCapability, none, none, [5345]⟩, ⟨.opMemoryModel, none, none, [0, 3]⟩]

/-- Vulkan's memory model is declared after a barrier without any order. -/
def fencingRelaxed : Module :=
  fencing [⟨.opCapability, none, none, [5345]⟩]
    ⟨.opConstant, some 1, some 2, [2]⟩ [⟨.opMemoryModel, none, none, [0, 3]⟩]

/-- **Declarations do not bind what stands before them.** Each of these modules is accepted, and is
rejected with its declarations in front: the barriers escape `Shader`, `VulkanMemoryModel` and Vulkan's
memory model. -/
theorem audit_hoisted_evading :
    ((∀ i ∈ fencingUndefined.instructions, i.WellFormed) ∧
      fencingUndefined.audit (.universal 6) = .ok () ∧
      fencingUndefined.hoisted.audit (.universal 6) =
        .error ⟨some .opMemoryBarrier, .memoryScope, .notConstant .scope⟩) ∧
    ((∀ i ∈ fencingDevice.instructions, i.WellFormed) ∧ fencingDevice.audit (.universal 6) = .ok () ∧
      fencingDevice.hoisted.audit (.universal 6) =
        .error ⟨some .opMemoryBarrier, .memoryScope, .deviceNotEnabled⟩) ∧
    ((∀ i ∈ fencingRelaxed.instructions, i.WellFormed) ∧ fencingRelaxed.audit (.universal 6) = .ok () ∧
      fencingRelaxed.hoisted.audit (.universal 6) =
        .error ⟨some .opMemoryBarrier, .semantics, .relaxedBarrier⟩) :=
  ⟨⟨by decide, by cbv, by cbv⟩, ⟨by decide, by cbv, by cbv⟩, ⟨by decide, by cbv, by cbv⟩⟩

end Module

end SpirvAudit
