/-
Declarations that allow more than others.

Most capabilities only ever allow. `Shader` and `VulkanMemoryModel` also
restrict: the first forbids scopes and semantics that are not known, the second
the scope of the whole device. A Vulkan environment and the Vulkan memory model
only restrict. So declarations with the same definitions, with more
capabilities but no more of the restrictive two, and under no more of the rules
of Vulkan (`Declarations.Relaxes`) let pass whatever passes the others. That
holds of each check, is kept by each step, and so holds of walks.
-/
import SpirvAudit.Proofs.AcceptedSemantics
import SpirvAudit.Proofs.Agreement

namespace SpirvAudit

/-- The capabilities that restrict atomics and barriers. -/
def Capability.restrictive : List Capability := [.shader, .vulkanMemoryModel]

namespace Declarations

variable {d d' e : Declarations} {i : Instruction} {is : List Instruction} {index scopeIndex : Nat}
  {subject : Subject} {area : ConstantArea}

/-- `d'` allows all that `d` allows. -/
structure Relaxes (d d' : Declarations) : Prop where
  definition? : d'.definition? = d.definition?
  has : ∀ c, d.has c = true → d'.has c = true
  restrictive : ∀ c ∈ Capability.restrictive, d'.has c = true → d.has c = true
  isVulkan : d'.environment.isVulkan = true → d.environment.isVulkan = true
  strict : d'.strict = true → d.strict = true

theorem Relaxes.shader (h : d.Relaxes d') : d'.has .shader = true → d.has .shader = true :=
  h.restrictive _ (by decide)

theorem Relaxes.vulkanMemoryModel (h : d.Relaxes d') :
    d'.has .vulkanMemoryModel = true → d.has .vulkanMemoryModel = true :=
  h.restrictive _ (by decide)

/-! ## Gates -/

theorem enables_mono (h : ∀ c, d.has c = true → d'.has c = true) {cs : List Capability}
    (hcs : d.enables cs = true) : d'.enables cs = true := by
  simp only [enables, hasAny, Bool.or_eq_true, List.any_eq_true] at hcs ⊢
  rcases hcs with hempty | ⟨c, hc, hd⟩
  · exact .inl hempty
  · exact .inr ⟨c, hc, h c hd⟩

theorem checkGate_mono (h : ∀ c, d.has c = true → d'.has c = true) {g : Gate}
    (hg : d.checkGate i g = .ok ()) : d'.checkGate i g = .ok () := by
  obtain ⟨code, row, hcode, hrow, henabled⟩ := checkGate_eq_ok_iff.mp hg
  exact checkGate_eq_ok_iff.mpr ⟨code, row, hcode, hrow, enables_mono h henabled⟩

theorem Relaxes.enables (h : d.Relaxes d') {cs : List Capability} (hcs : d.enables cs = true) :
    d'.enables cs = true := enables_mono h.has hcs

/-! ## Scopes -/

/-- What an operand that has to name a constant may hold. -/
theorem constantOperand_eq_ok_iff {value? : Option Word} :
    d.constantOperand i index subject area = .ok value? ↔ ∃ id, i.operand? index = some id ∧
      (d.fold id = .runtime ∧ value? = none ∧
          (d.has .shader = true → d.has .cooperativeMatrixNV = true ∧ d.isConstant id = true) ∨
        ∃ value, d.fold id = .constant value ∧ value? = some value) := by
  rw [constantOperand, Except.bind_eq_ok_iff]
  refine exists_congr fun id => and_congr Instruction.required_eq_ok_iff ?_
  cases d.fold id with
  | notInt32 => simp
  | runtime =>
    have hfaults : (∀ f ∈ d.runtimeFaults id area, f.holds = false) ↔
        (d.has .shader = true → d.has .cooperativeMatrixNV = true ∧ d.isConstant id = true) := by
      simp [runtimeFaults, ← imp_and]
    rw [Verdict.bind_pure_eq_ok_iff, Instruction.judge_eq_ok_iff, hfaults]
    simp [and_comm, eq_comm (a := value?)]
  | constant value => simp [eq_comm (a := value?)]

theorem Relaxes.constantOperand (h : d.Relaxes d') {value? : Option Word}
    (ho : d.constantOperand i index subject area = .ok value?) :
    d'.constantOperand i index subject area = .ok value? := by
  obtain ⟨id, hid, hvalue⟩ := constantOperand_eq_ok_iff.mp ho
  refine constantOperand_eq_ok_iff.mpr ⟨id, hid, ?_⟩
  rw [fold_congr h.definition?, isConstant_congr h.definition?]
  refine hvalue.imp_left fun ⟨hfold, hnone, hruntime⟩ => ⟨hfold, hnone, fun hshader => ?_⟩
  exact (hruntime (h.shader hshader)).imp_left (h.has _)

/-- What a scope operand may hold. -/
theorem scopeOperand_eq_ok_iff {scope? : Option Scope} :
    d.scopeOperand i index subject = .ok scope? ↔
      d.constantOperand i index subject .scope = .ok none ∧ scope? = none ∨
        ∃ value scope, d.constantOperand i index subject .scope = .ok (some value) ∧
          Scope.ofCode? value.toNat = some scope ∧ d.enables scope.requires = true ∧ scope? = some scope := by
  rw [scopeOperand]
  cases d.constantOperand i index subject .scope with
  | error v => simp
  | ok value? =>
    rw [Except.ok_bind]
    cases value? with
    | none => simp [eq_comm (a := scope?)]
    | some value =>
      cases hscope : Scope.ofCode? value.toNat with
      | none => simp [hscope]
      | some scope =>
        simp only [hscope, Verdict.bind_pure_eq_ok_iff, Instruction.judge_eq_ok_iff]
        simp [hscope, eq_comm (a := scope?)]

theorem Relaxes.scopeOperand (h : d.Relaxes d') {scope? : Option Scope}
    (ho : d.scopeOperand i index subject = .ok scope?) : d'.scopeOperand i index subject = .ok scope? := by
  rcases scopeOperand_eq_ok_iff.mp ho with ⟨hvalue, rfl⟩ | ⟨value, scope, hvalue, hscope, henabled, rfl⟩
  · exact scopeOperand_eq_ok_iff.mpr (.inl ⟨h.constantOperand hvalue, rfl⟩)
  · exact scopeOperand_eq_ok_iff.mpr
      (.inr ⟨value, scope, h.constantOperand hvalue, hscope, h.enables henabled, rfl⟩)

theorem Relaxes.checkExecutionScope (h : d.Relaxes d') (hc : d.checkExecutionScope i index = .ok ()) :
    d'.checkExecutionScope i index = .ok () := by
  obtain ⟨scope?, hscope, hc⟩ := Except.bind_eq_ok_iff.mp hc
  refine Except.bind_eq_ok_iff.mpr ⟨scope?, h.scopeOperand hscope, ?_⟩
  cases scope? with
  | none => rfl
  | some scope =>
    simp only [Instruction.judge_eq_ok_iff, executionScopeFaults, List.forall_mem_singleton,
      Bool.and_eq_false_imp, Bool.and_eq_true] at hc ⊢
    exact fun hd => hc ⟨h.isVulkan hd.1, hd.2⟩

theorem Relaxes.checkMemoryScope (h : d.Relaxes d') (hc : d.checkMemoryScope i index = .ok ()) :
    d'.checkMemoryScope i index = .ok () := by
  obtain ⟨scope?, hscope, hc⟩ := Except.bind_eq_ok_iff.mp hc
  refine Except.bind_eq_ok_iff.mpr ⟨scope?, h.scopeOperand hscope, ?_⟩
  cases scope? with
  | none => rfl
  | some scope =>
    simp only [Instruction.judge_eq_ok_iff, memoryScopeFaults, List.forall_mem_cons, Bool.and_eq_false_imp,
      Bool.and_eq_true, Bool.not_eq_false'] at hc ⊢
    obtain ⟨hqueue, hdevice, hcross, -⟩ := hc
    refine ⟨fun hs => h.has _ (hqueue hs), fun hs => h.has _ (hdevice ⟨hs.1, h.vulkanMemoryModel hs.2⟩),
      fun hs => Bool.eq_false_iff.mpr fun hv => ?_, by simp⟩
    rw [h.isVulkan hv] at hcross
    cases hcross hs

/-! ## Semantics -/

theorem Permits.relax {op : Opcode} {s : Semantics} (hs : d.Permits op s) (h : d.Relaxes d') : d'.Permits op s where
  enabled f hf hmem := h.enables (hs.enabled f hf hmem)
  oneOrder := hs.oneOrder
  load := hs.load
  store := hs.store
  barrier hd := hs.barrier (h.strict hd)
  notSequentiallyConsistent hd := hs.notSequentiallyConsistent (h.strict hd)
  ordered_iff hd := hs.ordered_iff (h.strict hd)
  available := hs.available
  visible := hs.visible
  volatile := hs.volatile

theorem PermitsUnequal.relax {equal unequal : Semantics} (hs : d.PermitsUnequal equal unequal)
    (h : d.Relaxes d') : d'.PermitsUnequal equal unequal where
  notReleasing := hs.notReleasing
  sequentiallyConsistent := hs.sequentiallyConsistent
  acquire := hs.acquire
  storage hd := hs.storage (h.strict hd)
  volatile hd := hs.volatile (h.strict hd)

theorem PermitsOrder.relax {s : Semantics} (hs : d.PermitsOrder i scopeIndex s) (h : d.Relaxes d') :
    d'.PermitsOrder i scopeIndex s := by
  intro hd ho id hid
  rw [fold_congr h.definition?]
  exact hs (h.strict hd) ho id hid

/-- What is let pass at a semantics operand: a value that may stay unknown, or a known one that no
check objects to. -/
theorem checkSemantics_eq_ok_iff_operand : d.checkSemantics i index scopeIndex = .ok () ↔
    ∃ value?, d.constantOperand i index (SemanticsRole.ofOperand i.opcode index).subject .semantics = .ok value? ∧
      ∀ value, value? = some value → d.Permits i.opcode ⟨value⟩ ∧
        (SemanticsRole.ofOperand i.opcode index = .unequal → d.PermitsUnequal (d.equalSemantics i) ⟨value⟩) ∧
        d.PermitsOrder i scopeIndex ⟨value⟩ := by
  rw [checkSemantics, Except.bind_eq_ok_iff]
  refine exists_congr fun value? => and_congr_right fun hvalue => ?_
  cases value? with
  | none => simp
  | some value =>
    obtain ⟨id, hid, hvalue | ⟨_, hfold, hvalue⟩⟩ := constantOperand_eq_ok_iff.mp hvalue
    · cases hvalue.2.1
    · cases hvalue
      change i.judge _ _ = _ ↔ _
      rw [← checkSemantics_of_constant hid hfold, checkSemantics_eq_ok_iff hid hfold]
      simp

theorem Relaxes.checkSemantics (h : d.Relaxes d') (hc : d.checkSemantics i index scopeIndex = .ok ()) :
    d'.checkSemantics i index scopeIndex = .ok () := by
  obtain ⟨value?, hvalue, hs⟩ := checkSemantics_eq_ok_iff_operand.mp hc
  refine checkSemantics_eq_ok_iff_operand.mpr ⟨value?, h.constantOperand hvalue, fun value hv => ?_⟩
  obtain ⟨hpermits, hunequal, horder⟩ := hs value hv
  rw [equalSemantics_congr h.definition?]
  exact ⟨hpermits.relax h, fun hrole => (hunequal hrole).relax h, horder.relax h⟩

/-! ## Atomics and barriers -/

theorem Relaxes.checkScalar (h : d.Relaxes d') {scalar : ScalarClass} {pointee : Id}
    (hc : d.checkScalar i scalar pointee = .ok ()) : d'.checkScalar i scalar pointee = .ok () := by
  simp only [Declarations.checkScalar, type?_congr h.definition?, Verdict.bind_eq_ok_iff,
    Instruction.judge_eq_ok_iff, List.forall_mem_singleton, Bool.and_eq_false_imp, Bool.not_eq_false'] at hc ⊢
  exact ⟨hc.1, hc.2.1, fun hwide => h.has _ (hc.2.2 hwide)⟩

theorem Relaxes.checkAtomic (h : d.Relaxes d') (hc : d.checkAtomic i = .ok ()) :
    d'.checkAtomic i = .ok () := by
  obtain ⟨pointee, hpointee, hc⟩ := Except.bind_eq_ok_iff.mp hc
  refine Except.bind_eq_ok_iff.mpr ⟨pointee, (pointee_congr h.definition?).trans hpointee, ?_⟩
  obtain ⟨hscalar, hc⟩ := Verdict.bind_eq_ok_iff.mp hc
  obtain ⟨hscope, hc⟩ := Verdict.bind_eq_ok_iff.mp hc
  obtain ⟨hequal, hunequal⟩ := checkAtomicSemantics_eq_ok_iff.mp hc
  refine Verdict.bind_eq_ok_iff.mpr ⟨?_, Verdict.bind_eq_ok_iff.mpr ⟨h.checkMemoryScope hscope,
    checkAtomicSemantics_eq_ok_iff.mpr ⟨h.checkSemantics hequal, fun hx => h.checkSemantics (hunequal hx)⟩⟩⟩
  cases hclass : i.opcode.scalarClass? with
  | none => rfl
  | some scalar =>
    rw [hclass] at hscalar
    exact h.checkScalar hscalar

theorem Relaxes.checkControlBarrier (h : d.Relaxes d') (hc : d.checkControlBarrier i = .ok ()) :
    d'.checkControlBarrier i = .ok () := by
  simp only [Declarations.checkControlBarrier, Verdict.bind_eq_ok_iff] at hc ⊢
  exact ⟨h.checkExecutionScope hc.1, h.checkMemoryScope hc.2.1, h.checkSemantics hc.2.2⟩

theorem Relaxes.checkMemoryBarrier (h : d.Relaxes d') (hc : d.checkMemoryBarrier i = .ok ()) :
    d'.checkMemoryBarrier i = .ok () := by
  simp only [Declarations.checkMemoryBarrier, Verdict.bind_eq_ok_iff] at hc ⊢
  exact ⟨h.checkMemoryScope hc.1, h.checkSemantics hc.2⟩

theorem Relaxes.checkMemoryNamedBarrier (h : d.Relaxes d') (hc : d.checkMemoryNamedBarrier i = .ok ()) :
    d'.checkMemoryNamedBarrier i = .ok () := by
  simp only [Declarations.checkMemoryNamedBarrier, Verdict.bind_eq_ok_iff] at hc ⊢
  exact ⟨(checkNamedBarrier_congr h.definition?).trans hc.1, h.checkMemoryScope hc.2.1, h.checkSemantics hc.2.2⟩

/-! ## Instructions -/

/-- The checks of one instruction. That of `OpMemoryModel` also counts how often it stands. -/
theorem Relaxes.checkEffect (h : d.Relaxes d')
    (hcount : i.opcode = .opMemoryModel → d'.memoryModelCount = d.memoryModelCount)
    (hc : d.checkEffect i = .ok ()) : d'.checkEffect i = .ok () := by
  unfold Declarations.checkEffect at hc ⊢
  split at hc
  next => exact hc
  next hop =>
    rw [checkFirstMemoryModel_eq_ok_iff] at hc ⊢
    rwa [hcount hop]
  next => exact h.checkControlBarrier hc
  next => exact h.checkMemoryBarrier hc
  next => exact h.checkMemoryNamedBarrier hc
  next =>
    split at hc
    next hatomic => simpa only [if_pos hatomic] using h.checkAtomic hc
    next hatomic => exact if_neg hatomic

theorem Relaxes.check (h : d.Relaxes d')
    (hcount : i.opcode = .opMemoryModel → d'.memoryModelCount = d.memoryModelCount)
    (hc : d.check i = .ok ()) : d'.check i = .ok () := by
  obtain ⟨hopcode, hgates, heffect⟩ := check_eq_ok_iff.mp hc
  exact check_eq_ok_iff.mpr
    ⟨h.enables hopcode, fun g hg => checkGate_mono h.has (hgates g hg), h.checkEffect hcount heffect⟩

/-! ## Walks -/

theorem strict_registerOrSkip_of_ne (hop : i.opcode ≠ .opMemoryModel) : (d.registerOrSkip i).strict = d.strict := by
  rw [Declarations.strict, Declarations.strict, environment_registerOrSkip,
    (sameModels_registerOrSkip hop).memoryModel?]

theorem Relaxes.registerOrSkip (h : d.Relaxes d') : (d.registerOrSkip i).Relaxes (d'.registerOrSkip i) where
  definition? := definition?_registerOrSkip_congr h.definition?
  has c hc := has_registerOrSkip.mpr ((has_registerOrSkip.mp hc).imp_left (h.has c))
  restrictive c hr hc := has_registerOrSkip.mpr ((has_registerOrSkip.mp hc).imp_left (h.restrictive c hr))
  isVulkan hv := by
    rw [environment_registerOrSkip] at hv ⊢
    exact h.isVulkan hv
  strict hs := by
    by_cases hi : i.Registrable
    · by_cases hop : i.opcode = .opMemoryModel
      -- Both declare the model that the instruction names, and at most `d` is for a Vulkan environment.
      · simp only [Declarations.strict, environment_registerOrSkip, (registerOrSkip_registers hi).memoryModel?,
          if_pos hop, Bool.or_eq_true] at hs ⊢
        exact hs.imp_left h.isVulkan
      · rw [strict_registerOrSkip_of_ne hop] at hs ⊢
        exact h.strict hs
    · rw [registerOrSkip_of_not_registrable hi] at hs ⊢
      exact h.strict hs

/-- A walk that is not stopped is not stopped where more is allowed. -/
theorem Relaxes.run (h : d.Relaxes d') (hm : d.SameModels d') (hrun : d.run is = .ok e) :
    ∃ e', d'.run is = .ok e' ∧ e.Relaxes e' ∧ e.SameModels e' := by
  induction is generalizing d d' with
  | nil => cases hrun; exact ⟨d', rfl, h, hm⟩
  | cons i is ih =>
    rw [run_cons] at hrun
    obtain ⟨d₁, hstep, hrun⟩ := Except.bind_eq_ok_iff.mp hrun
    obtain ⟨hi, rfl, hcheck⟩ := step_eq_ok_iff.mp hstep
    have h₁ : (d.registerOrSkip i).Relaxes (d'.registerOrSkip i) := h.registerOrSkip
    have hm₁ : (d.registerOrSkip i).SameModels (d'.registerOrSkip i) := hm.registerOrSkip
    have hstep' := step_eq_ok_iff.mpr ⟨hi, rfl, h₁.check (fun _ => hm₁.memoryModelCount) hcheck⟩
    obtain ⟨e', hrun', he⟩ := ih h₁ hm₁ hrun
    exact ⟨e', by rw [run_cons, hstep', Except.ok_bind, hrun'], he⟩

theorem Relaxes.checkEnd (h : d.Relaxes d') (hm : d.SameModels d') (hc : d.checkEnd = .ok ()) :
    d'.checkEnd = .ok () := by
  rw [checkEnd_eq_ok_iff, hm.memoryModelCount, hm.memoryModel?]
  obtain ⟨hcount, hmodel⟩ := checkEnd_eq_ok_iff.mp hc
  exact ⟨hcount, fun hv => hmodel (h.vulkanMemoryModel hv)⟩

end Declarations

end SpirvAudit
