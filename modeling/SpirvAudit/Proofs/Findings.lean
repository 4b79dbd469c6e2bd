/-
What may reject an instruction.

Whatever rejects an instruction is a problem of an instruction, told of this
one: a walk never tells of the version of a module, nor of what a module lacks at
its end. A check that a capability is missing stands in four places, for opcodes,
for gated operands, for scopes and semantics, and for 64-bit atomics. Wherever it
stands, the capabilities it lists are ones of which none is declared, and they
are the same whatever is declared: the instruction, the operand and the rule
determine them (`Instruction.listed`). `Declarations.Finds` says all of this. Each
check is shown once to end with nothing else, and registering too, so that the
same holds of a step and of a walk (`finds_run`).
-/
import SpirvAudit.Proofs.Walk

namespace SpirvAudit

/-- The problem lies with an instruction: not with the version of a module, nor with what it has declared by its end. -/
def Problem.isOfInstruction : Problem → Bool
  | .versionTooNew _ _ | .noMemoryModel | .notVulkanMemoryModel => false
  | _ => true

/-! ## Listed capabilities -/

/-- The capabilities that the gated operand of an instruction for this subject depends on. -/
def Instruction.gatedBy (i : Instruction) (subject : Subject) : List Capability :=
  match i.opcode.gates.find? (·.subject = subject) with
  | some g =>
    match i.enumerant g with
    | .ok row => row.capabilities
    | .error _ => []
  | none => []

/-- The capabilities that are listed where an instruction violates this rule. -/
def Instruction.listed (i : Instruction) (subject : Subject) : Rule → List Capability
  | .spirv "Capability" "Opcode" => i.opcode.requires
  | .spirv "Capability" "Operand" => i.gatedBy subject
  | .spirv "Scope" "Capability" => Scope.shaderCallKHR.requires
  | .spirv "MemoryScope" "QueueFamily" => [.vulkanMemoryModel]
  | .spirv "MemoryScope" "DeviceScope" => [.vulkanMemoryModelDeviceScope]
  | .spirv "MemorySemantics" title => ((Semantics.Flag.all.find? (·.title = title)).map (·.requires)).getD []
  | .spirv "Atomic" "Int64" => [.int64Atomics]
  | _ => []

/-- The gated operands of an opcode are about different subjects. -/
theorem Opcode.find?_gates {op : Opcode} {g : Gate} (hg : g ∈ op.gates) :
    op.gates.find? (·.subject = g.subject) = some g := by
  unfold gates at hg ⊢
  split at hg <;> simp only [List.mem_cons, List.not_mem_nil, or_false] at hg
  case h_1 => rcases hg with rfl | rfl <;> rfl
  all_goals (subst hg; rfl)

theorem Instruction.gatedBy_eq {i : Instruction} {g : Gate} {row : Enumerant} (hg : g ∈ i.opcode.gates)
    (hrow : i.enumerant g = .ok row) : i.gatedBy g.subject = row.capabilities := by
  rw [gatedBy, Opcode.find?_gates hg]
  simp only [hrow]

theorem Semantics.Flag.find?_title (f : Flag) : all.find? (·.title = f.title) = some f := by
  cases f <;> rfl

namespace Declarations

variable {d : Declarations} {i : Instruction} {is : List Instruction} {v : Violation} {subject : Subject}

theorem enables_eq_false_iff {cs : List Capability} :
    d.enables cs = false ↔ cs ≠ [] ∧ ∀ c ∈ cs, d.has c = false := by
  simp [enables, hasAny]

/-- What may reject an instruction: a problem of an instruction, told of this one. If it is for missing capabilities,
those it lists do not allow what is used, and are the ones listed under this rule. -/
inductive Finds (d : Declarations) (i : Instruction) : Violation → Prop
  | other {subject : Subject} {p : Problem} (kind : p.kind ≠ .missingCapability)
    (problem : p.isOfInstruction = true) : Finds d i (i.violation subject p)
  | disabled {subject : Subject} {p : Problem} (kind : p.kind = .missingCapability)
    (disabled : d.enables p.requires = false) (listed : p.requires = i.listed subject p.rule) :
    Finds d i (i.violation subject p)

/-! ## Checks -/

theorem finds_missing {index : Nat} : FailsOnly (d.Finds i) (i.required index subject) :=
  .required (.other nofun rfl)

/-- A judgement that asks for the capabilities it lists. -/
theorem finds_judge_enables {fault : Fault} (hholds : fault.holds = !d.enables fault.problem.requires)
    (hkind : fault.problem.kind = .missingCapability)
    (hlisted : fault.problem.requires ≠ [] → fault.problem.requires = i.listed subject fault.problem.rule) :
    FailsOnly (d.Finds i) (i.judge subject [fault]) := by
  refine .judge (List.forall_mem_singleton.mpr fun hfault => ?_)
  have hdisabled : d.enables fault.problem.requires = false := by simpa [hholds] using hfault
  exact .disabled hkind hdisabled (hlisted (enables_eq_false_iff.mp hdisabled).1)

/-- A judgement that asks for no capability. -/
theorem finds_judge_other {fault : Fault} (hkind : fault.problem.kind ≠ .missingCapability)
    (hproblem : fault.problem.isOfInstruction = true) : FailsOnly (d.Finds i) (i.judge subject [fault]) :=
  .judge (List.forall_mem_singleton.mpr fun _ => .other hkind hproblem)

theorem finds_checkOpcode : FailsOnly (d.Finds i) (d.checkOpcode i) :=
  finds_judge_enables rfl rfl fun _ => rfl

theorem finds_enumerant {g : Gate} : FailsOnly (d.Finds i) (i.enumerant g) := by
  refine finds_missing.bind fun code _ => ?_
  cases g.kind.find? code.toNat with
  | none => exact .error (.other nofun rfl)
  | some row => exact .ok row

theorem finds_checkGate {g : Gate} (hg : g ∈ i.opcode.gates) : FailsOnly (d.Finds i) (d.checkGate i g) := by
  refine finds_enumerant.bind fun row hrow => ?_
  exact finds_judge_enables rfl rfl fun _ => (Instruction.gatedBy_eq hg hrow).symm

theorem finds_checkCapability : FailsOnly (d.Finds i) i.checkCapability := by
  intro v hv
  rw [Instruction.checkCapability, discard] at hv
  cases hrow : i.enumerant ⟨0, .capability, .capability⟩ with
  | ok row => rw [hrow] at hv; cases hv
  | error w => rw [hrow] at hv; cases hv; exact finds_enumerant v hrow

theorem finds_constantOperand {index : Nat} {area : ConstantArea} :
    FailsOnly (d.Finds i) (d.constantOperand i index subject area) := by
  refine finds_missing.bind fun id _ => ?_
  cases d.fold id with
  | notInt32 => exact .error (.other nofun rfl)
  | runtime =>
    refine FailsOnly.bind (.judge ?_) fun _ _ => .ok none
    simp only [runtimeFaults, List.forall_mem_cons]
    exact ⟨fun _ => .other nofun rfl, fun _ => .other nofun rfl, by simp⟩
  | constant value => exact .ok (some value)

theorem finds_scopeOperand {index : Nat} : FailsOnly (d.Finds i) (d.scopeOperand i index subject) := by
  refine finds_constantOperand.bind fun value? _ => ?_
  cases value? with
  | none => exact .ok none
  | some value =>
    dsimp only
    split
    · exact .error (.other nofun rfl)
    next scope _ =>
      refine FailsOnly.bind (finds_judge_enables rfl rfl fun hrequires => ?_) fun _ _ => .ok (some scope)
      -- The only scope that depends on a capability is `ShaderCallKHR`.
      cases scope with
      | shaderCallKHR => rfl
      | _ => exact absurd rfl hrequires

theorem finds_checkExecutionScope {index : Nat} : FailsOnly (d.Finds i) (d.checkExecutionScope i index) := by
  refine finds_scopeOperand.bind fun scope? _ => ?_
  cases scope? with
  | none => exact .ok ()
  | some scope => exact finds_judge_other nofun rfl

theorem finds_checkMemoryScope {index : Nat} : FailsOnly (d.Finds i) (d.checkMemoryScope i index) := by
  refine finds_scopeOperand.bind fun scope? _ => ?_
  cases scope? with
  | none => exact .ok ()
  | some scope =>
    refine .judge ?_
    simp only [memoryScopeFaults, List.forall_mem_cons, Bool.and_eq_true, Bool.not_eq_true']
    refine ⟨fun h => .disabled rfl ?_ rfl, fun h => .disabled rfl ?_ rfl, fun _ => .other nofun rfl, by simp⟩
    · exact enables_eq_false_iff.mpr ⟨nofun, List.forall_mem_singleton.mpr h.2⟩
    · exact enables_eq_false_iff.mpr ⟨nofun, List.forall_mem_singleton.mpr h.2⟩

theorem finds_flagFault {value : Semantics} {flag : Semantics.Flag} (h : (d.flagFault value flag).holds = true) :
    d.Finds i (i.violation subject (d.flagFault value flag).problem) := by
  simp only [flagFault, Bool.and_eq_true, Bool.not_eq_true'] at h
  refine .disabled rfl h.2 ?_
  change flag.requires = ((Semantics.Flag.all.find? (·.title = flag.title)).map (·.requires)).getD []
  rw [Semantics.Flag.find?_title]
  rfl

theorem finds_semanticsFaults {index scopeIndex : Nat} {value : Semantics} :
    ∀ f ∈ d.semanticsFaults i index scopeIndex value, f.holds = true → d.Finds i (i.violation subject f.problem) := by
  have hvalue : ∀ f ∈ d.valueFaults i.opcode value, f.holds = true → d.Finds i (i.violation subject f.problem) := by
    simp only [valueFaults, List.forall_mem_cons]
    exact ⟨finds_flagFault, finds_flagFault, fun _ => .other nofun rfl, fun _ => .other nofun rfl,
      fun _ => .other nofun rfl, fun _ => .other nofun rfl, fun _ => .other nofun rfl,
      fun _ => .other nofun rfl, fun _ => .other nofun rfl, finds_flagFault, fun _ => .other nofun rfl,
      finds_flagFault, fun _ => .other nofun rfl, finds_flagFault, fun _ => .other nofun rfl, by simp⟩
  have hunequal : ∀ equal : Semantics, ∀ f ∈ d.unequalFaults equal value, f.holds = true →
      d.Finds i (i.violation subject f.problem) := by
    simp only [unequalFaults, List.forall_mem_cons]
    exact fun _ => ⟨fun _ => .other nofun rfl, fun _ => .other nofun rfl, fun _ => .other nofun rfl,
      fun _ => .other nofun rfl, by simp⟩
  simp only [semanticsFaults, List.forall_mem_append, List.forall_mem_singleton]
  refine ⟨⟨hvalue, ?_⟩, fun _ => .other nofun rfl⟩
  split
  · exact hunequal _
  · simp

theorem finds_checkSemantics {index scopeIndex : Nat} :
    FailsOnly (d.Finds i) (d.checkSemantics i index scopeIndex) := by
  refine finds_constantOperand.bind fun value? _ => ?_
  cases value? with
  | none => exact .ok ()
  | some value => exact .judge finds_semanticsFaults

theorem finds_pointee : FailsOnly (d.Finds i) (d.pointee i) := by
  refine finds_missing.bind fun pointer _ => ?_
  split
  next pointee _ => exact .ok pointee
  · exact .error (.other nofun rfl)

theorem finds_checkScalar {scalar : ScalarClass} {pointee : Id} :
    FailsOnly (d.Finds i) (d.checkScalar i scalar pointee) := by
  refine FailsOnly.bind (finds_judge_other ?_ rfl) fun _ _ =>
    FailsOnly.bind (finds_judge_other ?_ rfl) fun _ _ => .judge ?_
  · nofun
  · nofun
  · simp only [List.forall_mem_singleton, Bool.and_eq_true, Bool.not_eq_true']
    exact fun h => .disabled rfl (enables_eq_false_iff.mpr ⟨nofun, List.forall_mem_singleton.mpr h.2⟩) rfl

theorem finds_checkAtomic : FailsOnly (d.Finds i) (d.checkAtomic i) := by
  refine finds_pointee.bind fun pointee _ => FailsOnly.bind ?_ fun _ _ =>
    finds_checkMemoryScope.bind fun _ _ => finds_checkSemantics.bind fun _ _ => ?_
  · cases i.opcode.scalarClass? with
    | none => exact .ok ()
    | some scalar => exact finds_checkScalar
  · split
    · exact finds_checkSemantics
    · exact .ok ()

theorem finds_checkNamedBarrier : FailsOnly (d.Finds i) (d.checkNamedBarrier i) := by
  exact finds_missing.bind fun id _ => finds_judge_other nofun rfl

theorem finds_checkEffect : FailsOnly (d.Finds i) (d.checkEffect i) := by
  unfold checkEffect
  split
  · exact finds_checkCapability
  · exact finds_judge_other nofun rfl
  · exact finds_checkExecutionScope.bind fun _ _ => finds_checkMemoryScope.bind fun _ _ => finds_checkSemantics
  · exact finds_checkMemoryScope.bind fun _ _ => finds_checkSemantics
  · exact finds_checkNamedBarrier.bind fun _ _ => finds_checkMemoryScope.bind fun _ _ => finds_checkSemantics
  · split
    · exact finds_checkAtomic
    · exact .ok ()

theorem finds_check : FailsOnly (d.Finds i) (d.check i) :=
  finds_checkOpcode.bind fun _ _ => (FailsOnly.forM fun _ => finds_checkGate).bind fun _ _ => finds_checkEffect

/-! ## Registering and walks -/

theorem finds_registerDeclaration : FailsOnly (d.Finds i) (d.registerDeclaration i) := by
  unfold registerDeclaration
  split
  · exact finds_missing.bind fun _ _ => .ok _
  · split
    · exact .ok _
    · exact .error (.other nofun rfl)
  · exact finds_missing.bind fun _ _ => finds_missing.bind fun _ _ => .ok _
  · exact .ok d

theorem finds_register : FailsOnly (d.Finds i) (d.register i) :=
  finds_registerDeclaration.bind fun _ _ => .ok _

/-- A step rejects its instruction for what registering it finds, or for what its checks find after that. -/
theorem finds_step : FailsOnly (fun v => ∃ d : Declarations, d.Finds i v) (d.step i) := by
  refine FailsOnly.bind (fun v hv => ⟨d, finds_register v hv⟩) fun d' _ => ?_
  exact FailsOnly.bind (fun v hv => ⟨d', finds_check v hv⟩) fun _ _ => .ok d'

/-- A walk rejects one of its instructions. -/
theorem finds_run : FailsOnly (fun v => ∃ i ∈ is, ∃ d : Declarations, d.Finds i v) (d.run is) := by
  induction is generalizing d with
  | nil => exact .ok d
  | cons i is ih =>
    rw [run_cons]
    refine FailsOnly.bind (fun v hv => ⟨i, List.mem_cons_self, finds_step v hv⟩) fun d' _ v hv => ?_
    obtain ⟨j, hj, hfinds⟩ := ih v hv
    exact ⟨j, List.mem_cons_of_mem i hj, hfinds⟩

theorem Finds.isOfInstruction (h : d.Finds i v) : v.problem.isOfInstruction = true := by
  cases h with
  | other _ hproblem => exact hproblem
  | @disabled _ p hkind =>
    cases p <;> first | rfl | cases hkind

end Declarations

end SpirvAudit
