/-
What a diagnostic says of missing capabilities.

A diagnostic is known by its opcode, its context and its rule, and these say which
capabilities it lists, whatever is declared (`Instruction.listed`). So a
diagnostic for a missing capability goes away once one of those it lists is
declared. The instruction may still be rejected, since `Shader` and
`VulkanMemoryModel` also bring restrictions, but under another rule or for
another operand.
-/
import SpirvAudit.Proofs.Findings

namespace SpirvAudit

/-! ## The identity of a diagnostic -/

def Subject.all : List Subject := [
  .whole, .version, .declaredMemoryModel, .capability, .addressingModel, .memoryModel, .executionModel, .mode,
  .storageClass, .dim, .decoration, .name, .executionScope, .memoryScope, .semantics, .equalSemantics,
  .unequalSemantics, .namedBarrier, .pointer, .resultType]

theorem Subject.find?_text (s : Subject) : all.find? (·.text = s.text) = some s := by
  cases s <;> rfl

/-- A subject is known by its text. -/
theorem Subject.text_injective : Function.Injective Subject.text := by
  intro s t h
  have hs := find?_text s
  rw [h, find?_text] at hs
  exact (Option.some.inj hs).symm

/-- Areas and names have no dashes in them, so they can be told from the text of a rule. -/
theorem Problem.dash_notMem {p : Problem} {area name : String} (h : p.rule = .spirv area name) :
    '-' ∉ area.toList ∧ '-' ∉ name.toList := by
  cases p
  case notInt32 a => cases a <;> (cases h; decide)
  case notConstant a => cases a <;> (cases h; decide)
  case notConstantInstruction a => cases a <;> (cases h; decide)
  case flagNotEnabled f => cases f <;> (cases h; decide)
  all_goals (cases h <;> decide)

/-- The text of a rule of SPIR-V is not that of a rule of Vulkan. -/
theorem vuid?_ne {number : Nat} {text : String} (h : vuid? number = some text) (rest : String) :
    text ≠ "SPIRV-" ++ rest := by
  intro hrest
  have hlist := congrArg String.toList hrest
  unfold vuid? at h
  split at h
  · cases h
    simp at hlist
  · split at h
    · cases h
      simp at hlist
    · cases h

/-- A rule of SPIR-V is known by its text. -/
theorem Problem.rule_eq_of_text {p q : Problem} {area name : String} (hp : p.rule = .spirv area name)
    (h : q.rule.text?.getD "" = p.rule.text?.getD "") : q.rule = p.rule := by
  rw [hp, Rule.text?, Option.getD_some] at h
  cases hq : q.rule with
  | vulkan number =>
    rw [hq, Rule.text?] at h
    cases htext : vuid? number with
    | none =>
      have hlist := congrArg String.toList h
      simp [htext] at hlist
    | some text =>
      rw [htext, Option.getD_some, String.append_assoc, String.append_assoc] at h
      exact absurd h (vuid?_ne htext _)
  | spirv area' name' =>
    rw [hq, Rule.text?, Option.getD_some] at h
    have hlist := congrArg String.toList h
    simp only [String.toList_append, List.append_assoc, List.append_cancel_left_eq] at hlist
    obtain ⟨harea', hname'⟩ := dash_notMem hq
    obtain ⟨harea, -, hname⟩ := (List.append_cons_inj_of_notMem harea' hname').mp hlist
    rw [hp, String.toList_inj.mp harea, String.toList_inj.mp hname]

/-! ## The diagnostic -/

namespace Declarations

variable {d : Declarations} {i : Instruction} {v : Violation}

/-- A violation is told with the capabilities that are missing: it lists some exactly if it is for a
missing capability, none of them is declared, and which ones they are is determined by the
instruction, the subject and the rule. -/
structure Told (d : Declarations) (i : Instruction) (v : Violation) : Prop where
  listed : v.problem.kind = .missingCapability ↔ v.problem.requires ≠ []
  undeclared : ∀ c ∈ v.problem.requires, d.has c = false
  requires : v.problem.requires = i.listed v.subject v.problem.rule

/-- A problem that is not for a missing capability lists none. -/
theorem Told.of_kind_ne (h : v.problem.kind ≠ .missingCapability) : d.Told i v := by
  have hrequires : v.problem.requires = [] ∧ i.listed v.subject v.problem.rule = [] := by
    cases hp : v.problem
    case notInt32 a => cases a <;> exact ⟨rfl, rfl⟩
    case notConstant a => cases a <;> exact ⟨rfl, rfl⟩
    case notConstantInstruction a => cases a <;> exact ⟨rfl, rfl⟩
    all_goals first | exact ⟨rfl, rfl⟩ | exact absurd (by rw [hp]; rfl) h
  exact ⟨by simp [h, hrequires], by simp [hrequires], by rw [hrequires.1, hrequires.2]⟩

/-- A problem for capabilities that do not allow what is used. -/
theorem Told.of_enables (hkind : v.problem.kind = .missingCapability)
    (hdisabled : d.enables v.problem.requires = false)
    (hlisted : v.problem.requires = i.listed v.subject v.problem.rule) : d.Told i v := by
  obtain ⟨hne, hundeclared⟩ := enables_eq_false_iff.mp hdisabled
  exact ⟨by simp [hkind, hne], hundeclared, hlisted⟩

/-- Every violation that the checks of an instruction find is told with what is missing. -/
theorem told_check : FailsOnly (d.Told i) (d.check i) := by
  intro v hv
  cases finds_check v hv with
  | other hkind _ => exact .of_kind_ne hkind
  | disabled hkind hdisabled hlisted => exact .of_enables hkind hdisabled hlisted

/-- Two violations of one instruction with the same rule and the same context list the same capabilities. -/
theorem Told.requires_eq {d' : Declarations} {v' : Violation} (h : d.Told i v) (h' : d'.Told i v')
    (hkind : v.problem.kind = .missingCapability) (hrule : v'.diagnostic.rule = v.diagnostic.rule)
    (hcontext : v'.diagnostic.context = v.diagnostic.context) : v'.problem.requires = v.problem.requires := by
  obtain ⟨area, name, hspirv⟩ : ∃ area name, v.problem.rule = .spirv area name := by
    cases hp : v.problem <;> first | exact ⟨_, _, rfl⟩ | exact absurd (hp ▸ hkind) nofun
  rw [h.requires, h'.requires, Problem.rule_eq_of_text hspirv hrule, Subject.text_injective hcontext]

/-- **Diagnostics of missing capabilities are exact, and can be acted on.** Take any declarations and
any instruction that its checks reject. The diagnostic is for a missing capability if and only if it
lists some. None of those is declared. And declare any one of them, with all it implies: the checks
accept the instruction then, or give a diagnostic with another rule or for another operand. -/
theorem check_missingCapability (h : d.check i = .error v) :
    (v.diagnostic.kind = .missingCapability ↔ v.diagnostic.requires ≠ []) ∧
    (∀ c ∈ v.diagnostic.requires, d.has c = false) ∧
    ∀ c ∈ v.diagnostic.requires, ∀ v', (d.declare c).check i = .error v' →
      (v'.diagnostic.rule, v'.diagnostic.context) ≠ (v.diagnostic.rule, v.diagnostic.context) := by
  have htold := told_check v h
  refine ⟨htold.listed, htold.undeclared, fun c hc v' hv' hsame => ?_⟩
  obtain ⟨hrule, hcontext⟩ := Prod.mk.inj hsame
  have htold' := told_check v' hv'
  have hkind := htold.listed.mpr (List.ne_nil_of_mem hc)
  have hc' : c ∈ v'.problem.requires := htold.requires_eq htold' hkind hrule hcontext ▸ hc
  have hdeclared : (d.declare c).has c = true :=
    (has_declare d c c).mpr (.inl (Capability.mem_implied_iff.mpr .refl))
  rw [htold'.undeclared c hc'] at hdeclared
  cases hdeclared

/-- A shader with the constants of a memory barrier for the device, with an order for output memory. -/
def orderingOutput : Declarations :=
  (initial default).registerEach [
    ⟨.opCapability, none, none, [1]⟩,
    ⟨.opTypeInt, none, some 1, [32, 0]⟩,
    ⟨.opConstant, some 1, some 2, [1]⟩,
    ⟨.opConstant, some 1, some 3, [0x1008]⟩]

/-- Output memory needs `VulkanMemoryModel`. Once that is declared, the scope needs a capability too. -/
theorem check_missingCapability_outputMemory :
    orderingOutput.has .vulkanMemoryModel = false ∧
    (orderingOutput.declare .vulkanMemoryModel).check ⟨.opMemoryBarrier, none, none, [2, 3]⟩ =
      .error ⟨some .opMemoryBarrier, .memoryScope, .deviceNotEnabled⟩ ∧
    ("SPIRV-MemoryScope-DeviceScope", "Memory Scope") ≠ ("SPIRV-MemorySemantics-OutputMemory", "Memory Semantics") := by
  have hbefore : orderingOutput.check ⟨.opMemoryBarrier, none, none, [2, 3]⟩ =
      .error ⟨some .opMemoryBarrier, .semantics, .flagNotEnabled .outputMemory⟩ := by cbv
  have hafter : (orderingOutput.declare .vulkanMemoryModel).check ⟨.opMemoryBarrier, none, none, [2, 3]⟩ =
      .error ⟨some .opMemoryBarrier, .memoryScope, .deviceNotEnabled⟩ := by cbv
  obtain ⟨-, hundeclared, hchanged⟩ := check_missingCapability hbefore
  exact ⟨hundeclared _ List.mem_cons_self, hafter, hchanged _ List.mem_cons_self _ hafter⟩

end Declarations

end SpirvAudit
