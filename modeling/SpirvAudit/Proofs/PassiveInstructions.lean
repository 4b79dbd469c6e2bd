/-
Instructions that make no difference.

Most instructions are checked for nothing but their opcode
(`Opcode.isPassive`): they declare nothing that a check asks for, other than
their own id. Put one into a module in which its id does not occur, and every
other instruction sees the same declarations as before, as far as it looks
(`Declarations.AgreesOn`). So the module gets the same verdict, and is rejected
for the same violation if it is rejected.
-/
import SpirvAudit.Proofs.Admission
import SpirvAudit.Proofs.ExtraCapability

namespace SpirvAudit

/-- Instructions of which only the opcode is checked. The others declare capabilities or models, have
gated operands, or synchronize. -/
def Opcode.isPassive : Opcode → Bool
  | .opCapability | .opMemoryModel | .opEntryPoint | .opExecutionMode | .opExecutionModeId
  | .opTypePointer | .opVariable | .opTypeImage | .opDecorate | .opDecorateId | .opMemberDecorate
  | .opControlBarrier | .opMemoryBarrier | .opMemoryNamedBarrier => false
  | op => !op.isAtomic

namespace Opcode

variable {op : Opcode}

theorem gates_of_isPassive (h : op.isPassive = true) : op.gates = [] := by
  cases op <;> first | rfl | cases h

theorem isAtomic_of_isPassive (h : op.isPassive = true) : op.isAtomic = false := by
  cases op <;> first | rfl | cases h

theorem isBarrier_of_isPassive (h : op.isPassive = true) : op.isBarrier = false := by
  cases op <;> first | rfl | cases h

theorem ne_capability_of_isPassive (h : op.isPassive = true) : op ≠ .opCapability := by
  rintro rfl
  cases h

theorem ne_memoryModel_of_isPassive (h : op.isPassive = true) : op ≠ .opMemoryModel := by
  rintro rfl
  cases h

end Opcode

namespace Declarations

variable {S : Set Id} {d : Declarations} {x : Instruction}

theorem registrable_of_isPassive (h : x.opcode.isPassive = true)
    (hname : x.opcode = .opExtension → ∃ name, x.string 0 = .ok name) : x.Registrable where
  capability hop := absurd hop (Opcode.ne_capability_of_isPassive h)
  extension := hname
  models hop := absurd hop (Opcode.ne_memoryModel_of_isPassive h)

theorem check_of_isPassive (h : x.opcode.isPassive = true) (henabled : d.enables x.opcode.requires = true) :
    d.check x = .ok () := by
  refine check_eq_ok_iff.mpr ⟨henabled, by simp [Opcode.gates_of_isPassive h], ?_⟩
  rw [checkEffect_eq_ok_iff (Opcode.isAtomic_of_isPassive h) (Opcode.isBarrier_of_isPassive h)]
  exact ⟨fun hop => absurd hop (Opcode.ne_capability_of_isPassive h),
    fun hop => absurd hop (Opcode.ne_memoryModel_of_isPassive h)⟩

/-- A passive instruction changes nothing for the ids other than its own. -/
theorem agreesOn_registerOrSkip_of_isPassive (h : x.opcode.isPassive = true) (hd : d.RefersTo S)
    (hresult : ∀ id ∈ S, x.result? ≠ some id) : AgreesOn S d (d.registerOrSkip x) where
  toSameModels := sameModels_registerOrSkip (Opcode.ne_memoryModel_of_isPassive h)
  definition? id hid :=
    registerOrSkip_induction (P := fun d' => d'.definition? id = d.definition? id)
      (fun d' hr => by rw [hr.definition?, if_neg (hresult id hid), Option.or_none]) rfl
  refersTo := hd
  has := funext fun c => by
    rw [Bool.eq_iff_iff, has_registerOrSkip, capability?_eq_none (Opcode.ne_capability_of_isPassive h)]
    simp
  isVulkan := by rw [environment_registerOrSkip]

end Declarations

namespace Module

open Declarations

variable {env : Environment} {m : Module} {p : Nat} {x : Instruction}

/-- **Passive instructions are neutral.** Put an instruction of which only the opcode is checked
anywhere into a module. If the capabilities declared before it allow its opcode, its literal string is
one if it is an `OpExtension`, and its id, if it has one, does not occur in the module, then the
verdict on the module stays the same, be it accepted or rejected, and for the same violation. -/
theorem audit_insert_passive (hpassive : x.opcode.isPassive = true)
    (hname : x.opcode = .opExtension → ∃ name, x.string 0 = .ok name)
    (henabled : Enabled (m.instructions.take p) x.opcode.requires)
    (hfresh : ∀ i ∈ m.instructions, ∀ word ∈ i.tail, x.result? ≠ some word) :
    (m.insert p x).audit env = m.audit env := by
  let S : Set Id := {id | x.result? ≠ some id}
  have hkeeps : ∀ i ∈ m.instructions, i.KeepsTo S := hfresh
  have hsplit : (initial env).run m.instructions =
      ((initial env).run (m.instructions.take p) >>= fun d => d.run (m.instructions.drop p)) := by
    rw [← run_append, List.take_append_drop]
  rw [audit, audit, hsplit, insert, run_append]
  cases env.checkVersion m.version with
  | error v => rfl
  | ok =>
    rw [Except.ok_bind, Except.ok_bind]
    cases hfront : (initial env).run (m.instructions.take p) with
    | error v => rfl
    | ok d =>
      obtain ⟨-, rfl, -⟩ := run_eq_ok_iff.mp hfront
      have href : ((initial env).registerEach (m.instructions.take p)).RefersTo S :=
        (refersTo_initial env S).registerEach fun i hi => hkeeps i (List.mem_of_mem_take hi)
      have hagrees := agreesOn_registerOrSkip_of_isPassive hpassive href fun _ hid => hid
      have hstep := step_eq_ok_iff.mpr ⟨registrable_of_isPassive hpassive hname, rfl,
        check_of_isPassive hpassive ((hagrees.enables _).trans (enables_registerEach_initial.mpr henabled))⟩
      rw [Except.ok_bind, Except.ok_bind, run_cons, hstep, Except.ok_bind]
      exact hagrees.run fun i hi => hkeeps i (List.mem_of_mem_drop hi)

/-- A type that only shaders may declare, after `Shader` and before an atomic load. -/
theorem audit_insert_passive_loading :
    (loading.insert 3 ⟨.opTypeRuntimeArray, none, some 7, [1]⟩).audit (.vulkan 0) = loading.audit (.vulkan 0) := by
  have hshader : Enabled (loading.instructions.take 3) [.shader] :=
    .inr ⟨.shader, List.mem_cons_self, _, List.mem_cons_self, .shader, rfl, .refl⟩
  have hunused : ∀ i ∈ loading.instructions, 7 ∉ i.tail := by simp [loading, Instruction.tail]
  have hname : Opcode.opTypeRuntimeArray ≠ .opExtension := by decide
  refine audit_insert_passive rfl (absurd · hname) hshader fun i hi word hword hresult => hunused i hi ?_
  rwa [Option.some.inj hresult]

end Module

end SpirvAudit
