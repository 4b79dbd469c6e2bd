/-
Declaring one more capability.

A capability that is put into an accepted module does no harm, unless it brings
a restrictive one that was not there before it (`Capability.restrictive`). What
follows it is checked against declarations that allow more
(`Declarations.Relaxes`), and an `OpCapability` is checked for nothing but
that the capability is a known one.
-/
import SpirvAudit.Proofs.Relaxation

namespace SpirvAudit

open Capability (Reaches implies)

namespace Declarations

variable {d : Declarations} {i : Instruction} {c : Capability}

theorem step_capability (hc : i.capability? = some c) : d.step i = .ok (d.registerOrSkip i) :=
  step_eq_ok_iff.mpr ⟨registrable_of_capability? hc, rfl,
    (check_capability_eq_ok_iff (opcode_of_capability? hc)).mpr ⟨c, hc⟩⟩

/-- More is allowed with the capability, if the restrictive ones it brings are declared already. -/
theorem relaxes_capability (hc : i.capability? = some c) (hresult : i.result? = none)
    (h : ∀ r ∈ Capability.restrictive, Reaches implies c r → d.has r = true) :
    d.Relaxes (d.registerOrSkip i) where
  definition? := definition?_registerOrSkip hresult
  has _ hd := has_registerOrSkip.mpr (.inl hd)
  restrictive r hr hd := by
    rcases has_registerOrSkip.mp hd with hd | ⟨a, ha, hreaches⟩
    · exact hd
    · cases hc.symm.trans ha
      exact h r hr hreaches
  isVulkan hv := by rwa [environment_registerOrSkip] at hv
  strict hs := by
    rwa [strict_registerOrSkip_of_ne (by rw [opcode_of_capability? hc]; decide)] at hs

end Declarations

namespace Module

open Declarations

variable {env : Environment} {m : Module} {p : Nat} {j : Instruction} {c : Capability}

/-- The module with an instruction put in after the first `p`. -/
def insert (m : Module) (p : Nat) (j : Instruction) : Module :=
  { m with instructions := m.instructions.take p ++ j :: m.instructions.drop p }

/-- **Extra capabilities never hurt, except two.** Put a declaration of a known capability anywhere
into an accepted module. If each of `Shader` and `VulkanMemoryModel` that it declares was declared
before, the module is still accepted. -/
theorem audit_insert_capability (h : m.audit env = .ok ()) (hj : j.WellFormed) (hc : j.capability? = some c)
    (hdeclared : ∀ r ∈ Capability.restrictive, Reaches implies c r → Declares (m.instructions.take p) r) :
    (m.insert p j).audit env = .ok () := by
  obtain ⟨hversion, h⟩ := Verdict.bind_eq_ok_iff.mp h
  obtain ⟨e, hrun, hend⟩ := Except.bind_eq_ok_iff.mp h
  rw [← List.take_append_drop p m.instructions, run_append] at hrun
  obtain ⟨d, hfront, hback⟩ := Except.bind_eq_ok_iff.mp hrun
  obtain ⟨-, rfl, -⟩ := run_eq_ok_iff.mp hfront
  have hresult : j.result? = none := hj.result?_eq_none (by rw [opcode_of_capability? hc]; rfl)
  have hrelaxes : (m.declarationsAfter env p).Relaxes ((m.declarationsAfter env p).registerOrSkip j) :=
    relaxes_capability hc hresult fun r hr hreaches => has_registerEach_initial.mpr (hdeclared r hr hreaches)
  have hmodels : (m.declarationsAfter env p).SameModels ((m.declarationsAfter env p).registerOrSkip j) :=
    sameModels_registerOrSkip (by rw [opcode_of_capability? hc]; decide)
  obtain ⟨e', hback', he, hmodels'⟩ := hrelaxes.run hmodels hback
  refine Verdict.bind_eq_ok_iff.mpr ⟨hversion, Except.bind_eq_ok_iff.mpr ⟨e', ?_, he.checkEnd hmodels' hend⟩⟩
  rw [insert, run_append, hfront, Except.ok_bind, run_cons, step_capability hc, Except.ok_bind]
  exact hback'

/-- A module for shaders, with an atomic load. -/
def loading : Module where
  version := ⟨1, 0⟩
  bound := 9
  instructions := [
    ⟨.opCapability, none, none, [1]⟩,
    ⟨.opMemoryModel, none, none, [0, 1]⟩,
    ⟨.opTypeInt, none, some 1, [32, 0]⟩,
    ⟨.opTypePointer, none, some 2, [4, 1]⟩,
    ⟨.opVariable, some 2, some 3, [4]⟩,
    ⟨.opConstant, some 1, some 4, [1]⟩,
    ⟨.opConstantNull, some 1, some 5, []⟩,
    ⟨.opAtomicLoad, some 1, some 6, [3, 4, 5]⟩]

/-- `Geometry` brings `Shader`, which is there before it, and not `VulkanMemoryModel`. -/
theorem audit_insert_capability_loading :
    (loading.insert 3 ⟨.opCapability, none, none, [2]⟩).audit (.vulkan 0) = .ok () := by
  have haccepted : loading.audit (.vulkan 0) = .ok () := by cbv
  have himplied : Capability.geometry.implied = [.geometry, .shader, .matrix] := by cbv
  refine audit_insert_capability haccepted ⟨rfl, rfl, by decide⟩ (c := .geometry) rfl fun r hr hreaches => ?_
  have hmem := Capability.mem_implied_iff.mpr hreaches
  rw [himplied] at hmem
  simp only [Capability.restrictive, List.mem_cons, List.not_mem_nil, or_false] at hr
  rcases hr with rfl | rfl
  · exact ⟨_, List.mem_cons_self, .shader, rfl, .refl⟩
  · simp at hmem

end Module

end SpirvAudit
