/-
What the environment changes about an audit.

Apart from the version it takes, an environment matters only in being a Vulkan
one or not: two of the same kind are asked the same questions, and give the
same answers. A Vulkan environment adds rules and drops none, so its checks are
at least as strict all along the walk.
-/
import SpirvAudit.Proofs.Relaxation

namespace SpirvAudit

namespace Declarations

variable {env env' : Environment}

theorem agrees_initial (h : env'.isVulkan = env.isVulkan) : (initial env).Agrees (initial env') :=
  ⟨⟨rfl, rfl⟩, rfl, rfl, h⟩

/-- Nothing is declared yet, so the rules of Vulkan apply only if the environment is a Vulkan one. -/
theorem strict_initial (env : Environment) : (initial env).strict = env.isVulkan := by
  simp [strict, initial]

theorem relaxes_initial (h : env'.isVulkan = true → env.isVulkan = true) :
    (initial env).Relaxes (initial env') where
  definition? := rfl
  has _ hc := hc
  restrictive _ _ hc := hc
  isVulkan := h
  strict hs := by
    rw [strict_initial] at hs ⊢
    exact h hs

end Declarations

namespace Module

open Declarations

variable {env env' : Environment} {m : Module}

/-- Past its version, a module is judged by the walk over its instructions and by its end. -/
theorem audit_of_version (h : m.version ≤ env.maxVersion) :
    m.audit env = ((initial env).run m.instructions >>= Declarations.checkEnd) := by
  rw [audit, Environment.checkVersion_eq_ok_iff.mpr h, Except.ok_bind]

/-- What is accepted for an environment is accepted for one that is no more of a Vulkan one. -/
theorem audit_of_isVulkan_imp (hversion : m.version ≤ env'.maxVersion)
    (hvulkan : env'.isVulkan = true → env.isVulkan = true) (h : m.audit env = .ok ()) :
    m.audit env' = .ok () := by
  rw [audit, Verdict.bind_eq_ok_iff] at h
  obtain ⟨d, hrun, hend⟩ := Except.bind_eq_ok_iff.mp h.2
  obtain ⟨d', hrun', hd, hmodels⟩ := (relaxes_initial hvulkan).run ⟨rfl, rfl⟩ hrun
  rw [audit_of_version hversion, hrun', Except.ok_bind]
  exact hd.checkEnd hmodels hend

/-- **The environment only tightens.** Take two environments that both take a module's version. If
both are Vulkan environments, or neither is, they give the module the same verdict, violation and
all. If only the first one is, what it accepts the other one accepts too. -/
theorem audit_environment_tightens (h : m.version ≤ env.maxVersion) (h' : m.version ≤ env'.maxVersion) :
    (env'.isVulkan = env.isVulkan → m.audit env' = m.audit env) ∧
    (env.isVulkan = true → env'.isVulkan = false → m.audit env = .ok () → m.audit env' = .ok ()) := by
  constructor
  · intro hkind
    rw [audit_of_version h, audit_of_version h']
    exact (agrees_initial hkind).run
  · intro hvulkan _ haccepted
    exact audit_of_isVulkan_imp h' (fun _ => hvulkan) haccepted

/-- A module whose barrier suits Vulkan. -/
def fenced : Module where
  version := ⟨1, 3⟩
  bound := 4
  instructions := [
    ⟨.opCapability, none, none, [1]⟩,
    ⟨.opMemoryModel, none, none, [0, 1]⟩,
    ⟨.opTypeInt, none, some 1, [32, 0]⟩,
    ⟨.opConstant, some 1, some 2, [2]⟩,
    ⟨.opConstant, some 1, some 3, [0x108]⟩,
    ⟨.opControlBarrier, none, none, [2, 2, 3]⟩]

theorem audit_environment_tightens_fenced :
    fenced.audit (.vulkan 4) = fenced.audit (.vulkan 1) ∧ fenced.audit (.universal 3) = .ok () :=
  have haccepted : fenced.audit (.vulkan 1) = .ok () := by cbv
  ⟨(audit_environment_tightens (by decide) (by decide)).1 rfl,
    (audit_environment_tightens (by decide) (by decide)).2 rfl rfl haccepted⟩

end Module

end SpirvAudit
