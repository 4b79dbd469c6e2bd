/-
Appending to a module.

A walk that ends early ends the same way whatever follows, so only what is
checked at the end of a module can be mended by appending. Of the two checks
there, a missing `OpMemoryModel` can. A memory model that is not the one a
declared capability demands cannot (`Declarations.Mismatched`): capabilities
stay declared, and a second `OpMemoryModel` is rejected where it stands.
-/
import SpirvAudit.Proofs.Encoding
import SpirvAudit.Proofs.Walk

namespace SpirvAudit

namespace Declarations

variable {d d' : Declarations} {i : Instruction} {is : List Instruction} {v : Violation}

/-! ## Mismatched models -/

/-- A declared capability demands the Vulkan memory model, and another one is declared. -/
structure Mismatched (d : Declarations) : Prop where
  declared : d.memoryModelCount ≠ 0
  demanded : d.has .vulkanMemoryModel = true
  other : d.memoryModel? ≠ some .vulkan

theorem Mismatched.step (hd : d.Mismatched) (h : d.step i = .ok d') : d'.Mismatched := by
  have hop := opcode_ne_memoryModel_of_step h hd.declared
  obtain ⟨hi, rfl, -⟩ := step_eq_ok_iff.mp h
  have hr := registerOrSkip_registers (d := d) hi
  refine ⟨?_, (hr.has _).mpr (.inl hd.demanded), ?_⟩
  · rw [hr.memoryModelCount, if_neg hop]
    exact hd.declared
  · rw [hr.memoryModel?, if_neg hop]
    exact hd.other

theorem Mismatched.run (hd : d.Mismatched) (h : d.run is = .ok d') : d'.Mismatched :=
  run_induction (fun _ hd h => hd.step h) h hd

theorem Mismatched.checkEnd_ne (hd : d.Mismatched) : d.checkEnd ≠ .ok () := fun h =>
  hd.other ((checkEnd_eq_ok_iff.mp h).2 hd.demanded)

/-- What the end of a module is rejected for. -/
theorem checkEnd_eq_error (h : d.checkEnd = .error v) :
    v.diagnostic.rule = "SPIRV-Layout-MemoryModelMissing" ∨
      v.diagnostic.rule = "SPIRV-Layout-VulkanMemoryModelCapability" ∧ d.Mismatched := by
  rw [checkEnd] at h
  split at h
  · cases h; exact .inl rfl
  next hcount =>
    split at h
    next hmodel =>
      cases h
      simp only [Bool.and_eq_true, bne_iff_ne, ne_eq] at hmodel
      exact .inr ⟨rfl, hcount, hmodel.1, hmodel.2⟩
    · cases h

end Declarations

namespace Module

open Declarations

variable {env : Environment} {m m' : Module} {js : List Instruction} {v : Violation}

/-! ## Longer modules -/

/-- A rejected module, and any longer one: they are rejected alike, or the shorter one has no
`OpMemoryModel`, or both are rejected, the shorter one for its memory model. -/
theorem audit_of_append (hversion : m'.version = m.version) (his : m'.instructions = m.instructions ++ js)
    (h : m.audit env = .error v) :
    m'.audit env = .error v ∨ v.diagnostic.rule = "SPIRV-Layout-MemoryModelMissing" ∨
      v.diagnostic.rule = "SPIRV-Layout-VulkanMemoryModelCapability" ∧ m'.audit env ≠ .ok () := by
  rw [audit] at h
  rw [audit, hversion, his, run_append]
  cases hv : env.checkVersion m.version with
  | error e => rw [hv] at h; exact .inl h
  | ok =>
    rw [hv, Except.ok_bind] at h
    rw [Except.ok_bind]
    cases hrun : (initial env).run m.instructions with
    | error e => rw [hrun] at h; exact .inl h
    | ok d =>
      rw [hrun, Except.ok_bind] at h
      rw [Except.ok_bind]
      rcases checkEnd_eq_error h with hmissing | ⟨hrule, hd⟩
      · exact .inr (.inl hmissing)
      · refine .inr (.inr ⟨hrule, fun hok => ?_⟩)
        obtain ⟨d', hd', hok⟩ := Except.bind_eq_ok_iff.mp hok
        exact (hd.run hd').checkEnd_ne hok

end Module

/-! ## Longer binaries -/

theorem auditWords_eq_ok_iff {env : Environment} {ws : List Word} {m : Module} (hm : Module.ofWords ws = .ok m) :
    auditWords env ws = .ok () ↔ m.audit env = .ok () := by
  rw [auditWords, hm, auditRead]
  cases m.audit env <;> simp [Except.mapError]

theorem auditWords_eq_invalid_iff {env : Environment} {ws : List Word} {m : Module} {x : Diagnostic}
    (hm : Module.ofWords ws = .ok m) :
    auditWords env ws = .error (.invalid x) ↔ ∃ v, m.audit env = .error v ∧ v.diagnostic = x := by
  rw [auditWords, hm, auditRead]
  cases m.audit env <;> simp [Except.mapError]

/-- **Rejection survives appending.** A binary that can be read and is rejected is rejected with the
same diagnostic when it is read with more behind it, unless it is rejected for what is checked at its
end. If it is rejected there for its memory model, the longer one is rejected too. So a binary that
can be read in front of an accepted one is accepted, or all it lacks is an `OpMemoryModel`. -/
theorem auditWords_append {env : Environment} {ws ext : List Word} {m m' : Module}
    (hm : Module.ofWords ws = .ok m) (hm' : Module.ofWords (ws ++ ext) = .ok m') :
    (∀ x, auditWords env ws = .error (.invalid x) → x.rule ≠ "SPIRV-Layout-MemoryModelMissing" →
      x.rule ≠ "SPIRV-Layout-VulkanMemoryModelCapability" →
      auditWords env (ws ++ ext) = .error (.invalid x)) ∧
    (∀ x, auditWords env ws = .error (.invalid x) → x.rule = "SPIRV-Layout-VulkanMemoryModelCapability" →
      ∃ y, auditWords env (ws ++ ext) = .error (.invalid y)) ∧
    (auditWords env (ws ++ ext) = .ok () → auditWords env ws = .ok () ∨
      ∃ x, auditWords env ws = .error (.invalid x) ∧ x.rule = "SPIRV-Layout-MemoryModelMissing") := by
  obtain ⟨hversion, js, his⟩ := Module.ofWords_append hm hm'
  simp only [auditWords_eq_ok_iff hm, auditWords_eq_ok_iff hm', auditWords_eq_invalid_iff hm,
    auditWords_eq_invalid_iff hm']
  refine ⟨?_, ?_, fun hok => ?_⟩
  · intro x hx hmissing hmodel
    obtain ⟨v, hv, rfl⟩ := hx
    rcases Module.audit_of_append hversion his hv with h | h | ⟨h, -⟩
    · exact ⟨v, h, rfl⟩
    · exact absurd h hmissing
    · exact absurd h hmodel
  · intro x hx hrule
    obtain ⟨v, hv, rfl⟩ := hx
    rcases Module.audit_of_append hversion his hv with h | h | ⟨-, h⟩
    · exact ⟨_, v, h, rfl⟩
    · exact absurd (hrule.symm.trans h) (by decide)
    · cases hm : m'.audit env with
      | ok => exact absurd hm h
      | error w => exact ⟨_, w, rfl, rfl⟩
  · cases hv : m.audit env with
    | ok => exact .inl rfl
    | error v =>
      rcases Module.audit_of_append hversion his hv with h | h | ⟨-, h⟩
      · rw [h] at hok; cases hok
      · exact .inr ⟨_, ⟨v, rfl, rfl⟩, h⟩
      · exact absurd hok h

/-- A binary that declares the Vulkan memory model as a capability, but not as its memory model. -/
def mismatched : List Word :=
  [0x07230203, 0x00010300, 0, 8, 0, 0x00020011, 1, 0x00020011, 5345, 0x0003000E, 0, 1]

/-- A second `OpMemoryModel` does not mend the first one. -/
theorem auditWords_append_mismatched :
    ∃ y, auditWords (.universal 6) (mismatched ++ [0x0003000E, 0, 3]) = .error (.invalid y) := by
  have hm : Module.ofWords mismatched = .ok
      { version := ⟨1, 3⟩
        bound := 8
        instructions := [⟨.opCapability, none, none, [1]⟩, ⟨.opCapability, none, none, [5345]⟩,
          ⟨.opMemoryModel, none, none, [0, 1]⟩] } := by cbv
  have hm' : Module.ofWords (mismatched ++ [0x0003000E, 0, 3]) = .ok
      { version := ⟨1, 3⟩
        bound := 8
        instructions := [⟨.opCapability, none, none, [1]⟩, ⟨.opCapability, none, none, [5345]⟩,
          ⟨.opMemoryModel, none, none, [0, 1]⟩, ⟨.opMemoryModel, none, none, [0, 3]⟩] } := by cbv
  have hrejected : auditWords (.universal 6) mismatched = .error (.invalid
      ({ subject := .declaredMemoryModel, problem := .notVulkanMemoryModel } : Violation).diagnostic) := by
    cbv
  exact (auditWords_append hm hm').2.1 _ hrejected rfl

end SpirvAudit
