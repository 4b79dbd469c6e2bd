/-
The declared capabilities as a set.

Whatever is registered, in whatever order, with instructions that fail or that
declare something else in between: the declared capabilities are those that the
named ones reach through the table. So they are the least set that has the
named ones in it and is closed under implication, and nothing but the set of
the named ones matters.
-/
import SpirvAudit.Proofs.Registration

namespace SpirvAudit

open Capability (Reaches implies)

/-- The capabilities that the instructions name are in the set, and so are those that a capability in
the set implies. -/
structure ClosedOver (is : List Instruction) (S : Set Capability) : Prop where
  named : ∀ i ∈ is, ∀ a, i.capability? = some a → a ∈ S
  implied : ∀ a ∈ S, ∀ b ∈ a.implies, b ∈ S

theorem ClosedOver.mem_of_reaches {is : List Instruction} {S : Set Capability} (hS : ClosedOver is S)
    {a c : Capability} (ha : a ∈ S) (h : Reaches implies a c) : c ∈ S := by
  induction h with
  | refl => exact ha
  | step _ hc ih => exact hS.implied _ ih _ hc

theorem closedOver_declares (is : List Instruction) : ClosedOver is {c | Declares is c} where
  named i hi a ha := ⟨i, hi, a, ha, .refl⟩
  implied := by
    intro b hb c hc
    obtain ⟨i, hi, a, ha, hreaches⟩ := hb
    exact ⟨i, hi, a, ha, hreaches.step hc⟩

theorem isLeast_declares (is : List Instruction) : IsLeast {S | ClosedOver is S} {c | Declares is c} := by
  refine ⟨closedOver_declares is, fun S hS c hc => ?_⟩
  obtain ⟨i, hi, a, ha, hreaches⟩ := hc
  exact hS.mem_of_reaches (hS.named i hi a ha) hreaches

/-- Only which capabilities are named matters. -/
theorem declares_congr {is js : List Instruction}
    (h : ∀ a, (∃ i ∈ is, i.capability? = some a) ↔ ∃ j ∈ js, j.capability? = some a) (c : Capability) :
    Declares is c ↔ Declares js c := by
  have swap : ∀ ks : List Instruction,
      Declares ks c ↔ ∃ a, (∃ k ∈ ks, k.capability? = some a) ∧ Reaches implies a c := by
    intro ks
    constructor
    · intro hks
      obtain ⟨k, hk, a, ha, hreaches⟩ := hks
      exact ⟨a, ⟨k, hk, ha⟩, hreaches⟩
    · intro hks
      obtain ⟨a, ⟨k, hk, ha⟩, hreaches⟩ := hks
      exact ⟨k, hk, a, ha, hreaches⟩
  simp only [swap, h]

namespace Declarations

/-- **What is declared after any registrations.** A capability is declared if and only if it is reached
through the table from a known one that some `OpCapability` names. The declared capabilities are the
least set that is closed under implication and has the named ones in it, and two sequences that name
the same ones declare the same. -/
theorem has_registerEach_isLeast (env : Environment) (is : List Instruction) :
    (∀ c, ((initial env).registerEach is).has c = true ↔
      ∃ i ∈ is, i.opcode = .opCapability ∧ ∃ code a, i.operand? 0 = some code ∧ a.code = code.toNat ∧
        Reaches implies a c) ∧
    IsLeast {S | ClosedOver is S} {c | ((initial env).registerEach is).has c = true} ∧
    ∀ (env' : Environment) (js : List Instruction),
      (∀ a, (∃ i ∈ is, i.capability? = some a) ↔ ∃ j ∈ js, j.capability? = some a) →
      ∀ c, ((initial env').registerEach js).has c = ((initial env).registerEach is).has c := by
  refine ⟨fun c => ?_, ?_, fun env' js h c => ?_⟩
  · rw [has_registerEach_initial]
    refine exists_congr fun i => and_congr_right fun _ => ?_
    simp only [capability?_eq_some_iff]
    constructor
    · intro h
      obtain ⟨a, ⟨hop, code, hcode, ha⟩, hreaches⟩ := h
      exact ⟨hop, code, a, hcode, ha, hreaches⟩
    · intro h
      obtain ⟨hop, code, a, hcode, ha, hreaches⟩ := h
      exact ⟨a, ⟨hop, code, hcode, ha⟩, hreaches⟩
  · simp only [has_registerEach_initial]
    exact isLeast_declares is
  · rw [Bool.eq_iff_iff, has_registerEach_initial, has_registerEach_initial]
    exact (declares_congr h c).symm

/-- An unknown capability and a memory model without operands change nothing, and `Geometry` brings
`Matrix` through `Shader`. -/
theorem has_registerEach_isLeast_geometry :
    ((initial (.vulkan 0)).registerEach [⟨.opCapability, none, none, [999]⟩, ⟨.opCapability, none, none, [2]⟩,
      ⟨.opMemoryModel, none, none, []⟩, ⟨.opCapability, none, none, [2]⟩]).has .matrix = true := by
  refine ((has_registerEach_isLeast _ _).1 .matrix).mpr
    ⟨_, List.mem_cons_of_mem _ List.mem_cons_self, rfl, 2, .geometry, rfl, rfl, ?_⟩
  exact .step (.step .refl (b := .geometry) (c := .shader) List.mem_cons_self) List.mem_cons_self

end Declarations

end SpirvAudit
