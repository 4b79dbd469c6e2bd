/-
The models of accepted modules.

Two checks at two times see to it that the memory model of a module goes with
its capabilities. `OpMemoryModel` is checked where it stands: its values are
gated, so they need their capabilities before it. At the end of the module
`VulkanMemoryModel` is asked for again, since a capability may also be declared
after the model that it demands. Together they make the one an exact sign of the
other (`DeclaresModels`).
-/
import SpirvAudit.Proofs.AcceptedSemantics
import SpirvAudit.Proofs.Admission

namespace SpirvAudit

/-! ## Values -/

theorem AddressingModel.requires?_eq (code : Nat) :
    OperandKind.addressingModel.requires? code = (ofCode? code).map (·.requires) := by
  change (List.find? _ (all.map enumerant)).map _ = _
  rw [List.find?_map, Option.map_map]
  rfl

theorem MemoryModel.requires?_eq (code : Nat) :
    OperandKind.memoryModel.requires? code = (ofCode? code).map (·.requires) := by
  change (List.find? _ (all.map enumerant)).map _ = _
  rw [List.find?_map, Option.map_map]
  rfl

/-- Where at most one capability is asked for, all of them are declared. -/
theorem Enabled.declares {is : List Instruction} {cs : List Capability} (h : Enabled is cs)
    (hone : cs.length ≤ 1) : ∀ c ∈ cs, Declares is c := by
  rcases h with rfl | ⟨a, ha, hdeclares⟩
  · simp
  · obtain ⟨b, rfl⟩ := List.length_eq_one_iff.mp (Nat.le_antisymm hone (List.length_pos_of_mem ha))
    simpa [List.mem_singleton.mp ha] using hdeclares

/-- An instruction that is no `OpCapability` declares no capability. -/
theorem declares_concat {is : List Instruction} {i : Instruction} {c : Capability} (hop : i.opcode ≠ .opCapability) :
    Declares (is ++ [i]) c ↔ Declares is c := by
  simp [Declares, or_and_right, exists_or, Declarations.capability?_eq_none hop]

/-- The value of a gated operand is known, and what it depends on is declared before the instruction, if
that is no `OpCapability` itself. -/
theorem exists_of_gatedOperand {α : Type} {ofCode? : Nat → Option α} {requires : α → List Capability}
    {kind : OperandKind} {front : List Instruction} {i : Instruction} {index : Nat}
    (hkind : ∀ code, kind.requires? code = (ofCode? code).map requires) (hone : ∀ a, (requires a).length ≤ 1)
    (hop : i.opcode ≠ .opCapability)
    (h : ∃ word cs, i.operand? index = some word ∧ kind.requires? word.toNat = some cs ∧ Enabled (front ++ [i]) cs) :
    ∃ a, (i.operand? index).bind (fun word => ofCode? word.toNat) = some a ∧ ∀ c ∈ requires a, Declares front c := by
  obtain ⟨word, cs, hword, hcs, henabled⟩ := h
  rw [hkind] at hcs
  obtain ⟨a, ha, rfl⟩ := Option.map_eq_some_iff.mp hcs
  exact ⟨a, Option.bind_eq_some_iff.mpr ⟨word, hword, ha⟩,
    fun c hc => (declares_concat hop).mp (henabled.declares (hone a) c hc)⟩

/-- The models of a module: `i` alone declares them, their values are known, what they depend on is
declared before, and the memory model is Vulkan's exactly if the capability for it is declared at all. -/
structure DeclaresModels (front : List Instruction) (i : Instruction) (back : List Instruction) : Prop where
  opcode : i.opcode = .opMemoryModel
  only : ∀ j ∈ front ++ back, j.opcode ≠ .opMemoryModel
  addressing : ∃ model, i.addressingModel? = some model ∧ ∀ c ∈ model.requires, Declares front c
  memory : ∃ model, i.memoryModel? = some model ∧ ∀ c ∈ model.requires, Declares front c
  vulkan : i.memoryModel? = some .vulkan ↔ Declares (front ++ i :: back) .vulkanMemoryModel

namespace Module

open Declarations

variable {env : Environment} {m : Module}

/-- The one `OpMemoryModel` of an accepted module, and what stands before and after it. -/
theorem split_memoryModel_of_audit (h : m.audit env = .ok ()) :
    ∃ front i back, m.instructions = front ++ i :: back ∧ i.opcode = .opMemoryModel ∧
      ∀ j ∈ front ++ back, j.opcode ≠ .opMemoryModel := by
  have hone := memoryModelCount_eq_one_of_audit h
  obtain ⟨i, hi, hop⟩ : ∃ i ∈ m.instructions, i.opcode = .opMemoryModel := by
    simpa using List.countP_pos_iff.mp (Nat.lt_of_lt_of_eq Nat.one_pos hone.symm)
  obtain ⟨front, back, hsplit⟩ := List.append_of_mem hi
  rw [memoryModelCount, hsplit, List.countP_append, List.countP_cons_of_pos (by simp [hop])] at hone
  have hnone : (front ++ back).countP (fun j => j.opcode = .opMemoryModel) = 0 := by
    rw [List.countP_append]
    omega
  exact ⟨front, i, back, hsplit, hop, by simpa using List.countP_eq_zero.mp hnone⟩

/-- **The models of an accepted module are consistent.** One instruction declares them. Both values
are known, and the capabilities they depend on are declared before it. The memory model is Vulkan's if
and only if `VulkanMemoryModel` is declared anywhere in the module, before or after it. -/
theorem declaresModels_of_audit (h : m.audit env = .ok ()) :
    ∃ front i back, m.instructions = front ++ i :: back ∧ DeclaresModels front i back := by
  have hone := memoryModelCount_eq_one_of_audit h
  obtain ⟨-, hreg, hchecks, hend⟩ := audit_eq_ok_iff.mp h
  obtain ⟨front, i, back, hsplit, hop, honly⟩ := split_memoryModel_of_audit h
  have hi : m.instructions[front.length]? = some i := by simp [hsplit]
  have htake : m.instructions.take (front.length + 1) = front ++ [i] := by simp [hsplit, List.take_append]
  have hcapability : i.opcode ≠ .opCapability := by rw [hop]; decide
  obtain ⟨-, hoperands, -⟩ := (check_declarationsAfter_eq_ok_iff hreg hone (by rw [hop]; rfl) (by rw [hop]; rfl)).mp
    (hchecks front.length i hi)
  rw [htake] at hoperands
  have haddressing := exists_of_gatedOperand AddressingModel.requires?_eq (by rintro ⟨⟩ <;> decide) hcapability
    (hoperands ⟨.opMemoryModel, 0, .addressingModel⟩ (by decide) hop.symm)
  have hmemory := exists_of_gatedOperand MemoryModel.requires?_eq (by rintro ⟨⟩ <;> decide) hcapability
    (hoperands ⟨.opMemoryModel, 1, .memoryModel⟩ (by decide) hop.symm)
  refine ⟨front, i, back, hsplit, hop, honly, haddressing, hmemory, ?_⟩
  rw [← hsplit]
  constructor
  · intro hvulkan
    obtain ⟨model, hmodel, hdeclared⟩ := hmemory
    obtain rfl := Option.some.inj (hmodel.symm.trans hvulkan)
    exact (hdeclared .vulkanMemoryModel (by decide)).mono fun j hj => by simp [hsplit, hj]
  · intro hdeclared
    obtain ⟨j, hj, hjop, hvulkan⟩ := (checkEnd_eq_ok_iff_vulkan hreg hone).mp hend hdeclared
    have hji : j = i := by
      simp only [hsplit, List.mem_append, List.mem_cons] at hj honly
      rcases hj with hj | rfl | hj
      · exact absurd hjop (honly j (.inl hj))
      · rfl
      · exact absurd hjop (honly j (.inr hj))
    rw [← hji]
    exact hvulkan

/-- The capability for Vulkan's memory model stands before the model. -/
theorem declaresModels_of_audit_publishing :
    ∃ front i back, publishing.instructions = front ++ i :: back ∧ DeclaresModels front i back :=
  have haccepted : publishing.audit (.universal 6) = .ok () := by cbv
  declaresModels_of_audit haccepted

end Module

end SpirvAudit
