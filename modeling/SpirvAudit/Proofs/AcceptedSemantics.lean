/-
Accepted modules use sound memory semantics.

Under the rules of Vulkan, be it for the environment or for the memory model
declared before, every semantics operand of an accepted module whose value is
known holds a sound value (`Declarations.SoundSemantics`). The walk checks each
instruction against the declarations up to and including it, the dispatch
brings every semantics operand to the checks of values
(`checkSemantics_of_checkEffect`), and a memory model once declared stays the
one that counts (`strict_of_audit`).
-/
import SpirvAudit.Proofs.SemanticsValues
import SpirvAudit.Proofs.Walk

namespace SpirvAudit

open Semantics

/-- A memory-semantics operand, and the operand for the memory scope it applies to. -/
structure SemanticsOperand where
  index : Nat
  scopeIndex : Nat
deriving DecidableEq, Repr

/-- The memory-semantics operands of atomics and barriers. -/
def Opcode.semanticsOperands (op : Opcode) : List SemanticsOperand :=
  if op = .opMemoryBarrier then [⟨1, 0⟩]
  else if op ∈ compareExchanges then [⟨2, 1⟩, ⟨3, 1⟩]
  else if op.isAtomic || op.isBarrier then [⟨2, 1⟩]
  else []

namespace Declarations

variable {d : Declarations} {i : Instruction}

/-- A semantics value that is sound under the rules of Vulkan. -/
structure SoundSemantics (d : Declarations) (i : Instruction) (o : SemanticsOperand) (s : Semantics) : Prop where
  oneOrder : ∀ f ∈ Flag.orders, ∀ g ∈ Flag.orders, f ∈ s → g ∈ s → f = g
  notSequentiallyConsistent : .sequentiallyConsistent ∉ s
  ordered_iff : (∃ f ∈ Flag.orders, f ∈ s) ↔
    .uniformMemory ∈ s ∨ .workgroupMemory ∈ s ∨ .imageMemory ∈ s ∨ .outputMemory ∈ s
  barrier : i.opcode = .opMemoryBarrier → ∃ f ∈ Flag.orders, f ∈ s
  load : i.opcode = .opAtomicLoad → .release ∉ s ∧ .acquireRelease ∉ s
  store : i.opcode = .opAtomicStore ∨ i.opcode = .opAtomicFlagClear → .acquire ∉ s ∧ .acquireRelease ∉ s
  available : .makeAvailable ∈ s → .release ∈ s ∨ .acquireRelease ∈ s
  visible : .makeVisible ∈ s → .acquire ∈ s ∨ .acquireRelease ∈ s
  volatile : .volatile ∈ s → i.opcode.isAtomic = true
  shader : .uniformMemory ∈ s → d.has .shader = true
  vulkanMemoryModel : .outputMemory ∈ s ∨ .makeAvailable ∈ s ∨ .makeVisible ∈ s ∨ .volatile ∈ s →
    d.has .vulkanMemoryModel = true
  /-- The value for a failing comparison asks for nothing that the one for a succeeding comparison,
  relaxed if it is not known, does not ask for. -/
  unequal : i.opcode ∈ Opcode.compareExchanges → o.index = 3 →
    (.release ∉ s ∧ .acquireRelease ∉ s) ∧
    (.acquire ∈ s → .acquireRelease ∈ d.foldedSemantics i 2 ∨ .acquire ∈ d.foldedSemantics i 2 ∨
      .sequentiallyConsistent ∈ d.foldedSemantics i 2) ∧
    (∀ f ∈ .makeVisible :: Flag.vulkanStorage, f ∈ s → f ∈ d.foldedSemantics i 2) ∧
    (.volatile ∈ s ↔ .volatile ∈ d.foldedSemantics i 2)
  /-- An order is observed by others than the invocation itself. -/
  scope : (∃ f ∈ Flag.orders, f ∈ s) → ∀ id, i.operand? o.scopeIndex = some id →
    d.fold id ≠ .constant (.ofNat Scope.invocation.code)

/-! ## Dispatch -/

theorem checkEffect_atomic (h : i.opcode.isAtomic = true) : d.checkEffect i = d.checkAtomic i := by
  unfold checkEffect
  split
  case h_6 => rw [if_pos h]
  all_goals rename_i hop; rw [hop] at h; cases h

theorem checkAtomicSemantics_eq_ok_iff :
    d.checkAtomicSemantics i = .ok () ↔ d.checkSemantics i 2 1 = .ok () ∧
      (i.opcode ∈ Opcode.compareExchanges → d.checkSemantics i 3 1 = .ok ()) := by
  rw [checkAtomicSemantics, Verdict.bind_eq_ok_iff, Opcode.mem_compareExchanges_iff]
  refine and_congr_right fun _ => ?_
  split
  next h => simp [h]
  next h => simp [h]

theorem checkAtomicSemantics_of_checkAtomic (h : d.checkAtomic i = .ok ()) :
    d.checkAtomicSemantics i = .ok () := by
  obtain ⟨pointee, -, h⟩ := Except.bind_eq_ok_iff.mp h
  exact (Verdict.bind_eq_ok_iff.mp (Verdict.bind_eq_ok_iff.mp h).2).2

/-- The checks of an atomic or a barrier look at each of its semantics operands. -/
theorem checkSemantics_of_checkEffect (hsync : i.opcode.isAtomic = true ∨ i.opcode.isBarrier = true)
    (h : d.checkEffect i = .ok ()) :
    ∀ o ∈ i.opcode.semanticsOperands, d.checkSemantics i o.index o.scopeIndex = .ok () := by
  intro o ho
  rcases hsync with hatomic | hbarrier
  · rw [checkEffect_atomic hatomic] at h
    obtain ⟨hequal, hunequal⟩ := checkAtomicSemantics_eq_ok_iff.mp (checkAtomicSemantics_of_checkAtomic h)
    have hop : i.opcode ≠ .opMemoryBarrier := by
      intro hop
      rw [hop] at hatomic
      cases hatomic
    rw [Opcode.semanticsOperands, if_neg hop] at ho
    split at ho
    next hexchange =>
      simp only [List.mem_cons, List.not_mem_nil, or_false] at ho
      rcases ho with rfl | rfl
      · exact hequal
      · exact hunequal hexchange
    next =>
      simp only [hatomic, Bool.true_or, if_true, List.mem_singleton] at ho
      exact ho ▸ hequal
  · unfold Opcode.isBarrier at hbarrier
    split at hbarrier
    next hop =>
      rw [checkEffect, hop] at h
      rw [hop] at ho
      obtain rfl := List.mem_singleton.mp ho
      exact (Verdict.bind_eq_ok_iff.mp (Verdict.bind_eq_ok_iff.mp h).2).2
    next hop =>
      rw [checkEffect, hop] at h
      rw [hop] at ho
      obtain rfl := List.mem_singleton.mp ho
      exact (Verdict.bind_eq_ok_iff.mp h).2
    next hop =>
      rw [checkEffect, hop] at h
      rw [hop] at ho
      obtain rfl := List.mem_singleton.mp ho
      exact (Verdict.bind_eq_ok_iff.mp (Verdict.bind_eq_ok_iff.mp h).2).2
    · cases hbarrier

/-! ## Values -/

theorem enables_singleton {c : Capability} : d.enables [c] = true ↔ d.has c = true := by
  simp [enables, hasAny]

/-- A known value that passes its checks under the rules of Vulkan is sound. -/
theorem soundSemantics_of_checkSemantics {o : SemanticsOperand} {id : Id} {value : Word}
    (hstrict : d.strict = true) (hid : i.operand? o.index = some id) (hvalue : d.fold id = .constant value)
    (h : d.checkSemantics i o.index o.scopeIndex = .ok ()) : d.SoundSemantics i o ⟨value⟩ := by
  obtain ⟨hvalue, hunequal, hscope⟩ := (checkSemantics_eq_ok_iff hid hvalue).mp h
  have enabled : ∀ {f c}, f ∈ Flag.gated → f.requires = [c] → f ∈ (⟨value⟩ : Semantics) → d.has c = true :=
    fun hf hc hmem => enables_singleton.mp (hc ▸ hvalue.enabled _ hf hmem)
  refine
    { oneOrder := hvalue.oneOrder
      notSequentiallyConsistent := hvalue.notSequentiallyConsistent hstrict
      ordered_iff := (hvalue.ordered_iff hstrict).trans (by simp [Flag.vulkanStorage])
      barrier := hvalue.barrier hstrict
      load := hvalue.load
      store := hvalue.store
      available := hvalue.available
      visible := hvalue.visible
      volatile := hvalue.volatile
      shader := enabled (by decide) rfl
      vulkanMemoryModel := ?_
      unequal := fun hexchange hindex => ?_
      scope := hscope hstrict }
  · intro hf
    rcases hf with hf | hf | hf | hf <;> exact enabled (by decide) rfl hf
  · have hu := hunequal (ofOperand_eq_unequal_iff.mpr ⟨hexchange, hindex⟩)
    rw [equalSemantics_eq] at hu
    refine ⟨hu.notReleasing, fun hf => ?_, hu.storage hstrict, hu.volatile hstrict⟩
    rcases hu.acquire hf with h | h | h
    · exact .inr (.inr h)
    · exact .inl h
    · exact .inr (.inl h)

end Declarations

namespace Module

open Declarations

variable {env : Environment} {m : Module} {n : Nat} {i : Instruction}

/-! ## The memory model -/

/-- The rules of Vulkan apply in its environment, and after its memory model was declared. -/
theorem strict_of_audit (h : m.audit env = .ok ())
    (hvulkan : env.isVulkan = true ∨ ∃ j k, j < n ∧ m.instructions[j]? = some k ∧
      k.opcode = .opMemoryModel ∧ k.memoryModel? = some .vulkan) :
    (m.declarationsAfter env n).strict = true := by
  rw [strict, declarationsAfter, environment_registerEach]
  rcases hvulkan with henv | ⟨j, k, hj, hk, hop, hmodel⟩
  · simp [initial, henv]
  have hreg := (audit_eq_ok_iff.mp h).2.1 k (List.mem_of_getElem? hk)
  have hmem : k ∈ m.instructions.take n := List.mem_of_getElem? (by rwa [List.getElem?_take_of_lt hj])
  -- There is one `OpMemoryModel` in all, so none comes after this one.
  have hone : (m.instructions.take n).countP (fun i => i.opcode = .opMemoryModel) ≤ 1 :=
    Nat.le_trans (List.take_sublist _ _).countP_le (Nat.le_of_eq (memoryModelCount_eq_one_of_audit h))
  rw [memoryModel?_registerEach_of_mem hone hmem hreg hop, hmodel]
  simp

/-! ## Whole modules -/

/-- **Accepted modules use sound memory semantics.** Take any atomic or barrier of a module that is
accepted for a Vulkan environment, or accepted with the Vulkan memory model declared before the
instruction. Whenever a semantics operand of it folds to a constant, the constant is sound. -/
theorem soundSemantics_of_audit (h : m.audit env = .ok ()) (hi : m.instructions[n]? = some i)
    (hsync : i.opcode.isAtomic = true ∨ i.opcode.isBarrier = true)
    (hvulkan : env.isVulkan = true ∨ ∃ j k, j < n ∧ m.instructions[j]? = some k ∧
      k.opcode = .opMemoryModel ∧ k.memoryModel? = some .vulkan) :
    ∀ o ∈ i.opcode.semanticsOperands, ∀ id value, i.operand? o.index = some id →
      (m.declarationsAfter env (n + 1)).fold id = .constant value →
      (m.declarationsAfter env (n + 1)).SoundSemantics i o ⟨value⟩ := by
  intro o ho id value hid hvalue
  have hstrict : (m.declarationsAfter env (n + 1)).strict = true :=
    strict_of_audit h (hvulkan.imp_right fun ⟨j, k, hj, hk⟩ => ⟨j, k, Nat.lt_succ_of_lt hj, hk⟩)
  have heffect := (check_eq_ok_iff.mp ((audit_eq_ok_iff.mp h).2.2.1 n i hi)).2.2
  exact soundSemantics_of_checkSemantics hstrict hid hvalue (checkSemantics_of_checkEffect hsync heffect o ho)

/-- A module with a barrier that publishes uniform memory, under the Vulkan memory model. -/
def publishing : Module where
  version := ⟨1, 3⟩
  bound := 4
  instructions := [
    ⟨.opCapability, none, none, [1]⟩,
    ⟨.opCapability, none, none, [5345]⟩,
    ⟨.opMemoryModel, none, none, [0, 3]⟩,
    ⟨.opTypeInt, none, some 1, [32, 0]⟩,
    ⟨.opConstant, some 1, some 2, [5]⟩,
    ⟨.opConstant, some 1, some 3, [0x48]⟩,
    ⟨.opMemoryBarrier, none, none, [2, 3]⟩]

theorem soundSemantics_of_audit_publishing :
    (publishing.declarationsAfter (.universal 6) 7).SoundSemantics ⟨.opMemoryBarrier, none, none, [2, 3]⟩
      ⟨1, 0⟩ ⟨0x48⟩ :=
  have haudit : publishing.audit (.universal 6) = .ok () := by cbv
  have hmodel : ∃ j k, j < 6 ∧ publishing.instructions[j]? = some k ∧
      k.opcode = .opMemoryModel ∧ k.memoryModel? = some .vulkan := ⟨2, _, by decide, rfl, rfl, rfl⟩
  soundSemantics_of_audit haudit (n := 6) rfl (.inr rfl) (.inr hmodel) ⟨1, 0⟩ (by decide) 3 0x48 rfl (by cbv)

end Module

end SpirvAudit
