/-
The order in which a semantics value is judged.

Several things can be wrong with one value, and which of them is told is part of
what the checks promise. The conditions are written here on the bits of the word
as SPIR-V numbers them (`Declarations.conditions`), apart from the faults the
checks look for, which see the value through its flags; `Fault.States` is the
agreement of the two, row by row. An operand whose value is known passes if no
condition holds, and is rejected for the first one that does otherwise
(`checkSemantics_conditions`).
-/
import SpirvAudit.Proofs.SemanticsValues

namespace SpirvAudit

/-! ## Bits -/

namespace Semantics

variable {f : Flag} {l : List Flag} {s t bits : Semantics}

/-- The memory orders other than relaxed. -/
def orderBits : Semantics := ⟨0x1e⟩

/-- The orders with a release half. -/
def releaseBits : Semantics := ⟨0xc⟩

/-- The orders with an acquire half. -/
def acquireBits : Semantics := ⟨0xa⟩

/-- The storage whose accesses Vulkan orders. -/
def storageBits : Semantics := ⟨0x1940⟩

theorem meets_eq_true_iff : s.meets t = true ↔ s.raw &&& t.raw ≠ 0 := by
  rw [meets, bne_iff_ne, ne_eq, ne_eq, not_iff_not]
  exact ⟨congrArg raw, congrArg mk⟩

theorem Flag.toNat_mask (f : Flag) : f.mask.toNat = 2 ^ f.bit := by
  cases f <;> rfl

theorem and_mask_ne_zero_iff : s.raw &&& f.mask ≠ 0 ↔ f ∈ s := by
  rw [ne_eq, ← UInt32.toNat_inj, UInt32.toNat_and, f.toNat_mask, Nat.and_two_pow, mem_def]
  cases s.raw.toNat.testBit f.bit <;> simp

theorem and_or_distrib (w a b : Word) : w &&& (a ||| b) = w &&& a ||| w &&& b :=
  UInt32.toNat_inj.mp (by simp only [UInt32.toNat_and, UInt32.toNat_or, Nat.and_or_distrib_left])

theorem and_or_ne_zero_iff {w a b : Word} : w &&& (a ||| b) ≠ 0 ↔ w &&& a ≠ 0 ∨ w &&& b ≠ 0 := by
  rw [and_or_distrib, ne_eq, UInt32.or_eq_zero_iff, Classical.not_and_iff_not_or_not]

/-- A word has a bit in common with some flags if one of them is set in it. -/
theorem meets_ofFlags : s.meets (ofFlags l) = s.hasAny l := by
  have hfold : ∀ w, s.raw &&& l.foldl (fun w f => w ||| f.mask) w ≠ 0 ↔ s.raw &&& w ≠ 0 ∨ ∃ f ∈ l, f ∈ s := by
    induction l with
    | nil => simp
    | cons f l ih =>
      intro w
      rw [List.foldl_cons, ih, and_or_ne_zero_iff, and_mask_ne_zero_iff, List.exists_mem_cons_iff, or_assoc]
  rw [Bool.eq_iff_iff, meets_eq_true_iff, hasAny_eq_true_iff, ofFlags, hfold]
  simp

theorem meets_iff_mem (hbits : bits.raw = f.mask) : s.meets bits = true ↔ f ∈ s := by
  rw [meets_eq_true_iff, hbits, and_mask_ne_zero_iff]

theorem meets_orderBits : s.meets orderBits = s.isOrdered := meets_ofFlags (l := Flag.orders)

theorem meets_releaseBits : s.meets releaseBits = s.releases := meets_ofFlags (l := [.release, .acquireRelease])

theorem meets_acquireBits : s.meets acquireBits = s.acquires := meets_ofFlags (l := [.acquire, .acquireRelease])

theorem meets_storageBits : s.meets storageBits = s.hasVulkanStorage := meets_ofFlags (l := Flag.vulkanStorage)

/-- The bits that are set among those of the orders are the orders that are set. -/
theorem bitCount_inter_orderBits : (s ∩ orderBits).bitCount = s.orders.length := by
  have hbits : (List.range 32).filter orderBits.raw.toNat.testBit = Flag.orders.map Flag.bit := by decide
  calc (s ∩ orderBits).bitCount
      = (List.range 32).countP fun k => s.raw.toNat.testBit k && orderBits.raw.toNat.testBit k := by
        refine List.countP_congr fun k _ => ?_
        change (s.raw &&& orderBits.raw).toNat.testBit k = true ↔ _
        rw [UInt32.toNat_and, Nat.testBit_and]
    _ = (Flag.orders.map Flag.bit).countP s.raw.toNat.testBit := by
        rw [← hbits, List.countP_filter]
    _ = s.orders.length := by
        rw [List.countP_map, orders, ← List.countP_eq_length_filter]
        exact List.countP_congr fun f _ => by simp [mem_def]

end Semantics

/-! ## Conditions -/

/-- Something that rejects the instruction of a semantics value, and the text of the rule against it. -/
structure Condition where
  holds : Prop
  rule : String

namespace Declarations

open Semantics

/-- What a semantics value may not be on an instruction with this opcode. -/
def valueConditions (d : Declarations) (op : Opcode) (s : Semantics) : List Condition := [
  ⟨s.meets ⟨0x40⟩ ∧ ¬ d.has .shader, "SPIRV-MemorySemantics-UniformMemory"⟩,
  ⟨s.meets ⟨0x1000⟩ ∧ ¬ d.has .vulkanMemoryModel, "SPIRV-MemorySemantics-OutputMemory"⟩,
  ⟨1 < (s ∩ orderBits).bitCount, "VUID-StandaloneSpirv-MemorySemantics-10001"⟩,
  ⟨op = .opAtomicLoad ∧ s.meets releaseBits, "VUID-StandaloneSpirv-MemorySemantics-10002"⟩,
  ⟨(op = .opAtomicStore ∨ op = .opAtomicFlagClear) ∧ s.meets acquireBits,
    "VUID-StandaloneSpirv-MemorySemantics-10003"⟩,
  ⟨d.strict ∧ op = .opMemoryBarrier ∧ ¬ s.meets orderBits, "VUID-StandaloneSpirv-MemorySemantics-10004"⟩,
  ⟨d.strict ∧ s.meets ⟨0x10⟩, "VUID-StandaloneSpirv-MemorySemantics-10005"⟩,
  ⟨d.strict ∧ s.meets storageBits ∧ ¬ s.meets orderBits, "VUID-StandaloneSpirv-MemorySemantics-10006"⟩,
  ⟨d.strict ∧ s.meets orderBits ∧ ¬ s.meets storageBits, "VUID-StandaloneSpirv-MemorySemantics-10007"⟩,
  ⟨s.meets ⟨0x2000⟩ ∧ ¬ d.has .vulkanMemoryModel, "SPIRV-MemorySemantics-MakeAvailable"⟩,
  ⟨s.meets ⟨0x2000⟩ ∧ ¬ s.meets releaseBits, "VUID-StandaloneSpirv-MemorySemantics-10008"⟩,
  ⟨s.meets ⟨0x4000⟩ ∧ ¬ d.has .vulkanMemoryModel, "SPIRV-MemorySemantics-MakeVisible"⟩,
  ⟨s.meets ⟨0x4000⟩ ∧ ¬ s.meets acquireBits, "VUID-StandaloneSpirv-MemorySemantics-10009"⟩,
  ⟨s.meets ⟨0x8000⟩ ∧ ¬ d.has .vulkanMemoryModel, "SPIRV-MemorySemantics-Volatile"⟩,
  ⟨s.meets ⟨0x8000⟩ ∧ ¬ op.isAtomic, "VUID-StandaloneSpirv-MemorySemantics-10010"⟩]

/-- What the semantics of a failing comparison may not be beside those of a succeeding one. -/
def unequalConditions (d : Declarations) (equal unequal : Semantics) : List Condition := [
  ⟨unequal.meets releaseBits, "VUID-StandaloneSpirv-MemorySemantics-10011"⟩,
  ⟨unequal.meets ⟨0x10⟩ ∧ ¬ equal.meets ⟨0x10⟩ ∨ unequal.meets ⟨0x2⟩ ∧ ¬ equal.meets ⟨0x1a⟩,
    "VUID-StandaloneSpirv-MemorySemantics-10012"⟩,
  ⟨d.strict ∧ (unequal \ equal).meets (storageBits ∪ ⟨0x4000⟩), "VUID-StandaloneSpirv-MemorySemantics-10013"⟩,
  ⟨d.strict ∧ (unequal.symmDiff equal).meets ⟨0x8000⟩, "VUID-StandaloneSpirv-MemorySemantics-10014"⟩]

/-- What a semantics value may not be at an operand of an instruction, what comes first in front. -/
def conditions (d : Declarations) (i : Instruction) (index scopeIndex : Nat) (s : Semantics) : List Condition :=
  d.valueConditions i.opcode s ++
    (if i.opcode ∈ Opcode.compareExchanges ∧ index = 3 then
      d.unequalConditions (d.foldedSemantics i 2) s
    else []) ++
    [⟨d.strict ∧ s.meets orderBits ∧ ∃ id, i.operand? scopeIndex = some id ∧ d.fold id = .constant 4,
      "VUID-StandaloneSpirv-None-04641"⟩]

end Declarations

/-! ## Judging by conditions -/

/-- The fault holds when the condition does, and it is told under the same rule. -/
structure Fault.States (f : Fault) (c : Condition) : Prop where
  holds_iff : f.holds = true ↔ c.holds
  rule : f.problem.rule.text? = some c.rule

namespace Instruction

variable {i : Instruction} {subject : Subject} {f : Fault} {faults : List Fault} {cs : List Condition}

theorem judge_cons : i.judge subject (f :: faults) =
    if f.holds then .error (i.violation subject f.problem) else i.judge subject faults := by
  cases h : f.holds <;> simp [judge, firstProblem?, h]

theorem judge_eq_ok_iff_of_states (h : List.Forall₂ Fault.States faults cs) :
    i.judge subject faults = .ok () ↔ ∀ c ∈ cs, ¬ c.holds := by
  induction h with
  | nil => simp [judge, firstProblem?]
  | @cons f c faults cs hf _ ih =>
    rw [judge_cons, List.forall_mem_cons, ← ih, ← hf.holds_iff]
    cases f.holds <;> simp

/-- The first condition that holds is the one that is told. -/
theorem judge_of_first_condition (h : List.Forall₂ Fault.States faults cs) {earlier later : List Condition}
    {c : Condition} (hcs : cs = earlier ++ c :: later) (hearlier : ∀ x ∈ earlier, ¬ x.holds) (hc : c.holds) :
    ∃ v, i.judge subject faults = .error v ∧ v.diagnostic.rule = c.rule := by
  induction h generalizing earlier with
  | nil => simp at hcs
  | @cons f x faults cs hf _ ih =>
    rw [judge_cons]
    match earlier, hcs with
    | [], hcs =>
      -- The row in front is the one that holds.
      obtain ⟨rfl, -⟩ := List.cons_eq_cons.mp hcs
      rw [if_pos (hf.holds_iff.mpr hc)]
      refine ⟨_, rfl, ?_⟩
      rw [Violation.diagnostic, violation, hf.rule]
      rfl
    | y :: earlier, hcs =>
      obtain ⟨rfl, htail⟩ := List.cons_eq_cons.mp hcs
      rw [if_neg (mt hf.holds_iff.mp (hearlier x List.mem_cons_self))]
      exact ih htail fun z hz => hearlier z (List.mem_cons_of_mem x hz)

end Instruction

/-! ## The rows -/

namespace Declarations

open Semantics

variable {d : Declarations} {op : Opcode} {s : Semantics} {i : Instruction}

theorem flagFault_states {flag : Flag} {c : Capability} {bits : Semantics} {rule : String}
    (hbits : bits.raw = flag.mask) (hrequires : flag.requires = [c])
    (hrule : (Problem.flagNotEnabled flag).rule.text? = some rule) :
    (d.flagFault s flag).States ⟨s.meets bits ∧ ¬ d.has c, rule⟩ where
  holds_iff := by simp [flagFault, hrequires, enables, hasAny, meets_iff_mem hbits]
  rule := hrule

theorem valueFaults_states : List.Forall₂ Fault.States (d.valueFaults op s) (d.valueConditions op s) := by
  have hsc : s.meets ⟨0x10⟩ = true ↔ .sequentiallyConsistent ∈ s := meets_iff_mem rfl
  have havailable : s.meets ⟨0x2000⟩ = true ↔ .makeAvailable ∈ s := meets_iff_mem rfl
  have hvisible : s.meets ⟨0x4000⟩ = true ↔ .makeVisible ∈ s := meets_iff_mem rfl
  have hvolatile : s.meets ⟨0x8000⟩ = true ↔ .volatile ∈ s := meets_iff_mem rfl
  refine .cons (flagFault_states rfl rfl rfl) <| .cons (flagFault_states rfl rfl rfl) <| .cons ⟨?_, rfl⟩ <|
    .cons ⟨?_, rfl⟩ <| .cons ⟨?_, rfl⟩ <| .cons ⟨?_, rfl⟩ <| .cons ⟨?_, rfl⟩ <| .cons ⟨?_, rfl⟩ <|
    .cons ⟨?_, rfl⟩ <| .cons (flagFault_states rfl rfl rfl) <| .cons ⟨?_, rfl⟩ <|
    .cons (flagFault_states rfl rfl rfl) <| .cons ⟨?_, rfl⟩ <| .cons (flagFault_states rfl rfl rfl) <|
    .cons ⟨?_, rfl⟩ .nil
  all_goals simp [bitCount_inter_orderBits, meets_orderBits, meets_releaseBits, meets_acquireBits,
    meets_storageBits, hsc, havailable, hvisible, hvolatile, and_assoc, and_comm, and_left_comm]

theorem unequalFaults_states {equal unequal : Semantics} :
    List.Forall₂ Fault.States (d.unequalFaults equal unequal) (d.unequalConditions equal unequal) := by
  have hstronger : equal.meets ⟨0x1a⟩ = equal.hasAny [.sequentiallyConsistent, .acquireRelease, .acquire] :=
    meets_ofFlags (l := [.sequentiallyConsistent, .acquireRelease, .acquire])
  have hstorage : (unequal \ equal).meets (storageBits ∪ ⟨0x4000⟩) =
      (unequal \ equal).hasAny (.makeVisible :: Flag.vulkanStorage) :=
    meets_ofFlags (l := .makeVisible :: Flag.vulkanStorage)
  have hsc : ∀ s : Semantics, s.meets ⟨0x10⟩ = true ↔ .sequentiallyConsistent ∈ s := fun _ => meets_iff_mem rfl
  have hacquire : unequal.meets ⟨0x2⟩ = true ↔ .acquire ∈ unequal := meets_iff_mem rfl
  have hvolatile : (unequal.symmDiff equal).meets ⟨0x8000⟩ = true ↔ .volatile ∈ unequal.symmDiff equal :=
    meets_iff_mem rfl
  refine .cons ⟨?_, rfl⟩ <| .cons ⟨?_, rfl⟩ <| .cons ⟨?_, rfl⟩ <| .cons ⟨?_, rfl⟩ .nil
  · rw [meets_releaseBits]
  · simp [strongerThan, hsc, hacquire, hstronger]
  · simp [hstorage]
  · simp [hvolatile]

theorem semanticsFaults_states {index scopeIndex : Nat} :
    List.Forall₂ Fault.States (d.semanticsFaults i index scopeIndex s) (d.conditions i index scopeIndex s) := by
  rw [semanticsFaults, conditions]
  refine List.rel_append (List.rel_append valueFaults_states ?_) (.cons ⟨?_, rfl⟩ .nil)
  · simp only [ofOperand_eq_unequal_iff, equalSemantics_eq]
    split
    · exact unequalFaults_states
    · exact .nil
  · have hcode : UInt32.ofNat Scope.invocation.code = 4 := rfl
    simp [invocationFault, meets_orderBits, hcode, and_assoc]

/-- The outcome at an operand whose value is known: it passes if no condition holds, and is rejected
for the first one that does otherwise. -/
theorem checkSemantics_conditions {index scopeIndex : Nat} {id : Id} {value : Word}
    (hid : i.operand? index = some id) (hvalue : d.fold id = .constant value) :
    (d.checkSemantics i index scopeIndex = .ok () ↔ ∀ c ∈ d.conditions i index scopeIndex ⟨value⟩, ¬ c.holds) ∧
    ∀ earlier c later, d.conditions i index scopeIndex ⟨value⟩ = earlier ++ c :: later →
      (∀ x ∈ earlier, ¬ x.holds) → c.holds →
      ∃ v, d.checkSemantics i index scopeIndex = .error v ∧ v.diagnostic.rule = c.rule := by
  rw [checkSemantics_of_constant hid hvalue]
  refine ⟨Instruction.judge_eq_ok_iff_of_states semanticsFaults_states, fun earlier c later hcs hearlier hc => ?_⟩
  exact Instruction.judge_of_first_condition semanticsFaults_states hcs hearlier hc

/-- Under the Vulkan rules: the scope of an invocation, and semantics that release and that acquire uniform memory. -/
def exchanging : Declarations where
  environment := .vulkan 0
  capabilities := [.shader]
  definitions := [
    (1, .ofInstruction ⟨.opTypeInt, none, some 1, [32, 0]⟩),
    (2, .ofInstruction ⟨.opConstant, some 1, some 2, [4]⟩),
    (3, .ofInstruction ⟨.opConstant, some 1, some 3, [0x44]⟩),
    (4, .ofInstruction ⟨.opConstant, some 1, some 4, [0x42]⟩)]

/-- A comparison that acquires when it fails and does not when it succeeds. The order is of no use at
its scope either, but that comes last. -/
theorem checkSemantics_conditions_exchanging :
    ∃ v, exchanging.checkSemantics ⟨.opAtomicCompareExchange, some 1, some 5, [6, 2, 3, 4, 7, 8]⟩ 3 1 = .error v ∧
      v.diagnostic.rule = "VUID-StandaloneSpirv-MemorySemantics-10012" := by
  let i : Instruction := ⟨.opAtomicCompareExchange, some 1, some 5, [6, 2, 3, 4, 7, 8]⟩
  have hid : i.operand? 3 = some 4 := rfl
  have hvalue : exchanging.fold 4 = .constant 0x42 := by decide
  have houtcome := (@checkSemantics_conditions exchanging i 3 1 4 0x42 hid hvalue).2
  let release : Condition := ⟨(⟨0x42⟩ : Semantics).meets releaseBits, "VUID-StandaloneSpirv-MemorySemantics-10011"⟩
  refine houtcome (exchanging.valueConditions i.opcode ⟨0x42⟩ ++ [release]) _ _ rfl ?_ (by decide)
  simp only [valueConditions, List.forall_mem_append, List.forall_mem_cons, List.not_mem_nil, false_imp_iff,
    implies_true, release]
  decide

end Declarations

end SpirvAudit
