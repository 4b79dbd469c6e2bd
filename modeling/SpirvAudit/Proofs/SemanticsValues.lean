/-
The semantics values that the checks let pass.

A value is checked by a list of faults; here is what it means that none of
them holds, by itself (`Declarations.Permits`), beside the value for the other
outcome of a compare-exchange (`Declarations.PermitsUnequal`), and beside the
scope it applies to. `checkSemantics_eq_ok_iff` puts the three together for an
operand whose value is known. The other outcome is judged with the value that its
operand folds to, and with no bit where that is not known (`foldedSemantics`).
-/
import SpirvAudit.Sync.SemanticsOperand
import SpirvAudit.Proofs.Verdict

namespace SpirvAudit

namespace Semantics

variable {f : Flag} {s t : Semantics}

/-! ## Membership -/

theorem testBit_not (w : Word) {k : Nat} (hk : k < 32) : (~~~w).toNat.testBit k = !w.toNat.testBit k := by
  rw [← UInt32.toNat_toBitVec, ← UInt32.toNat_toBitVec, BitVec.testBit_toNat, BitVec.testBit_toNat]
  simp [hk]

@[simp] theorem mem_sdiff : f ∈ s \ t ↔ f ∈ s ∧ f ∉ t := by
  have hf : f.bit < 32 := Nat.lt_trans f.bit_lt (by decide)
  change (s.raw &&& ~~~t.raw).toNat.testBit f.bit = true ↔ _
  simp only [mem_def, UInt32.toNat_and, Nat.testBit_and, testBit_not _ hf]
  cases s.raw.toNat.testBit f.bit <;> cases t.raw.toNat.testBit f.bit <;> simp

@[simp] theorem mem_symmDiff : f ∈ s.symmDiff t ↔ ¬ (f ∈ s ↔ f ∈ t) := by
  change (s.raw ^^^ t.raw).toNat.testBit f.bit = true ↔ _
  simp only [mem_def, UInt32.toNat_xor, Nat.testBit_xor]
  cases s.raw.toNat.testBit f.bit <;> cases t.raw.toNat.testBit f.bit <;> simp

theorem hasAny_eq_true_iff {l : List Flag} : s.hasAny l = true ↔ ∃ f ∈ l, f ∈ s := by
  simp [hasAny]

theorem hasAny_eq_false_iff {l : List Flag} : s.hasAny l = false ↔ ∀ f ∈ l, f ∉ s := by
  simp [hasAny]

theorem isOrdered_eq_true_iff : s.isOrdered = true ↔ ∃ f ∈ Flag.orders, f ∈ s := hasAny_eq_true_iff

theorem isOrdered_eq_false_iff : s.isOrdered = false ↔ ¬ ∃ f ∈ Flag.orders, f ∈ s := by
  rw [← isOrdered_eq_true_iff, Bool.not_eq_true]

theorem hasVulkanStorage_eq_true_iff : s.hasVulkanStorage = true ↔ ∃ f ∈ Flag.vulkanStorage, f ∈ s :=
  hasAny_eq_true_iff

theorem hasVulkanStorage_eq_false_iff : s.hasVulkanStorage = false ↔ ¬ ∃ f ∈ Flag.vulkanStorage, f ∈ s := by
  rw [← hasVulkanStorage_eq_true_iff, Bool.not_eq_true]

theorem releases_eq_true_iff : s.releases = true ↔ .release ∈ s ∨ .acquireRelease ∈ s := by
  simp [releases, hasAny_eq_true_iff]

theorem releases_eq_false_iff : s.releases = false ↔ .release ∉ s ∧ .acquireRelease ∉ s := by
  simp [releases, hasAny_eq_false_iff]

theorem acquires_eq_true_iff : s.acquires = true ↔ .acquire ∈ s ∨ .acquireRelease ∈ s := by
  simp [acquires, hasAny_eq_true_iff]

theorem acquires_eq_false_iff : s.acquires = false ↔ .acquire ∉ s ∧ .acquireRelease ∉ s := by
  simp [acquires, hasAny_eq_false_iff]

/-- The order for a failing comparison has its match, or a stronger one, for a succeeding one. -/
theorem strongerThan_eq_false_iff : s.strongerThan t = false ↔
    (.sequentiallyConsistent ∈ s → .sequentiallyConsistent ∈ t) ∧
    (.acquire ∈ s → .sequentiallyConsistent ∈ t ∨ .acquireRelease ∈ t ∨ .acquire ∈ t) := by
  simp [strongerThan, hasAny_eq_true_iff]

/-- At most one memory order is set. -/
theorem length_orders_le_one_iff :
    s.orders.length ≤ 1 ↔ ∀ f ∈ Flag.orders, ∀ g ∈ Flag.orders, f ∈ s → g ∈ s → f = g := by
  have hnodup : s.orders.Nodup := List.Pairwise.filter _ (by decide)
  constructor
  · intro h f hf g hg hfs hgs
    have hf' : f ∈ s.orders := mem_orders.mpr ⟨hf, hfs⟩
    have hg' : g ∈ s.orders := mem_orders.mpr ⟨hg, hgs⟩
    match hs : s.orders, h with
    | [], _ => rw [hs] at hf'; cases hf'
    | [a], _ =>
      rw [hs] at hf' hg'
      exact (List.mem_singleton.mp hf').trans (List.mem_singleton.mp hg').symm
  · intro h
    match hs : s.orders with
    | [] => simp
    | [a] => simp
    | a :: b :: l =>
      have ha := mem_orders.mp (hs ▸ List.mem_cons_self : a ∈ s.orders)
      have hb := mem_orders.mp (hs ▸ List.mem_cons_of_mem a List.mem_cons_self : b ∈ s.orders)
      obtain rfl := h a ha.1 b hb.1 ha.2 hb.2
      simp [hs] at hnodup

/-- The flags whose use depends on a capability, as far as the checks of a value look at them. -/
def Flag.gated : List Flag := [.uniformMemory, .outputMemory, .makeAvailable, .makeVisible, .volatile]

end Semantics

/-- The atomics that store only if the old value is the expected one. -/
def Opcode.compareExchanges : List Opcode := [.opAtomicCompareExchange, .opAtomicCompareExchangeWeak]

theorem Opcode.mem_compareExchanges_iff {op : Opcode} : op ∈ compareExchanges ↔ op.isCompareExchange = true := by
  cases op <;> decide

namespace Declarations

open Semantics

variable {d : Declarations} {op : Opcode} {s : Semantics} {i : Instruction}

/-! ## Values -/

/-- A semantics value that no check of values by themselves objects to. -/
structure Permits (d : Declarations) (op : Opcode) (s : Semantics) : Prop where
  enabled : ∀ f ∈ Flag.gated, f ∈ s → d.enables f.requires = true
  oneOrder : ∀ f ∈ Flag.orders, ∀ g ∈ Flag.orders, f ∈ s → g ∈ s → f = g
  load : op = .opAtomicLoad → .release ∉ s ∧ .acquireRelease ∉ s
  store : op = .opAtomicStore ∨ op = .opAtomicFlagClear → .acquire ∉ s ∧ .acquireRelease ∉ s
  barrier : d.strict = true → op = .opMemoryBarrier → ∃ f ∈ Flag.orders, f ∈ s
  notSequentiallyConsistent : d.strict = true → .sequentiallyConsistent ∉ s
  ordered_iff : d.strict = true → ((∃ f ∈ Flag.orders, f ∈ s) ↔ ∃ f ∈ Flag.vulkanStorage, f ∈ s)
  available : .makeAvailable ∈ s → .release ∈ s ∨ .acquireRelease ∈ s
  visible : .makeVisible ∈ s → .acquire ∈ s ∨ .acquireRelease ∈ s
  volatile : .volatile ∈ s → op.isAtomic = true

theorem flagFault_holds_eq_false_iff {f : Flag} :
    (d.flagFault s f).holds = false ↔ (f ∈ s → d.enables f.requires = true) := by
  simp [flagFault]

theorem valueFaults_iff_permits : (∀ x ∈ d.valueFaults op s, x.holds = false) ↔ d.Permits op s := by
  simp only [valueFaults, List.forall_mem_cons, flagFault_holds_eq_false_iff, decide_eq_false_iff_not,
    Nat.not_lt, length_orders_le_one_iff, Bool.and_eq_false_imp, Bool.and_eq_true, Bool.or_eq_true,
    Bool.not_eq_false', Bool.not_eq_true', beq_iff_eq, decide_eq_true_eq, isOrdered_eq_true_iff,
    isOrdered_eq_false_iff, hasVulkanStorage_eq_true_iff, hasVulkanStorage_eq_false_iff, releases_eq_true_iff,
    releases_eq_false_iff, acquires_eq_true_iff, acquires_eq_false_iff]
  constructor
  · intro h
    obtain ⟨huniform, houtput, horder, hload, hstore, hbarrier, hseq, hstorage, hordered, havailable,
      havailable', hvisible, hvisible', hvolatile, hvolatile', -⟩ := h
    refine ⟨?_, horder, hload, hstore, fun hd hop => hbarrier ⟨hd, hop⟩, hseq, fun hd => ⟨fun h => ?_, fun h => ?_⟩,
      havailable', hvisible', hvolatile'⟩
    · simp only [Flag.gated, List.forall_mem_cons]
      exact ⟨huniform, houtput, havailable, hvisible, hvolatile, by simp⟩
    · exact hordered ⟨hd, h⟩
    · exact Classical.byContradiction fun hn => hstorage ⟨hd, hn⟩ h
  · intro h
    have henabled := h.enabled
    simp only [Flag.gated, List.forall_mem_cons] at henabled
    obtain ⟨huniform, houtput, havailable, hvisible, hvolatile, -⟩ := henabled
    exact ⟨huniform, houtput, h.oneOrder, h.load, h.store, fun hd => h.barrier hd.1 hd.2,
      h.notSequentiallyConsistent, fun hd hs => hd.2 ((h.ordered_iff hd.1).mpr hs),
      fun hd => (h.ordered_iff hd.1).mp hd.2, havailable, h.available, hvisible, h.visible, hvolatile, h.volatile,
      by simp⟩

/-! ## The values of a compare-exchange -/

/-- A semantics value for a failing comparison that no check objects to beside the one for a
succeeding comparison. -/
structure PermitsUnequal (d : Declarations) (equal unequal : Semantics) : Prop where
  notReleasing : .release ∉ unequal ∧ .acquireRelease ∉ unequal
  sequentiallyConsistent : .sequentiallyConsistent ∈ unequal → .sequentiallyConsistent ∈ equal
  acquire : .acquire ∈ unequal →
    .sequentiallyConsistent ∈ equal ∨ .acquireRelease ∈ equal ∨ .acquire ∈ equal
  storage : d.strict = true → ∀ f ∈ .makeVisible :: Flag.vulkanStorage, f ∈ unequal → f ∈ equal
  volatile : d.strict = true → (.volatile ∈ unequal ↔ .volatile ∈ equal)

theorem unequalFaults_iff_permits {equal unequal : Semantics} :
    (∀ x ∈ d.unequalFaults equal unequal, x.holds = false) ↔ d.PermitsUnequal equal unequal := by
  have hstorage : (unequal \ equal).hasAny (.makeVisible :: Flag.vulkanStorage) = false ↔
      ∀ f ∈ .makeVisible :: Flag.vulkanStorage, f ∈ unequal → f ∈ equal := by
    simp only [hasAny_eq_false_iff, mem_sdiff, not_and, Classical.not_not]
  simp only [unequalFaults, List.forall_mem_cons, Bool.and_eq_false_imp, releases_eq_false_iff,
    strongerThan_eq_false_iff, hstorage, mem_symmDiff, decide_eq_false_iff_not, Classical.not_not]
  constructor
  · intro h
    obtain ⟨hr, ⟨hs, ha⟩, hst, hv, -⟩ := h
    exact ⟨hr, hs, ha, fun hd => List.forall_mem_cons.mpr (hst hd), hv⟩
  · intro h
    obtain ⟨hr, hs, ha, hst, hv⟩ := h
    exact ⟨hr, ⟨hs, ha⟩, fun hd => List.forall_mem_cons.mp (hst hd), hv, by simp⟩

theorem ofOperand_eq_unequal_iff {index : Nat} :
    SemanticsRole.ofOperand op index = .unequal ↔ op ∈ Opcode.compareExchanges ∧ index = 3 := by
  simp only [SemanticsRole.ofOperand, Bool.and_eq_true, beq_iff_eq, SemanticsRole.equalOperand,
    SemanticsRole.unequalOperand, Opcode.mem_compareExchanges_iff]
  split
  next h => simp [h.2]
  next =>
    split
    next h => simp [h]
    next h => simp [h]

/-- The semantics word that an operand folds to, or 0 where its value is not known. -/
def foldedSemantics (d : Declarations) (i : Instruction) (index : Nat) : Semantics :=
  match i.operand? index with
  | none => ⟨0⟩
  | some id =>
    match d.fold id with
    | .constant value => ⟨value⟩
    | .runtime | .notInt32 => ⟨0⟩

theorem equalSemantics_eq : d.equalSemantics i = d.foldedSemantics i 2 := by
  rw [equalSemantics, foldedSemantics, SemanticsRole.equalOperand]
  cases i.operand? 2 with
  | none => rfl
  | some id =>
    simp only [Option.map_some, Option.elim_some]
    cases d.fold id <;> rfl

/-! ## Operands -/

theorem checkSemantics_of_constant {index scopeIndex : Nat} {id : Id} {value : Word}
    (hid : i.operand? index = some id) (hvalue : d.fold id = .constant value) :
    d.checkSemantics i index scopeIndex =
      i.judge (SemanticsRole.ofOperand i.opcode index).subject (d.semanticsFaults i index scopeIndex ⟨value⟩) := by
  have hconstant : ∀ subject, d.constantOperand i index subject .semantics = .ok (some value) := by
    intro subject
    rw [constantOperand, Instruction.required_eq_ok_iff.mpr hid, Except.ok_bind, hvalue]
    rfl
  rw [checkSemantics, hconstant]
  rfl

/-- The order of an instruction is observed by others than its own invocation. -/
def PermitsOrder (d : Declarations) (i : Instruction) (scopeIndex : Nat) (s : Semantics) : Prop :=
  d.strict = true → (∃ f ∈ Flag.orders, f ∈ s) →
    ∀ id, i.operand? scopeIndex = some id → d.fold id ≠ .constant (.ofNat Scope.invocation.code)

theorem invocationFault_iff_permits {scopeIndex : Nat} :
    (d.invocationFault i scopeIndex s).holds = false ↔ d.PermitsOrder i scopeIndex s := by
  simp only [invocationFault, PermitsOrder, Bool.and_eq_false_imp, Bool.and_eq_true, isOrdered_eq_true_iff,
    beq_eq_false_iff_ne, ne_eq, Option.map_eq_some_iff, not_exists, not_and]
  exact ⟨fun h hd ho => h ⟨hd, ho⟩, fun h hd => h hd.1 hd.2⟩

/-- What is let pass at an operand whose value is known. -/
theorem checkSemantics_eq_ok_iff {index scopeIndex : Nat} {id : Id} {value : Word}
    (hid : i.operand? index = some id) (hvalue : d.fold id = .constant value) :
    d.checkSemantics i index scopeIndex = .ok () ↔ d.Permits i.opcode ⟨value⟩ ∧
      (SemanticsRole.ofOperand i.opcode index = .unequal → d.PermitsUnequal (d.equalSemantics i) ⟨value⟩) ∧
      d.PermitsOrder i scopeIndex ⟨value⟩ := by
  rw [checkSemantics_of_constant hid hvalue, Instruction.judge_eq_ok_iff, semanticsFaults]
  simp only [List.forall_mem_append, valueFaults_iff_permits, List.forall_mem_singleton,
    invocationFault_iff_permits, and_assoc]
  split
  next h => simp [h, unequalFaults_iff_permits]
  next h => simp [h]

end Declarations

end SpirvAudit
