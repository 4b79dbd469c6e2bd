/-
The memory orders of a compare-exchange.

A semantics word with at most one order bit stands for a memory order
(`Semantics.HasOrder`), and memory orders are compared by what they guarantee.
The check of the semantics for a failing comparison looks at bits, one by one,
and never compares two orders. It still comes to that: among words for an order
each, where the one for a failing comparison does not release, the bits are let
pass exactly if its order is not stronger than the other (`strongerThan_eq_false_iff_le`).
Both words are checked for themselves before they are compared, so the verdict
on a compare-exchange is one on orders (`checkAtomic_order_le`).
-/
import SpirvAudit.Proofs.AcceptedSemantics
import SpirvAudit.Proofs.AtomicTyping
import SpirvAudit.Proofs.ScopeOperands

namespace SpirvAudit

open Semantics

/-- The memory orders. -/
inductive MemoryOrder
  | relaxed | acquire | release | acquireRelease | sequentiallyConsistent
deriving DecidableEq, Repr

namespace MemoryOrder

/-- What an order guarantees: that it acquires, that it releases, and one order of all accesses. -/
def guarantees : MemoryOrder → Bool × Bool × Bool
  | .relaxed => (false, false, false)
  | .acquire => (true, false, false)
  | .release => (false, true, false)
  | .acquireRelease => (true, true, false)
  | .sequentiallyConsistent => (true, true, true)

theorem guarantees_injective : Function.Injective guarantees := by
  intro o o' h
  cases o <;> cases o' <;> first | rfl | cases h

/-- An order is at most as strong as one that guarantees all it does. -/
instance : PartialOrder MemoryOrder := PartialOrder.lift guarantees guarantees_injective

instance (o o' : MemoryOrder) : Decidable (o ≤ o') :=
  inferInstanceAs (Decidable (o.guarantees ≤ o'.guarantees))

/-- The order is that of two ways up from relaxed, which meet below sequentially consistent. -/
theorem le_iff {o o' : MemoryOrder} : o ≤ o' ↔ o = o' ∨ o = .relaxed ∨ o' = .sequentiallyConsistent ∨
    (o = .acquire ∨ o = .release) ∧ o' = .acquireRelease := by
  cases o <;> cases o' <;> decide

/-- The order bits of a word for this order. -/
def flags : MemoryOrder → List Flag
  | .relaxed => []
  | .acquire => [.acquire]
  | .release => [.release]
  | .acquireRelease => [.acquireRelease]
  | .sequentiallyConsistent => [.sequentiallyConsistent]

end MemoryOrder

namespace Semantics

variable {s t : Semantics} {o u e : MemoryOrder}

/-- The word is one for this order: it has no other order bit. -/
def HasOrder (s : Semantics) (o : MemoryOrder) : Prop := s.orders = o.flags

instance (s : Semantics) (o : MemoryOrder) : Decidable (s.HasOrder o) :=
  inferInstanceAs (Decidable (_ = _))

theorem HasOrder.mem_iff (h : s.HasOrder o) {f : Flag} (hf : f ∈ Flag.orders) : f ∈ s ↔ f ∈ o.flags := by
  rw [← h, mem_orders, and_iff_right hf]

/-- A word with at most one order bit is one for an order. -/
theorem exists_hasOrder (h : s.orders.length ≤ 1) : ∃ o, s.HasOrder o := by
  match hs : s.orders, h with
  | [], _ => exact ⟨.relaxed, hs⟩
  | [f], _ =>
    have hf : f ∈ Flag.orders := (mem_orders.mp (hs ▸ List.mem_singleton_self f)).1
    simp only [Flag.orders, List.mem_cons, List.not_mem_nil, or_false] at hf
    rcases hf with rfl | rfl | rfl | rfl
    · exact ⟨.acquire, hs⟩
    · exact ⟨.release, hs⟩
    · exact ⟨.acquireRelease, hs⟩
    · exact ⟨.sequentiallyConsistent, hs⟩

theorem HasOrder.releases_eq_false_iff (h : s.HasOrder o) :
    s.releases = false ↔ o ≠ .release ∧ o ≠ .acquireRelease := by
  rw [Semantics.releases_eq_false_iff, h.mem_iff (by decide), h.mem_iff (by decide)]
  cases o <;> decide

/-- Bit by bit or by the orders they stand for, two words compare alike, if the first does not release. -/
theorem strongerThan_eq_false_iff_le (hs : s.HasOrder u) (ht : t.HasOrder e) (hreleases : s.releases = false) :
    s.strongerThan t = false ↔ u ≤ e := by
  obtain ⟨hrelease, hacquireRelease⟩ := hs.releases_eq_false_iff.mp hreleases
  rw [strongerThan_eq_false_iff, hs.mem_iff (by decide), hs.mem_iff (by decide), ht.mem_iff (by decide),
    ht.mem_iff (by decide), ht.mem_iff (by decide)]
  revert hrelease hacquireRelease
  cases u <;> cases e <;> decide

end Semantics

/-- The rule that orders are compared for. -/
def strengthRule : String := "VUID-StandaloneSpirv-MemorySemantics-10012"

theorem Opcode.isAtomic_of_mem_compareExchanges {op : Opcode} (h : op ∈ compareExchanges) : op.isAtomic = true := by
  simp only [compareExchanges, List.mem_cons, List.not_mem_nil, or_false] at h
  rcases h with rfl | rfl <;> rfl

namespace Declarations

variable {d : Declarations} {i : Instruction} {index scopeIndex : Nat} {value : Word} {v : Violation}

/-! ## The order of a checked operand -/

theorem Permits.exists_hasOrder {op : Opcode} {s : Semantics} (h : d.Permits op s) : ∃ o, s.HasOrder o :=
  Semantics.exists_hasOrder (length_orders_le_one_iff.mpr h.oneOrder)

theorem foldedSemantics_of_foldsTo (h : d.FoldsTo i index value) : d.foldedSemantics i index = ⟨value⟩ := by
  obtain ⟨id, hid, hfold⟩ := h
  simp only [foldedSemantics, hid, hfold]

/-- Semantics that are not known are those without a bit. -/
theorem foldedSemantics_of_not_foldsTo (h : ∀ value, ¬ d.FoldsTo i index value) : d.foldedSemantics i index = ∅ := by
  rw [foldedSemantics]
  cases hid : i.operand? index with
  | none => rfl
  | some id =>
    cases hfold : d.fold id with
    | constant value => exact absurd ⟨id, hid, hfold⟩ (h value)
    | notInt32 | runtime => simp only [hfold]; rfl

/-- An accepted operand is of an order. It is relaxed if it is not known. -/
theorem exists_hasOrder_foldedSemantics (h : d.checkSemantics i index scopeIndex = .ok ()) :
    ∃ o, (d.foldedSemantics i index).HasOrder o := by
  obtain ⟨value?, hvalue, hpermits⟩ := checkSemantics_eq_ok_iff_operand.mp h
  have hfolds := foldsTo_iff_of_constantOperand hvalue
  cases value? with
  | none =>
    rw [foldedSemantics_of_not_foldsTo (by simp [hfolds])]
    exact ⟨.relaxed, by decide⟩
  | some value =>
    rw [foldedSemantics_of_foldsTo ((hfolds value).mpr rfl)]
    exact (hpermits value rfl).1.exists_hasOrder

/-! ## What the rule is told for -/

theorem rule_ne_of_mem_valueFaults {op : Opcode} {s : Semantics} :
    ∀ f ∈ d.valueFaults op s, f.problem.rule.text?.getD "" ≠ strengthRule := by
  simp only [valueFaults, flagFault, List.forall_mem_cons]
  decide

theorem rule_ne_of_invocationFault {s : Semantics} :
    (d.invocationFault i scopeIndex s).problem.rule.text?.getD "" ≠ strengthRule := by
  simp only [invocationFault]
  decide

theorem constantOperand_failsOnly {subject : Subject} {area : ConstantArea} :
    FailsOnly (·.diagnostic.rule ≠ strengthRule) (d.constantOperand i index subject area) := by
  refine constantOperand_enforces.failsOnly ?_
  simp only [constantRequirements, Requirement.under, List.forall_mem_cons]
  cases area <;> simp +contextual [strengthRule, ConstantArea.name]

theorem checkMemoryScope_failsOnly :
    FailsOnly (·.diagnostic.rule ≠ strengthRule) (d.checkMemoryScope i index) := by
  refine checkMemoryScope_enforces.failsOnly ?_
  simp only [memoryScopeRequirements, scopeRequirements, constantRequirements, Requirement.under,
    List.forall_mem_append, List.forall_mem_cons]
  simp +contextual [strengthRule, ConstantArea.name]

/-- Only the semantics for a failing comparison are compared with others. -/
theorem checkSemantics_failsOnly (hrole : SemanticsRole.ofOperand i.opcode index ≠ .unequal) :
    FailsOnly (·.diagnostic.rule ≠ strengthRule) (d.checkSemantics i index scopeIndex) := by
  refine constantOperand_failsOnly.bind fun value? _ => ?_
  cases value? with
  | none => exact .ok ()
  | some value =>
    refine .judge ?_
    simp only [semanticsFaults, if_neg hrole, List.append_nil, List.forall_mem_append, List.forall_mem_singleton]
    refine ⟨fun f hf _ => rule_ne_of_mem_valueFaults f hf, fun _ => ?_⟩
    exact @rule_ne_of_invocationFault d i scopeIndex ⟨value⟩

/-- The rule is told of an operand for a failing comparison only if its order is found to be stronger. -/
theorem strongerThan_of_rule (hrole : SemanticsRole.ofOperand i.opcode index = .unequal)
    (hvalue : d.FoldsTo i index value) (h : d.checkSemantics i index scopeIndex = .error v)
    (hrule : v.diagnostic.rule = strengthRule) :
    d.Permits i.opcode ⟨value⟩ ∧ (⟨value⟩ : Semantics).releases = false ∧
      (⟨value⟩ : Semantics).strongerThan (d.equalSemantics i) = true := by
  obtain ⟨id, hid, hfold⟩ := hvalue
  have hother : ∀ p : Problem, p.rule.text?.getD "" ≠ strengthRule → v ≠ i.violation .unequalSemantics p := by
    rintro p hp rfl
    exact hp hrule
  have hearlier : ∀ f ∈ d.valueFaults i.opcode ⟨value⟩ ++ (d.unequalFaults (d.equalSemantics i) ⟨value⟩).take 1,
      v ≠ i.violation .unequalSemantics f.problem := by
    simp only [unequalFaults, List.take_succ_cons, List.take_zero, List.forall_mem_append, List.forall_mem_singleton]
    exact ⟨fun f hf => hother _ (rule_ne_of_mem_valueFaults f hf), hother _ (by decide)⟩
  have hlater : ∀ f ∈ (d.unequalFaults (d.equalSemantics i) ⟨value⟩).drop 2 ++
      [d.invocationFault i scopeIndex ⟨value⟩], v ≠ i.violation .unequalSemantics f.problem := by
    simp only [unequalFaults, List.drop_succ_cons, List.drop_zero, List.forall_mem_append, List.forall_mem_cons]
    exact ⟨⟨hother _ (by decide), hother _ (by decide), by simp⟩, hother _ rule_ne_of_invocationFault, by simp⟩
  rw [checkSemantics_of_constant hid hfold, semanticsFaults, if_pos hrole, unequalFaults, List.append_assoc,
    List.cons_append, List.append_cons, List.cons_append, hrole] at h
  obtain ⟨hvalue, hstronger⟩ := Instruction.holds_of_judge h hearlier hlater
  rw [List.forall_mem_append, valueFaults_iff_permits, List.forall_mem_singleton] at hvalue
  exact ⟨hvalue.1, hvalue.2, hstronger⟩

theorem rule_ne_of_typing {r : Requirement} (hr : r ∈ d.pointerRequirements i ++ d.dataRequirements i)
    (htold : r.told v) : v.diagnostic.rule ≠ strengthRule := by
  have hlest : ∀ {subject : Subject} {p : Problem}, p.rule.text?.getD "" ≠ strengthRule →
      v = i.violation subject p → v.diagnostic.rule ≠ strengthRule := by
    rintro _ _ hp rfl
    exact hp
  revert r
  simp only [List.forall_mem_append, List.forall_mem_cons, pointerRequirements, dataRequirements, familyRequirement,
    pointeeRequirement, widthRequirement, Requirement.lest]
  refine ⟨⟨hlest (by decide), hlest (by decide), by simp⟩, ?_, hlest (by decide), hlest (by decide), by simp⟩
  intro h
  obtain ⟨scalar, -, hv⟩ := h
  exact hlest (by cases scalar <;> decide) hv

/-- The rule is told of a compare-exchange by the last of its checks. -/
theorem checkSemantics_of_rule (hop : i.opcode ∈ Opcode.compareExchanges) (h : d.checkAtomic i = .error v)
    (hrule : v.diagnostic.rule = strengthRule) :
    d.checkSemantics i 2 1 = .ok () ∧ d.checkSemantics i 3 1 = .error v := by
  have henforces := @checkAtomic_enforces d i (Opcode.isAtomic_of_mem_compareExchanges hop)
  rw [atomicRequirements, orderRequirements, if_pos hop, ← List.append_assoc] at henforces
  have hequal : SemanticsRole.ofOperand i.opcode 2 ≠ .unequal := by simp [ofOperand_eq_unequal_iff]
  have hscope : d.checkMemoryScope i 1 ≠ .error v := fun hv => checkMemoryScope_failsOnly v hv hrule
  have hsemantics : d.checkSemantics i 2 1 ≠ .error v := fun hv => checkSemantics_failsOnly hequal v hv hrule
  have hother : ∀ r ∈ d.pointerRequirements i ++ d.dataRequirements i ++
      [.accepts (d.checkMemoryScope i 1), .accepts (d.checkSemantics i 2 1)], ¬ r.told v := by
    rw [List.forall_mem_append]
    refine ⟨fun r hr htold => rule_ne_of_typing hr htold hrule, ?_⟩
    simpa [Requirement.accepts] using ⟨hscope, hsemantics⟩
  obtain ⟨hmet, -, htold⟩ := henforces.first_of_told h hother (by simp)
  simp only [List.forall_mem_append, List.forall_mem_cons, Requirement.accepts] at hmet
  exact ⟨hmet.2.2.1, htold⟩

/-! ## The verdict on orders -/

/-- **A compare-exchange is judged by its orders.** Take any declarations and any compare-exchange whose
semantics for a failing comparison are known; those for a succeeding one count as relaxed if they are not. If
it is accepted, both are of an order, and that for a failing comparison does not release and is at most as
strong as the other; under the Vulkan rules it also asks for no storage and no visibility that the other does
not ask for, and the two are both volatile or neither is. It is told of for the strength of its orders only if
the one for a failing comparison is not at most as strong as the other. -/
theorem checkAtomic_order_le (hop : i.opcode ∈ Opcode.compareExchanges) (hvalue : d.FoldsTo i 3 value) :
    (d.checkAtomic i = .ok () → ∃ u e, (⟨value⟩ : Semantics).HasOrder u ∧ (d.foldedSemantics i 2).HasOrder e ∧
      u ≠ .release ∧ u ≠ .acquireRelease ∧ u ≤ e ∧ (d.strict = true →
        (∀ f ∈ .makeVisible :: Flag.vulkanStorage, f ∈ (⟨value⟩ : Semantics) → f ∈ d.foldedSemantics i 2) ∧
        (.volatile ∈ (⟨value⟩ : Semantics) ↔ .volatile ∈ d.foldedSemantics i 2))) ∧
    ∀ v, d.checkAtomic i = .error v → v.diagnostic.rule = strengthRule →
      ∃ u e, (⟨value⟩ : Semantics).HasOrder u ∧ (d.foldedSemantics i 2).HasOrder e ∧ ¬ u ≤ e := by
  have hrole : SemanticsRole.ofOperand i.opcode 3 = .unequal := ofOperand_eq_unequal_iff.mpr ⟨hop, rfl⟩
  constructor
  · intro h
    obtain ⟨hequal, hunequal⟩ := checkAtomicSemantics_eq_ok_iff.mp (checkAtomicSemantics_of_checkAtomic h)
    obtain ⟨id, hid, hfold⟩ := hvalue
    obtain ⟨hpermits, hbeside, -⟩ := (checkSemantics_eq_ok_iff hid hfold).mp (hunequal hop)
    have hbeside' := hbeside hrole
    rw [equalSemantics_eq] at hbeside'
    obtain ⟨u, hu⟩ := hpermits.exists_hasOrder
    obtain ⟨e, he⟩ := exists_hasOrder_foldedSemantics hequal
    have hreleases := releases_eq_false_iff.mpr hbeside'.notReleasing
    have hstronger := strongerThan_eq_false_iff.mpr ⟨hbeside'.sequentiallyConsistent, hbeside'.acquire⟩
    obtain ⟨hrelease, hacquireRelease⟩ := hu.releases_eq_false_iff.mp hreleases
    exact ⟨u, e, hu, he, hrelease, hacquireRelease, (strongerThan_eq_false_iff_le hu he hreleases).mp hstronger,
      fun hd => ⟨hbeside'.storage hd, hbeside'.volatile hd⟩⟩
  · intro v h hrule
    obtain ⟨hequal, hunequal⟩ := checkSemantics_of_rule hop h hrule
    obtain ⟨hpermits, hreleases, hstronger⟩ := strongerThan_of_rule hrole hvalue hunequal hrule
    rw [equalSemantics_eq] at hstronger
    obtain ⟨u, hu⟩ := hpermits.exists_hasOrder
    obtain ⟨e, he⟩ := exists_hasOrder_foldedSemantics hequal
    refine ⟨u, e, hu, he, fun hle => ?_⟩
    rw [(strongerThan_eq_false_iff_le hu he hreleases).mpr hle] at hstronger
    cases hstronger

/-- Under the Vulkan rules: a variable, a scope, and semantics that release, acquire or do both for workgroups. -/
def comparing : Declarations where
  environment := exchanging.environment
  capabilities := [.shader]
  definitions := [
    (1, .ofInstruction ⟨.opTypeInt, none, some 1, [32, 0]⟩),
    (2, .ofInstruction ⟨.opTypePointer, none, some 2, [4, 1]⟩),
    (3, .ofInstruction ⟨.opVariable, some 2, some 3, [4]⟩),
    (4, .ofInstruction ⟨.opConstant, some 1, some 4, [2]⟩),
    (5, .ofInstruction ⟨.opConstant, some 1, some 5, [0x102]⟩),
    (6, .ofInstruction ⟨.opConstant, some 1, some 6, [0x104]⟩),
    (7, .ofInstruction ⟨.opConstant, some 1, some 7, [0x108]⟩)]

/-- To acquire at a failing comparison is less than to acquire and release at a succeeding one, but no less
than to release. -/
theorem checkAtomic_order_le_comparing :
    (∃ u e, (⟨0x102⟩ : Semantics).HasOrder u ∧ (⟨0x108⟩ : Semantics).HasOrder e ∧ u ≤ e) ∧
      ∃ u e, (⟨0x102⟩ : Semantics).HasOrder u ∧ (⟨0x104⟩ : Semantics).HasOrder e ∧ ¬ u ≤ e := by
  let i (equal : Id) : Instruction := ⟨.opAtomicCompareExchange, some 1, some 8, [3, 4, equal, 5, 4, 4]⟩
  have hvalue : ∀ equal, comparing.FoldsTo (i equal) 3 0x102 := fun _ => ⟨5, rfl, by decide⟩
  constructor
  · have hok : comparing.checkAtomic (i 7) = .ok () := by cbv
    obtain ⟨u, e, hu, he, -, -, hle, -⟩ := (checkAtomic_order_le (by decide) (hvalue 7)).1 hok
    exact ⟨u, e, hu, he, hle⟩
  · have herror : comparing.checkAtomic (i 6) = .error ((i 6).violation .unequalSemantics .unequalStronger) := by cbv
    obtain ⟨u, e, hu, he, hle⟩ := (checkAtomic_order_le (by decide) (hvalue 6)).2 _ herror rfl
    exact ⟨u, e, hu, he, hle⟩

end Declarations

end SpirvAudit
