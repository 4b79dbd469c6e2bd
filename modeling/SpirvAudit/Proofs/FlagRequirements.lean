/-
The capabilities that the bits of an accepted semantics value depend on.

The table knows the fourteen flags and no other bit, and says on which
capabilities each flag depends. The checks of a value look at eleven of the
flags (`Flag.judged`), so values that do not differ in these fare alike
(`semanticsFaults_congr`). Two kinds of bit are let pass that the table does not
allow: those that are no flag, and `AtomicCounterMemory` outside shaders. Any
other bit of an accepted value is a flag that the declared capabilities allow.
-/
import SpirvAudit.OperandKind
import SpirvAudit.Proofs.Registration
import SpirvAudit.Proofs.SemanticsValues

namespace SpirvAudit

namespace Semantics

variable {l : List Flag} {s t equal : Semantics} {k : Nat}

/-! ## The table -/

theorem Flag.find?_bit (f : Flag) : all.find? (·.bit = f.bit) = some f := by
  cases f <;> rfl

/-- The table knows a bit by the flag that it is. -/
theorem requires?_two_pow_eq_some_iff {caps : List Capability} :
    OperandKind.memorySemantics.requires? (2 ^ k) = some caps ↔ ∃ f : Flag, f.bit = k ∧ f.requires = caps := by
  have hcode : (fun f : Flag => 1 <<< f.bit == 2 ^ k) = fun f => decide (f.bit = k) := by
    funext f
    rw [Nat.one_shiftLeft, Bool.beq_eq_decide_eq]
    exact decide_eq_decide.mpr (Nat.pow_right_injective (Nat.le_refl 2)).eq_iff
  rw [OperandKind.requires?, bitRequires?, if_neg (Nat.two_pow_pos k).ne', hcode, Option.map_eq_some_iff]
  constructor
  · intro h
    obtain ⟨f, hfind, hrequires⟩ := h
    exact ⟨f, by simpa using List.find?_some hfind, hrequires⟩
  · intro h
    obtain ⟨f, rfl, hrequires⟩ := h
    exact ⟨f, Flag.find?_bit f, hrequires⟩

/-! ## The flags that are looked at -/

/-- The flags that the checks of a value look at. -/
def Flag.judged : List Flag := orders ++ vulkanStorage ++ [.makeAvailable, .makeVisible, .volatile]

/-- The values do not differ in a flag that the checks look at. -/
def JudgedAlike (s t : Semantics) : Prop := ∀ f ∈ Flag.judged, f ∈ s ↔ f ∈ t

theorem JudgedAlike.hasAny (h : s.JudgedAlike t) (hl : l ⊆ Flag.judged) : s.hasAny l = t.hasAny l := by
  rw [Bool.eq_iff_iff, hasAny_eq_true_iff, hasAny_eq_true_iff]
  exact exists_congr fun f => and_congr_right fun hf => h f (hl hf)

theorem JudgedAlike.orders (h : s.JudgedAlike t) : s.orders = t.orders := by
  refine List.filter_congr fun f hf => decide_eq_decide.mpr (h f ?_)
  exact List.mem_append_left _ (List.mem_append_left _ hf)

theorem JudgedAlike.sdiff (h : s.JudgedAlike t) : (s \ equal).JudgedAlike (t \ equal) := by
  intro f hf
  rw [mem_sdiff, mem_sdiff, h f hf]

theorem JudgedAlike.symmDiff (h : s.JudgedAlike t) : (s.symmDiff equal).JudgedAlike (t.symmDiff equal) := by
  intro f hf
  rw [mem_symmDiff, mem_symmDiff, h f hf]

end Semantics

namespace Declarations

open Semantics

variable {d : Declarations} {op : Opcode} {s t equal : Semantics} {i : Instruction} {index scopeIndex k : Nat}

theorem valueFaults_congr (h : s.JudgedAlike t) : d.valueFaults op s = d.valueFaults op t := by
  have hflag : ∀ f ∈ Flag.judged, decide (f ∈ s) = decide (f ∈ t) := fun f hf => decide_eq_decide.mpr (h f hf)
  have hordered : s.isOrdered = t.isOrdered := h.hasAny (by decide)
  have hstorage : s.hasVulkanStorage = t.hasVulkanStorage := h.hasAny (by decide)
  have hreleases : s.releases = t.releases := h.hasAny (by decide)
  have hacquires : s.acquires = t.acquires := h.hasAny (by decide)
  simp only [valueFaults, flagFault, h.orders, hordered, hstorage, hreleases, hacquires,
    hflag .uniformMemory (by decide), hflag .outputMemory (by decide), hflag .sequentiallyConsistent (by decide),
    hflag .makeAvailable (by decide), hflag .makeVisible (by decide), hflag .volatile (by decide)]

theorem unequalFaults_congr (h : s.JudgedAlike t) : d.unequalFaults equal s = d.unequalFaults equal t := by
  have hflag : ∀ f ∈ Flag.judged, decide (f ∈ s) = decide (f ∈ t) := fun f hf => decide_eq_decide.mpr (h f hf)
  have hreleases : s.releases = t.releases := h.hasAny (by decide)
  have hstorage : (s \ equal).hasAny (.makeVisible :: Flag.vulkanStorage) =
      (t \ equal).hasAny (.makeVisible :: Flag.vulkanStorage) := h.sdiff.hasAny (by decide)
  have hvolatile : decide (.volatile ∈ s.symmDiff equal) = decide (.volatile ∈ t.symmDiff equal) :=
    decide_eq_decide.mpr (h.symmDiff .volatile (by decide))
  simp only [unequalFaults, strongerThan, hreleases, hstorage, hvolatile,
    hflag .sequentiallyConsistent (by decide), hflag .acquire (by decide)]

/-- No check looks at a bit that is not among the flags it is about. -/
theorem semanticsFaults_congr (h : s.JudgedAlike t) :
    d.semanticsFaults i index scopeIndex s = d.semanticsFaults i index scopeIndex t := by
  have hordered : s.isOrdered = t.isOrdered := h.hasAny (by decide)
  simp only [semanticsFaults, invocationFault, valueFaults_congr h, unequalFaults_congr h, hordered]

/-! ## Accepted values -/

/-- The table knows the bit, and allows it without capabilities or by one that is declared. -/
def AllowsBit (d : Declarations) (k : Nat) : Prop :=
  ∃ caps, OperandKind.memorySemantics.requires? (2 ^ k) = some caps ∧ (caps = [] ∨ ∃ c ∈ caps, d.has c = true)

theorem allowsBit_iff : d.AllowsBit k ↔ ∃ f : Flag, f.bit = k ∧ d.enables f.requires = true := by
  simp only [AllowsBit, requires?_two_pow_eq_some_iff, enables, hasAny, Bool.or_eq_true, List.isEmpty_iff,
    List.any_eq_true]
  constructor
  · intro h
    obtain ⟨_, ⟨f, hbit, rfl⟩, henabled⟩ := h
    exact ⟨f, hbit, henabled⟩
  · intro h
    obtain ⟨f, hbit, henabled⟩ := h
    exact ⟨_, ⟨f, hbit, rfl⟩, henabled⟩

/-- A flag of an accepted value is allowed, if it is not the one that the checks pass over. -/
theorem Permits.enables_requires (h : d.Permits op s) {f : Flag} (hf : f ∈ s)
    (hcounter : f = .atomicCounterMemory → d.has .shader = true) : d.enables f.requires = true := by
  by_cases hgated : f ∈ Flag.gated
  · exact h.enabled f hgated hf
  by_cases hf' : f = .atomicCounterMemory
  · rw [hf']
    simp [enables, hasAny, Flag.requires, Flag.entry, hcounter hf']
  · -- What is left depends on no capability.
    have hrequires : f.requires = [] := by revert hgated hf'; cases f <;> decide
    rw [hrequires]
    rfl

/-- **What the checks of a value make of its bits.** At an operand whose value is known, values that agree
on the eleven flags looked at have the same outcome. If the value is accepted, each bit set in it is one
that the table knows and the declared capabilities allow, but for two kinds: bits that are no flag, which
the table does not know, and `AtomicCounterMemory` while `Shader` is not declared. -/
theorem checkSemantics_allowsBit_iff {id : Id} {value : Word} (hid : i.operand? index = some id)
    (hvalue : d.fold id = .constant value) :
    (∀ s : Semantics, s.JudgedAlike ⟨value⟩ → d.checkSemantics i index scopeIndex =
      i.judge (SemanticsRole.ofOperand i.opcode index).subject (d.semanticsFaults i index scopeIndex s)) ∧
    (d.checkSemantics i index scopeIndex = .ok () → ∀ k, value.toNat.testBit k = true →
      (d.AllowsBit k ↔
        (∃ f : Flag, f.bit = k) ∧ (k = Flag.atomicCounterMemory.bit → d.has .shader = true))) := by
  refine ⟨fun s hs => ?_, fun hok k hk => ?_⟩
  · rw [checkSemantics_of_constant hid hvalue, semanticsFaults_congr hs]
  obtain ⟨hpermits, -⟩ := (checkSemantics_eq_ok_iff hid hvalue).mp hok
  rw [allowsBit_iff]
  constructor
  · intro h
    obtain ⟨f, rfl, henabled⟩ := h
    refine ⟨⟨f, rfl⟩, fun hbit => ?_⟩
    have hf : f = .atomicCounterMemory := by
      have hfind := Flag.find?_bit f
      rw [hbit, Flag.find?_bit] at hfind
      exact (Option.some.inj hfind).symm
    rw [hf] at henabled
    simpa [enables, hasAny, Flag.requires, Flag.entry] using henabled
  · intro h
    obtain ⟨⟨f, rfl⟩, hcounter⟩ := h
    exact ⟨f, rfl, hpermits.enables_requires hk fun hf => hcounter (congrArg Flag.bit hf)⟩

/-- A kernel with the constants of a barrier for atomic counters, one bit of which is no flag. -/
def counting : Declarations :=
  (initial default).registerEach [
    ⟨.opCapability, none, none, [6]⟩,
    ⟨.opTypeInt, none, some 1, [32, 0]⟩,
    ⟨.opConstant, some 1, some 2, [2]⟩,
    ⟨.opConstant, some 1, some 3, [0x401]⟩]

/-- The value is accepted, though neither of its bits is allowed. -/
theorem checkSemantics_allowsBit_iff_counting :
    counting.checkSemantics ⟨.opMemoryBarrier, none, none, [2, 3]⟩ 1 0 = .ok () ∧
      ¬ counting.AllowsBit 0 ∧ ¬ counting.AllowsBit 10 := by
  let i : Instruction := ⟨.opMemoryBarrier, none, none, [2, 3]⟩
  have hid : i.operand? 1 = some 3 := rfl
  have hvalue : counting.fold 3 = .constant 0x401 := by cbv
  have hok : counting.checkSemantics i 1 0 = .ok () := by cbv
  have hshader : counting.has .shader = false := by cbv
  have hbits := (@checkSemantics_allowsBit_iff counting i 1 0 3 0x401 hid hvalue).2 hok
  refine ⟨hok, fun h => ?_, fun h => ?_⟩
  · obtain ⟨⟨f, hf⟩, -⟩ := (hbits 0 (by decide)).mp h
    cases f <;> cases hf
  · have hdeclared := ((hbits 10 (by decide)).mp h).2 rfl
    rw [hshader] at hdeclared
    cases hdeclared

/-- An accepted value may have bits set that the table does not allow. -/
theorem not_forall_allowsBit :
    ¬ ∀ (d : Declarations) (i : Instruction) (index scopeIndex : Nat) (id : Id) (value : Word),
      i.operand? index = some id → d.fold id = .constant value → d.checkSemantics i index scopeIndex = .ok () →
      ∀ k, value.toNat.testBit k = true → d.AllowsBit k := by
  intro h
  have hvalue : counting.fold 3 = .constant 0x401 := by cbv
  have hok : counting.checkSemantics ⟨.opMemoryBarrier, none, none, [2, 3]⟩ 1 0 = .ok () := by cbv
  obtain ⟨caps, hcaps, -⟩ := h counting ⟨.opMemoryBarrier, none, none, [2, 3]⟩ 1 0 3 0x401 rfl hvalue hok 0 (by decide)
  cases hcaps

end Declarations

end SpirvAudit
