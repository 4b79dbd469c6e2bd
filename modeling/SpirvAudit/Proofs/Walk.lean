/-
The walk over a module's instructions.

A step registers an instruction and checks it against what is then declared,
so a whole walk accepts when every instruction can be registered and passes its
checks against the declarations up to and including it (`run_eq_ok_iff`). A
walk over a longer list passes through the same declarations, and ends the same
way if it ends early (`run_append`). `check_eq_ok_iff` and the lemmas after it
say what it is for the checks of one instruction to accept.
-/
import SpirvAudit.Audit
import SpirvAudit.Proofs.Registration

namespace SpirvAudit

/-- The declarations after the first `n` instructions of a module. -/
def Module.declarationsAfter (env : Environment) (m : Module) (n : Nat) : Declarations :=
  (Declarations.initial env).registerEach (m.instructions.take n)

namespace Declarations

variable {d d' : Declarations} {i : Instruction} {is : List Instruction}

/-! ## Steps -/

theorem step_eq_ok_iff :
    d.step i = .ok d' ↔ i.Registrable ∧ d.registerOrSkip i = d' ∧ d'.check i = .ok () := by
  rw [step, Except.bind_eq_ok_iff]
  constructor
  · intro h
    obtain ⟨d₁, h₁, h⟩ := h
    obtain ⟨_, hcheck, h⟩ := Except.bind_eq_ok_iff.mp h
    obtain rfl := Except.pure_eq_ok_iff.mp h
    obtain ⟨hi, hd⟩ := register_eq_ok_iff.mp h₁
    exact ⟨hi, hd, hcheck⟩
  · intro h
    obtain ⟨hi, hd, hcheck⟩ := h
    exact ⟨d', register_eq_ok_iff.mpr ⟨hi, hd⟩, by rw [hcheck]; rfl⟩

theorem run_cons (d : Declarations) (i : Instruction) (is : List Instruction) :
    d.run (i :: is) = (d.step i >>= fun d' => d'.run is) := List.foldlM_cons

/-- A walk goes on from where a walk over the front of the list ends. -/
theorem run_append (d : Declarations) (is js : List Instruction) :
    d.run (is ++ js) = (d.run is >>= fun d' => d'.run js) := List.foldlM_append

/-- What every step keeps holds at the end of a walk. -/
theorem run_induction {P : Declarations → Prop}
    (keep : ∀ {d d' : Declarations} {i : Instruction}, i ∈ is → P d → d.step i = .ok d' → P d')
    (h : d.run is = .ok d') (hd : P d) : P d' := by
  induction is generalizing d with
  | nil => cases h; exact hd
  | cons i is ih =>
    rw [run_cons] at h
    obtain ⟨d₁, h₁, h⟩ := Except.bind_eq_ok_iff.mp h
    exact ih (fun hj => keep (List.mem_cons_of_mem i hj)) h (keep List.mem_cons_self hd h₁)

/-- **What a walk accepts.** Every instruction can be registered, and passes its checks against the
declarations up to and including it. -/
theorem run_eq_ok_iff :
    d.run is = .ok d' ↔ (∀ i ∈ is, i.Registrable) ∧ d.registerEach is = d' ∧
      ∀ n i, is[n]? = some i → (d.registerEach (is.take (n + 1))).check i = .ok () := by
  induction is generalizing d with
  | nil => simp [run, pure, Except.pure]
  | cons i is ih =>
    simp only [run_cons, Except.bind_eq_ok_iff, step_eq_ok_iff, ih]
    constructor
    · intro h
      obtain ⟨d₁, ⟨hi, rfl, hcheck⟩, his, hd, hchecks⟩ := h
      refine ⟨List.forall_mem_cons.mpr ⟨hi, his⟩, hd, fun n j hj => ?_⟩
      cases n with
      | zero => cases hj; exact hcheck
      | succ n => exact hchecks n j hj
    · intro h
      obtain ⟨his, hd, hchecks⟩ := h
      obtain ⟨hi, his⟩ := List.forall_mem_cons.mp his
      exact ⟨_, ⟨hi, rfl, hchecks 0 i rfl⟩, his, hd, fun n j hj => hchecks (n + 1) j hj⟩

/-! ## The checks of one instruction -/

theorem check_eq_ok_iff :
    d.check i = .ok () ↔ d.enables i.opcode.requires = true ∧
      (∀ g ∈ i.opcode.gates, d.checkGate i g = .ok ()) ∧ d.checkEffect i = .ok () := by
  rw [check, Verdict.bind_eq_ok_iff, Verdict.bind_eq_ok_iff, checkOpcode, Instruction.judge_eq_ok_iff,
    checkGates, Verdict.forM_eq_ok_iff]
  simp

theorem enumerant_eq_ok_iff {g : Gate} {row : Enumerant} :
    i.enumerant g = .ok row ↔ ∃ code, i.operand? g.index = some code ∧ g.kind.find? code.toNat = some row := by
  rw [Instruction.enumerant, Except.bind_eq_ok_iff]
  refine exists_congr fun code => and_congr Instruction.required_eq_ok_iff ?_
  cases g.kind.find? code.toNat <;> simp

theorem checkGate_eq_ok_iff {g : Gate} :
    d.checkGate i g = .ok () ↔ ∃ code row, i.operand? g.index = some code ∧
      g.kind.find? code.toNat = some row ∧ d.enables row.capabilities = true := by
  rw [checkGate, Except.bind_eq_ok_iff]
  simp only [enumerant_eq_ok_iff, Instruction.judge_eq_ok_iff]
  constructor
  · intro h
    obtain ⟨row, ⟨code, hcode, hrow⟩, h⟩ := h
    exact ⟨code, row, hcode, hrow, by simpa using h⟩
  · intro h
    obtain ⟨code, row, hcode, hrow, h⟩ := h
    exact ⟨row, ⟨code, hcode, hrow⟩, by simpa using h⟩

/-- The values known for a capability operand are the capabilities. -/
theorem find?_capability (code : Nat) :
    OperandKind.capability.find? code = (Capability.ofCode? code).map (·.enumerant) :=
  List.find?_map

theorem checkCapability_eq_ok_iff (hop : i.opcode = .opCapability) :
    i.checkCapability = .ok () ↔ ∃ a, i.capability? = some a := by
  have hrow : i.checkCapability = .ok () ↔ ∃ row, i.enumerant ⟨0, .capability, .capability⟩ = .ok row := by
    rw [Instruction.checkCapability, discard]
    cases i.enumerant ⟨0, .capability, .capability⟩ <;> simp [Functor.mapConst, Except.map]
  simp only [hrow, enumerant_eq_ok_iff, find?_capability, Instruction.capability?, if_pos hop,
    Option.map_eq_some_iff, Option.bind_eq_some_iff]
  constructor
  · intro h
    obtain ⟨_, code, hcode, a, ha, rfl⟩ := h
    exact ⟨a, code, hcode, ha⟩
  · intro h
    obtain ⟨a, code, hcode, ha⟩ := h
    exact ⟨_, code, hcode, a, ha, rfl⟩

/-- Naming a known capability is all that an `OpCapability` is checked for. -/
theorem check_capability_eq_ok_iff (hop : i.opcode = .opCapability) :
    d.check i = .ok () ↔ ∃ a, i.capability? = some a := by
  have heffect : d.checkEffect i = i.checkCapability := by rw [checkEffect, hop]
  rw [check_eq_ok_iff, heffect, checkCapability_eq_ok_iff hop, hop]
  simp [Opcode.gates, Opcode.requires, Opcode.entry, enables]

theorem checkFirstMemoryModel_eq_ok_iff :
    d.checkFirstMemoryModel i = .ok () ↔ d.memoryModelCount ≤ 1 := by
  rw [checkFirstMemoryModel, Instruction.judge_eq_ok_iff]
  simp

theorem checkEffect_memoryModel (hop : i.opcode = .opMemoryModel) :
    d.checkEffect i = d.checkFirstMemoryModel i := by
  rw [checkEffect, hop]

/-- A step takes no `OpMemoryModel` after another one. -/
theorem opcode_ne_memoryModel_of_step (h : d.step i = .ok d') (hd : d.memoryModelCount ≠ 0) :
    i.opcode ≠ .opMemoryModel := by
  obtain ⟨hi, rfl, hcheck⟩ := step_eq_ok_iff.mp h
  intro hop
  have hcount := (registerOrSkip_registers (d := d) hi).memoryModelCount
  have heffect := (check_eq_ok_iff.mp hcheck).2.2
  rw [checkEffect_memoryModel hop, checkFirstMemoryModel_eq_ok_iff] at heffect
  rw [if_pos hop] at hcount
  omega

theorem memoryModelCount_le_one_of_step (h : d.step i = .ok d') (hd : d.memoryModelCount ≤ 1) :
    d'.memoryModelCount ≤ 1 := by
  by_cases hop : i.opcode = .opMemoryModel
  · have heffect := (check_eq_ok_iff.mp (step_eq_ok_iff.mp h).2.2).2.2
    rwa [checkEffect_memoryModel hop, checkFirstMemoryModel_eq_ok_iff] at heffect
  · obtain ⟨hi, rfl, -⟩ := step_eq_ok_iff.mp h
    rwa [(registerOrSkip_registers hi).memoryModelCount, if_neg hop]

theorem memoryModelCount_le_one_of_run (h : d.run is = .ok d') (hd : d.memoryModelCount ≤ 1) :
    d'.memoryModelCount ≤ 1 :=
  run_induction (fun _ hd h => memoryModelCount_le_one_of_step h hd) h hd

theorem checkEnd_eq_ok_iff :
    d.checkEnd = .ok () ↔ d.memoryModelCount ≠ 0 ∧
      (d.has .vulkanMemoryModel = true → d.memoryModel? = some .vulkan) := by
  rw [checkEnd]
  split
  next h => simp [h]
  next h =>
    split
    next h' => simp_all
    next h' => simp_all

end Declarations

/-! ## Whole modules -/

theorem Environment.checkVersion_eq_ok_iff {env : Environment} {version : Version} :
    env.checkVersion version = .ok () ↔ version ≤ env.maxVersion := by
  change _ ↔ (compare version env.maxVersion).isLE = true
  rw [checkVersion]
  cases compare version env.maxVersion <;> simp

namespace Module

open Declarations

variable {env : Environment} {m : Module}

/-- **What an audit accepts.** The environment takes the version, every instruction can be registered and
passes its checks against the declarations up to and including it, and the module has declared by
its end what it has to. -/
theorem audit_eq_ok_iff :
    m.audit env = .ok () ↔ m.version ≤ env.maxVersion ∧ (∀ i ∈ m.instructions, i.Registrable) ∧
      (∀ n i, m.instructions[n]? = some i → (m.declarationsAfter env (n + 1)).check i = .ok ()) ∧
      ((initial env).registerEach m.instructions).checkEnd = .ok () := by
  rw [audit, Verdict.bind_eq_ok_iff, Environment.checkVersion_eq_ok_iff]
  simp only [Except.bind_eq_ok_iff, run_eq_ok_iff, declarationsAfter]
  constructor
  · intro h
    obtain ⟨hversion, d, ⟨hreg, rfl, hchecks⟩, hend⟩ := h
    exact ⟨hversion, hreg, hchecks, hend⟩
  · intro h
    obtain ⟨hversion, hreg, hchecks, hend⟩ := h
    exact ⟨hversion, _, ⟨hreg, rfl, hchecks⟩, hend⟩

/-! ## The memory model of a module -/

/-- The number of `OpMemoryModel` instructions of a module. -/
def memoryModelCount (m : Module) : Nat := m.instructions.countP fun i => i.opcode = .opMemoryModel

theorem memoryModelCount_declarationsAfter {n : Nat} (h : ∀ i ∈ m.instructions, i.Registrable) :
    (m.declarationsAfter env n).memoryModelCount =
      (m.instructions.take n).countP fun i => i.opcode = .opMemoryModel :=
  memoryModelCount_registerEach_initial fun i hi => h i (List.mem_of_mem_take hi)

/-- An accepted module has exactly one `OpMemoryModel`. -/
theorem memoryModelCount_eq_one_of_audit (h : m.audit env = .ok ()) : m.memoryModelCount = 1 := by
  obtain ⟨-, hreg, -, hend⟩ := audit_eq_ok_iff.mp h
  have hle : ((initial env).registerEach m.instructions).memoryModelCount ≤ 1 := by
    rw [audit, Verdict.bind_eq_ok_iff] at h
    obtain ⟨d, hrun, -⟩ := Except.bind_eq_ok_iff.mp h.2
    rw [(run_eq_ok_iff.mp hrun).2.1]
    exact memoryModelCount_le_one_of_run hrun (Nat.zero_le 1)
  have hne := (checkEnd_eq_ok_iff.mp hend).1
  rw [memoryModelCount_registerEach_initial hreg] at hle hne
  exact Nat.le_antisymm hle (Nat.pos_of_ne_zero hne)

end Module

end SpirvAudit
