/-
What the checks of an instruction read of the declarations.

A check asks five questions of the declarations: which capabilities are
declared, what the definition of an id is, whether the environment is a Vulkan
one, which memory model is declared, and how often. The ids it asks for are the
words of the instruction and what their definitions refer to. So declarations
that give the same answers for a set of ids, one that no definition refers out
of (`Declarations.AgreesOn`), are alike for every instruction that keeps to the
set: it passes with both, or is rejected for the same violation. Registering such
an instruction keeps them in agreement, so two walks over the same instructions
end alike.
-/
import SpirvAudit.Proofs.Walk

namespace SpirvAudit

/-- The instruction keeps to the set: its ids and its operands are in it. -/
def Instruction.KeepsTo (i : Instruction) (S : Set Id) : Prop := ∀ id ∈ i.tail, id ∈ S

namespace Instruction.KeepsTo

variable {i : Instruction} {S : Set Id} {id : Id}

theorem resultType (h : i.KeepsTo S) (hid : i.resultType? = some id) : id ∈ S :=
  h id (by simp [tail, hid])

theorem operand {index : Nat} (h : i.KeepsTo S) (hid : i.operand? index = some id) : id ∈ S := by
  have hmem : id ∈ i.operands := List.mem_of_getElem? hid
  exact h id (by simp [tail, hmem])

theorem univ (i : Instruction) : i.KeepsTo Set.univ := fun _ _ => trivial

end Instruction.KeepsTo

namespace Declarations

variable {S : Set Id} {d d' : Declarations} {i : Instruction} {is : List Instruction} {index scopeIndex : Nat}
  {id : Id}

/-- The same memory model is declared, as often. -/
structure SameModels (d d' : Declarations) : Prop where
  memoryModel? : d'.memoryModel? = d.memoryModel?
  memoryModelCount : d'.memoryModelCount = d.memoryModelCount

/-- No definition refers to an id outside the set. -/
structure RefersTo (d : Declarations) (S : Set Id) : Prop where
  resultType : ∀ id t, (d.definition? id).bind (·.resultType?) = some t → t ∈ S
  pointee : ∀ id storageClass t, d.type? id = some (.pointer storageClass t) → t ∈ S

/-- The ids of the set have the same definitions, which do not refer out of it. -/
structure DefinesAlike (S : Set Id) (d d' : Declarations) : Prop where
  definition? : ∀ id ∈ S, d'.definition? id = d.definition? id
  refersTo : d.RefersTo S

/-- The answers to all that a check asks are the same, as long as it asks for ids of the set. -/
structure AgreesOn (S : Set Id) (d d' : Declarations) : Prop extends SameModels d d', DefinesAlike S d d' where
  has : d'.has = d.has
  isVulkan : d'.environment.isVulkan = d.environment.isVulkan

/-! ## Ids -/

theorem DefinesAlike.of_eq (h : d'.definition? = d.definition?) : DefinesAlike Set.univ d d' :=
  ⟨fun _ _ => by rw [h], ⟨fun _ _ _ => trivial, fun _ _ _ _ => trivial⟩⟩

theorem DefinesAlike.type? (h : DefinesAlike S d d') (hid : id ∈ S) : d'.type? id = d.type? id := by
  rw [Declarations.type?, Declarations.type?, h.definition? id hid]

theorem DefinesAlike.valueType? (h : DefinesAlike S d d') (hid : id ∈ S) :
    d'.valueType? id = d.valueType? id := by
  rw [Declarations.valueType?, Declarations.valueType?, h.definition? id hid]
  cases ht : (d.definition? id).bind (·.resultType?) with
  | none => rfl
  | some t => exact h.type? (h.refersTo.resultType id t ht)

theorem DefinesAlike.isConstant (h : DefinesAlike S d d') (hid : id ∈ S) : d'.isConstant id = d.isConstant id := by
  rw [Declarations.isConstant, Declarations.isConstant, opcode?, opcode?, h.definition? id hid]

theorem DefinesAlike.fold (h : DefinesAlike S d d') (hid : id ∈ S) : d'.fold id = d.fold id := by
  rw [Declarations.fold, Declarations.fold, h.definition? id hid, h.valueType? hid]

theorem DefinesAlike.foldOperand (h : DefinesAlike S d d') (hi : i.KeepsTo S) (index : Nat) :
    (i.operand? index).map d'.fold = (i.operand? index).map d.fold := by
  cases hid : i.operand? index with
  | none => rfl
  | some id => rw [Option.map_some, Option.map_some, h.fold (hi.operand hid)]

theorem DefinesAlike.equalSemantics (h : DefinesAlike S d d') (hi : i.KeepsTo S) :
    d'.equalSemantics i = d.equalSemantics i := by
  rw [Declarations.equalSemantics, Declarations.equalSemantics, h.foldOperand hi]

/-- What an instruction goes on to do with an operand is the same, if it is for the ids of the set. -/
theorem required_bind_congr {α : Type} {subject : Subject} {f f' : Word → Except Violation α}
    (hi : i.KeepsTo S) (hf : ∀ id ∈ S, f' id = f id) :
    (i.required index subject >>= f') = (i.required index subject >>= f) := by
  cases hid : i.required index subject with
  | error v => rfl
  | ok id => exact hf id (hi.operand (Instruction.required_eq_ok_iff.mp hid))

theorem DefinesAlike.pointee (h : DefinesAlike S d d') (hi : i.KeepsTo S) : d'.pointee i = d.pointee i :=
  required_bind_congr hi fun id hid => by rw [h.valueType? hid]

/-- The type that the pointer of an atomic points to is in the set. -/
theorem mem_of_pointee {t : Id} (h : d.RefersTo S) (ht : d.pointee i = .ok t) : t ∈ S := by
  obtain ⟨id, -, ht⟩ := Except.bind_eq_ok_iff.mp ht
  split at ht
  next storageClass t' hvalue =>
    obtain rfl := Except.pure_eq_ok_iff.mp ht
    obtain ⟨typeId, -, htype⟩ := Option.bind_eq_some_iff.mp hvalue
    exact h.pointee typeId storageClass t' htype
  · cases ht

theorem DefinesAlike.checkNamedBarrier (h : DefinesAlike S d d') (hi : i.KeepsTo S) :
    d'.checkNamedBarrier i = d.checkNamedBarrier i :=
  required_bind_congr hi fun id hid => by rw [h.definition? id hid]

/-! ## Checks -/

theorem AgreesOn.enables (h : AgreesOn S d d') (cs : List Capability) : d'.enables cs = d.enables cs := by
  simp only [Declarations.enables, hasAny, h.has]

theorem AgreesOn.strict (h : AgreesOn S d d') : d'.strict = d.strict := by
  simp only [Declarations.strict, h.isVulkan, h.memoryModel?]

theorem AgreesOn.constantOperand (h : AgreesOn S d d') (hi : i.KeepsTo S) (subject : Subject)
    (area : ConstantArea) :
    d'.constantOperand i index subject area = d.constantOperand i index subject area :=
  required_bind_congr hi fun id hid => by
    simp only [h.fold hid, runtimeFaults, h.isConstant hid, h.has]

theorem AgreesOn.scopeOperand (h : AgreesOn S d d') (hi : i.KeepsTo S) (subject : Subject) :
    d'.scopeOperand i index subject = d.scopeOperand i index subject := by
  simp only [Declarations.scopeOperand, h.constantOperand hi, h.enables]

theorem AgreesOn.checkExecutionScope (h : AgreesOn S d d') (hi : i.KeepsTo S) :
    d'.checkExecutionScope i index = d.checkExecutionScope i index := by
  simp only [Declarations.checkExecutionScope, executionScopeFaults, h.scopeOperand hi, h.isVulkan]

theorem AgreesOn.checkMemoryScope (h : AgreesOn S d d') (hi : i.KeepsTo S) :
    d'.checkMemoryScope i index = d.checkMemoryScope i index := by
  simp only [Declarations.checkMemoryScope, memoryScopeFaults, h.scopeOperand hi, h.isVulkan, h.has]

theorem AgreesOn.valueFaults (h : AgreesOn S d d') (op : Opcode) (value : Semantics) :
    d'.valueFaults op value = d.valueFaults op value := by
  simp only [Declarations.valueFaults, flagFault, h.strict, h.enables]

theorem AgreesOn.unequalFaults (h : AgreesOn S d d') (equal unequal : Semantics) :
    d'.unequalFaults equal unequal = d.unequalFaults equal unequal := by
  simp only [Declarations.unequalFaults, h.strict]

theorem AgreesOn.invocationFault (h : AgreesOn S d d') (hi : i.KeepsTo S) (value : Semantics) :
    d'.invocationFault i scopeIndex value = d.invocationFault i scopeIndex value := by
  simp only [Declarations.invocationFault, h.strict, h.foldOperand hi]

theorem AgreesOn.semanticsFaults (h : AgreesOn S d d') (hi : i.KeepsTo S) (value : Semantics) :
    d'.semanticsFaults i index scopeIndex value = d.semanticsFaults i index scopeIndex value := by
  rw [Declarations.semanticsFaults, Declarations.semanticsFaults, h.valueFaults, h.unequalFaults,
    h.equalSemantics hi, h.invocationFault hi]

theorem AgreesOn.checkSemantics (h : AgreesOn S d d') (hi : i.KeepsTo S) :
    d'.checkSemantics i index scopeIndex = d.checkSemantics i index scopeIndex := by
  simp only [Declarations.checkSemantics, h.constantOperand hi, h.semanticsFaults hi]

theorem AgreesOn.checkScalar (h : AgreesOn S d d') (hi : i.KeepsTo S) (scalar : ScalarClass) {pointee : Id}
    (hpointee : pointee ∈ S) : d'.checkScalar i scalar pointee = d.checkScalar i scalar pointee := by
  have htype : i.resultType?.getD pointee ∈ S := by
    cases hid : i.resultType? with
    | none => exact hpointee
    | some id => exact hi.resultType hid
  simp only [Declarations.checkScalar, h.type? htype, h.has]

theorem AgreesOn.checkAtomic (h : AgreesOn S d d') (hi : i.KeepsTo S) : d'.checkAtomic i = d.checkAtomic i := by
  rw [Declarations.checkAtomic, Declarations.checkAtomic, h.pointee hi]
  cases hpointee : d.pointee i with
  | error v => rfl
  | ok pointee =>
    simp only [Except.ok_bind, h.checkScalar hi _ (mem_of_pointee h.refersTo hpointee), checkAtomicSemantics,
      h.checkMemoryScope hi, h.checkSemantics hi]

theorem AgreesOn.checkEffect (h : AgreesOn S d d') (hi : i.KeepsTo S) : d'.checkEffect i = d.checkEffect i := by
  simp only [Declarations.checkEffect, checkFirstMemoryModel, checkControlBarrier, checkMemoryBarrier,
    checkMemoryNamedBarrier, h.checkNamedBarrier hi, h.memoryModelCount, h.checkExecutionScope hi,
    h.checkMemoryScope hi, h.checkSemantics hi, h.checkAtomic hi]

theorem AgreesOn.checkGate (h : AgreesOn S d d') : d'.checkGate i = d.checkGate i := by
  funext g
  simp only [Declarations.checkGate, h.enables]

theorem AgreesOn.check (h : AgreesOn S d d') (hi : i.KeepsTo S) : d'.check i = d.check i := by
  simp only [Declarations.check, checkOpcode, checkGates, h.enables, h.checkGate, h.checkEffect hi]

theorem AgreesOn.checkEnd (h : AgreesOn S d d') : d'.checkEnd = d.checkEnd := by
  simp only [Declarations.checkEnd, h.memoryModelCount, h.memoryModel?, h.has]

/-! ## Walks -/

theorem SameModels.registerOrSkip (h : d.SameModels d') :
    (d.registerOrSkip i).SameModels (d'.registerOrSkip i) := by
  by_cases hi : i.Registrable
  · have hr := registerOrSkip_registers (d := d) hi
    have hr' := registerOrSkip_registers (d := d') hi
    exact ⟨by rw [hr.memoryModel?, hr'.memoryModel?, h.memoryModel?],
      by rw [hr.memoryModelCount, hr'.memoryModelCount, h.memoryModelCount]⟩
  · rwa [registerOrSkip_of_not_registrable hi, registerOrSkip_of_not_registrable hi]

theorem sameModels_registerOrSkip (hop : i.opcode ≠ .opMemoryModel) : d.SameModels (d.registerOrSkip i) :=
  registerOrSkip_induction
    (fun _ hr => ⟨hr.memoryModel?.trans (if_neg hop), hr.memoryModelCount.trans (by rw [if_neg hop]; rfl)⟩)
    ⟨rfl, rfl⟩

theorem definition?_registerOrSkip_eq (h : d'.definition? id = d.definition? id) :
    (d'.registerOrSkip i).definition? id = (d.registerOrSkip i).definition? id := by
  by_cases hi : i.Registrable
  · rw [(registerOrSkip_registers hi).definition?, (registerOrSkip_registers hi).definition?, h]
  · rwa [registerOrSkip_of_not_registrable hi, registerOrSkip_of_not_registrable hi]

/-- A definition was there before, or is that of the registered instruction. -/
theorem definition?_registerOrSkip_eq_some {x : Definition} (h : (d.registerOrSkip i).definition? id = some x) :
    d.definition? id = some x ∨ x = .ofInstruction i := by
  by_cases hi : i.Registrable
  · rw [(registerOrSkip_registers hi).definition?, Option.or_eq_some_iff] at h
    rcases h with h | ⟨-, h⟩
    · exact .inl h
    · obtain ⟨-, h⟩ := Option.ite_none_right_eq_some.mp h
      exact .inr (Option.some.inj h).symm
  · rw [registerOrSkip_of_not_registrable hi] at h
    exact .inl h

/-- The type that a pointer type points to is its second operand. -/
theorem operand?_of_pointer {storageClass t : Id} (h : DeclaredType.ofInstruction? i = some (.pointer storageClass t)) :
    i.operand? 1 = some t := by
  unfold DeclaredType.ofInstruction? at h
  split at h
  case h_5 =>
    obtain ⟨_, -, h⟩ := Option.bind_eq_some_iff.mp h
    obtain ⟨_, ht, h⟩ := Option.bind_eq_some_iff.mp h
    cases h
    exact ht
  all_goals simp [Option.bind_eq_some_iff] at h

theorem RefersTo.registerOrSkip (h : d.RefersTo S) (hi : i.KeepsTo S) : (d.registerOrSkip i).RefersTo S where
  resultType id t ht := by
    obtain ⟨x, hx, ht⟩ := Option.bind_eq_some_iff.mp ht
    rcases definition?_registerOrSkip_eq_some hx with hx | rfl
    · exact h.resultType id t (Option.bind_eq_some_iff.mpr ⟨x, hx, ht⟩)
    · exact hi.resultType ht
  pointee id storageClass t ht := by
    obtain ⟨x, hx, ht⟩ := Option.bind_eq_some_iff.mp ht
    rcases definition?_registerOrSkip_eq_some hx with hx | rfl
    · exact h.pointee id storageClass t (Option.bind_eq_some_iff.mpr ⟨x, hx, ht⟩)
    · exact hi.operand (operand?_of_pointer ht)

theorem RefersTo.registerEach (h : d.RefersTo S) (his : ∀ i ∈ is, i.KeepsTo S) : (d.registerEach is).RefersTo S := by
  induction is generalizing d with
  | nil => exact h
  | cons i is ih =>
    obtain ⟨hi, his⟩ := List.forall_mem_cons.mp his
    exact ih (h.registerOrSkip hi) his

theorem refersTo_initial (env : Environment) (S : Set Id) : (initial env).RefersTo S where
  resultType _ _ h := by cases h
  pointee _ _ _ h := by cases h

theorem AgreesOn.registerOrSkip (h : AgreesOn S d d') (hi : i.KeepsTo S) :
    AgreesOn S (d.registerOrSkip i) (d'.registerOrSkip i) where
  toSameModels := h.toSameModels.registerOrSkip
  definition? id hid := definition?_registerOrSkip_eq (h.definition? id hid)
  refersTo := h.refersTo.registerOrSkip hi
  has := funext fun c => by rw [Bool.eq_iff_iff, has_registerOrSkip, has_registerOrSkip, h.has]
  isVulkan := by rw [environment_registerOrSkip, environment_registerOrSkip, h.isVulkan]

/-- What an instruction that cannot be registered is rejected for does not depend on what is declared. -/
theorem register_eq_error {v : Violation} (h : d.register i = .error v) (d' : Declarations) :
    d'.register i = .error v := by
  simp only [register, registerDeclaration] at h ⊢
  split at h
  · cases hc : i.required 0 .capability with
    | error e => rw [hc] at h; exact h
    | ok code => rw [hc] at h; cases h
  · cases hn : i.string 0 with
    | error e => rw [hn] at h; exact h
    | ok name => rw [hn] at h; cases h
  · cases ha : i.required 0 .addressingModel with
    | error e => rw [ha] at h; exact h
    | ok addressing =>
      cases hm : i.required 1 .memoryModel with
      | error e => rw [ha, hm] at h; exact h
      | ok memory => rw [ha, hm] at h; cases h
  · cases h

/-- **Walks in agreement end alike**, with the same violation if they end early, and with the same
verdict on the end of the module if they do not. -/
theorem AgreesOn.run (h : AgreesOn S d d') (his : ∀ i ∈ is, i.KeepsTo S) :
    (d'.run is >>= Declarations.checkEnd) = (d.run is >>= Declarations.checkEnd) := by
  induction is generalizing d d' with
  | nil => exact h.checkEnd
  | cons i is ih =>
    obtain ⟨hkeeps, his⟩ := List.forall_mem_cons.mp his
    rw [run_cons, run_cons, step, step]
    cases hd : d.register i with
    | error v => rw [register_eq_error hd d']
    | ok d₁ =>
      obtain ⟨hi, rfl⟩ := register_eq_ok_iff.mp hd
      have h₁ : AgreesOn S (d.registerOrSkip i) (d'.registerOrSkip i) := h.registerOrSkip hkeeps
      rw [register_eq_ok_iff.mpr ⟨hi, rfl⟩, Except.ok_bind, Except.ok_bind, h₁.check hkeeps]
      cases (d.registerOrSkip i).check i with
      | error v => rfl
      | ok => exact ih h₁ his

end Declarations

end SpirvAudit
