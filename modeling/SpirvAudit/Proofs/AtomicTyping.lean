/-
The types that atomics work on.

An atomic is checked in a fixed order: its pointer, the type it works on, its
memory scope, and its semantics (`Declarations.atomicRequirements`). What is
required of the type is written here by the families of opcodes
(`Opcode.WorksOn`). The check enforces the list, so an atomic is accepted
exactly if its pointer points somewhere, its type fits, and the checks of its
scope and its semantics accept; otherwise the first of these that fails is told
of (`checkAtomic_exact`).
-/
import SpirvAudit.Proofs.Requirements
import SpirvAudit.Sync.Atomic

namespace SpirvAudit

theorem DeclaredType.any_isIntOfWidth_iff {type? : Option DeclaredType} {width : Word} :
    type?.any (·.isIntOfWidth width) = true ↔ ∃ signed, type? = some (.int width signed) := by
  cases type? <;> simp [DeclaredType.isIntOfWidth_iff]

namespace Opcode

variable {op : Opcode} {type? : Option DeclaredType} {scalar : ScalarClass}

/-! ## Families -/

/-- The atomics that work on ints alone: the exchanges after a comparison, and what modifies an int. -/
def intAtomics : List Opcode := [
  .opAtomicCompareExchange, .opAtomicCompareExchangeWeak, .opAtomicIIncrement, .opAtomicIDecrement,
  .opAtomicIAdd, .opAtomicISub, .opAtomicSMin, .opAtomicUMin, .opAtomicSMax, .opAtomicUMax, .opAtomicAnd,
  .opAtomicOr, .opAtomicXor]

/-- The atomics that move a number and do not look into it. -/
def numberAtomics : List Opcode := [.opAtomicLoad, .opAtomicStore, .opAtomicExchange]

/-- The atomics that work on floats alone. -/
def floatAtomics : List Opcode := [.opAtomicFAddEXT, .opAtomicFMinEXT, .opAtomicFMaxEXT]

/-- The type, if there is one, is a scalar type that atomics of the family of this opcode work on. -/
structure WorksOn (op : Opcode) (type? : Option DeclaredType) : Prop where
  int : op ∈ intAtomics → ∃ width signed, type? = some (.int width signed)
  number : op ∈ numberAtomics →
    (∃ width signed, type? = some (.int width signed)) ∨ ∃ width, type? = some (.float width)
  float : op ∈ floatAtomics → ∃ width, type? = some (.float width)
  bool : op = .opAtomicFlagTestAndSet → type? = some .bool

theorem mem_intAtomics_iff : op ∈ intAtomics ↔ op.scalarClass? = some .int := by
  cases op <;> decide

theorem mem_numberAtomics_iff : op ∈ numberAtomics ↔ op.scalarClass? = some .intOrFloat := by
  cases op <;> decide

theorem mem_floatAtomics_iff : op ∈ floatAtomics ↔ op.scalarClass? = some .float := by
  cases op <;> decide

theorem eq_opAtomicFlagTestAndSet_iff : op = .opAtomicFlagTestAndSet ↔ op.scalarClass? = some .bool := by
  cases op <;> decide

/-- Only a flag that is cleared may have any type. -/
theorem eq_opAtomicFlagClear_iff (h : op.isAtomic = true) : op = .opAtomicFlagClear ↔ op.scalarClass? = none := by
  cases op <;> first | decide | cases h

theorem worksOn_iff (h : op.scalarClass? = some scalar) : op.WorksOn type? ↔ type?.any scalar.accepts = true := by
  have hint : type?.any ScalarClass.int.accepts = true ↔ ∃ width signed, type? = some (.int width signed) := by
    rcases type? with _ | (_ | _ | _ | _ | _ | _) <;> simp [ScalarClass.accepts, DeclaredType.isInt]
  have hfloat : type?.any ScalarClass.float.accepts = true ↔ ∃ width, type? = some (.float width) := by
    rcases type? with _ | (_ | _ | _ | _ | _ | _) <;> simp [ScalarClass.accepts, DeclaredType.isFloat]
  have hnumber : type?.any ScalarClass.intOrFloat.accepts = true ↔
      (∃ width signed, type? = some (.int width signed)) ∨ ∃ width, type? = some (.float width) := by
    rcases type? with _ | (_ | _ | _ | _ | _ | _) <;>
      simp [ScalarClass.accepts, DeclaredType.isInt, DeclaredType.isFloat]
  have hbool : type?.any ScalarClass.bool.accepts = true ↔ type? = some .bool := by
    rcases type? with _ | (_ | _ | _ | _ | _ | _) <;> simp [ScalarClass.accepts]
  constructor
  · intro hworks
    cases scalar with
    | int => exact hint.mpr (hworks.int (mem_intAtomics_iff.mpr h))
    | float => exact hfloat.mpr (hworks.float (mem_floatAtomics_iff.mpr h))
    | intOrFloat => exact hnumber.mpr (hworks.number (mem_numberAtomics_iff.mpr h))
    | bool => exact hbool.mpr (hworks.bool (eq_opAtomicFlagTestAndSet_iff.mpr h))
  · intro htype
    have hclass : ∀ {c}, op.scalarClass? = some c → scalar = c := fun hc => Option.some.inj (h.symm.trans hc)
    refine ⟨fun hop => ?_, fun hop => ?_, fun hop => ?_, fun hop => ?_⟩
    · obtain rfl := hclass (mem_intAtomics_iff.mp hop)
      exact hint.mp htype
    · obtain rfl := hclass (mem_numberAtomics_iff.mp hop)
      exact hnumber.mp htype
    · obtain rfl := hclass (mem_floatAtomics_iff.mp hop)
      exact hfloat.mp htype
    · obtain rfl := hclass (eq_opAtomicFlagTestAndSet_iff.mp hop)
      exact hbool.mp htype

end Opcode

namespace Instruction

/-- The type an atomic works on: that of its result, or without one the type that its pointer points to. The
type of a flag that is cleared is not looked at. -/
def dataType? (i : Instruction) (pointee : Id) : Option Id :=
  if i.opcode = .opAtomicFlagClear then none else some (i.resultType?.getD pointee)

theorem dataType?_of_scalarClass? {i : Instruction} {scalar : ScalarClass} {pointee : Id}
    (h : i.opcode.scalarClass? = some scalar) : i.dataType? pointee = some (i.resultType?.getD pointee) := by
  refine if_neg fun hop => ?_
  rw [hop] at h
  cases h

/-- What a problem with the type is about. -/
def dataSubject (i : Instruction) : Subject := if i.resultType?.isSome then .resultType else .pointer

end Instruction

namespace Declarations

variable {d : Declarations} {i : Instruction} {pointee : Id} {scalar : ScalarClass}

/-! ## Requirements -/

/-- The first operand is a pointer to this type. -/
def PointsTo (d : Declarations) (i : Instruction) (pointee : Id) : Prop :=
  ∃ pointer storageClass, i.operand? 0 = some pointer ∧ d.valueType? pointer = some (.pointer storageClass pointee)

/-- The type that is worked on, if there is one, fits the opcode and a pointer to this type. -/
structure FitsPointee (d : Declarations) (i : Instruction) (pointee : Id) : Prop where
  worksOn : ∀ type, i.dataType? pointee = some type → i.opcode.WorksOn (d.type? type)
  eq_pointee : ∀ type, i.dataType? pointee = some type →
    i.resultType?.isSome = true → i.opcode ≠ .opAtomicFlagTestAndSet → type = pointee
  int64 : ∀ type, i.dataType? pointee = some type →
    (∃ signed, d.type? type = some (.int 64 signed)) → d.has .int64Atomics = true

/-- What is required of the pointer. -/
def pointerRequirements (d : Declarations) (i : Instruction) : List Requirement := [
  .lest i .pointer .missing (∃ pointer, i.operand? 0 = some pointer),
  .lest i .pointer .notPointer (∃ pointee, d.PointsTo i pointee)]

/-- The type is one that atomics of this family work on. -/
def familyRequirement (d : Declarations) (i : Instruction) : Requirement where
  met := ∀ pointee, d.PointsTo i pointee → ∀ type, i.dataType? pointee = some type →
    i.opcode.WorksOn (d.type? type)
  told v := ∃ scalar, i.opcode.scalarClass? = some scalar ∧ v = i.violation i.dataSubject (.notScalar scalar)

/-- The pointer points to the type of the result. That of a test is no matter of the flag that is tested. -/
def pointeeRequirement (d : Declarations) (i : Instruction) : Requirement :=
  .lest i .pointer .pointeeMismatch
    (∀ pointee, d.PointsTo i pointee → ∀ type, i.dataType? pointee = some type →
      i.resultType?.isSome = true → i.opcode ≠ .opAtomicFlagTestAndSet → type = pointee)

/-- An int of 64 bits is enabled. -/
def widthRequirement (d : Declarations) (i : Instruction) : Requirement :=
  .lest i i.dataSubject .int64NotEnabled
    (∀ pointee, d.PointsTo i pointee → ∀ type, i.dataType? pointee = some type →
      (∃ signed, d.type? type = some (.int 64 signed)) → d.has .int64Atomics = true)

/-- What is required of the type that is worked on. -/
def dataRequirements (d : Declarations) (i : Instruction) : List Requirement :=
  [d.familyRequirement i, d.pointeeRequirement i, d.widthRequirement i]

/-- What is required of the scope and of the semantics. A compare-exchange has two of the latter. -/
def orderRequirements (d : Declarations) (i : Instruction) : List Requirement :=
  [.accepts (d.checkMemoryScope i 1), .accepts (d.checkSemantics i 2 1)] ++
    if i.opcode ∈ Opcode.compareExchanges then [.accepts (d.checkSemantics i 3 1)] else []

/-- What is required of an atomic, in the order in which it is looked at. -/
def atomicRequirements (d : Declarations) (i : Instruction) : List Requirement :=
  d.pointerRequirements i ++ d.dataRequirements i ++ d.orderRequirements i

/-! ## The checks enforce the requirements -/

theorem PointsTo.unique {pointee' : Id} (h : d.PointsTo i pointee) (h' : d.PointsTo i pointee') :
    pointee' = pointee := by
  obtain ⟨pointer, storageClass, hid, htype⟩ := h
  obtain ⟨pointer', storageClass', hid', htype'⟩ := h'
  obtain rfl := Option.some.inj (hid.symm.trans hid')
  have heq := htype.symm.trans htype'
  simp only [Option.some.injEq, DeclaredType.pointer.injEq] at heq
  exact heq.2.symm

theorem pointsTo_of_pointee (h : d.pointee i = .ok pointee) : d.PointsTo i pointee := by
  obtain ⟨pointer, hid, h⟩ := Except.bind_eq_ok_iff.mp h
  split at h
  next storageClass p htype =>
    obtain rfl := Except.pure_eq_ok_iff.mp h
    exact ⟨pointer, storageClass, Instruction.required_eq_ok_iff.mp hid, htype⟩
  · cases h

theorem pointee_enforces : Enforces (d.pointee i) (d.pointerRequirements i) := by
  rw [Declarations.pointee, Instruction.required]
  cases hid : i.operand? 0 with
  | none => exact .unmet (by simp [Requirement.lest, hid]) rfl
  | some pointer =>
    refine .met ⟨pointer, hid⟩ ?_
    rw [Except.ok_bind]
    split
    next storageClass pointee htype => exact .met ⟨pointee, pointer, storageClass, hid, htype⟩ (.done pointee)
    next hother =>
      refine .unmet ?_ rfl
      rintro ⟨pointee, pointer', storageClass, hid', htype⟩
      obtain rfl := Option.some.inj (hid.symm.trans hid')
      exact hother storageClass pointee htype

/-- The pointer points to one type, so what is required of any is required of that one. -/
theorem PointsTo.forall_iff {P : Id → Prop} (h : d.PointsTo i pointee) :
    (∀ p, d.PointsTo i p → P p) ↔ P pointee := by
  constructor
  · intro hall
    exact hall pointee h
  · intro hP p hp
    obtain rfl := h.unique hp
    exact hP

theorem forall_dataType?_iff {P : Id → Id → Prop} (hpointee : d.PointsTo i pointee)
    (hscalar : i.opcode.scalarClass? = some scalar) :
    (∀ p, d.PointsTo i p → ∀ type, i.dataType? p = some type → P p type) ↔
      P pointee (i.resultType?.getD pointee) := by
  rw [hpointee.forall_iff, Instruction.dataType?_of_scalarClass? hscalar]
  simp

theorem checkScalar_enforces (hpointee : d.PointsTo i pointee) (hscalar : i.opcode.scalarClass? = some scalar) :
    Enforces (d.checkScalar i scalar pointee) (d.dataRequirements i) := by
  let type? := d.type? (i.resultType?.getD pointee)
  have hfamily : Enforces (i.judge i.dataSubject [⟨!type?.any scalar.accepts, .notScalar scalar⟩])
      [d.familyRequirement i] := by
    refine .judge_cons ((forall_dataType?_iff hpointee hscalar).trans ?_) ⟨scalar, hscalar, rfl⟩ .judge_nil
    rw [Opcode.worksOn_iff hscalar, Bool.not_eq_false']
  have hpoints : Enforces (i.judge .pointer
      [⟨i.resultType?.getD pointee != pointee && scalar != .bool, .pointeeMismatch⟩])
      [d.pointeeRequirement i] := by
    have hbool : scalar = .bool ↔ i.opcode = .opAtomicFlagTestAndSet := by
      rw [Opcode.eq_opAtomicFlagTestAndSet_iff, hscalar, Option.some.injEq]
    refine .judge_cons ((forall_dataType?_iff hpointee hscalar).trans ?_) rfl .judge_nil
    cases i.resultType? with
    | none => simp
    | some t => simp [← hbool, Decidable.imp_iff_not_or, or_comm]
  have hwidth : Enforces (i.judge i.dataSubject
      [⟨type?.any (·.isIntOfWidth 64) && !d.has .int64Atomics, .int64NotEnabled⟩])
      [d.widthRequirement i] := by
    refine .judge_cons ((forall_dataType?_iff hpointee hscalar).trans ?_) rfl .judge_nil
    rw [← DeclaredType.any_isIntOfWidth_iff, Bool.and_eq_false_imp, Bool.not_eq_false']
  exact hfamily.bind fun _ _ => hpoints.bind fun _ _ => hwidth

theorem checkAtomicSemantics_enforces : Enforces (d.checkAtomicSemantics i) ([.accepts (d.checkSemantics i 2 1)] ++
    if i.opcode ∈ Opcode.compareExchanges then [.accepts (d.checkSemantics i 3 1)] else []) := by
  have hunequal : Enforces (if i.opcode.isCompareExchange then d.checkSemantics i 3 1 else pure ())
      (if i.opcode ∈ Opcode.compareExchanges then [.accepts (d.checkSemantics i 3 1)] else []) := by
    simp only [Opcode.mem_compareExchanges_iff]
    split
    · exact .accepts _
    · exact .done ()
  exact (Enforces.accepts _).bind fun _ _ => hunequal

theorem checkAtomic_enforces (hatomic : i.opcode.isAtomic = true) :
    Enforces (d.checkAtomic i) (d.atomicRequirements i) := by
  rw [atomicRequirements, List.append_assoc]
  refine pointee_enforces.bind fun pointee hpointee => ?_
  have hpoints := pointsTo_of_pointee hpointee
  have hscalar : Enforces (i.opcode.scalarClass?.forM fun scalar => d.checkScalar i scalar pointee)
      (d.dataRequirements i) := by
    cases hclass : i.opcode.scalarClass? with
    | some scalar => exact checkScalar_enforces hpoints hclass
    | none =>
      have hop := (Opcode.eq_opAtomicFlagClear_iff hatomic).mpr hclass
      refine .of_forall_met () ?_
      simp [dataRequirements, familyRequirement, pointeeRequirement, widthRequirement, Requirement.lest,
        Instruction.dataType?, hop]
  exact hscalar.bind fun _ _ => (Enforces.accepts _).bind fun _ _ => checkAtomicSemantics_enforces

/-! ## Accepted atomics -/

theorem forall_met_orderRequirements_iff : (∀ r ∈ d.orderRequirements i, r.met) ↔
    d.checkMemoryScope i 1 = .ok () ∧ d.checkSemantics i 2 1 = .ok () ∧
      (i.opcode ∈ Opcode.compareExchanges → d.checkSemantics i 3 1 = .ok ()) := by
  simp only [orderRequirements, List.forall_mem_append, List.forall_mem_cons, Requirement.accepts, and_assoc]
  split
  next hexchange => simp [hexchange]
  next hexchange => simp [hexchange]

theorem forall_met_atomicRequirements_iff : (∀ r ∈ d.atomicRequirements i, r.met) ↔
    ∃ pointee, d.PointsTo i pointee ∧ d.FitsPointee i pointee ∧ ∀ r ∈ d.orderRequirements i, r.met := by
  simp only [atomicRequirements, pointerRequirements, dataRequirements, List.forall_mem_append, List.forall_mem_cons,
    List.not_mem_nil, false_imp_iff, implies_true, and_true]
  constructor
  · intro h
    obtain ⟨⟨⟨-, pointee, hpointee⟩, hfamily, hmatches, hwidth⟩, horder⟩ := h
    have hfits : d.FitsPointee i pointee :=
      ⟨hpointee.forall_iff.mp hfamily, hpointee.forall_iff.mp hmatches, hpointee.forall_iff.mp hwidth⟩
    exact ⟨pointee, hpointee, hfits, horder⟩
  · intro h
    obtain ⟨pointee, hpointee, hfits, horder⟩ := h
    have hpointer : ∃ pointer, i.operand? 0 = some pointer := hpointee.imp fun _ h => h.choose_spec.1
    have hfamily : (d.familyRequirement i).met := hpointee.forall_iff.mpr hfits.worksOn
    have hmatches : (d.pointeeRequirement i).met := hpointee.forall_iff.mpr hfits.eq_pointee
    have hwidth : (d.widthRequirement i).met := hpointee.forall_iff.mpr hfits.int64
    exact ⟨⟨⟨hpointer, pointee, hpointee⟩, hfamily, hmatches, hwidth⟩, horder⟩

/-- **The atomics that are accepted, and what is told of the others.** Whatever is declared, an atomic is
accepted if and only if its first operand is a pointer; the type it works on, if it works on one, is of the
family for its opcode, is the type pointed to if it is that of a result other than of a test, and needs no
capability that is not declared; and the checks of its scope and its semantics accept. One that is not
accepted is told of for the first of these that fails, in this order. -/
theorem checkAtomic_exact (hatomic : i.opcode.isAtomic = true) :
    (d.checkAtomic i = .ok () ↔ ∃ pointee, d.PointsTo i pointee ∧ d.FitsPointee i pointee ∧
      d.checkMemoryScope i 1 = .ok () ∧ d.checkSemantics i 2 1 = .ok () ∧
      (i.opcode ∈ Opcode.compareExchanges → d.checkSemantics i 3 1 = .ok ())) ∧
    ∀ earlier r later, d.atomicRequirements i = earlier ++ r :: later →
      (∀ q ∈ earlier, q.met) → ¬ r.met → ∃ v, d.checkAtomic i = .error v ∧ r.told v := by
  refine ⟨?_, fun _ _ _ => (checkAtomic_enforces hatomic).error_of_first⟩
  rw [(checkAtomic_enforces hatomic).eq_ok_iff, forall_met_atomicRequirements_iff, forall_met_orderRequirements_iff]

/-- Declares a variable of an int of 64 bits, but not the capability for atomics on it. -/
def wide : Declarations where
  environment := default
  capabilities := [.kernel, .int64]
  definitions := [
    (1, .ofInstruction ⟨.opTypeInt, none, some 1, [64, 0]⟩),
    (2, .ofInstruction ⟨.opTypePointer, none, some 2, [7, 1]⟩),
    (3, .ofInstruction ⟨.opVariable, some 2, some 3, [7]⟩),
    (4, .ofInstruction ⟨.opTypeInt, none, some 4, [32, 0]⟩),
    (5, .ofInstruction ⟨.opConstant, some 4, some 5, [2]⟩),
    (6, .ofInstruction ⟨.opConstant, some 4, some 6, [0]⟩)]

/-- An addition whose scope and semantics are not even defined is told of for its type. -/
theorem checkAtomic_exact_wide : ∃ v, wide.checkAtomic ⟨.opAtomicIAdd, some 1, some 7, [3, 8, 8, 8]⟩ = .error v ∧
    v.diagnostic.rule = "SPIRV-Atomic-Int64" := by
  let i : Instruction := ⟨.opAtomicIAdd, some 1, some 7, [3, 8, 8, 8]⟩
  have hpointee : wide.PointsTo i 1 := ⟨3, 7, rfl, by decide⟩
  have htype : wide.type? 1 = some (.int 64 false) := by decide
  have hearlier :
      ∀ q ∈ wide.pointerRequirements i ++ [wide.familyRequirement i, wide.pointeeRequirement i], q.met := by
    rw [pointerRequirements]
    simp only [List.forall_mem_append, List.forall_mem_cons, List.not_mem_nil, false_imp_iff, implies_true, and_true]
    refine ⟨⟨⟨3, rfl⟩, 1, hpointee⟩, hpointee.forall_iff.mpr ?_, hpointee.forall_iff.mpr ?_⟩
    · rintro type ⟨⟩
      exact (Opcode.worksOn_iff rfl).mpr (by decide)
    · rintro type ⟨⟩ - -
      rfl
  have hwidth : ¬ (wide.widthRequirement i).met := fun h =>
    absurd (h 1 hpointee 1 rfl ⟨false, htype⟩) (by decide)
  obtain ⟨v, hv, rfl⟩ := (@checkAtomic_exact wide i rfl).2 _ _ (wide.orderRequirements i) rfl hearlier hwidth
  exact ⟨_, hv, rfl⟩

/-- A flag that is cleared is accepted whatever its type is: it may be an int of 64 bits without the capability
for those, and the type of a result, which no decoded instruction of this opcode has, need not be its own. -/
theorem not_forall_checkAtomic_fits :
    (¬ ∀ (d : Declarations) (i : Instruction) (pointee : Id), i.opcode.isAtomic = true → d.checkAtomic i = .ok () →
      d.PointsTo i pointee → (∃ signed, d.type? (i.resultType?.getD pointee) = some (.int 64 signed)) →
      d.has .int64Atomics = true) ∧
    ¬ ∀ (d : Declarations) (i : Instruction) (pointee type : Id), i.opcode.isAtomic = true → d.checkAtomic i = .ok () →
      d.PointsTo i pointee → i.resultType? = some type → i.opcode ≠ .opAtomicFlagTestAndSet → type = pointee := by
  constructor
  · intro h
    let i : Instruction := ⟨.opAtomicFlagClear, none, none, [3, 5, 6]⟩
    have hpointee : wide.PointsTo i 1 := ⟨3, 7, rfl, by decide⟩
    have hok : wide.checkAtomic i = .ok () := by cbv
    exact absurd (h wide i 1 rfl hok hpointee ⟨false, by decide⟩) (by decide)
  · intro h
    let i : Instruction := ⟨.opAtomicFlagClear, some 4, none, [3, 5, 6]⟩
    have hpointee : wide.PointsTo i 1 := ⟨3, 7, rfl, by decide⟩
    have hok : wide.checkAtomic i = .ok () := by cbv
    exact absurd (h wide i 1 4 rfl hok hpointee rfl (by decide)) (by decide)

end Declarations

end SpirvAudit
