/-
The declarations as a function of the history.

Registering is written once more here, on declarations that are changed in
place (`registerInPlace`), where nothing takes back a change that an error
comes after. It does what `register` does, so no error comes after a change.
Hence the declarations are determined by the instructions that were registered,
whether or not each of them could be (`Declarations.DeterminedBy`). Each
component has its own way of growing: extensions add up, the last models count,
and what is recorded of an id is that of the first instruction that defines it.
The capabilities have a module of their own.
-/
import SpirvAudit.Proofs.Definitions
import SpirvAudit.Proofs.Registration

namespace SpirvAudit

namespace Instruction

variable {i : Instruction}

/-- The instruction declares models: it has an operand for each of them. -/
def declaresModels (i : Instruction) : Bool := i.opcode = .opMemoryModel && 2 ≤ i.operands.length

theorem declaresModels_iff : i.declaresModels = true ↔ i.opcode = .opMemoryModel ∧ i.Registrable := by
  simp only [declaresModels, Bool.and_eq_true, decide_eq_true_eq]
  refine and_congr_right fun hop => ?_
  constructor
  · intro h
    exact ⟨by simp [hop], by simp [hop], fun _ => by simp [operand?]; omega⟩
  · intro h
    simpa [operand?, Nat.succ_le_iff] using (h.models hop).2

/-- An extension whose name can be read can be registered. -/
theorem registrable_of_string {name : String} (hop : i.opcode = .opExtension) (h : i.string 0 = .ok name) :
    i.Registrable :=
  ⟨by simp [hop], fun _ => ⟨name, h⟩, by simp [hop]⟩

/-- An instruction that has a result declares nothing else. -/
theorem WellFormed.registrable_of_result? {id : Id} (hi : i.WellFormed) (h : i.result? = some id) :
    i.Registrable := by
  have hresult : i.opcode.hasResult = true := by simpa [h] using hi.result.symm
  refine ⟨fun hop => ?_, fun hop => ?_, fun hop => ?_⟩ <;> (rw [hop] at hresult; cases hresult)

end Instruction

namespace Declarations

variable {env : Environment} {d d' : Declarations} {i : Instruction} {is : List Instruction}

/-! ## Registering in place -/

/-- Records in place what an instruction declares. -/
def registerDeclarationInPlace (i : Instruction) : ExceptT Violation (StateM Declarations) Unit :=
  match i.opcode with
  | .opCapability => do
    let code ← i.required 0 .capability
    if let some c := Capability.ofCode? code.toNat then
      modify fun d => d.declare c
  | .opExtension => do
    let name ← (i.string 0).mapError fun _ => i.violation .name .malformedText
    modify fun d => { d with extensions := name :: d.extensions }
  | .opMemoryModel => do
    let addressing ← i.required 0 .addressingModel
    let memory ← i.required 1 .memoryModel
    modify fun d => { d with addressingModel? := AddressingModel.ofCode? addressing.toNat }
    modify fun d => { d with memoryModel? := MemoryModel.ofCode? memory.toNat }
    modify fun d => { d with memoryModelCount := d.memoryModelCount + 1 }
  | _ => return ()

/-- Records in place what an instruction declares, and then the id it defines. -/
def registerInPlace (i : Instruction) : ExceptT Violation (StateM Declarations) Unit := do
  registerDeclarationInPlace i
  if let some id := i.result? then
    modify fun d => d.define id (.ofInstruction i)

/-- Registers the instructions in place, in their order. An error does not stop this. -/
def registerAll (is : List Instruction) : StateM Declarations Unit :=
  is.forM fun i => discard (registerInPlace i).run

/-- What is left of declarations that are changed in place: the new ones, or after an error the old. -/
def outcome (d : Declarations) : Except Violation Declarations → Except Violation Unit × Declarations
  | .ok d' => (.ok (), d')
  | .error v => (.error v, d)

/-- A change in place does what a function says, and where that fails it changes nothing. -/
def Performs (x : ExceptT Violation (StateM Declarations) Unit) (f : Declarations → Except Violation Declarations) :
    Prop := ∀ d, x.run.run d = d.outcome (f d)

namespace Performs

variable {α : Type} {x y : ExceptT Violation (StateM Declarations) Unit}
  {f : Declarations → Except Violation Declarations} {g : Declarations → Declarations}

theorem pure : Performs (return ()) .ok := fun _ => rfl

theorem modify (g : Declarations → Declarations) : Performs (modify g) fun d => .ok (g d) := fun _ => rfl

/-- Reading may fail, as long as it comes before the changes. -/
theorem read {r : Except Violation α} {x : α → ExceptT Violation (StateM Declarations) Unit}
    {f : α → Declarations → Except Violation Declarations} (h : ∀ a, Performs (x a) (f a)) :
    Performs (do x (← r)) fun d => r >>= fun a => f a d := by
  intro d
  cases r with
  | error v => rfl
  | ok a => exact h a d

/-- What comes after a change must not fail. -/
theorem andThen (hx : Performs x f) (hy : Performs y fun d => .ok (g d)) :
    Performs (do x; y) fun d => return g (← f d) := by
  intro d
  have hrun : (do x; y : ExceptT Violation (StateM Declarations) Unit).run.run d =
      match x.run.run d with
      | (.ok _, d') => y.run.run d'
      | (.error v, d') => (.error v, d') := by
    rw [ExceptT.run_bind, StateT.run_bind]
    rcases x.run.run d with ⟨v | _, d'⟩ <;> rfl
  rw [hrun, hx d]
  beta_reduce
  cases f d with
  | error v => rfl
  | ok d' => exact hy d'

end Performs

theorem performs_registerDeclarationInPlace : Performs (registerDeclarationInPlace i) (registerDeclaration · i) := by
  by_cases hcap : i.opcode = .opCapability
  · simp only [registerDeclarationInPlace, registerDeclaration, hcap]
    refine .read fun code => ?_
    cases Capability.ofCode? code.toNat with
    | none => exact .pure
    | some c => exact .modify (·.declare c)
  by_cases hext : i.opcode = .opExtension
  · simp only [registerDeclarationInPlace, registerDeclaration, hext]
    cases i.string 0 with
    | error e => exact fun _ => rfl
    | ok name => exact .modify _
  by_cases hmodel : i.opcode = .opMemoryModel
  · simp only [registerDeclarationInPlace, registerDeclaration, hmodel]
    exact .read fun addressing => .read fun memory =>
      (Performs.modify _).andThen ((Performs.modify _).andThen (.modify _))
  · simp only [registerDeclarationInPlace, registerDeclaration]
    exact .pure

/-- Registering in place does what registering does. -/
theorem performs_registerInPlace : Performs (registerInPlace i) (register · i) := by
  refine performs_registerDeclarationInPlace.andThen ?_
  cases i.result? with
  | none => exact .pure
  | some id => exact .modify _

/-- Registering in place goes on after an error with the declarations before it. -/
theorem run_registerAll : (registerAll is).run d = ((), d.registerEach is) := by
  induction is generalizing d with
  | nil => rfl
  | cons i is ih =>
    have hstep : (discard (registerInPlace i).run).run d = ((), d.registerOrSkip i) := by
      have hrun : (discard (registerInPlace i).run).run d = ((), ((registerInPlace i).run.run d).2) := rfl
      rw [hrun, performs_registerInPlace d, registerOrSkip]
      beta_reduce
      cases d.register i <;> rfl
    rw [registerEach_cons, ← ih, registerAll, List.forM_eq_forM, List.forM_cons, StateT.run_bind, hstep]
    rfl

/-! ## The history -/

/-- The last instruction that declares models. -/
def lastModels? (is : List Instruction) : Option Instruction := (is.filter (·.declaresModels)).getLast?

theorem lastModels?_concat (is : List Instruction) (i : Instruction) :
    lastModels? (is ++ [i]) = if i.declaresModels then some i else lastModels? is := by
  by_cases hi : i.declaresModels = true <;> simp [lastModels?, hi]

/-- The environment and the instructions determine everything but the capabilities. An id is defined if
an instruction has it as its result, and recorded as what the first such instruction makes it. -/
structure DeterminedBy (d : Declarations) (env : Environment) (is : List Instruction) : Prop where
  environment : d.environment = env
  hasExtension : ∀ name, d.hasExtension name = true ↔
    ∃ i ∈ is, i.opcode = .opExtension ∧ i.string 0 = .ok name
  memoryModelCount : d.memoryModelCount = is.countP (·.declaresModels)
  addressingModel? : d.addressingModel? = (lastModels? is).bind (·.addressingModel?)
  memoryModel? : d.memoryModel? = (lastModels? is).bind (·.memoryModel?)
  definition? : ∀ id, Option.Rel Definition.Records (d.definition? id) (is.find? (·.result? = some id))

/-- What is recorded of an id, as it is made of the instruction. -/
theorem DeterminedBy.definition?_eq (h : d.DeterminedBy env is) (id : Id) :
    d.definition? id = (is.find? (·.result? = some id)).map .ofInstruction :=
  Definition.rel_records_iff.mp (h.definition? id)

theorem determinedBy_initial : (initial env).DeterminedBy env [] :=
  ⟨rfl, by simp [initial, Declarations.hasExtension], rfl, rfl, rfl, fun _ => .none⟩

/-- An instruction that is registered joins those that determine the declarations. -/
theorem DeterminedBy.registers (h : d.DeterminedBy env is) (hr : d.Registers i d') (hreg : i.Registrable) :
    d'.DeterminedBy env (is ++ [i]) := by
  have hmodels : i.declaresModels = true ↔ i.opcode = .opMemoryModel := by
    simp [Instruction.declaresModels_iff, hreg]
  exact {
    environment := hr.environment.trans h.environment
    hasExtension := fun name => by simp [hr.hasExtension, h.hasExtension, or_and_right, exists_or]
    memoryModelCount := by simp [hr.memoryModelCount, h.memoryModelCount, List.countP_cons, hmodels]
    addressingModel? := by
      rw [hr.addressingModel?, h.addressingModel?, lastModels?_concat]
      simp only [hmodels]
      split <;> rfl
    memoryModel? := by
      rw [hr.memoryModel?, h.memoryModel?, lastModels?_concat]
      simp only [hmodels]
      split <;> rfl
    definition? := fun id => by
      rw [Definition.rel_records_iff, hr.definition?, h.definition?_eq, List.find?_append, Option.map_or]
      by_cases hid : i.result? = some id <;> simp [hid] }

/-- So does one that cannot be registered: it has nothing to add. -/
theorem DeterminedBy.skip (h : d.DeterminedBy env is) (hi : i.WellFormed) (hreg : ¬ i.Registrable) :
    d.DeterminedBy env (is ++ [i]) := by
  have hmodels : i.declaresModels = false := by
    simp [← Bool.not_eq_true, Instruction.declaresModels_iff, hreg]
  have hname : ∀ name, ¬ (i.opcode = .opExtension ∧ i.string 0 = .ok name) :=
    fun name hname => hreg (Instruction.registrable_of_string hname.1 hname.2)
  have hresult : ∀ id, i.result? ≠ some id := fun id hid => hreg (hi.registrable_of_result? hid)
  exact {
    environment := h.environment
    hasExtension := fun name => by simp [h.hasExtension, or_and_right, exists_or, hname]
    memoryModelCount := by simp [h.memoryModelCount, hmodels]
    addressingModel? := by rw [h.addressingModel?, lastModels?_concat, hmodels]; rfl
    memoryModel? := by rw [h.memoryModel?, lastModels?_concat, hmodels]; rfl
    definition? := fun id => by simpa [hresult] using h.definition? id }

/-- One more instruction, which may fail, keeps the declarations determined by all of them. -/
theorem DeterminedBy.concat (h : d.DeterminedBy env is) (hi : i.WellFormed) :
    (d.registerOrSkip i).DeterminedBy env (is ++ [i]) := by
  by_cases hreg : i.Registrable
  · exact h.registers (registerOrSkip_registers hreg) hreg
  · rw [registerOrSkip_of_not_registrable hreg]
    exact h.skip hi hreg

/-- After any instructions the declarations are determined by them. -/
theorem determinedBy_registerEach (his : ∀ i ∈ is, i.WellFormed) :
    ((initial env).registerEach is).DeterminedBy env is := by
  induction is using List.reverseRecOn with
  | nil => exact determinedBy_initial
  | append_singleton is i ih =>
    rw [List.forall_mem_append, List.forall_mem_singleton] at his
    rw [registerEach_append]
    exact (ih his.1).concat his.2

/-- A definition stays. -/
theorem definition?_registerEach_of_eq_some {id : Id} {x : Definition} (h : d.definition? id = some x) :
    (d.registerEach is).definition? id = some x := by
  induction is generalizing d with
  | nil => exact h
  | cons i is ih =>
    exact ih (registerOrSkip_induction (P := fun d' => d'.definition? id = some x)
      (fun d' hr => by rw [hr.definition?, h, Option.some_or]) h)

/-- The declarations of an environment after the instructions. -/
def recorded (env : Environment) (is : List Instruction) : Declarations := ((registerAll is).run (initial env)).2

end Declarations

end SpirvAudit
