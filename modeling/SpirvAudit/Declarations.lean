/-
Declarations: what is known of a module at one point of it.

The declarations of a module are built up instruction by instruction, each
registered before it is checked. They only grow: a capability or an extension
stays declared, and the first definition of an id is the one that counts.
Only the models are replaced, by those of the last `OpMemoryModel`. An
instruction that cannot be registered leaves no trace.
-/
import SpirvAudit.Capability.Closure
import SpirvAudit.DeclaredType
import SpirvAudit.Environment
import SpirvAudit.MemoryModel
import SpirvAudit.Violation

namespace SpirvAudit

/-- What is known of a module, and the environment it is meant for. -/
structure Declarations where
  environment : Environment
  /-- The declared capabilities and those they imply. -/
  capabilities : List Capability := []
  extensions : List String := []
  addressingModel? : Option AddressingModel := none
  memoryModel? : Option MemoryModel := none
  /-- How often the models were declared. -/
  memoryModelCount : Nat := 0
  /-- The definitions of the ids, the last one first. No id has two. -/
  definitions : List (Id × Definition) := []
deriving DecidableEq, Repr

namespace Declarations

/-- Nothing is declared yet. -/
def initial (environment : Environment) : Declarations := { environment }

/-! ## Questions -/

def has (d : Declarations) (c : Capability) : Bool := d.capabilities.contains c

/-- Whether one of the capabilities is declared. -/
def hasAny (d : Declarations) (cs : List Capability) : Bool := cs.any d.has

/-- Whether something may be used that depends on these capabilities. -/
def enables (d : Declarations) (cs : List Capability) : Bool := cs.isEmpty || d.hasAny cs

def hasExtension (d : Declarations) (name : String) : Bool := d.extensions.contains name

/-- Whether the rules of Vulkan apply: in its environment, and under its memory model in any. -/
def strict (d : Declarations) : Bool :=
  d.environment.isVulkan || d.memoryModel? == some .vulkan

def definition? (d : Declarations) (id : Id) : Option Definition := d.definitions.lookup id

def opcode? (d : Declarations) (id : Id) : Option Opcode := (d.definition? id).map (·.opcode)

/-- The type an id declares. -/
def type? (d : Declarations) (id : Id) : Option DeclaredType :=
  (d.definition? id).bind (·.type?)

/-- The type of the value an id stands for. -/
def valueType? (d : Declarations) (id : Id) : Option DeclaredType :=
  ((d.definition? id).bind (·.resultType?)).bind d.type?

/-- Whether an id is defined by a constant, be it one chosen at specialization. -/
def isConstant (d : Declarations) (id : Id) : Bool := (d.opcode? id).any (·.isConstant)

/-! ## Growth -/

/-- Records a capability and those it implies. -/
def declare (d : Declarations) (c : Capability) : Declarations :=
  { d with capabilities := c.implied ++ d.capabilities }

/-- Records the definition of an id, unless the id has one. -/
def define (d : Declarations) (id : Id) (x : Definition) : Declarations :=
  match d.definition? id with
  | some _ => d
  | none => { d with definitions := (id, x) :: d.definitions }

/-- Records what an instruction declares. A value that is not known is passed over here. -/
def registerDeclaration (d : Declarations) (i : Instruction) : Except Violation Declarations :=
  match i.opcode with
  | .opCapability => do
    let code ← i.required 0 .capability
    return (Capability.ofCode? code.toNat).elim d d.declare
  | .opExtension =>
    match i.string 0 with
    | .ok name => .ok { d with extensions := name :: d.extensions }
    | .error _ => .error (i.violation .name .malformedText)
  | .opMemoryModel => do
    let addressing ← i.required 0 .addressingModel
    let memory ← i.required 1 .memoryModel
    return { d with
      addressingModel? := AddressingModel.ofCode? addressing.toNat
      memoryModel? := MemoryModel.ofCode? memory.toNat
      memoryModelCount := d.memoryModelCount + 1 }
  | _ => .ok d

/-- Records what an instruction declares, and then the id it defines. -/
def register (d : Declarations) (i : Instruction) : Except Violation Declarations := do
  let d ← d.registerDeclaration i
  return i.result?.elim d fun id => d.define id (.ofInstruction i)

/-! ## Lookups after growth -/

@[simp] theorem has_declare (d : Declarations) (c c' : Capability) :
    (d.declare c).has c' = true ↔ c' ∈ c.implied ∨ d.has c' = true := by
  simp [has, declare]

theorem definition?_define (d : Declarations) (id id' : Id) (x : Definition) :
    (d.define id x).definition? id' =
      (d.definition? id').or (if id' = id then some x else none) := by
  rw [define]
  split
  next y h =>
    by_cases hid : id' = id
    · simp [hid, h]
    · simp [hid]
  next h =>
    by_cases hid : id' = id
    · rw [hid, h]
      simp [definition?]
    · simp [definition?, List.lookup_cons, beq_eq_false_iff_ne.mpr hid, hid]

end Declarations

end SpirvAudit
