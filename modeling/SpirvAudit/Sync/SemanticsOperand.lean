/-
The memory-semantics operands of atomics and barriers.

A semantics value is checked against the declared capabilities, against what
the opcode can do, and against itself: an order and the storage it applies to
go together. Under the Vulkan rules (`Declarations.strict`) more is checked.

A compare-exchange has two semantics operands, one for each outcome. The one
for the comparison that fails may not ask for more than the one for the
comparison that succeeds.
-/
import SpirvAudit.Sync.ConstantOperand

namespace SpirvAudit

/-- Which outcome of an instruction a semantics operand is for. -/
inductive SemanticsRole
  /-- The only outcome. -/
  | only
  /-- The comparison of a compare-exchange succeeds. -/
  | equal
  /-- The comparison of a compare-exchange fails. -/
  | unequal
deriving DecidableEq, Repr

namespace SemanticsRole

/-- Where a compare-exchange has the semantics for a comparison that succeeds. -/
def equalOperand : Nat := 2

/-- Where a compare-exchange has the semantics for a comparison that fails. -/
def unequalOperand : Nat := 3

/-- The role of an operand of an instruction. -/
def ofOperand (op : Opcode) (index : Nat) : SemanticsRole :=
  if op.isCompareExchange && index == equalOperand then .equal
  else if op.isCompareExchange && index == unequalOperand then .unequal
  else .only

def subject : SemanticsRole → Subject
  | .only => .semantics
  | .equal => .equalSemantics
  | .unequal => .unequalSemantics

end SemanticsRole

namespace Semantics

/-- Whether some memory order is set. -/
def isOrdered (s : Semantics) : Bool := s.hasAny Flag.orders

/-- Whether an order with a release half is set. -/
def releases (s : Semantics) : Bool := s.hasAny [.release, .acquireRelease]

/-- Whether an order with an acquire half is set. -/
def acquires (s : Semantics) : Bool := s.hasAny [.acquire, .acquireRelease]

/-- Whether some storage that Vulkan orders is set. -/
def hasVulkanStorage (s : Semantics) : Bool := s.hasAny Flag.vulkanStorage

/-- Whether the order for a failing comparison is stronger than the one for a succeeding one. -/
def strongerThan (unequal equal : Semantics) : Bool :=
  .sequentiallyConsistent ∈ unequal && .sequentiallyConsistent ∉ equal ||
    .acquire ∈ unequal && !equal.hasAny [.sequentiallyConsistent, .acquireRelease, .acquire]

end Semantics

namespace Declarations

open Semantics

/-- A flag is set that no declared capability allows. -/
def flagFault (d : Declarations) (value : Semantics) (flag : Flag) : Fault :=
  ⟨flag ∈ value && !d.enables flag.requires, .flagNotEnabled flag⟩

/-- What is wrong with a semantics value on an instruction with this opcode. -/
def valueFaults (d : Declarations) (op : Opcode) (value : Semantics) : List Fault := [
  d.flagFault value .uniformMemory,
  d.flagFault value .outputMemory,
  ⟨1 < value.orders.length, .severalOrders⟩,
  ⟨op == .opAtomicLoad && value.releases, .releasingLoad⟩,
  ⟨(op == .opAtomicStore || op == .opAtomicFlagClear) && value.acquires, .acquiringStore⟩,
  ⟨d.strict && op == .opMemoryBarrier && !value.isOrdered, .relaxedBarrier⟩,
  ⟨d.strict && .sequentiallyConsistent ∈ value, .sequentiallyConsistentInVulkan⟩,
  ⟨d.strict && !value.isOrdered && value.hasVulkanStorage, .storageWithoutOrder⟩,
  ⟨d.strict && value.isOrdered && !value.hasVulkanStorage, .orderWithoutStorage⟩,
  d.flagFault value .makeAvailable,
  ⟨.makeAvailable ∈ value && !value.releases, .availableWithoutRelease⟩,
  d.flagFault value .makeVisible,
  ⟨.makeVisible ∈ value && !value.acquires, .visibleWithoutAcquire⟩,
  d.flagFault value .volatile,
  ⟨.volatile ∈ value && !op.isAtomic, .volatileBarrier⟩]

/-- What is wrong with the semantics of a failing comparison beside those of a succeeding one. -/
def unequalFaults (d : Declarations) (equal unequal : Semantics) : List Fault := [
  ⟨unequal.releases, .releasingUnequal⟩,
  ⟨unequal.strongerThan equal, .unequalStronger⟩,
  ⟨d.strict && (unequal \ equal).hasAny (.makeVisible :: Flag.vulkanStorage), .unequalStorage⟩,
  ⟨d.strict && .volatile ∈ unequal.symmDiff equal, .unequalVolatile⟩]

/-- The semantics for a comparison that succeeds. Where they are not known they count as relaxed. -/
def equalSemantics (d : Declarations) (i : Instruction) : Semantics :=
  ⟨((i.operand? SemanticsRole.equalOperand).map d.fold).elim 0 (·.value)⟩

/-- The order of an instruction that only its own invocation observes. -/
def invocationFault (d : Declarations) (i : Instruction) (scopeIndex : Nat) (value : Semantics) :
    Fault :=
  let scope := (i.operand? scopeIndex).map d.fold
  ⟨d.strict && value.isOrdered && scope == some (.constant (UInt32.ofNat Scope.invocation.code)),
    .orderedInvocation⟩

/-- All that is wrong with a semantics value at an operand of an instruction. -/
def semanticsFaults (d : Declarations) (i : Instruction) (index scopeIndex : Nat)
    (value : Semantics) : List Fault :=
  d.valueFaults i.opcode value ++
    (if SemanticsRole.ofOperand i.opcode index = .unequal then
      d.unequalFaults (d.equalSemantics i) value
    else []) ++
    [d.invocationFault i scopeIndex value]

/-- Checks the memory-semantics operand at `index`, which applies to the memory scope at
`scopeIndex`. -/
def checkSemantics (d : Declarations) (i : Instruction) (index scopeIndex : Nat) : Verdict := do
  let subject := (SemanticsRole.ofOperand i.opcode index).subject
  match ← d.constantOperand i index subject .semantics with
  | none => return ()
  | some value => i.judge subject (d.semanticsFaults i index scopeIndex ⟨value⟩)

end Declarations

end SpirvAudit
