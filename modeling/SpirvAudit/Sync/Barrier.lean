/-
Barriers.

A barrier has a memory scope and memory semantics. `OpControlBarrier` has an
execution scope before them, and `OpMemoryNamedBarrier` the barrier it is
for.
-/
import SpirvAudit.Sync.ScopeOperand
import SpirvAudit.Sync.SemanticsOperand

namespace SpirvAudit.Declarations

/-- Checks an instruction with the operands of `OpControlBarrier`. -/
def checkControlBarrier (d : Declarations) (i : Instruction) : Verdict := do
  d.checkExecutionScope i 0
  d.checkMemoryScope i 1
  d.checkSemantics i 2 1

/-- Checks an instruction with the operands of `OpMemoryBarrier`. -/
def checkMemoryBarrier (d : Declarations) (i : Instruction) : Verdict := do
  d.checkMemoryScope i 0
  d.checkSemantics i 1 0

/-- Checks that the barrier is defined, by whatever instruction. -/
def checkNamedBarrier (d : Declarations) (i : Instruction) : Verdict := do
  let id ← i.required 0 .namedBarrier
  i.judge .namedBarrier [⟨(d.definition? id).isNone, .undefinedBarrier id⟩]

/-- Checks an instruction with the operands of `OpMemoryNamedBarrier`. -/
def checkMemoryNamedBarrier (d : Declarations) (i : Instruction) : Verdict := do
  d.checkNamedBarrier i
  d.checkMemoryScope i 1
  d.checkSemantics i 2 1

end SpirvAudit.Declarations
