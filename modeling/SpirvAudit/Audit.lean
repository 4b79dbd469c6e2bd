/-
The audit of a module for an environment.

The instructions are taken in order. Each is registered, and then checked
against what the module has declared up to and including it, so a declaration
has effect from where it stands. The first violation ends the audit. What may
be declared anywhere in a module is checked at its end.
-/
import SpirvAudit.Gating
import SpirvAudit.Module
import SpirvAudit.Sync.Atomic
import SpirvAudit.Sync.Barrier

namespace SpirvAudit

namespace Declarations

/-- Checks that `OpMemoryModel` is the only one so far. -/
def checkFirstMemoryModel (d : Declarations) (i : Instruction) : Verdict :=
  i.judge .whole [⟨1 < d.memoryModelCount, .repeatedMemoryModel⟩]

/-- Checks what an instruction does, beyond its opcode and its gated operands. -/
def checkEffect (d : Declarations) (i : Instruction) : Verdict :=
  match i.opcode with
  | .opCapability => i.checkCapability
  | .opMemoryModel => d.checkFirstMemoryModel i
  | .opControlBarrier => d.checkControlBarrier i
  | .opMemoryBarrier => d.checkMemoryBarrier i
  | .opMemoryNamedBarrier => d.checkMemoryNamedBarrier i
  | op => if op.isAtomic then d.checkAtomic i else .ok ()

/-- Checks an instruction that is registered. -/
def check (d : Declarations) (i : Instruction) : Verdict := do
  d.checkOpcode i
  d.checkGates i
  d.checkEffect i

/-- Registers an instruction and checks it. -/
def step (d : Declarations) (i : Instruction) : Except Violation Declarations := do
  let d ← d.register i
  d.check i
  return d

/-- Registers and checks the instructions in order. -/
def run (d : Declarations) (is : List Instruction) : Except Violation Declarations :=
  is.foldlM step d

/-- Checks what a module has to have declared by its end. -/
def checkEnd (d : Declarations) : Verdict :=
  if d.memoryModelCount = 0 then .error { problem := .noMemoryModel }
  else if d.has .vulkanMemoryModel && d.memoryModel? != some .vulkan then
    .error { subject := .declaredMemoryModel, problem := .notVulkanMemoryModel }
  else .ok ()

end Declarations

/-- Checks that the environment takes modules of this version. -/
def Environment.checkVersion (env : Environment) (version : Version) : Verdict :=
  if compare version env.maxVersion = .gt then
    .error { subject := .version, problem := .versionTooNew version env.maxVersion }
  else .ok ()

/-- Checks a module for an environment. -/
def Module.audit (env : Environment) (m : Module) : Verdict := do
  env.checkVersion m.version
  let d ← (Declarations.initial env).run m.instructions
  d.checkEnd

/-- Checks a module that was read, if it could be read. -/
def auditRead (env : Environment) (read : Except DecodeError Module) :
    Except (Failure DecodeError) Unit :=
  match read with
  | .error e => .error (.other e)
  | .ok m => (m.audit env).mapError fun v => .invalid v.diagnostic

/-- Reads and checks a binary. -/
def auditWords (env : Environment) (ws : List Word) : Except (Failure DecodeError) Unit :=
  auditRead env (Module.ofWords ws)

/-- Reads and checks the bytes of a binary. -/
def auditBytes (env : Environment) (bytes : List UInt8) : Except (Failure DecodeError) Unit :=
  auditRead env (Module.ofBytes bytes)

end SpirvAudit
