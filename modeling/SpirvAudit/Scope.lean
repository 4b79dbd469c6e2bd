/-
Scopes: the invocations across which an execution or memory guarantee holds.
-/
import SpirvAudit.Capability

namespace SpirvAudit

/-- A set of invocations. -/
inductive Scope
  | crossDevice | device | workgroup | subgroup | invocation | queueFamily | shaderCallKHR
deriving DecidableEq, Repr

namespace Scope

def enumerant : Scope → Enumerant
  | .crossDevice => ⟨0, "CrossDevice", []⟩
  | .device => ⟨1, "Device", []⟩
  | .workgroup => ⟨2, "Workgroup", []⟩
  | .subgroup => ⟨3, "Subgroup", []⟩
  | .invocation => ⟨4, "Invocation", []⟩
  | .queueFamily => ⟨5, "QueueFamily", []⟩
  | .shaderCallKHR => ⟨6, "ShaderCallKHR", [.rayTracingKHR]⟩

def code (s : Scope) : Nat := s.enumerant.code

def name (s : Scope) : String := s.enumerant.name

/-- The capabilities of which one has to be declared. -/
def requires (s : Scope) : List Capability := s.enumerant.capabilities

def all : List Scope := [.crossDevice, .device, .workgroup, .subgroup, .invocation, .queueFamily, .shaderCallKHR]

def ofCode? (code : Nat) : Option Scope := all.find? (·.code == code)

@[simp] theorem ofCode?_code (s : Scope) : ofCode? s.code = some s := by
  cases s <;> rfl

theorem ofCode?_eq_some_iff {code : Nat} {s : Scope} : ofCode? code = some s ↔ s.code = code := by
  refine ⟨fun h => ?_, fun h => h ▸ ofCode?_code s⟩
  simpa using List.find?_some h

end Scope

end SpirvAudit
