/-
The two models `OpMemoryModel` declares: how pointers are addressed, and how
memory accesses are ordered.

Under the Vulkan memory model the stricter rules for atomics and barriers
hold in every environment.
-/
import SpirvAudit.Capability

namespace SpirvAudit

/-- How pointers are addressed. -/
inductive AddressingModel
  | logical | physical32 | physical64 | physicalStorageBuffer64
deriving DecidableEq, Repr

namespace AddressingModel

def enumerant : AddressingModel → Enumerant
  | .logical => ⟨0, "Logical", []⟩
  | .physical32 => ⟨1, "Physical32", [.addresses]⟩
  | .physical64 => ⟨2, "Physical64", [.addresses]⟩
  | .physicalStorageBuffer64 => ⟨5348, "PhysicalStorageBuffer64", [.physicalStorageBufferAddresses]⟩

def code (m : AddressingModel) : Nat := m.enumerant.code

def name (m : AddressingModel) : String := m.enumerant.name

/-- The capabilities of which one has to be declared. -/
def requires (m : AddressingModel) : List Capability := m.enumerant.capabilities

def all : List AddressingModel := [.logical, .physical32, .physical64, .physicalStorageBuffer64]

def ofCode? (code : Nat) : Option AddressingModel := all.find? (·.code == code)

@[simp] theorem ofCode?_code (m : AddressingModel) : ofCode? m.code = some m := by
  cases m <;> rfl

theorem ofCode?_eq_some_iff {code : Nat} {m : AddressingModel} : ofCode? code = some m ↔ m.code = code := by
  refine ⟨fun h => ?_, fun h => h ▸ ofCode?_code m⟩
  simpa using List.find?_some h

end AddressingModel

/-- How memory accesses are ordered. -/
inductive MemoryModel
  | simple | glsl450 | openCL | vulkan
deriving DecidableEq, Repr

namespace MemoryModel

def enumerant : MemoryModel → Enumerant
  | .simple => ⟨0, "Simple", [.shader]⟩
  | .glsl450 => ⟨1, "GLSL450", [.shader]⟩
  | .openCL => ⟨2, "OpenCL", [.kernel]⟩
  | .vulkan => ⟨3, "Vulkan", [.vulkanMemoryModel]⟩

def code (m : MemoryModel) : Nat := m.enumerant.code

def name (m : MemoryModel) : String := m.enumerant.name

/-- The capabilities of which one has to be declared. -/
def requires (m : MemoryModel) : List Capability := m.enumerant.capabilities

def all : List MemoryModel := [.simple, .glsl450, .openCL, .vulkan]

def ofCode? (code : Nat) : Option MemoryModel := all.find? (·.code == code)

@[simp] theorem ofCode?_code (m : MemoryModel) : ofCode? m.code = some m := by
  cases m <;> rfl

theorem ofCode?_eq_some_iff {code : Nat} {m : MemoryModel} : ofCode? code = some m ↔ m.code = code := by
  refine ⟨fun h => ?_, fun h => h ▸ ofCode?_code m⟩
  simpa using List.find?_some h

end MemoryModel

end SpirvAudit
