/-
The environments a module may be meant for.

A universal environment holds a module to the rules of one version of SPIR-V
itself. A Vulkan environment adds the rules of the Vulkan specification. All
environments bound the version a module may declare.
-/
import SpirvAudit.Version

namespace SpirvAudit

inductive Environment
  | universal (minor : Fin 7)
  | vulkan (minor : Fin 5)
  | openCL12
  | openCL20
  | openGL45
deriving DecidableEq, Repr

namespace Environment

instance : Inhabited Environment := ⟨.universal 6⟩

def isVulkan : Environment → Bool
  | .vulkan _ => true
  | _ => false

/-- The highest version a module may declare. -/
def maxVersion : Environment → Version
  | .universal minor => ⟨1, UInt8.ofNat minor⟩
  | .vulkan 0 | .openCL12 | .openGL45 => ⟨1, 0⟩
  | .openCL20 => ⟨1, 2⟩
  | .vulkan 1 => ⟨1, 3⟩
  | .vulkan 2 => ⟨1, 5⟩
  | .vulkan 3 | .vulkan 4 => ⟨1, 6⟩

def name : Environment → String
  | .universal minor => "Universal1_" ++ toString minor.val
  | .vulkan minor => "Vulkan1_" ++ toString minor.val
  | .openCL12 => "OpenCl1_2"
  | .openCL20 => "OpenCl2_0"
  | .openGL45 => "OpenGl4_5"

def all : List Environment :=
  (List.finRange 7).map .universal ++ (List.finRange 5).map .vulkan ++ [.openCL12, .openCL20, .openGL45]

def ofName? (name : String) : Option Environment := all.find? (·.name == name)

@[simp] theorem mem_all (env : Environment) : env ∈ all := by
  cases env <;> simp [all]

end Environment

end SpirvAudit
