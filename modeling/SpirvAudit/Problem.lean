/-
Problems: what can be wrong with an instruction, one of its operands, or a
module.

A problem is a cause, with the data it arises from. Everything a diagnostic
says of it follows from the cause: its row gives the category, the rule, the
wording, and the capabilities of which any one would have helped.
-/
import SpirvAudit.Diagnostic
import SpirvAudit.Instruction
import SpirvAudit.Rule
import SpirvAudit.Scope
import SpirvAudit.Semantics
import SpirvAudit.Version

namespace SpirvAudit

/-- The kinds of operand that have to name a constant. -/
inductive ConstantArea
  | scope | semantics
deriving DecidableEq, Repr

def ConstantArea.name : ConstantArea → String
  | .scope => "Scope"
  | .semantics => "MemorySemantics"

/-- The scalar types that an atomic may work on. -/
inductive ScalarClass
  | int | float | intOrFloat | bool
deriving DecidableEq, Repr

def ScalarClass.description : ScalarClass → String
  | .int => "an int scalar type"
  | .float => "a float scalar type"
  | .intOrFloat => "an int or float scalar type"
  | .bool => "a bool scalar type"

/-- Something that is wrong. -/
inductive Problem
  /-- The instruction ends before the operand. -/
  | missing
  | malformedText
  | unknownValue (value : Word)
  | opcodeNotEnabled (requires : List Capability)
  | valueNotEnabled (name : String) (requires : List Capability)
  | versionTooNew (version limit : Version)
  | repeatedMemoryModel
  | noMemoryModel
  /-- A capability demands the Vulkan memory model, and another one is declared. -/
  | notVulkanMemoryModel
  | notInt32 (area : ConstantArea)
  | notConstant (area : ConstantArea)
  | notConstantInstruction (area : ConstantArea)
  | unknownScope (value : Word)
  | scopeNotEnabled (scope : Scope)
  | executionScopeInVulkan (scope : Scope)
  | queueFamilyNotEnabled
  | deviceNotEnabled
  | crossDeviceInVulkan
  | flagNotEnabled (flag : Semantics.Flag)
  | severalOrders
  | releasingLoad
  | acquiringStore
  | relaxedBarrier
  | sequentiallyConsistentInVulkan
  | storageWithoutOrder
  | orderWithoutStorage
  | availableWithoutRelease
  | visibleWithoutAcquire
  | volatileBarrier
  | releasingUnequal
  | unequalStronger
  | unequalStorage
  | unequalVolatile
  | orderedInvocation
  | undefinedBarrier (id : Id)
  | notPointer
  | notScalar (expected : ScalarClass)
  | pointeeMismatch
  | int64NotEnabled
deriving DecidableEq, Repr

namespace Problem

/-- What follows from a problem, whatever instruction has it. -/
structure Row where
  kind : Kind
  rule : Rule
  text : String
  requires : List Capability

/-- The row of an operand that is ill formed by itself. -/
def malformed (area name text : String) : Row := ⟨.malformedOperand, .spirv area name, text, []⟩

/-- The row of a use that one more capability would have allowed. -/
def notEnabled (area name text : String) (requires : List Capability) : Row :=
  ⟨.missingCapability, .spirv area name, text, requires⟩

/-- The row of a combination that no capability would have allowed. -/
def invalid (rule : Rule) (text : String) : Row := ⟨.invalidCombination, rule, text, []⟩

/-- The storage that Vulkan orders, as a phrase. -/
def storage : String := "(UniformMemory, WorkgroupMemory, ImageMemory, or OutputMemory)"

def row : Problem → Row
  | .missing => malformed "Instruction" "MissingOperand" "is missing"
  | .malformedText => malformed "Instruction" "InvalidString" "is not a valid literal string"
  | .unknownValue value =>
    malformed "Capability" "UnknownOperand" ("has the unknown value " ++ toString value.toNat)
  | .opcodeNotEnabled requires =>
    notEnabled "Capability" "Opcode" "the opcode requires a capability that is not declared" requires
  | .valueNotEnabled name requires =>
    notEnabled "Capability" "Operand" (name ++ " requires a capability that is not declared") requires
  | .versionTooNew version limit =>
    malformed "Layout" "Version" ("is " ++ toString version ++
      ", but the target environment supports at most " ++ toString limit)
  | .repeatedMemoryModel =>
    invalid (.spirv "Layout" "MemoryModelDuplicate")
      "the module already has an OpMemoryModel instruction"
  | .noMemoryModel =>
    invalid (.spirv "Layout" "MemoryModelMissing") "the module has no OpMemoryModel instruction"
  | .notVulkanMemoryModel =>
    invalid (.spirv "Layout" "VulkanMemoryModelCapability")
      "is not Vulkan, but the VulkanMemoryModel capability is declared"
  | .notInt32 area => malformed area.name "Type" "is not a 32-bit int"
  | .notConstant area =>
    malformed area.name "NotConstant"
      "is not the result of an OpConstant instruction, but the Shader capability is present"
  | .notConstantInstruction area =>
    malformed area.name "NotConstantInstruction" ("is not the result of a constant instruction, " ++
      "but the CooperativeMatrixNV capability is present")
  | .unknownScope value =>
    malformed "Scope" "Unknown" ("has the unknown value " ++ toString value.toNat)
  | .scopeNotEnabled scope =>
    notEnabled "Scope" "Capability" (scope.name ++ " requires a capability that is not declared")
      scope.requires
  | .executionScopeInVulkan scope =>
    invalid (.vulkan 4636)
      ("is " ++ scope.name ++ ", but the Vulkan environment limits it to Workgroup and Subgroup")
  | .queueFamilyNotEnabled =>
    notEnabled "MemoryScope" "QueueFamily" "QueueFamily requires capability VulkanMemoryModel"
      [.vulkanMemoryModel]
  | .deviceNotEnabled =>
    notEnabled "MemoryScope" "DeviceScope" ("Device with the VulkanMemoryModel capability " ++
      "requires capability VulkanMemoryModelDeviceScope") [.vulkanMemoryModelDeviceScope]
  | .crossDeviceInVulkan =>
    invalid (.vulkan 4638) ("is CrossDevice, but the Vulkan environment limits it to Device, " ++
      "QueueFamily, Workgroup, ShaderCallKHR, Subgroup, or Invocation")
  | .flagNotEnabled flag =>
    notEnabled "MemorySemantics" flag.title (flag.title ++ " requires capability " ++
      " or ".intercalate (flag.requires.map (·.name))) flag.requires
  | .severalOrders =>
    invalid (.vulkan 10001) "must have at most one non-relaxed memory order bit set"
  | .releasingLoad =>
    invalid (.vulkan 10002) "must not use Release or AcquireRelease memory order"
  | .acquiringStore =>
    invalid (.vulkan 10003) "must not use Acquire or AcquireRelease memory order"
  | .relaxedBarrier => invalid (.vulkan 10004) "must not use Relaxed memory order"
  | .sequentiallyConsistentInVulkan =>
    invalid (.vulkan 10005)
      "must not use SequentiallyConsistent memory order in the Vulkan environment"
  | .storageWithoutOrder =>
    invalid (.vulkan 10006) ("has at least one Vulkan-supported storage class semantics flag " ++
      storage ++ ", but does not use a non-relaxed memory order")
  | .orderWithoutStorage =>
    invalid (.vulkan 10007) ("uses a non-relaxed memory order, but does not have at least one " ++
      "Vulkan-supported storage class semantics flag " ++ storage)
  | .availableWithoutRelease =>
    invalid (.vulkan 10008)
      "has the MakeAvailable flag, but does not use Release or AcquireRelease memory order"
  | .visibleWithoutAcquire =>
    invalid (.vulkan 10009)
      "has the MakeVisible flag, but does not use Acquire or AcquireRelease memory order"
  | .volatileBarrier =>
    invalid (.vulkan 10010) ("has the Volatile flag, which must not be used with barrier " ++
      "instructions (MemoryBarrier or ControlBarrier)")
  | .releasingUnequal =>
    invalid (.vulkan 10011) "must not use Release or AcquireRelease memory order"
  | .unequalStronger =>
    invalid (.vulkan 10012) "must not use a memory order stronger than the Equal Memory Semantics"
  | .unequalStorage =>
    invalid (.vulkan 10013) ("must not use any Vulkan-supported storage class semantics flag " ++
      storage ++ " or MakeVisible flag, unless this flag is also present in the Equal Memory " ++
      "Semantics")
  | .unequalVolatile =>
    invalid (.vulkan 10014) "Volatile flag must match the Equal Memory Semantics flag"
  | .orderedInvocation =>
    invalid (.vulkan 4641) "must be Relaxed when used with the Invocation memory scope"
  | .undefinedBarrier id => malformed "Barrier" "NamedBarrier" (id.text ++ " is not defined")
  | .notPointer => malformed "Atomic" "Pointer" "is not a value of an OpTypePointer type"
  | .notScalar expected => malformed "Atomic" "DataType" ("is not " ++ expected.description)
  | .pointeeMismatch =>
    invalid (.spirv "Atomic" "PointeeType") "does not point to a value of the Result Type"
  | .int64NotEnabled =>
    notEnabled "Atomic" "Int64" "is a 64-bit int, which requires capability Int64Atomics"
      [.int64Atomics]

def kind (p : Problem) : Kind := p.row.kind

def rule (p : Problem) : Rule := p.row.rule

def text (p : Problem) : String := p.row.text

/-- The capabilities of which any one would have helped. -/
def requires (p : Problem) : List Capability := p.row.requires

end Problem

end SpirvAudit
