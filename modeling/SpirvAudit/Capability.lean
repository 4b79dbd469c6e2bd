/-
Capabilities: the features a module declares with `OpCapability`, and the
rows of the grammar's enumerations, which name the capabilities a value
depends on.

Each capability has one row: its code, its name, and the capabilities that
declaring it declares as well. What a declaration brings in all, step after
step, is `SpirvAudit.Capability.Closure`.
-/
namespace SpirvAudit

/-- A feature a module may declare. -/
inductive Capability
  | matrix | shader | geometry | tessellation | addresses | linkage | kernel | vector16
  | float16Buffer | float16 | float64 | int64 | int64Atomics | imageBasic | imageReadWrite
  | imageMipmap | pipes | groups | deviceEnqueue | literalSampler | atomicStorage | int16
  | tessellationPointSize | geometryPointSize | imageGatherExtended | storageImageMultisample
  | uniformBufferArrayDynamicIndexing | sampledImageArrayDynamicIndexing
  | storageBufferArrayDynamicIndexing | storageImageArrayDynamicIndexing | clipDistance
  | cullDistance | imageCubeArray | sampleRateShading | imageRect | sampledRect | genericPointer
  | int8 | inputAttachment | sparseResidency | minLod | sampled1D | image1D | sampledCubeArray
  | sampledBuffer | imageBuffer | imageMSArray | storageImageExtendedFormats | imageQuery
  | derivativeControl | interpolationFunction | transformFeedback | geometryStreams
  | storageImageReadWithoutFormat | storageImageWriteWithoutFormat | multiViewport
  | subgroupDispatch | namedBarrier | pipeStorage | groupNonUniform | rayTracingKHR
  | vulkanMemoryModel | vulkanMemoryModelDeviceScope | physicalStorageBufferAddresses
  | cooperativeMatrixNV | atomicFloat32MinMaxEXT | atomicFloat32AddEXT | cooperativeMatrixKHR
deriving DecidableEq, Repr

/-- A row of an enumeration: a value, its name, and the capabilities that go
with it. For a capability these are the ones it implies; for any other value,
the ones of which one has to be declared, none if the list is empty. -/
structure Enumerant where
  code : Nat
  name : String
  capabilities : List Capability
deriving DecidableEq, Repr

namespace Capability

def enumerant : Capability → Enumerant
  | .matrix => ⟨0, "Matrix", []⟩
  | .shader => ⟨1, "Shader", [.matrix]⟩
  | .geometry => ⟨2, "Geometry", [.shader]⟩
  | .tessellation => ⟨3, "Tessellation", [.shader]⟩
  | .addresses => ⟨4, "Addresses", []⟩
  | .linkage => ⟨5, "Linkage", []⟩
  | .kernel => ⟨6, "Kernel", []⟩
  | .vector16 => ⟨7, "Vector16", [.kernel]⟩
  | .float16Buffer => ⟨8, "Float16Buffer", [.kernel]⟩
  | .float16 => ⟨9, "Float16", [.float16Buffer]⟩
  | .float64 => ⟨10, "Float64", []⟩
  | .int64 => ⟨11, "Int64", []⟩
  | .int64Atomics => ⟨12, "Int64Atomics", [.int64]⟩
  | .imageBasic => ⟨13, "ImageBasic", [.kernel]⟩
  | .imageReadWrite => ⟨14, "ImageReadWrite", [.kernel]⟩
  | .imageMipmap => ⟨15, "ImageMipmap", [.kernel]⟩
  | .pipes => ⟨17, "Pipes", [.kernel]⟩
  | .groups => ⟨18, "Groups", []⟩
  | .deviceEnqueue => ⟨19, "DeviceEnqueue", [.kernel]⟩
  | .literalSampler => ⟨20, "LiteralSampler", [.kernel]⟩
  | .atomicStorage => ⟨21, "AtomicStorage", [.shader]⟩
  | .int16 => ⟨22, "Int16", []⟩
  | .tessellationPointSize => ⟨23, "TessellationPointSize", [.tessellation]⟩
  | .geometryPointSize => ⟨24, "GeometryPointSize", [.geometry]⟩
  | .imageGatherExtended => ⟨25, "ImageGatherExtended", [.shader]⟩
  | .storageImageMultisample => ⟨27, "StorageImageMultisample", [.shader]⟩
  | .uniformBufferArrayDynamicIndexing => ⟨28, "UniformBufferArrayDynamicIndexing", [.shader]⟩
  | .sampledImageArrayDynamicIndexing => ⟨29, "SampledImageArrayDynamicIndexing", [.shader]⟩
  | .storageBufferArrayDynamicIndexing => ⟨30, "StorageBufferArrayDynamicIndexing", [.shader]⟩
  | .storageImageArrayDynamicIndexing => ⟨31, "StorageImageArrayDynamicIndexing", [.shader]⟩
  | .clipDistance => ⟨32, "ClipDistance", [.shader]⟩
  | .cullDistance => ⟨33, "CullDistance", [.shader]⟩
  | .imageCubeArray => ⟨34, "ImageCubeArray", [.sampledCubeArray]⟩
  | .sampleRateShading => ⟨35, "SampleRateShading", [.shader]⟩
  | .imageRect => ⟨36, "ImageRect", [.sampledRect]⟩
  | .sampledRect => ⟨37, "SampledRect", [.shader]⟩
  | .genericPointer => ⟨38, "GenericPointer", [.addresses]⟩
  | .int8 => ⟨39, "Int8", [.kernel]⟩
  | .inputAttachment => ⟨40, "InputAttachment", [.shader]⟩
  | .sparseResidency => ⟨41, "SparseResidency", [.shader]⟩
  | .minLod => ⟨42, "MinLod", [.shader]⟩
  | .sampled1D => ⟨43, "Sampled1D", [.shader]⟩
  | .image1D => ⟨44, "Image1D", [.sampled1D]⟩
  | .sampledCubeArray => ⟨45, "SampledCubeArray", [.shader]⟩
  | .sampledBuffer => ⟨46, "SampledBuffer", [.shader]⟩
  | .imageBuffer => ⟨47, "ImageBuffer", [.sampledBuffer]⟩
  | .imageMSArray => ⟨48, "ImageMSArray", [.shader]⟩
  | .storageImageExtendedFormats => ⟨49, "StorageImageExtendedFormats", [.shader]⟩
  | .imageQuery => ⟨50, "ImageQuery", [.shader]⟩
  | .derivativeControl => ⟨51, "DerivativeControl", [.shader]⟩
  | .interpolationFunction => ⟨52, "InterpolationFunction", [.shader]⟩
  | .transformFeedback => ⟨53, "TransformFeedback", [.shader]⟩
  | .geometryStreams => ⟨54, "GeometryStreams", [.geometry]⟩
  | .storageImageReadWithoutFormat => ⟨55, "StorageImageReadWithoutFormat", [.shader]⟩
  | .storageImageWriteWithoutFormat => ⟨56, "StorageImageWriteWithoutFormat", [.shader]⟩
  | .multiViewport => ⟨57, "MultiViewport", [.geometry]⟩
  | .subgroupDispatch => ⟨58, "SubgroupDispatch", [.deviceEnqueue]⟩
  | .namedBarrier => ⟨59, "NamedBarrier", [.kernel]⟩
  | .pipeStorage => ⟨60, "PipeStorage", [.pipes]⟩
  | .groupNonUniform => ⟨61, "GroupNonUniform", []⟩
  | .rayTracingKHR => ⟨4479, "RayTracingKHR", [.shader]⟩
  | .vulkanMemoryModel => ⟨5345, "VulkanMemoryModel", []⟩
  | .vulkanMemoryModelDeviceScope => ⟨5346, "VulkanMemoryModelDeviceScope", []⟩
  | .physicalStorageBufferAddresses => ⟨5347, "PhysicalStorageBufferAddresses", [.shader]⟩
  | .cooperativeMatrixNV => ⟨5357, "CooperativeMatrixNV", [.shader]⟩
  | .atomicFloat32MinMaxEXT => ⟨5612, "AtomicFloat32MinMaxEXT", []⟩
  | .atomicFloat32AddEXT => ⟨6033, "AtomicFloat32AddEXT", []⟩
  | .cooperativeMatrixKHR => ⟨6022, "CooperativeMatrixKHR", []⟩

def code (c : Capability) : Nat := c.enumerant.code

def name (c : Capability) : String := c.enumerant.name

/-- The capabilities that declaring `c` declares in one step. -/
def implies (c : Capability) : List Capability := c.enumerant.capabilities

/-- Every capability, in the order of the grammar. -/
def all : List Capability := [
  .matrix, .shader, .geometry, .tessellation, .addresses, .linkage, .kernel, .vector16,
  .float16Buffer, .float16, .float64, .int64, .int64Atomics, .imageBasic, .imageReadWrite,
  .imageMipmap, .pipes, .groups, .deviceEnqueue, .literalSampler, .atomicStorage, .int16,
  .tessellationPointSize, .geometryPointSize, .imageGatherExtended, .storageImageMultisample,
  .uniformBufferArrayDynamicIndexing, .sampledImageArrayDynamicIndexing,
  .storageBufferArrayDynamicIndexing, .storageImageArrayDynamicIndexing, .clipDistance,
  .cullDistance, .imageCubeArray, .sampleRateShading, .imageRect, .sampledRect, .genericPointer,
  .int8, .inputAttachment, .sparseResidency, .minLod, .sampled1D, .image1D, .sampledCubeArray,
  .sampledBuffer, .imageBuffer, .imageMSArray, .storageImageExtendedFormats, .imageQuery,
  .derivativeControl, .interpolationFunction, .transformFeedback, .geometryStreams,
  .storageImageReadWithoutFormat, .storageImageWriteWithoutFormat, .multiViewport,
  .subgroupDispatch, .namedBarrier, .pipeStorage, .groupNonUniform, .rayTracingKHR,
  .vulkanMemoryModel, .vulkanMemoryModelDeviceScope, .physicalStorageBufferAddresses,
  .cooperativeMatrixNV, .atomicFloat32MinMaxEXT, .atomicFloat32AddEXT, .cooperativeMatrixKHR]

/-- The capability with this code. -/
def ofCode? (code : Nat) : Option Capability := all.find? (·.code == code)

@[simp] theorem mem_all (c : Capability) : c ∈ all := by
  cases c <;> decide

@[simp] theorem ofCode?_code (c : Capability) : ofCode? c.code = some c := by
  cases c <;> rfl

theorem ofCode?_eq_some_iff {code : Nat} {c : Capability} : ofCode? code = some c ↔ c.code = code := by
  refine ⟨fun h => ?_, fun h => h ▸ ofCode?_code c⟩
  simpa using List.find?_some h

end Capability

end SpirvAudit
