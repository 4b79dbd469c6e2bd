/-
The kinds of enumerated operands, and for each kind the values the grammar
knows.

A value of a kind is known if the kind has a row with its code. The row says
which capabilities the value depends on. Memory semantics have no rows of
their own: they are looked up one bit at a time.
-/
import SpirvAudit.MemoryModel
import SpirvAudit.Scope
import SpirvAudit.Semantics

namespace SpirvAudit

/-- A kind of enumerated operand. -/
inductive OperandKind
  | capability | addressingModel | memoryModel | executionModel | executionMode | storageClass
  | dim | decoration | scope | memorySemantics
deriving DecidableEq, Repr

namespace OperandKind

def all : List OperandKind := [
  .capability, .addressingModel, .memoryModel, .executionModel, .executionMode, .storageClass,
  .dim, .decoration, .scope, .memorySemantics]

def name : OperandKind → String
  | .capability => "Capability"
  | .addressingModel => "AddressingModel"
  | .memoryModel => "MemoryModel"
  | .executionModel => "ExecutionModel"
  | .executionMode => "ExecutionMode"
  | .storageClass => "StorageClass"
  | .dim => "Dim"
  | .decoration => "Decoration"
  | .scope => "Scope"
  | .memorySemantics => "MemorySemantics"

def ofName? (name : String) : Option OperandKind := all.find? (·.name == name)

/-- The execution models of an entry point. -/
def executionModels : List Enumerant := [
  ⟨0, "Vertex", [.shader]⟩,
  ⟨1, "TessellationControl", [.tessellation]⟩,
  ⟨2, "TessellationEvaluation", [.tessellation]⟩,
  ⟨3, "Geometry", [.geometry]⟩,
  ⟨4, "Fragment", [.shader]⟩,
  ⟨5, "GLCompute", [.shader]⟩,
  ⟨6, "Kernel", [.kernel]⟩]

/-- The modes of an entry point. -/
def executionModes : List Enumerant := [
  ⟨0, "Invocations", [.geometry]⟩,
  ⟨1, "SpacingEqual", [.tessellation]⟩,
  ⟨2, "SpacingFractionalEven", [.tessellation]⟩,
  ⟨3, "SpacingFractionalOdd", [.tessellation]⟩,
  ⟨4, "VertexOrderCw", [.tessellation]⟩,
  ⟨5, "VertexOrderCcw", [.tessellation]⟩,
  ⟨6, "PixelCenterInteger", [.shader]⟩,
  ⟨7, "OriginUpperLeft", [.shader]⟩,
  ⟨8, "OriginLowerLeft", [.shader]⟩,
  ⟨9, "EarlyFragmentTests", [.shader]⟩,
  ⟨10, "PointMode", [.tessellation]⟩,
  ⟨11, "Xfb", [.transformFeedback]⟩,
  ⟨12, "DepthReplacing", [.shader]⟩,
  ⟨14, "DepthGreater", [.shader]⟩,
  ⟨15, "DepthLess", [.shader]⟩,
  ⟨16, "DepthUnchanged", [.shader]⟩,
  ⟨17, "LocalSize", []⟩,
  ⟨18, "LocalSizeHint", [.kernel]⟩,
  ⟨19, "InputPoints", [.geometry]⟩,
  ⟨20, "InputLines", [.geometry]⟩,
  ⟨21, "InputLinesAdjacency", [.geometry]⟩,
  ⟨22, "Triangles", [.geometry, .tessellation]⟩,
  ⟨23, "InputTrianglesAdjacency", [.geometry]⟩,
  ⟨24, "Quads", [.tessellation]⟩,
  ⟨25, "Isolines", [.tessellation]⟩,
  ⟨26, "OutputVertices", [.geometry, .tessellation]⟩,
  ⟨27, "OutputPoints", [.geometry]⟩,
  ⟨28, "OutputLineStrip", [.geometry]⟩,
  ⟨29, "OutputTriangleStrip", [.geometry]⟩,
  ⟨30, "VecTypeHint", [.kernel]⟩,
  ⟨31, "ContractionOff", [.kernel]⟩]

/-- The storage classes of a pointer or a variable. -/
def storageClasses : List Enumerant := [
  ⟨0, "UniformConstant", []⟩,
  ⟨1, "Input", [.shader]⟩,
  ⟨2, "Uniform", [.shader]⟩,
  ⟨3, "Output", [.shader]⟩,
  ⟨4, "Workgroup", []⟩,
  ⟨5, "CrossWorkgroup", []⟩,
  ⟨6, "Private", [.shader]⟩,
  ⟨7, "Function", []⟩,
  ⟨8, "Generic", [.kernel]⟩,
  ⟨9, "PushConstant", [.shader]⟩,
  ⟨10, "AtomicCounter", [.atomicStorage]⟩,
  ⟨11, "Image", []⟩,
  ⟨12, "StorageBuffer", [.shader]⟩,
  ⟨5349, "PhysicalStorageBuffer", [.physicalStorageBufferAddresses]⟩]

/-- The dimensionalities of an image. -/
def dims : List Enumerant := [
  ⟨0, "Dim1D", [.sampled1D]⟩,
  ⟨1, "Dim2D", []⟩,
  ⟨2, "Dim3D", []⟩,
  ⟨3, "Cube", [.shader]⟩,
  ⟨4, "Rect", [.sampledRect]⟩,
  ⟨5, "Buffer", [.sampledBuffer]⟩,
  ⟨6, "SubpassData", [.inputAttachment]⟩]

/-- The decorations of an id or of a member. -/
def decorations : List Enumerant := [
  ⟨0, "RelaxedPrecision", [.shader]⟩,
  ⟨1, "SpecId", [.shader]⟩,
  ⟨2, "Block", [.shader]⟩,
  ⟨3, "BufferBlock", [.shader]⟩,
  ⟨4, "RowMajor", [.matrix]⟩,
  ⟨5, "ColMajor", [.matrix]⟩,
  ⟨6, "ArrayStride", [.shader]⟩,
  ⟨7, "MatrixStride", [.shader]⟩,
  ⟨8, "GLSLShared", [.shader]⟩,
  ⟨9, "GLSLPacked", [.shader]⟩,
  ⟨10, "CPacked", [.kernel]⟩,
  ⟨11, "BuiltIn", []⟩,
  ⟨13, "NoPerspective", [.shader]⟩,
  ⟨14, "Flat", [.shader]⟩,
  ⟨15, "Patch", [.tessellation]⟩,
  ⟨16, "Centroid", [.shader]⟩,
  ⟨17, "Sample", [.shader]⟩,
  ⟨18, "Invariant", [.shader]⟩,
  ⟨19, "Restrict", []⟩,
  ⟨20, "Aliased", []⟩,
  ⟨21, "Volatile", []⟩,
  ⟨22, "Constant", [.kernel]⟩,
  ⟨23, "Coherent", []⟩,
  ⟨24, "NonWritable", []⟩,
  ⟨25, "NonReadable", []⟩,
  ⟨26, "Uniform", [.shader]⟩,
  ⟨28, "SaturatedConversion", [.kernel]⟩,
  ⟨29, "Stream", [.geometryStreams]⟩,
  ⟨30, "Location", [.shader]⟩,
  ⟨31, "Component", [.shader]⟩,
  ⟨32, "Index", [.shader]⟩,
  ⟨33, "Binding", [.shader]⟩,
  ⟨34, "DescriptorSet", [.shader]⟩,
  ⟨35, "Offset", []⟩,
  ⟨36, "XfbBuffer", [.transformFeedback]⟩,
  ⟨37, "XfbStride", [.transformFeedback]⟩,
  ⟨38, "FuncParamAttr", [.kernel]⟩,
  ⟨39, "FPRoundingMode", [.kernel]⟩,
  ⟨40, "FPFastMathMode", [.kernel]⟩,
  ⟨41, "LinkageAttributes", [.linkage]⟩,
  ⟨42, "NoContraction", [.shader]⟩,
  ⟨43, "InputAttachmentIndex", [.inputAttachment]⟩,
  ⟨44, "Alignment", [.kernel]⟩]

/-- The values known for a kind. -/
def enumerants : OperandKind → List Enumerant
  | .capability => Capability.all.map (·.enumerant)
  | .addressingModel => AddressingModel.all.map (·.enumerant)
  | .memoryModel => MemoryModel.all.map (·.enumerant)
  | .executionModel => executionModels
  | .executionMode => executionModes
  | .storageClass => storageClasses
  | .dim => dims
  | .decoration => decorations
  | .scope => Scope.all.map (·.enumerant)
  | .memorySemantics => []

/-- The row of the value with this code. -/
def find? (kind : OperandKind) (code : Nat) : Option Enumerant :=
  kind.enumerants.find? (·.code == code)

/-- The name of a value. Memory semantics have no single name. -/
def name? (kind : OperandKind) (code : Nat) : Option String := (kind.find? code).map (·.name)

/-- The capabilities a value depends on, or `none` if the value is not known. -/
def requires? (kind : OperandKind) (code : Nat) : Option (List Capability) :=
  match kind with
  | .memorySemantics => Semantics.bitRequires? code
  | kind => (kind.find? code).map (·.capabilities)

end OperandKind

end SpirvAudit
