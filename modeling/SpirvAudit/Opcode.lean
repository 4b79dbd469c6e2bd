/-
Opcodes: the instructions a module may consist of.

Each opcode has one row: its code, its name, what it leaves behind (nothing,
an id, or an id with a type), and the capabilities of which one has to be
declared before it is used. The names are those of the grammar without their
`Op`, as diagnostics give them.
-/
import SpirvAudit.Capability

namespace SpirvAudit

/-- What an instruction leaves behind. -/
inductive ResultForm
  | nothing | id | typedId
deriving DecidableEq, Repr

/-- The instructions a module may consist of. -/
inductive Opcode
  | opNop | opUndef | opSourceContinued | opSource | opSourceExtension | opName | opMemberName
  | opString | opLine | opExtension | opExtInstImport | opExtInst | opMemoryModel | opEntryPoint
  | opExecutionMode | opCapability | opTypeVoid | opTypeBool | opTypeInt | opTypeFloat
  | opTypeVector | opTypeMatrix | opTypeImage | opTypeSampler | opTypeSampledImage | opTypeArray
  | opTypeRuntimeArray | opTypeStruct | opTypeOpaque | opTypePointer | opTypeFunction
  | opConstantTrue | opConstantFalse | opConstant | opConstantComposite | opConstantSampler
  | opConstantNull | opSpecConstantTrue | opSpecConstantFalse | opSpecConstant
  | opSpecConstantComposite | opSpecConstantOp | opFunction | opFunctionParameter | opFunctionEnd
  | opFunctionCall | opVariable | opLoad | opStore | opCopyMemory | opAccessChain
  | opInBoundsAccessChain | opPtrAccessChain | opDecorate | opMemberDecorate | opVectorShuffle
  | opCompositeConstruct | opCompositeExtract | opCompositeInsert | opConvertFToU | opConvertFToS
  | opConvertSToF | opConvertUToF | opBitcast | opIAdd | opFAdd | opISub | opFSub | opIMul | opFMul
  | opUDiv | opSDiv | opFDiv | opLogicalNot | opSelect | opIEqual | opINotEqual | opUGreaterThan
  | opSGreaterThan | opULessThan | opSLessThan | opShiftLeftLogical | opBitwiseOr | opBitwiseAnd
  | opControlBarrier | opMemoryBarrier | opAtomicLoad | opAtomicStore | opAtomicExchange
  | opAtomicCompareExchange | opAtomicCompareExchangeWeak | opAtomicIIncrement | opAtomicIDecrement
  | opAtomicIAdd | opAtomicISub | opAtomicSMin | opAtomicUMin | opAtomicSMax | opAtomicUMax
  | opAtomicAnd | opAtomicOr | opAtomicXor | opPhi | opLoopMerge | opSelectionMerge | opLabel
  | opBranch | opBranchConditional | opSwitch | opKill | opReturn | opReturnValue | opUnreachable
  | opNoLine | opAtomicFlagTestAndSet | opAtomicFlagClear | opMemoryNamedBarrier
  | opModuleProcessed | opExecutionModeId | opDecorateId | opAtomicFMinEXT | opAtomicFMaxEXT
  | opAtomicFAddEXT
deriving DecidableEq, Repr

namespace Opcode

/-- The row of an opcode. -/
structure Entry where
  code : Nat
  name : String
  result : ResultForm
  requires : List Capability

def entry : Opcode → Entry
  | .opNop => ⟨0, "Nop", .nothing, []⟩
  | .opUndef => ⟨1, "Undef", .typedId, []⟩
  | .opSourceContinued => ⟨2, "SourceContinued", .nothing, []⟩
  | .opSource => ⟨3, "Source", .nothing, []⟩
  | .opSourceExtension => ⟨4, "SourceExtension", .nothing, []⟩
  | .opName => ⟨5, "Name", .nothing, []⟩
  | .opMemberName => ⟨6, "MemberName", .nothing, []⟩
  | .opString => ⟨7, "String", .id, []⟩
  | .opLine => ⟨8, "Line", .nothing, []⟩
  | .opExtension => ⟨10, "Extension", .nothing, []⟩
  | .opExtInstImport => ⟨11, "ExtInstImport", .id, []⟩
  | .opExtInst => ⟨12, "ExtInst", .typedId, []⟩
  | .opMemoryModel => ⟨14, "MemoryModel", .nothing, []⟩
  | .opEntryPoint => ⟨15, "EntryPoint", .nothing, []⟩
  | .opExecutionMode => ⟨16, "ExecutionMode", .nothing, []⟩
  | .opCapability => ⟨17, "Capability", .nothing, []⟩
  | .opTypeVoid => ⟨19, "TypeVoid", .id, []⟩
  | .opTypeBool => ⟨20, "TypeBool", .id, []⟩
  | .opTypeInt => ⟨21, "TypeInt", .id, []⟩
  | .opTypeFloat => ⟨22, "TypeFloat", .id, []⟩
  | .opTypeVector => ⟨23, "TypeVector", .id, []⟩
  | .opTypeMatrix => ⟨24, "TypeMatrix", .id, [.matrix]⟩
  | .opTypeImage => ⟨25, "TypeImage", .id, []⟩
  | .opTypeSampler => ⟨26, "TypeSampler", .id, []⟩
  | .opTypeSampledImage => ⟨27, "TypeSampledImage", .id, []⟩
  | .opTypeArray => ⟨28, "TypeArray", .id, []⟩
  | .opTypeRuntimeArray => ⟨29, "TypeRuntimeArray", .id, [.shader]⟩
  | .opTypeStruct => ⟨30, "TypeStruct", .id, []⟩
  | .opTypeOpaque => ⟨31, "TypeOpaque", .id, [.kernel]⟩
  | .opTypePointer => ⟨32, "TypePointer", .id, []⟩
  | .opTypeFunction => ⟨33, "TypeFunction", .id, []⟩
  | .opConstantTrue => ⟨41, "ConstantTrue", .typedId, []⟩
  | .opConstantFalse => ⟨42, "ConstantFalse", .typedId, []⟩
  | .opConstant => ⟨43, "Constant", .typedId, []⟩
  | .opConstantComposite => ⟨44, "ConstantComposite", .typedId, []⟩
  | .opConstantSampler => ⟨45, "ConstantSampler", .typedId, [.literalSampler]⟩
  | .opConstantNull => ⟨46, "ConstantNull", .typedId, []⟩
  | .opSpecConstantTrue => ⟨48, "SpecConstantTrue", .typedId, []⟩
  | .opSpecConstantFalse => ⟨49, "SpecConstantFalse", .typedId, []⟩
  | .opSpecConstant => ⟨50, "SpecConstant", .typedId, []⟩
  | .opSpecConstantComposite => ⟨51, "SpecConstantComposite", .typedId, []⟩
  | .opSpecConstantOp => ⟨52, "SpecConstantOp", .typedId, []⟩
  | .opFunction => ⟨54, "Function", .typedId, []⟩
  | .opFunctionParameter => ⟨55, "FunctionParameter", .typedId, []⟩
  | .opFunctionEnd => ⟨56, "FunctionEnd", .nothing, []⟩
  | .opFunctionCall => ⟨57, "FunctionCall", .typedId, []⟩
  | .opVariable => ⟨59, "Variable", .typedId, []⟩
  | .opLoad => ⟨61, "Load", .typedId, []⟩
  | .opStore => ⟨62, "Store", .nothing, []⟩
  | .opCopyMemory => ⟨63, "CopyMemory", .nothing, []⟩
  | .opAccessChain => ⟨65, "AccessChain", .typedId, []⟩
  | .opInBoundsAccessChain => ⟨66, "InBoundsAccessChain", .typedId, []⟩
  | .opPtrAccessChain => ⟨67, "PtrAccessChain", .typedId, [.addresses]⟩
  | .opDecorate => ⟨71, "Decorate", .nothing, []⟩
  | .opMemberDecorate => ⟨72, "MemberDecorate", .nothing, []⟩
  | .opVectorShuffle => ⟨79, "VectorShuffle", .typedId, []⟩
  | .opCompositeConstruct => ⟨80, "CompositeConstruct", .typedId, []⟩
  | .opCompositeExtract => ⟨81, "CompositeExtract", .typedId, []⟩
  | .opCompositeInsert => ⟨82, "CompositeInsert", .typedId, []⟩
  | .opConvertFToU => ⟨109, "ConvertFToU", .typedId, []⟩
  | .opConvertFToS => ⟨110, "ConvertFToS", .typedId, []⟩
  | .opConvertSToF => ⟨111, "ConvertSToF", .typedId, []⟩
  | .opConvertUToF => ⟨112, "ConvertUToF", .typedId, []⟩
  | .opBitcast => ⟨124, "Bitcast", .typedId, []⟩
  | .opIAdd => ⟨128, "IAdd", .typedId, []⟩
  | .opFAdd => ⟨129, "FAdd", .typedId, []⟩
  | .opISub => ⟨130, "ISub", .typedId, []⟩
  | .opFSub => ⟨131, "FSub", .typedId, []⟩
  | .opIMul => ⟨132, "IMul", .typedId, []⟩
  | .opFMul => ⟨133, "FMul", .typedId, []⟩
  | .opUDiv => ⟨134, "UDiv", .typedId, []⟩
  | .opSDiv => ⟨135, "SDiv", .typedId, []⟩
  | .opFDiv => ⟨136, "FDiv", .typedId, []⟩
  | .opLogicalNot => ⟨168, "LogicalNot", .typedId, []⟩
  | .opSelect => ⟨169, "Select", .typedId, []⟩
  | .opIEqual => ⟨170, "IEqual", .typedId, []⟩
  | .opINotEqual => ⟨171, "INotEqual", .typedId, []⟩
  | .opUGreaterThan => ⟨172, "UGreaterThan", .typedId, []⟩
  | .opSGreaterThan => ⟨173, "SGreaterThan", .typedId, []⟩
  | .opULessThan => ⟨176, "ULessThan", .typedId, []⟩
  | .opSLessThan => ⟨177, "SLessThan", .typedId, []⟩
  | .opShiftLeftLogical => ⟨196, "ShiftLeftLogical", .typedId, []⟩
  | .opBitwiseOr => ⟨197, "BitwiseOr", .typedId, []⟩
  | .opBitwiseAnd => ⟨199, "BitwiseAnd", .typedId, []⟩
  | .opControlBarrier => ⟨224, "ControlBarrier", .nothing, []⟩
  | .opMemoryBarrier => ⟨225, "MemoryBarrier", .nothing, []⟩
  | .opAtomicLoad => ⟨227, "AtomicLoad", .typedId, []⟩
  | .opAtomicStore => ⟨228, "AtomicStore", .nothing, []⟩
  | .opAtomicExchange => ⟨229, "AtomicExchange", .typedId, []⟩
  | .opAtomicCompareExchange => ⟨230, "AtomicCompareExchange", .typedId, []⟩
  | .opAtomicCompareExchangeWeak => ⟨231, "AtomicCompareExchangeWeak", .typedId, [.kernel]⟩
  | .opAtomicIIncrement => ⟨232, "AtomicIIncrement", .typedId, []⟩
  | .opAtomicIDecrement => ⟨233, "AtomicIDecrement", .typedId, []⟩
  | .opAtomicIAdd => ⟨234, "AtomicIAdd", .typedId, []⟩
  | .opAtomicISub => ⟨235, "AtomicISub", .typedId, []⟩
  | .opAtomicSMin => ⟨236, "AtomicSMin", .typedId, []⟩
  | .opAtomicUMin => ⟨237, "AtomicUMin", .typedId, []⟩
  | .opAtomicSMax => ⟨238, "AtomicSMax", .typedId, []⟩
  | .opAtomicUMax => ⟨239, "AtomicUMax", .typedId, []⟩
  | .opAtomicAnd => ⟨240, "AtomicAnd", .typedId, []⟩
  | .opAtomicOr => ⟨241, "AtomicOr", .typedId, []⟩
  | .opAtomicXor => ⟨242, "AtomicXor", .typedId, []⟩
  | .opPhi => ⟨245, "Phi", .typedId, []⟩
  | .opLoopMerge => ⟨246, "LoopMerge", .nothing, []⟩
  | .opSelectionMerge => ⟨247, "SelectionMerge", .nothing, []⟩
  | .opLabel => ⟨248, "Label", .id, []⟩
  | .opBranch => ⟨249, "Branch", .nothing, []⟩
  | .opBranchConditional => ⟨250, "BranchConditional", .nothing, []⟩
  | .opSwitch => ⟨251, "Switch", .nothing, []⟩
  | .opKill => ⟨252, "Kill", .nothing, [.shader]⟩
  | .opReturn => ⟨253, "Return", .nothing, []⟩
  | .opReturnValue => ⟨254, "ReturnValue", .nothing, []⟩
  | .opUnreachable => ⟨255, "Unreachable", .nothing, []⟩
  | .opNoLine => ⟨317, "NoLine", .nothing, []⟩
  | .opAtomicFlagTestAndSet => ⟨318, "AtomicFlagTestAndSet", .typedId, [.kernel]⟩
  | .opAtomicFlagClear => ⟨319, "AtomicFlagClear", .nothing, [.kernel]⟩
  | .opMemoryNamedBarrier => ⟨329, "MemoryNamedBarrier", .nothing, [.namedBarrier]⟩
  | .opModuleProcessed => ⟨330, "ModuleProcessed", .nothing, []⟩
  | .opExecutionModeId => ⟨331, "ExecutionModeId", .nothing, []⟩
  | .opDecorateId => ⟨332, "DecorateId", .nothing, []⟩
  | .opAtomicFMinEXT => ⟨5614, "AtomicFMinEXT", .typedId, [.atomicFloat32MinMaxEXT]⟩
  | .opAtomicFMaxEXT => ⟨5615, "AtomicFMaxEXT", .typedId, [.atomicFloat32MinMaxEXT]⟩
  | .opAtomicFAddEXT => ⟨6035, "AtomicFAddEXT", .typedId, [.atomicFloat32AddEXT]⟩

def code (op : Opcode) : Nat := op.entry.code

def name (op : Opcode) : String := op.entry.name

/-- The capabilities of which one has to be declared, or none if the opcode is free to use. -/
def requires (op : Opcode) : List Capability := op.entry.requires

/-- Whether the instruction names the type of its result. -/
def hasResultType (op : Opcode) : Bool := op.entry.result == .typedId

/-- Whether the instruction defines an id. -/
def hasResult (op : Opcode) : Bool := op.entry.result != .nothing

/-- Every opcode, in the order of the grammar. -/
def all : List Opcode := [
  .opNop, .opUndef, .opSourceContinued, .opSource, .opSourceExtension, .opName, .opMemberName,
  .opString, .opLine, .opExtension, .opExtInstImport, .opExtInst, .opMemoryModel, .opEntryPoint,
  .opExecutionMode, .opCapability, .opTypeVoid, .opTypeBool, .opTypeInt, .opTypeFloat,
  .opTypeVector, .opTypeMatrix, .opTypeImage, .opTypeSampler, .opTypeSampledImage, .opTypeArray,
  .opTypeRuntimeArray, .opTypeStruct, .opTypeOpaque, .opTypePointer, .opTypeFunction,
  .opConstantTrue, .opConstantFalse, .opConstant, .opConstantComposite, .opConstantSampler,
  .opConstantNull, .opSpecConstantTrue, .opSpecConstantFalse, .opSpecConstant,
  .opSpecConstantComposite, .opSpecConstantOp, .opFunction, .opFunctionParameter, .opFunctionEnd,
  .opFunctionCall, .opVariable, .opLoad, .opStore, .opCopyMemory, .opAccessChain,
  .opInBoundsAccessChain, .opPtrAccessChain, .opDecorate, .opMemberDecorate, .opVectorShuffle,
  .opCompositeConstruct, .opCompositeExtract, .opCompositeInsert, .opConvertFToU, .opConvertFToS,
  .opConvertSToF, .opConvertUToF, .opBitcast, .opIAdd, .opFAdd, .opISub, .opFSub, .opIMul, .opFMul,
  .opUDiv, .opSDiv, .opFDiv, .opLogicalNot, .opSelect, .opIEqual, .opINotEqual, .opUGreaterThan,
  .opSGreaterThan, .opULessThan, .opSLessThan, .opShiftLeftLogical, .opBitwiseOr, .opBitwiseAnd,
  .opControlBarrier, .opMemoryBarrier, .opAtomicLoad, .opAtomicStore, .opAtomicExchange,
  .opAtomicCompareExchange, .opAtomicCompareExchangeWeak, .opAtomicIIncrement, .opAtomicIDecrement,
  .opAtomicIAdd, .opAtomicISub, .opAtomicSMin, .opAtomicUMin, .opAtomicSMax, .opAtomicUMax,
  .opAtomicAnd, .opAtomicOr, .opAtomicXor, .opPhi, .opLoopMerge, .opSelectionMerge, .opLabel,
  .opBranch, .opBranchConditional, .opSwitch, .opKill, .opReturn, .opReturnValue, .opUnreachable,
  .opNoLine, .opAtomicFlagTestAndSet, .opAtomicFlagClear, .opMemoryNamedBarrier,
  .opModuleProcessed, .opExecutionModeId, .opDecorateId, .opAtomicFMinEXT, .opAtomicFMaxEXT,
  .opAtomicFAddEXT]

/-- The opcode with this code. -/
def ofCode? (code : Nat) : Option Opcode := all.find? (·.code == code)

/-! ## Classes -/

def isAtomic : Opcode → Bool
  | .opAtomicLoad | .opAtomicStore | .opAtomicExchange | .opAtomicCompareExchange
  | .opAtomicCompareExchangeWeak | .opAtomicIIncrement | .opAtomicIDecrement | .opAtomicIAdd
  | .opAtomicISub | .opAtomicSMin | .opAtomicUMin | .opAtomicSMax | .opAtomicUMax | .opAtomicAnd
  | .opAtomicOr | .opAtomicXor | .opAtomicFlagTestAndSet | .opAtomicFlagClear | .opAtomicFMinEXT
  | .opAtomicFMaxEXT | .opAtomicFAddEXT => true
  | _ => false

def isBarrier : Opcode → Bool
  | .opControlBarrier | .opMemoryBarrier | .opMemoryNamedBarrier => true
  | _ => false

/-- Constants whose value is chosen when the module is specialized. -/
def isSpecConstant : Opcode → Bool
  | .opSpecConstantTrue | .opSpecConstantFalse | .opSpecConstant | .opSpecConstantComposite
  | .opSpecConstantOp => true
  | _ => false

/-- Constants, those chosen at specialization among them. -/
def isConstant : Opcode → Bool
  | .opConstantTrue | .opConstantFalse | .opConstant | .opConstantComposite | .opConstantSampler
  | .opConstantNull => true
  | op => op.isSpecConstant

/-- Atomics that store only if the old value is the expected one. They order the two outcomes apart. -/
def isCompareExchange : Opcode → Bool
  | .opAtomicCompareExchange | .opAtomicCompareExchangeWeak => true
  | _ => false

@[simp] theorem mem_all (op : Opcode) : op ∈ all := by
  cases op <;> decide

@[simp] theorem ofCode?_code (op : Opcode) : ofCode? op.code = some op := by
  cases op <;> rfl

theorem ofCode?_eq_some_iff {code : Nat} {op : Opcode} : ofCode? code = some op ↔ op.code = code := by
  refine ⟨fun h => ?_, fun h => h ▸ ofCode?_code op⟩
  simpa using List.find?_some h

/-- A code fits the low half of a word. -/
theorem code_lt (op : Opcode) : op.code < 65536 := by
  cases op <;> decide

end Opcode

end SpirvAudit
