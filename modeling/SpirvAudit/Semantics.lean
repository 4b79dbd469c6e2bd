/-
Memory semantics: the operand of atomics and barriers that says how memory
accesses are ordered, and for which storage.

A semantics word is a set of flags, with room for bits that are no flag. It
is kept as the word it is, so such bits are not lost, and it is seen through
membership: `f ∈ s` when the bit of `f` is set. The flags fall into the memory
orders, of which at most one may be set (none means relaxed), the storage the
ordering applies to, and the modifiers of the Vulkan memory model.
-/
import SpirvAudit.Capability
import SpirvAudit.Word

namespace SpirvAudit

/-- A memory-semantics word. -/
structure Semantics where
  raw : Word
deriving DecidableEq, Repr

namespace Semantics

/-- The flags of a memory-semantics word. -/
inductive Flag
  | acquire | release | acquireRelease | sequentiallyConsistent | uniformMemory | subgroupMemory
  | workgroupMemory | crossWorkgroupMemory | atomicCounterMemory | imageMemory | outputMemory
  | makeAvailable | makeVisible | volatile
deriving DecidableEq, Repr

namespace Flag

/-- The row of a flag. -/
structure Entry where
  bit : Nat
  /-- The flag as the grammar and the rules name it. -/
  title : String
  /-- The flag as the text of a word names it. -/
  name : String
  /-- The capabilities of which one has to be declared. -/
  requires : List Capability

def entry : Flag → Entry
  | .acquire => ⟨1, "Acquire", "ACQUIRE", []⟩
  | .release => ⟨2, "Release", "RELEASE", []⟩
  | .acquireRelease => ⟨3, "AcquireRelease", "ACQUIRE_RELEASE", []⟩
  | .sequentiallyConsistent => ⟨4, "SequentiallyConsistent", "SEQUENTIALLY_CONSISTENT", []⟩
  | .uniformMemory => ⟨6, "UniformMemory", "UNIFORM_MEMORY", [.shader]⟩
  | .subgroupMemory => ⟨7, "SubgroupMemory", "SUBGROUP_MEMORY", []⟩
  | .workgroupMemory => ⟨8, "WorkgroupMemory", "WORKGROUP_MEMORY", []⟩
  | .crossWorkgroupMemory => ⟨9, "CrossWorkgroupMemory", "CROSS_WORKGROUP_MEMORY", []⟩
  | .atomicCounterMemory => ⟨10, "AtomicCounterMemory", "ATOMIC_COUNTER_MEMORY", [.shader]⟩
  | .imageMemory => ⟨11, "ImageMemory", "IMAGE_MEMORY", []⟩
  | .outputMemory => ⟨12, "OutputMemory", "OUTPUT_MEMORY", [.vulkanMemoryModel]⟩
  | .makeAvailable => ⟨13, "MakeAvailable", "MAKE_AVAILABLE", [.vulkanMemoryModel]⟩
  | .makeVisible => ⟨14, "MakeVisible", "MAKE_VISIBLE", [.vulkanMemoryModel]⟩
  | .volatile => ⟨15, "Volatile", "VOLATILE", [.vulkanMemoryModel]⟩

def bit (f : Flag) : Nat := f.entry.bit

def title (f : Flag) : String := f.entry.title

def name (f : Flag) : String := f.entry.name

def requires (f : Flag) : List Capability := f.entry.requires

/-- The word in which this flag alone is set. -/
def mask (f : Flag) : Word := UInt32.ofNat (1 <<< f.bit)

/-- Every flag, lowest bit first. -/
def all : List Flag := [
  .acquire, .release, .acquireRelease, .sequentiallyConsistent, .uniformMemory, .subgroupMemory,
  .workgroupMemory, .crossWorkgroupMemory, .atomicCounterMemory, .imageMemory, .outputMemory,
  .makeAvailable, .makeVisible, .volatile]

/-- The memory orders other than relaxed. -/
def orders : List Flag := [.acquire, .release, .acquireRelease, .sequentiallyConsistent]

/-- The storage whose accesses Vulkan orders. The other storage flags have no effect there. -/
def vulkanStorage : List Flag := [.uniformMemory, .workgroupMemory, .imageMemory, .outputMemory]

@[simp] theorem mem_all (f : Flag) : f ∈ all := by
  cases f <;> decide

theorem bit_lt (f : Flag) : f.bit < 16 := by
  cases f <;> decide

end Flag

instance : Membership Flag Semantics where
  mem s f := s.raw.toNat.testBit f.bit = true

instance (f : Flag) (s : Semantics) : Decidable (f ∈ s) :=
  inferInstanceAs (Decidable (_ = true))

theorem mem_def {f : Flag} {s : Semantics} : f ∈ s ↔ s.raw.toNat.testBit f.bit = true := Iff.rfl

/-- The word in which the given flags are set. -/
def ofFlags (l : List Flag) : Semantics := ⟨l.foldl (fun w f => w ||| f.mask) 0⟩

/-- The word in which no bit is set. -/
def empty : Semantics := ⟨0⟩

instance : EmptyCollection Semantics := ⟨empty⟩

instance : Inhabited Semantics := ⟨∅⟩

/-- The word in which every flag is set. -/
def all : Semantics := ofFlags Flag.all

instance : Union Semantics where
  union s t := ⟨s.raw ||| t.raw⟩

instance : Inter Semantics where
  inter s t := ⟨s.raw &&& t.raw⟩

instance : SDiff Semantics where
  sdiff s t := ⟨s.raw &&& ~~~t.raw⟩

/-- The bits set in one of the two words but not in both. -/
def symmDiff (s t : Semantics) : Semantics := ⟨s.raw ^^^ t.raw⟩

/-- The flags that are not set. Bits that are no flag are left out. -/
def compl (s : Semantics) : Semantics := all \ s

/-- The bits that are no flag. -/
def unknown (s : Semantics) : Semantics := s \ all

instance : HasSubset Semantics where
  Subset s t := t ∩ s = s

instance (s t : Semantics) : Decidable (s ⊆ t) :=
  inferInstanceAs (Decidable (_ = _))

/-- Whether the two words have a bit in common. -/
def meets (s t : Semantics) : Bool := s ∩ t != ∅

/-- The number of bits that are set. -/
def bitCount (s : Semantics) : Nat := (List.range 32).countP s.raw.toNat.testBit

/-- The memory orders that are set. -/
def orders (s : Semantics) : List Flag := Flag.orders.filter (· ∈ s)

/-- The flags that are set. -/
def flags (s : Semantics) : List Flag := Flag.all.filter (· ∈ s)

/-- Whether one of the given flags is set. -/
def hasAny (s : Semantics) (l : List Flag) : Bool := l.any (· ∈ s)

/-- The capabilities of which one has to be declared to set the only bit of
`code`, if that bit is a flag. No bit needs no capability. -/
def bitRequires? (code : Nat) : Option (List Capability) :=
  if code = 0 then some [] else (Flag.all.find? (1 <<< ·.bit == code)).map (·.requires)

/-! ## Membership -/

@[simp] theorem not_mem_empty (f : Flag) : f ∉ (∅ : Semantics) := by
  change ¬ (Nat.testBit 0 f.bit = true)
  simp

@[simp] theorem mem_union {f : Flag} {s t : Semantics} : f ∈ s ∪ t ↔ f ∈ s ∨ f ∈ t := by
  change (s.raw ||| t.raw).toNat.testBit f.bit = true ↔ _
  simp [mem_def]

@[simp] theorem mem_inter {f : Flag} {s t : Semantics} : f ∈ s ∩ t ↔ f ∈ s ∧ f ∈ t := by
  change (s.raw &&& t.raw).toNat.testBit f.bit = true ↔ _
  simp [mem_def]

@[simp] theorem mem_flags {f : Flag} {s : Semantics} : f ∈ s.flags ↔ f ∈ s := by
  simp [flags]

@[simp] theorem mem_orders {f : Flag} {s : Semantics} : f ∈ s.orders ↔ f ∈ Flag.orders ∧ f ∈ s := by
  simp [orders]

end Semantics

end SpirvAudit
