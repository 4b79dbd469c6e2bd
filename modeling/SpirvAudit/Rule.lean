/-
Rules, and the texts that identify them.

The text of a rule stays the same when the wording of a problem changes, so
it is what one refers to. Vulkan numbers its rules; a rule of SPIR-V itself
is known by an area and a name.
-/
namespace SpirvAudit

/-- The text that identifies the Vulkan rule with this number. -/
def vuid? (number : Nat) : Option String :=
  if number ∈ [4636, 4638, 4641] then some ("VUID-StandaloneSpirv-None-0" ++ toString number)
  else if 10001 ≤ number ∧ number ≤ 10014 then
    some ("VUID-StandaloneSpirv-MemorySemantics-" ++ toString number)
  else none

/-- A rule: one of SPIR-V, by its area and name, or one of Vulkan, by its number. -/
inductive Rule
  | spirv (area name : String)
  | vulkan (number : Nat)
deriving DecidableEq, Repr

/-- The text that identifies a rule. -/
def Rule.text? : Rule → Option String
  | .spirv area name => some ("SPIRV-" ++ area ++ "-" ++ name)
  | .vulkan number => vuid? number

end SpirvAudit
