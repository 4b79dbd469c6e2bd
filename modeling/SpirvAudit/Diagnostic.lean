/-
Diagnostics: what is told of the one violation that rejects a module.

A diagnostic has a short text of one line and a long one of several. Both
open with the opcode and with what is wrong; the capabilities that would have
helped and the rule that was violated follow where there are any.
-/
import SpirvAudit.Opcode

namespace SpirvAudit

/-- The category of a diagnostic. -/
inductive Kind
  /-- An operand has the wrong type or an unknown value. -/
  | malformedOperand
  /-- A value or an opcode needs a capability that is not declared. -/
  | missingCapability
  /-- Values that are valid one by one do not go together. -/
  | invalidCombination
deriving DecidableEq, Repr

namespace Kind

instance : Inhabited Kind := ⟨.malformedOperand⟩

def name : Kind → String
  | malformedOperand => "MalformedOperand"
  | missingCapability => "MissingCapability"
  | invalidCombination => "InvalidCombination"

end Kind

structure Diagnostic where
  kind : Kind := default
  opcode : Option Opcode
  /-- What the problem is about, empty if it is the instruction or the module as a whole. -/
  context : String
  problem : String
  /-- The capabilities of which any one would have helped. -/
  requires : List Capability
  /-- The identity of the rule, empty if it has none. -/
  rule : String
deriving DecidableEq, Repr

namespace Diagnostic

def quote (c : Capability) : String := "capability `" ++ c.name ++ "`"

/-- The capabilities of which one is required, as a phrase. -/
def requiresText : List Capability → String
  | [] => ""
  | [c] => "requires " ++ quote c
  | cs => "requires one of: " ++ " or ".intercalate (cs.map quote)

/-- The opcode and what is wrong. -/
def headline (d : Diagnostic) : String :=
  (d.opcode.elim "" fun op => op.name ++ ": ") ++
    if d.context.isEmpty then d.problem else d.context ++ " " ++ d.problem

/-- The text of one line. -/
def display (d : Diagnostic) : String :=
  d.headline ++
    (if d.requires.isEmpty then "" else " -- " ++ requiresText d.requires) ++
    if d.rule.isEmpty then "" else " (" ++ d.rule ++ ")"

/-- The text of several lines. -/
def detail (d : Diagnostic) : String :=
  d.headline ++
    (if d.requires.isEmpty then "" else "\n\nRequires one of:\n    " ++ requiresText d.requires) ++
    if d.rule.isEmpty then "" else "\n\nRule: " ++ d.rule

instance : ToString Diagnostic := ⟨display⟩

end Diagnostic

/-- Why there is no valid module: an error of another kind, or a diagnostic. -/
inductive Failure (ε : Type)
  | other (error : ε)
  | invalid (diagnostic : Diagnostic)
deriving DecidableEq, Repr

namespace Failure

variable {ε ε' : Type}

/-- Changes the error of another kind. -/
def map (f : ε → ε') : Failure ε → Failure ε'
  | other e => .other (f e)
  | invalid d => .invalid d

def diagnostic? : Failure ε → Option Diagnostic
  | other _ => none
  | invalid d => some d

/-- The text of what lies behind the failure. -/
def source [ToString ε] : Failure ε → String
  | other e => toString e
  | invalid d => d.display

/-- The text of one line. -/
def display [ToString ε] : Failure ε → String
  | other e => "a non-validation error occurred: " ++ toString e
  | invalid d => "a validation error occurred: " ++ d.display

/-- The text of several lines. -/
def detail (errorDetail : ε → String) : Failure ε → String
  | other e => "a non-validation error occurred: " ++ errorDetail e
  | invalid d => "a validation error occurred\n\nCaused by:\n    " ++ d.detail

instance [ToString ε] : ToString (Failure ε) := ⟨display⟩

end Failure

end SpirvAudit
