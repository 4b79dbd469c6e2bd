import SpirvAudit.Version
import SpirvAudit.Capability.Closure
import SpirvAudit.Opcode
import SpirvAudit.OperandKind
import SpirvAudit.Semantics.Text
import SpirvAudit.Module
import SpirvAudit.Environment
import SpirvAudit.Declarations.Fold
import SpirvAudit.Audit
import SpirvAudit.Proofs.Closure
import SpirvAudit.Proofs.Encoding
import SpirvAudit.Proofs.Registration
import SpirvAudit.Proofs.Walk
import SpirvAudit.Proofs.Appending
import SpirvAudit.Proofs.AcceptedSemantics
import SpirvAudit.Proofs.Admission
import SpirvAudit.Proofs.Agreement
import SpirvAudit.Proofs.Relaxation
import SpirvAudit.Proofs.Environments
import SpirvAudit.Proofs.ExtraCapability
import SpirvAudit.Proofs.DeclaredCapabilities
import SpirvAudit.Proofs.Hoisting
import SpirvAudit.Proofs.MemoryModels
import SpirvAudit.Proofs.PassiveInstructions
import SpirvAudit.Proofs.MissingCapabilities
import SpirvAudit.Proofs.Definitions
import SpirvAudit.Proofs.History
import SpirvAudit.Proofs.ByteOrder
import SpirvAudit.Proofs.Folding
import SpirvAudit.Proofs.SemanticsOrder
import SpirvAudit.Proofs.Traps
import SpirvAudit.Proofs.FlagRequirements
import SpirvAudit.Proofs.Requirements
import SpirvAudit.Proofs.ScopeOperands
import SpirvAudit.Proofs.AtomicTyping
import SpirvAudit.Proofs.OrderStrength
import SpirvAudit.Proofs.DecodeErrors
import SpirvAudit.Proofs.Literals
import SpirvAudit.Proofs.Permanence
import SpirvAudit.Proofs.SemanticsText
import SpirvAudit.Proofs.Versions
import SpirvAudit.Proofs.Worklist
