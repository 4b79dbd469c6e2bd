/-
Declarations in agreement.

Declarations that give the same answers to all that a check asks
(`Declarations.Agrees`) let the same instructions pass, and reject the others
for the same violation. It is the agreement of `Declarations.AgreesOn` for the
set of all ids, which no definition refers out of and no instruction leaves.
-/
import SpirvAudit.Proofs.Locality

namespace SpirvAudit.Declarations

variable {d d' : Declarations} {i : Instruction} {is : List Instruction}

/-- The answers to all that a check asks are the same. -/
structure Agrees (d d' : Declarations) : Prop extends SameModels d d' where
  has : d'.has = d.has
  definition? : d'.definition? = d.definition?
  isVulkan : d'.environment.isVulkan = d.environment.isVulkan

/-! ## Ids -/

theorem type?_congr (h : d'.definition? = d.definition?) : d'.type? = d.type? :=
  funext fun _ => (DefinesAlike.of_eq h).type? trivial

theorem isConstant_congr (h : d'.definition? = d.definition?) : d'.isConstant = d.isConstant :=
  funext fun _ => (DefinesAlike.of_eq h).isConstant trivial

theorem fold_congr (h : d'.definition? = d.definition?) : d'.fold = d.fold :=
  funext fun _ => (DefinesAlike.of_eq h).fold trivial

theorem equalSemantics_congr (h : d'.definition? = d.definition?) :
    d'.equalSemantics i = d.equalSemantics i :=
  (DefinesAlike.of_eq h).equalSemantics (.univ i)

theorem pointee_congr (h : d'.definition? = d.definition?) : d'.pointee i = d.pointee i :=
  (DefinesAlike.of_eq h).pointee (.univ i)

theorem checkNamedBarrier_congr (h : d'.definition? = d.definition?) :
    d'.checkNamedBarrier i = d.checkNamedBarrier i :=
  (DefinesAlike.of_eq h).checkNamedBarrier (.univ i)

/-! ## Checks -/

theorem Agrees.agreesOn (h : d.Agrees d') : AgreesOn Set.univ d d' :=
  { h.toSameModels, DefinesAlike.of_eq h.definition? with has := h.has, isVulkan := h.isVulkan }

theorem Agrees.check (h : d.Agrees d') : d'.check i = d.check i := h.agreesOn.check (.univ i)

theorem Agrees.checkEnd (h : d.Agrees d') : d'.checkEnd = d.checkEnd := h.agreesOn.checkEnd

/-! ## Walks -/

theorem definition?_registerOrSkip (hresult : i.result? = none) :
    (d.registerOrSkip i).definition? = d.definition? :=
  registerOrSkip_induction (P := fun e => e.definition? = d.definition?)
    (fun e hr => by funext id; rw [hr.definition?, hresult]; simp) rfl

theorem definition?_registerEach (hresult : ∀ i ∈ is, i.result? = none) :
    (d.registerEach is).definition? = d.definition? := by
  induction is generalizing d with
  | nil => rfl
  | cons i is ih =>
    obtain ⟨hi, his⟩ := List.forall_mem_cons.mp hresult
    rw [registerEach_cons, ih his, definition?_registerOrSkip hi]

theorem definition?_registerOrSkip_congr (h : d'.definition? = d.definition?) :
    (d'.registerOrSkip i).definition? = (d.registerOrSkip i).definition? :=
  funext fun id => definition?_registerOrSkip_eq (congrFun h id)

theorem Agrees.registerOrSkip (h : d.Agrees d') : (d.registerOrSkip i).Agrees (d'.registerOrSkip i) :=
  { h.agreesOn.registerOrSkip (.univ i) with definition? := definition?_registerOrSkip_congr h.definition? }

/-- Walks in agreement end alike, at the end of the module if not before. -/
theorem Agrees.run (h : d.Agrees d') :
    (d'.run is >>= Declarations.checkEnd) = (d.run is >>= Declarations.checkEnd) :=
  h.agreesOn.run fun i _ => .univ i

end SpirvAudit.Declarations
