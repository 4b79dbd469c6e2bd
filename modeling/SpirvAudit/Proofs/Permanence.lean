/-
What is known of an id stays as it is.

A type, the type of a value and the constant an id folds to are looked up in the
definitions, one after another where the type of a value is asked for. Since a
definition stays, declarations only ever get to know more ids (`Extends`), and a
lookup that has found something finds the same later, along its whole chain. Only
what is not known yet can change: an id may be defined before its type is, and it
is a 32-bit int from the time when both are.
-/
import SpirvAudit.Proofs.Folding

namespace SpirvAudit.Declarations

variable {d d' : Declarations} {id : Id} {t : DeclaredType} {is js : List Instruction}

/-! ## More definitions -/

/-- The ids that `d` defines have the same definitions in `d'`. -/
def Extends (d d' : Declarations) : Prop :=
  ∀ id x, d.definition? id = some x → d'.definition? id = some x

theorem extends_registerEach (d : Declarations) (js : List Instruction) : d.Extends (d.registerEach js) :=
  fun _ _ => definition?_registerEach_of_eq_some

/-- Registering in place extends the declarations, whether or not each instruction can be registered. -/
theorem extends_of_registerAll (h : (registerAll js).run d = ((), d')) : d.Extends d' := by
  rw [run_registerAll] at h
  exact (Prod.mk.inj h).2 ▸ extends_registerEach d js

namespace Extends

theorem type?_eq_some (h : d.Extends d') (ht : d.type? id = some t) : d'.type? id = some t := by
  obtain ⟨x, hx, hxt⟩ := Option.bind_eq_some_iff.mp ht
  rw [type?, h id x hx]
  exact hxt

/-- The type of a value is found by way of two definitions, and both of them stay. -/
theorem valueType?_eq_some (h : d.Extends d') (ht : d.valueType? id = some t) : d'.valueType? id = some t := by
  obtain ⟨resultType, hresult, hdeclared⟩ := Option.bind_eq_some_iff.mp ht
  obtain ⟨x, hx, hxr⟩ := Option.bind_eq_some_iff.mp hresult
  rw [valueType?, h id x hx, Option.bind_some, hxr]
  exact h.type?_eq_some hdeclared

theorem fold_eq (h : d.Extends d') (hid : d.fold id ≠ .notInt32) : d'.fold id = d.fold id := by
  have hint : (d.fold id).isInt32 = true := by
    cases hfold : d.fold id with
    | notInt32 => exact absurd hfold hid
    | runtime | constant => rfl
  obtain ⟨signed, htype⟩ := isInt32_fold_iff.mp hint
  obtain ⟨_, hresult, -⟩ := Option.bind_eq_some_iff.mp htype
  obtain ⟨x, hx, -⟩ := Option.bind_eq_some_iff.mp hresult
  rw [fold, fold, hx, h id x hx, htype, h.valueType?_eq_some htype]

end Extends

/-- **What is known of an id never changes.** Whatever instructions are registered on top of any
declarations, be it with or without an error and whichever ids they define once more: an id that is a 32-bit
int keeps what it folds to, a type that was declared keeps what it is, and a value keeps its type if it has
one. -/
theorem known_of_registerAll (h : (registerAll js).run d = ((), d')) (id : Id) :
    (d.fold id ≠ .notInt32 → d'.fold id = d.fold id) ∧
    (∀ t, d.type? id = some t → d'.type? id = some t) ∧
    ∀ t, d.valueType? id = some t → d'.valueType? id = some t :=
  have hextends := extends_of_registerAll h
  ⟨hextends.fold_eq, fun _ => hextends.type?_eq_some, fun _ => hextends.valueType?_eq_some⟩

/-- A constant that is defined, but not its type. -/
def untyped : Declarations := recorded default [⟨.opConstant, some 1, some 2, [4]⟩]

/-- The constant with the type that is declared after it. -/
def typed : Declarations := ((registerAll [⟨.opTypeInt, none, some 1, [32, 0]⟩]).run untyped).2

/-- Other definitions of both ids, after an instruction that cannot be registered. -/
def redefining : List Instruction := [
  ⟨.opMemoryModel, none, none, [0]⟩,
  ⟨.opConstant, some 1, some 2, [5]⟩,
  ⟨.opTypeFloat, none, some 1, [32]⟩]

/-- The constant is not known before its type is, and then stays what it is. -/
theorem known_of_registerAll_redefining :
    untyped.fold 2 = .notInt32 ∧ untyped.valueType? 2 = none ∧
    typed.fold 2 = .constant 4 ∧ typed.valueType? 2 = some (.int 32 false) ∧
    ∃ d, (registerAll redefining).run typed = ((), d) ∧
      d.fold 2 = .constant 4 ∧ d.type? 1 = some (.int 32 false) ∧ d.valueType? 2 = some (.int 32 false) := by
  have hfold : typed.fold 2 = .constant 4 := by cbv
  have htype : typed.type? 1 = some (.int 32 false) := by cbv
  have hvalue : typed.valueType? 2 = some (.int 32 false) := by cbv
  refine ⟨by cbv, by cbv, hfold, hvalue, _, rfl, ?_⟩
  obtain ⟨hfolds, -, hvalues⟩ := @known_of_registerAll typed _ redefining rfl 2
  obtain ⟨-, htypes, -⟩ := @known_of_registerAll typed _ redefining rfl 1
  exact ⟨(hfolds (by rw [hfold]; decide)).trans hfold, htypes _ htype, hvalues _ hvalue⟩

end SpirvAudit.Declarations
