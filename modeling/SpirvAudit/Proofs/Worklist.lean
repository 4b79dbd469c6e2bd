/-
The worklist of `Capability.closure` as a loop, turn by turn.

The loop works on a stack. A turn takes the top off and, unless it was found
before, finds it and puts what it implies on the stack, so the stack may grow as
well as shrink. It comes to an end all the same, because a capability is expanded
only once: what is on the stack, together with all that expanding the others could
put on it, gets less with every turn (`potential_turn`). `saturate` says where
the loop ends, and a turn does not change that (`outcome_turn`). Nothing is put on
the stack that is not taken off again, which gives the number of turns.
-/
import SpirvAudit.Proofs.Closure

namespace SpirvAudit.Capability

variable {next : Capability → List Capability} {c : Capability} {found pending : List Capability}

/-! ## The order of the result -/

/-- What is found stays where it is, and more is found behind it. -/
theorem prefix_saturate : found <+: saturate next found pending := by
  fun_induction saturate next found pending with
  | case1 => exact List.prefix_rfl
  | case2 found c pending _ ih => exact ih
  | case3 found c pending _ ih => exact (List.prefix_append found [c]).trans ih

theorem nodup_saturate (h : found.Nodup) : (saturate next found pending).Nodup := by
  fun_induction saturate next found pending with
  | case1 => exact h
  | case2 found c pending _ ih => exact ih h
  | case3 found c pending hc ih =>
    refine ih (List.nodup_append.mpr ⟨h, List.nodup_singleton c, ?_⟩)
    rintro x hx y hy rfl
    exact hc (List.mem_singleton.mp hy ▸ hx)

/-- The capability itself is found first. -/
theorem head?_closure : (closure next c).head? = some c := by
  have hprefix : [c] <+: closure next c := by
    rw [closure, saturate, if_neg List.not_mem_nil]
    exact prefix_saturate
  obtain ⟨rest, hrest⟩ := hprefix
  rw [← hrest]
  rfl

/-! ## Turns -/

/-- The worklist between two turns: what it has found, and the stack of what is pending, its top last. -/
structure Worklist where
  found : List Capability
  stack : List Capability

namespace Worklist

variable {w w' : Worklist}

/-- A turn, or `none` once the stack is empty. -/
def turn (next : Capability → List Capability) (w : Worklist) : Option Worklist :=
  w.stack.getLast?.map fun c =>
    if c ∈ w.found then { w with stack := w.stack.dropLast }
    else ⟨w.found ++ [c], w.stack.dropLast ++ next c⟩

/-- The worklist after `n` turns, if there are that many. -/
def turns (next : Capability → List Capability) : Nat → Worklist → Option Worklist
  | 0, w => some w
  | n + 1, w => (w.turn next).bind (turns next n)

/-- What the loop has found once the stack is empty. -/
def outcome (next : Capability → List Capability) (w : Worklist) : List Capability :=
  saturate next w.found w.stack.reverse

/-- A turn takes off a capability that was found before, or one that is found now and expanded. -/
theorem turn_cases (h : w.turn next = some w') : ∃ stack c, w.stack = stack ++ [c] ∧
    (c ∈ w.found ∧ w' = ⟨w.found, stack⟩ ∨ c ∉ w.found ∧ w' = ⟨w.found ++ [c], stack ++ next c⟩) := by
  obtain ⟨c, hc, hw⟩ := Option.map_eq_some_iff.mp h
  refine ⟨w.stack.dropLast, c, (List.dropLast_append_getLast? c hc).symm, ?_⟩
  by_cases hfound : c ∈ w.found
  · exact .inl ⟨hfound, by simpa [hfound] using hw.symm⟩
  · exact .inr ⟨hfound, by simpa [hfound] using hw.symm⟩

theorem turn_eq_none_iff : w.turn next = none ↔ w.stack = [] := by
  rw [turn, Option.map_eq_none_iff, List.getLast?_eq_none_iff]

/-! ## The end of the loop -/

/-- What is on the stack, and all that expanding what is not found could put on it. -/
def potential (next : Capability → List Capability) (w : Worklist) : Nat :=
  w.stack.length + unexpanded next w.found all

theorem potential_turn (h : w.turn next = some w') : w'.potential next < w.potential next := by
  obtain ⟨stack, c, hstack, ⟨-, rfl⟩ | ⟨hfound, rfl⟩⟩ := turn_cases h
  · simp [potential, hstack]
  · have hexpanded := unexpanded_append next hfound (mem_all c)
    simp only [potential, hstack, List.length_append, List.length_singleton]
    omega

/-- There is no endless run of turns. -/
theorem wellFounded_turn (next : Capability → List Capability) :
    WellFounded fun w' w : Worklist => w.turn next = some w' :=
  Subrelation.wf potential_turn (measure (potential next)).wf

/-- A turn does not change where the loop ends. -/
theorem outcome_turn (h : w.turn next = some w') : w'.outcome next = w.outcome next := by
  obtain ⟨stack, c, hstack, hturn⟩ := turn_cases h
  have hpending : w.stack.reverse = c :: stack.reverse := by
    rw [hstack, List.reverse_append, List.reverse_singleton, List.singleton_append]
  rcases hturn with ⟨hfound, rfl⟩ | ⟨hfound, rfl⟩
  · rw [outcome, outcome, hpending, saturate, if_pos hfound]
  · rw [outcome, outcome, hpending, saturate, if_neg hfound, List.reverse_append]

/-- The number of turns to come: one for everything on the stack, and one for everything that will be put on it,
which is what the capabilities imply that are not found yet. -/
def remaining (next : Capability → List Capability) (w : Worklist) : Nat :=
  w.stack.length + (((w.outcome next).drop w.found.length).flatMap next).length

theorem remaining_turn (h : w.turn next = some w') : w.remaining next = w'.remaining next + 1 := by
  have houtcome := outcome_turn h
  obtain ⟨stack, c, hstack, ⟨-, rfl⟩ | ⟨-, rfl⟩⟩ := turn_cases h
  · simp only [remaining, ← houtcome, hstack, List.length_append, List.length_singleton]
    omega
  · -- The capability that is found now is the first one behind those found before.
    obtain ⟨later, hlater⟩ : w.found ++ [c] <+: w.outcome next := houtcome ▸ prefix_saturate
    have hbefore : (w.outcome next).drop w.found.length = c :: later := by
      rw [← hlater, List.append_assoc, List.drop_left, List.singleton_append]
    have hafter : (w.outcome next).drop (w.found.length + 1) = later := by
      rw [← List.drop_drop, hbefore, List.drop_one, List.tail_cons]
    simp only [remaining, houtcome, hbefore, hafter, hstack, List.flatMap_cons, List.length_append,
      List.length_singleton]
    omega

theorem remaining_of_stack_eq_nil (h : w.stack = []) : w.remaining next = 0 := by
  simp [remaining, outcome, h, saturate]

/-- The loop ends with its outcome, after the turns that were to come. -/
theorem turns_remaining (next : Capability → List Capability) (w : Worklist) :
    turns next (w.remaining next) w = some ⟨w.outcome next, []⟩ := by
  induction hn : w.remaining next generalizing w with
  | zero =>
    have hstack : w.stack = [] := List.eq_nil_of_length_eq_zero (by simp only [remaining] at hn; omega)
    obtain ⟨found, stack⟩ := w
    subst hstack
    simp [turns, outcome, saturate]
  | succ n ih =>
    have hstack : w.stack ≠ [] := fun h => by rw [remaining_of_stack_eq_nil h] at hn; cases hn
    obtain ⟨w', hturn⟩ := Option.ne_none_iff_exists'.mp (mt turn_eq_none_iff.mp hstack)
    have hremaining := remaining_turn hturn
    rw [turns, hturn, Option.bind_some, ih w' (by omega), outcome_turn hturn]

end Worklist

/-- **The worklist is right for any table.** Take any function of direct implications, whatever cycles and
repetitions there are in it. No worklist has an endless run of turns. From a capability alone on the stack the
loop empties the stack in one turn for the capability and one for each entry of the table under what it finds,
and what it has found is then the closure. That starts with the capability, has nothing in it twice, and
has in it what is reached from the capability in any number of steps, none included, and nothing else. -/
theorem closure_exact (next : Capability → List Capability) (c : Capability) :
    WellFounded (fun w' w : Worklist => w.turn next = some w') ∧
    Worklist.turns next (1 + ((closure next c).flatMap next).length) ⟨[], [c]⟩ = some ⟨closure next c, []⟩ ∧
    (closure next c).head? = some c ∧ (closure next c).Nodup ∧ ∀ b, b ∈ closure next c ↔ Reaches next c b :=
  ⟨Worklist.wellFounded_turn next, Worklist.turns_remaining next ⟨[], [c]⟩, head?_closure,
    nodup_saturate List.nodup_nil, fun _ => mem_closure_iff⟩

/-- A table with a cycle, a capability that implies itself and one that is implied twice. -/
example : closure (fun | .matrix => [.shader, .matrix] | .shader => [.kernel, .matrix, .kernel] | _ => []) .matrix =
    [.matrix, .shader, .kernel] := by cbv

end SpirvAudit.Capability
