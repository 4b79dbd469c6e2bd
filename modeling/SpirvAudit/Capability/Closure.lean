/-
What declaring a capability declares in all: the capability, those it
implies, those they imply, and so on.

The closure is a worklist over any function `next` of direct implications.
The capability taken up next is the last one put on the list, so of several
implied capabilities the last named is followed first. That order is the
order of the result. The list cannot grow forever: a capability is expanded
only once, so what is still pending and what the unexpanded capabilities
could add together shrinks at each step.
-/
import SpirvAudit.Capability

namespace SpirvAudit.Capability

/-- The capability `b` is reached from `a` in zero or more steps of `next`. -/
inductive Reaches (next : Capability → List Capability) (a : Capability) : Capability → Prop
  | refl : Reaches next a a
  | step {b c : Capability} : Reaches next a b → c ∈ next b → Reaches next a c

/-- The number of capabilities that expanding the ones of `l` not yet `found` can put on the list. -/
def unexpanded (next : Capability → List Capability) (found l : List Capability) : Nat :=
  ((l.filter (· ∉ found)).flatMap next).length

theorem unexpanded_append_le (next : Capability → List Capability) (found l : List Capability)
    (c : Capability) : unexpanded next (found ++ [c]) l ≤ unexpanded next found l := by
  induction l with
  | nil => simp [unexpanded]
  | cons x l ih =>
    simp only [unexpanded] at ih ⊢
    by_cases hx : x ∈ found <;> by_cases hc : x = c <;> simp [List.filter_cons, hx, hc] at ih ⊢ <;> grind

theorem unexpanded_append (next : Capability → List Capability) {found l : List Capability}
    {c : Capability} (hc : c ∉ found) (hl : c ∈ l) :
    unexpanded next (found ++ [c]) l + (next c).length ≤ unexpanded next found l := by
  induction l with
  | nil => simp at hl
  | cons x l ih =>
    have hle := unexpanded_append_le next found l c
    simp only [unexpanded] at ih hle ⊢
    by_cases hx : x = c
    · subst hx
      simp [hc] at hle ⊢
      omega
    · have hl' : c ∈ l := by simpa [Ne.symm hx] using hl
      by_cases hf : x ∈ found <;> simp [hf, hx] at ih ⊢ <;> grind

/-- Expands the pending capabilities in turn, first one first, and lists what is found. -/
def saturate (next : Capability → List Capability) (found : List Capability) :
    List Capability → List Capability
  | [] => found
  | c :: pending =>
    if c ∈ found then saturate next found pending
    else saturate next (found ++ [c]) ((next c).reverse ++ pending)
termination_by pending => pending.length + unexpanded next found all
decreasing_by
  · simp
  · have := unexpanded_append next ‹c ∉ found› (mem_all c)
    simp only [List.length_append, List.length_reverse, List.length_cons]
    omega

/-- The capabilities reached from `c` through `next`, `c` first. -/
def closure (next : Capability → List Capability) (c : Capability) : List Capability :=
  saturate next [] [c]

/-- What declaring a capability declares in all. -/
def implied (c : Capability) : List Capability := closure implies c

end SpirvAudit.Capability
