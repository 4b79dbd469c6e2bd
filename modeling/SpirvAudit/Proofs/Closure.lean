/-
The worklist of `Capability.closure` against reachability.

While the worklist runs, whatever it has found or still holds can be reached
(`reaches_of_mem_saturate`), and the capabilities implied by a found one are
found or held; at its end nothing is held, so what it found is closed
(`saturate_closed`). Both hold of any function of direct implications.
-/
import Mathlib
import SpirvAudit.Capability.Closure

namespace SpirvAudit.Capability

variable {next : Capability → List Capability} {a b c : Capability}

theorem Reaches.trans (hab : Reaches next a b) (hbc : Reaches next b c) : Reaches next a c := by
  induction hbc with
  | refl => exact hab
  | step _ hmem ih => exact ih.step hmem

theorem Reaches.head (hb : b ∈ next a) (hbc : Reaches next b c) : Reaches next a c :=
  Reaches.trans (.step .refl hb) hbc

/-- What is found at the end was found before, or is reached from something pending. -/
theorem reaches_of_mem_saturate {found pending : List Capability} (h : b ∈ saturate next found pending) :
    b ∈ found ∨ ∃ p ∈ pending, Reaches next p b := by
  fun_induction saturate next found pending with
  | case1 => exact .inl h
  | case2 found c pending _ ih =>
    rcases ih h with hb | ⟨p, hp, hr⟩
    · exact .inl hb
    · exact .inr ⟨p, List.mem_cons_of_mem c hp, hr⟩
  | case3 found c pending _ ih =>
    rcases ih h with hb | ⟨p, hp, hr⟩
    · rcases List.mem_append.mp hb with hb | hb
      · exact .inl hb
      · exact .inr ⟨c, List.mem_cons_self, List.mem_singleton.mp hb ▸ .refl⟩
    · rcases List.mem_append.mp hp with hp | hp
      · exact .inr ⟨c, List.mem_cons_self, hr.head (List.mem_reverse.mp hp)⟩
      · exact .inr ⟨p, List.mem_cons_of_mem c hp, hr⟩

/-- What was found or pending is found at the end. -/
theorem mem_saturate {found pending : List Capability} (h : b ∈ found ∨ b ∈ pending) :
    b ∈ saturate next found pending := by
  fun_induction saturate next found pending with
  | case1 => simpa using h
  | case2 found c pending hc ih =>
    refine ih ?_
    rcases h with hb | hb
    · exact .inl hb
    · rcases List.mem_cons.mp hb with rfl | hb
      · exact .inl hc
      · exact .inr hb
  | case3 found c pending _ ih =>
    refine ih ?_
    simp only [List.mem_append, List.mem_cons] at h ⊢
    rcases h with hb | rfl | hb
    · exact .inl (.inl hb)
    · exact .inl (.inr (.inl rfl))
    · exact .inr (.inr hb)

/-- What is found at the end is closed, if what a found capability implies was found or pending. -/
theorem saturate_closed {found pending : List Capability}
    (hfound : ∀ x ∈ found, ∀ y ∈ next x, y ∈ found ∨ y ∈ pending) :
    ∀ x ∈ saturate next found pending, ∀ y ∈ next x, y ∈ saturate next found pending := by
  fun_induction saturate next found pending with
  | case1 => simpa using hfound
  | case2 found c pending hc ih =>
    refine ih fun x hx y hy => ?_
    rcases hfound x hx y hy with h | h
    · exact .inl h
    · rcases List.mem_cons.mp h with rfl | h
      · exact .inl hc
      · exact .inr h
  | case3 found c pending _ ih =>
    refine ih fun x hx y hy => ?_
    simp only [List.mem_append, List.mem_cons, List.mem_reverse] at hx ⊢
    rcases hx with hx | rfl | hx
    · rcases hfound x hx y hy with h | h
      · exact .inl (.inl h)
      · rcases List.mem_cons.mp h with rfl | h
        · exact .inl (.inr (.inl rfl))
        · exact .inr (.inr h)
    · exact .inr (.inl hy)
    · cases hx

theorem mem_closure_iff : b ∈ closure next a ↔ Reaches next a b := by
  constructor
  · intro h
    rcases reaches_of_mem_saturate h with h | ⟨p, hp, hr⟩
    · cases h
    · exact List.mem_singleton.mp hp ▸ hr
  · intro h
    induction h with
    | refl => exact mem_saturate (.inr List.mem_cons_self)
    | step _ hmem ih => exact saturate_closed (by simp) _ ih _ hmem

/-- What declaring a capability declares is what it reaches through the table. -/
theorem mem_implied_iff : b ∈ a.implied ↔ Reaches implies a b := mem_closure_iff

end SpirvAudit.Capability
