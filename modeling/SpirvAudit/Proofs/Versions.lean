/-
Versions, their words, and the version of a module.

A version word holds the major version above the minor one, so the version that
is the later one is the one with the larger word (`toWord_lt_iff`), and versions
compare as their words do. A header word is a version word but for its two outer
bytes, which reading drops. The version is looked at before the walk, and neither
the walk nor the end of it can tell of it, so its rule rejects exactly the modules
whose header word is too large (`audit_versionTooNew_iff`).
-/
import SpirvAudit.Proofs.Encoding
import SpirvAudit.Proofs.Environments
import SpirvAudit.Proofs.MissingCapabilities

namespace SpirvAudit

namespace Version

variable {v v' : Version}

/-! ## Words -/

/-- The two bytes of a header word that say which version it is. -/
def mask : Word := 0x00ffff00

theorem toNat_and_mask (w : Word) : (w &&& mask).toNat = w.toNat / 256 % 65536 * 256 := by
  have hmask : mask.toNat = (2 ^ 16 - 1) <<< 8 := by decide
  have hshift : ∀ m, w.toNat &&& m <<< 8 = (w.toNat >>> 8 &&& m) <<< 8 := by
    intro m
    -- The shifted mask has no bit below the eighth, and nor has a shifted word.
    refine Nat.eq_of_testBit_eq fun k => ?_
    by_cases hk : 8 ≤ k
    · simp [Nat.testBit_shiftLeft, Nat.testBit_shiftRight, hk]
    · simp [Nat.testBit_shiftLeft, hk]
  rw [UInt32.toNat_and, hmask, hshift, Nat.and_two_pow_sub_one_eq_mod, Nat.shiftLeft_eq, Nat.shiftRight_eq_div_pow]

/-- Reading a header word keeps two of its bytes, and writing the version puts them back. -/
theorem toWord_ofWord (w : Word) : (ofWord w).toWord = w &&& mask := by
  rw [← UInt32.toNat_inj, toNat_toWord_ofWord, toNat_and_mask]

theorem toNat_toWord (v : Version) : v.toWord.toNat = 65536 * v.major.toNat + 256 * v.minor.toNat := by
  rw [toWord, Word.toNat_ofBytes, UInt8.toNat_zero]
  omega

theorem toWord_injective : Function.Injective toWord :=
  Function.LeftInverse.injective ofWord_toWord

/-! ## Order -/

theorem toWord_lt_iff : v.toWord.toNat < v'.toWord.toNat ↔ v < v' := by
  have hminor := v.minor.toNat_lt
  have hminor' := v'.minor.toNat_lt
  rw [lt_iff, UInt8.lt_iff_toNat_lt, UInt8.lt_iff_toNat_lt, ← UInt8.toNat_inj, toNat_toWord, toNat_toWord]
  omega

theorem compare_eq_eq_iff : compare v v' = .eq ↔ v = v' := by
  change (compare v.major v'.major).then (compare v.minor v'.minor) = .eq ↔ _
  rw [Ordering.then_eq_eq, Std.compare_eq_iff_eq, Std.compare_eq_iff_eq, Version.mk.injEq]

theorem compare_eq_gt_iff : compare v v' = .gt ↔ v' < v := by
  change (compare v.major v'.major).then (compare v.minor v'.minor) = .gt ↔ _
  rw [lt_iff, Ordering.then_eq_gt, Std.compare_eq_gt, Std.compare_eq_gt, Std.compare_eq_iff_eq,
    eq_comm (a := v.major)]

/-- Versions compare as their words do. -/
theorem compare_eq_compare_toWord (v v' : Version) : compare v v' = compare v.toWord.toNat v'.toWord.toNat := by
  rcases lt_trichotomy v.toWord.toNat v'.toWord.toNat with h | h | h
  · rw [Nat.compare_eq_lt.mpr h]
    exact toWord_lt_iff.mp h
  · rw [Nat.compare_eq_eq.mpr h, compare_eq_eq_iff]
    exact toWord_injective (UInt32.toNat_inj.mp h)
  · rw [Nat.compare_eq_gt.mpr h, compare_eq_gt_iff]
    exact toWord_lt_iff.mp h

/-- A version that is not the later one is the other one or an earlier one. -/
theorem not_lt_iff : ¬ v' < v ↔ v ≤ v' := by
  change _ ↔ (compare v v').isLE = true
  rw [← compare_eq_gt_iff]
  cases compare v v' <;> simp

end Version

/-! ## The rule for versions -/

/-- The rule that a version breaks which an environment does not take. -/
def versionRule : String := "SPIRV-Layout-Version"

/-- A problem of an instruction is told under another rule. -/
theorem Problem.rule_ne_of_isOfInstruction {p : Problem} (h : p.isOfInstruction = true) :
    p.rule.text?.getD "" ≠ versionRule := by
  intro hrule
  have heq : p.rule = (versionTooNew default default).rule := rule_eq_of_text rfl hrule
  cases p
  case versionTooNew => cases h
  case notInt32 a => cases a <;> exact absurd heq (by decide)
  case notConstant a => cases a <;> exact absurd heq (by decide)
  case notConstantInstruction a => cases a <;> exact absurd heq (by decide)
  case flagNotEnabled f => cases f <;> exact absurd heq (by decide)
  all_goals exact absurd heq (by simp [rule, row, malformed, notEnabled, invalid])

theorem Declarations.checkEnd_failsOnly {d : Declarations} : FailsOnly (·.diagnostic.rule ≠ versionRule) d.checkEnd := by
  unfold checkEnd
  split
  · exact .error (by decide)
  · split
    · exact .error (by decide)
    · exact .ok ()

namespace Module

open Declarations

variable {env : Environment} {m : Module}

/-- A version that is too new is all that is told of a module, whatever its instructions. -/
theorem audit_of_lt (h : env.maxVersion < m.version) :
    m.audit env = .error { subject := .version, problem := .versionTooNew m.version env.maxVersion } := by
  rw [audit, Environment.checkVersion, if_pos (Version.compare_eq_gt_iff.mpr h)]
  rfl

/-- The rule for versions rejects the modules with a version past the last one that the environment takes. -/
theorem audit_versionTooNew_iff :
    (∃ v, m.audit env = .error v ∧ v.diagnostic.rule = versionRule) ↔ env.maxVersion < m.version := by
  constructor
  · intro h
    obtain ⟨v, hv, hrule⟩ := h
    by_contra hversion
    rw [audit_of_version (Version.not_lt_iff.mp hversion)] at hv
    -- Past its version, a module is rejected for an instruction or for what it lacks at its end.
    have hother : FailsOnly (·.diagnostic.rule ≠ versionRule) ((initial env).run m.instructions >>= checkEnd) := by
      refine FailsOnly.bind (fun w hw => ?_) fun d _ => checkEnd_failsOnly
      obtain ⟨i, -, d, hfinds⟩ := finds_run w hw
      exact Problem.rule_ne_of_isOfInstruction hfinds.isOfInstruction
    exact hother v hv hrule
  · intro h
    exact ⟨_, audit_of_lt h, by rfl⟩

/-- The version word in the header of a binary, read in the byte order of the binary. -/
def versionWord? : List Word → Option Word
  | first :: version :: _ => some (if first = magic then version else version.swap)
  | _ => none

theorem versionWord?_of_ofWords {ws : List Word} (h : ofWords ws = .ok m) :
    ∃ w, versionWord? ws = some w ∧ m.version = .ofWord w := by
  unfold ofWords at h
  split at h
  next first version _ bound _ body =>
    split at h
    next hmagic => exact ⟨version, by rw [versionWord?, if_pos hmagic], (ofParts_eq_ok_iff.mp h).1⟩
    next hmagic =>
      split at h
      · exact ⟨version.swap, by rw [versionWord?, if_neg hmagic], (ofParts_eq_ok_iff.mp h).1⟩
      · cases h
  · cases h

end Module

namespace Version

/-- **Versions and their words agree.** Take any two words. The versions read off them compare like the words
without their outer bytes, as numbers, and are the same version exactly if they compare equal. Writing what
was read off a word gives the word without its outer bytes, and reading what was written for a version gives
the version. And take a binary that can be read, and any environment. The module is rejected under the rule
for versions if and only if the word in its header, without its outer bytes, is larger than the word of the last
version that the environment takes. Then it is rejected with this violation whatever its instructions are. -/
theorem ordered_as_words :
    (∀ a b : Word, compare (ofWord a) (ofWord b) = compare (a &&& mask).toNat (b &&& mask).toNat ∧
      (compare (ofWord a) (ofWord b) = .eq ↔ ofWord a = ofWord b)) ∧
    (∀ a : Word, (ofWord a).toWord = a &&& mask) ∧ (∀ v : Version, ofWord v.toWord = v) ∧
    ∀ (env : Environment) (ws : List Word) (m : Module), Module.ofWords ws = .ok m →
      ∃ w, Module.versionWord? ws = some w ∧
        ((∃ v, m.audit env = .error v ∧ v.diagnostic.rule = versionRule) ↔
          env.maxVersion.toWord.toNat < (w &&& mask).toNat) ∧
        (env.maxVersion.toWord.toNat < (w &&& mask).toNat → ∀ is, { m with instructions := is }.audit env =
          .error { subject := .version, problem := .versionTooNew (ofWord w) env.maxVersion }) := by
  refine ⟨fun a b => ⟨?_, compare_eq_eq_iff⟩, toWord_ofWord, ofWord_toWord, fun env ws m hm => ?_⟩
  · rw [compare_eq_compare_toWord, toWord_ofWord, toWord_ofWord]
  · obtain ⟨w, hw, hversion⟩ := Module.versionWord?_of_ofWords hm
    refine ⟨w, hw, ?_, fun hlt is => ?_⟩
    · rw [Module.audit_versionTooNew_iff, hversion, ← toWord_lt_iff, toWord_ofWord]
    · rw [← toWord_ofWord, toWord_lt_iff, ← hversion] at hlt
      rw [← hversion]
      exact Module.audit_of_lt hlt

/-- A binary for version 1.3, high byte first, with something in the outer bytes of its version word and with a
capability that is not known. -/
def garbled : List Word := [0x07230203, 0xAB0103CD, 0, 8, 0, 0x00020011, 999].map Word.swap

/-- The first Vulkan environment stops at version 1.0, before it comes to the capability. -/
theorem ordered_as_words_garbled :
    ∃ m, Module.ofWords garbled = .ok m ∧
      ∃ v, m.audit (.vulkan 0) = .error v ∧ v.diagnostic.rule = versionRule := by
  have hm : Module.ofWords garbled = .ok
      { version := ⟨1, 3⟩
        bound := 8
        instructions := [⟨.opCapability, none, none, [999]⟩] } := by cbv
  obtain ⟨w, hw, hrejected, -⟩ := ordered_as_words.2.2.2 (.vulkan 0) garbled _ hm
  have hword : Module.versionWord? garbled = some 0xAB0103CD := by decide
  obtain rfl := Option.some.inj (hword.symm.trans hw)
  exact ⟨_, hm, hrejected.mpr (by decide)⟩

end Version

end SpirvAudit
