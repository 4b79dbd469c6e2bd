/-
The text of a memory-semantics word: its form, and reading it back.

The form is written here on the bits of the word as SPIR-V numbers them (`pieces`).
A text is its parts with bars between them. No part has a bar or a blank in it,
so the bars give the parts back (`partsOf_intercalate`). A part is the name of a
flag, or a number with `0x` in front, which no name starts with, or says that the
word is empty; so it is known what it stands for (`ofPart?`). A word is the union
of its flags and of the bits that are no flag (`ofFlags_flags_union_unknown`).
Together they make the word the one that is read from its text.
-/
import SpirvAudit.Semantics.Text
import SpirvAudit.Proofs.SemanticsOrder

namespace SpirvAudit.Semantics

variable {f : Flag} {l : List Flag} {s t : Semantics} {w : Word}

/-! ## Reading a text -/

/-- The parts of a text. Blanks are left out. -/
def partsOf (text : String) : List String := ((text.toList.filter (· ≠ ' ')).splitOn '|').map String.ofList

/-- The value of a hexadecimal digit in lower case. -/
def digitValue? (c : Char) : Option Nat := (List.range 16).find? (·.digitChar = c)

/-- The number that hexadecimal digits spell behind the digits of `n`. -/
def readDigits? (n : Nat) (digits : List Char) : Option Nat :=
  digits.foldlM (fun n c => (digitValue? c).map (16 * n + ·)) n

/-- The word that a hexadecimal number spells. -/
def ofHex? (part : String) : Option Word :=
  match part.toList with
  | '0' :: 'x' :: digits => (readDigits? 0 digits).map UInt32.ofNat
  | _ => none

/-- The bits that a part of a text stands for. -/
def ofPart? (part : String) : Option Semantics :=
  if part = "empty()" then some ∅
  else
    match Flag.all.find? (·.name = part) with
    | some f => some (ofFlags [f])
    | none => (ofHex? part).map Semantics.mk

/-- Sets the bits that a part of a text stands for. -/
def addPart? (s : Semantics) (part : String) : Option Semantics := (ofPart? part).map (s ∪ ·)

/-- The word that a text stands for. -/
def ofText? (text : String) : Option Semantics := (partsOf text).foldlM addPart? ∅

/-! ## Numbers -/

theorem digitValue?_digitChar {d : Nat} (h : d < 16) : digitValue? d.digitChar = some d :=
  (by decide : ∀ d < 16, digitValue? d.digitChar = some d) d h

theorem readDigits?_toDigits (n : Nat) : readDigits? 0 (Nat.toDigits 16 n) = some n := by
  induction n using Nat.strongRecOn with
  | ind n ih =>
    rcases Nat.lt_or_ge n 16 with hlt | hge
    · rw [Nat.toDigits_of_lt_base hlt]
      simp [readDigits?, digitValue?_digitChar hlt]
    · have hquotient := ih (n / 16) (Nat.div_lt_self (by omega) (by decide))
      rw [readDigits?] at hquotient
      rw [Nat.toDigits_of_base_le (by decide) hge, readDigits?, List.foldlM_append, hquotient]
      simp [digitValue?_digitChar (Nat.mod_lt n (by decide)), Nat.div_add_mod]

theorem mem_toDigits {n : Nat} {c : Char} (h : c ∈ Nat.toDigits 16 n) : ∃ d, c = Nat.digitChar d := by
  induction n using Nat.strongRecOn with
  | ind n ih =>
    rcases Nat.lt_or_ge n 16 with hlt | hge
    · rw [Nat.toDigits_of_lt_base hlt, List.mem_singleton] at h
      exact ⟨n, h⟩
    · rw [Nat.toDigits_of_base_le (by decide) hge, List.mem_append, List.mem_singleton] at h
      rcases h with h | h
      · exact ih (n / 16) (Nat.div_lt_self (by omega) (by decide)) h
      · exact ⟨n % 16, h⟩

theorem toList_hex (w : Word) : (hex w).toList = '0' :: 'x' :: Nat.toDigits 16 w.toNat := by
  simp only [hex, String.toList_append, String.toList_ofList]
  rfl

theorem ofHex?_hex (w : Word) : ofHex? (hex w) = some w := by
  simp only [ofHex?, toList_hex, readDigits?_toDigits, Option.map_some, UInt32.ofNat_toNat]

/-! ## Parts -/

/-- A part of a text has no blank and no bar in it. -/
def Plain (part : String) : Prop := ∀ c ∈ part.toList, c ≠ ' ' ∧ c ≠ '|'

theorem Flag.plain_name (f : Flag) : Plain f.name := by
  have hall : f.name.toList.all (fun c => c ≠ ' ' ∧ c ≠ '|') = true := by cases f <;> decide
  simpa [Plain] using hall

theorem plain_hex (w : Word) : Plain (hex w) := by
  intro c hc
  rw [toList_hex, List.mem_cons, List.mem_cons] at hc
  rcases hc with rfl | rfl | hc
  · decide
  · decide
  · obtain ⟨d, rfl⟩ := mem_toDigits hc
    exact ⟨Nat.digitChar_ne ' ' (by decide), Nat.digitChar_ne '|' (by decide)⟩

theorem plain_of_mem_parts : ∀ part ∈ s.parts, Plain part := by
  intro part hpart
  rw [parts, List.mem_append] at hpart
  rcases hpart with hname | hunknown
  · obtain ⟨f, -, rfl⟩ := List.mem_map.mp hname
    exact f.plain_name
  · split at hunknown
    · cases hunknown
    · rw [List.mem_singleton.mp hunknown]
      exact plain_hex _

/-- Leaving characters out of a list of parts is leaving them out of the parts. -/
theorem filter_intercalate {α : Type} (p : α → Bool) (sep : List α) (ls : List (List α)) :
    (sep.intercalate ls).filter p = (sep.filter p).intercalate (ls.map (·.filter p)) := by
  induction ls with
  | nil => rfl
  | cons l ls ih =>
    cases ls with
    | nil => simp
    | cons l' ls =>
      rw [List.intercalate_cons_cons, List.filter_append, List.filter_append, ih]
      simp [List.intercalate_cons_cons]

/-- The bars give the parts back. -/
theorem partsOf_intercalate {ps : List String} (hne : ps ≠ []) (h : ∀ p ∈ ps, Plain p) :
    partsOf (" | ".intercalate ps) = ps := by
  have hblanks : (ps.map String.toList).map (·.filter (· ≠ ' ')) = ps.map String.toList := by
    rw [List.map_map]
    refine List.map_congr_left fun p hp => List.filter_eq_self.mpr fun c hc => ?_
    simpa using (h p hp c hc).1
  have hbars : ∀ cs ∈ ps.map String.toList, '|' ∉ cs := by
    intro cs hcs
    obtain ⟨p, hp, rfl⟩ := List.mem_map.mp hcs
    exact fun hbar => (h p hp '|' hbar).2 rfl
  have hbar : " | ".toList.filter (· ≠ ' ') = ['|'] := by decide
  rw [partsOf, String.toList_intercalate, filter_intercalate, hblanks, hbar,
    List.splitOn_intercalate '|' hbars (by simpa using hne), List.map_map]
  exact (List.map_congr_left fun p _ => String.ofList_toList).trans (List.map_id ps)

theorem ofPart?_name (f : Flag) : ofPart? f.name = some (ofFlags [f]) := by
  cases f <;> rfl

theorem ofPart?_hex (w : Word) : ofPart? (hex w) = some ⟨w⟩ := by
  have hhead : (hex w).toList.head? = some '0' := by rw [toList_hex]; rfl
  have hempty : hex w ≠ "empty()" := by
    intro h
    rw [h] at hhead
    exact absurd hhead (by decide)
  have hname : Flag.all.find? (·.name = hex w) = none := by
    refine List.find?_eq_none.mpr fun f _ h => ?_
    rw [← of_decide_eq_true h] at hhead
    revert hhead
    cases f <;> decide
  rw [ofPart?, if_neg hempty, hname, ofHex?_hex]
  rfl

/-! ## The bits of a word -/

theorem and_mask (s : Semantics) (f : Flag) : s.raw &&& f.mask = if f ∈ s then f.mask else 0 := by
  split
  next hf =>
    rw [← UInt32.toNat_inj, UInt32.toNat_and, f.toNat_mask, Nat.and_two_pow, mem_def.mp hf]
    simp
  next hf => exact Decidable.not_not.mp (mt and_mask_ne_zero_iff.mp hf)

/-- The flags of a list that are set. -/
theorem inter_ofFlags (s : Semantics) (l : List Flag) : s ∩ ofFlags l = ofFlags (l.filter (· ∈ s)) := by
  have hfold : ∀ w, s.raw &&& l.foldl (fun w f => w ||| f.mask) w =
      (l.filter (· ∈ s)).foldl (fun w f => w ||| f.mask) (s.raw &&& w) := by
    induction l with
    | nil => exact fun _ => rfl
    | cons f l ih =>
      intro w
      rw [List.foldl_cons, ih, and_or_distrib, and_mask]
      by_cases hf : f ∈ s
      · rw [List.filter_cons_of_pos (by simpa using hf), List.foldl_cons, if_pos hf]
      · rw [List.filter_cons_of_neg (by simpa using hf), if_neg hf, UInt32.or_zero]
  have hraw := hfold 0
  rw [UInt32.and_zero] at hraw
  exact congrArg Semantics.mk hraw

theorem inter_union_sdiff (s t : Semantics) : s ∩ t ∪ s \ t = s := by
  have hraw : s.raw &&& t.raw ||| s.raw &&& ~~~t.raw = s.raw := by
    rw [← and_or_distrib, UInt32.or_not_self, UInt32.and_neg_one]
  exact congrArg Semantics.mk hraw

/-- A word is its flags and the bits that are no flag. -/
theorem ofFlags_flags_union_unknown (s : Semantics) : ofFlags s.flags ∪ s.unknown = s := by
  rw [flags, ← inter_ofFlags]
  exact inter_union_sdiff s all

/-! ## The form of a text -/

/-- The flags as the bits of a word and as they are written, lowest bit first. -/
def writtenFlags : List (Word × String) := [
  (0x2, "ACQUIRE"), (0x4, "RELEASE"), (0x8, "ACQUIRE_RELEASE"), (0x10, "SEQUENTIALLY_CONSISTENT"),
  (0x40, "UNIFORM_MEMORY"), (0x80, "SUBGROUP_MEMORY"), (0x100, "WORKGROUP_MEMORY"),
  (0x200, "CROSS_WORKGROUP_MEMORY"), (0x400, "ATOMIC_COUNTER_MEMORY"), (0x800, "IMAGE_MEMORY"),
  (0x1000, "OUTPUT_MEMORY"), (0x2000, "MAKE_AVAILABLE"), (0x4000, "MAKE_VISIBLE"), (0x8000, "VOLATILE")]

/-- The names of the flags that are set in a word, and the other bits of it, if any is set, as one number. -/
def pieces (w : Word) : List String :=
  (writtenFlags.filter fun flag => w &&& flag.1 ≠ 0).map (·.2) ++
    if w &&& 0xffff0021 = 0 then [] else ["0x" ++ String.ofList (Nat.toDigits 16 (w &&& 0xffff0021).toNat)]

theorem writtenFlags_eq : writtenFlags = Flag.all.map fun f => (f.mask, f.name) := by
  decide

theorem parts_eq_pieces (w : Word) : (⟨w⟩ : Semantics).parts = pieces w := by
  have hunknown : (⟨w⟩ : Semantics).unknown = ⟨w &&& 0xffff0021⟩ := rfl
  have hnames : (writtenFlags.filter fun flag => w &&& flag.1 ≠ 0).map (·.2) =
      (⟨w⟩ : Semantics).flags.map (·.name) := by
    rw [writtenFlags_eq, List.filter_map, List.map_map, flags]
    refine congrArg (List.map _) (List.filter_congr fun f _ => ?_)
    exact decide_eq_decide.mpr (and_mask_ne_zero_iff (s := ⟨w⟩))
  have hempty : (⟨w &&& 0xffff0021⟩ : Semantics) = ∅ ↔ w &&& 0xffff0021 = 0 :=
    ⟨congrArg raw, congrArg mk⟩
  rw [parts, pieces, hnames, hunknown]
  simp only [hempty, hex]

/-! ## Texts -/

/-- The names of flags set these flags. -/
theorem foldlM_addPart?_names (l : List Flag) (w : Word) :
    (l.map Flag.name).foldlM addPart? ⟨w⟩ = some ⟨l.foldl (fun w f => w ||| f.mask) w⟩ := by
  induction l generalizing w with
  | nil => rfl
  | cons f l ih =>
    have hunion : (⟨w⟩ ∪ ofFlags [f] : Semantics) = ⟨w ||| f.mask⟩ :=
      congrArg (fun m => Semantics.mk (w ||| m)) UInt32.zero_or
    have hadd : addPart? ⟨w⟩ f.name = some ⟨w ||| f.mask⟩ := by
      rw [addPart?, ofPart?_name, Option.map_some, hunion]
    rw [List.map_cons, List.foldlM_cons, hadd, List.foldl_cons]
    exact ih (w ||| f.mask)

/-- The parts of a word set its bits. -/
theorem foldlM_addPart?_parts (s : Semantics) : s.parts.foldlM addPart? ∅ = some s := by
  rw [parts, List.foldlM_append]
  have hnames : (s.flags.map Flag.name).foldlM addPart? ∅ = some (ofFlags s.flags) :=
    foldlM_addPart?_names s.flags 0
  have hunion := ofFlags_flags_union_unknown s
  rw [hnames]
  split
  next hunknown =>
    rw [hunknown] at hunion
    have hempty : ofFlags s.flags ∪ ∅ = ofFlags s.flags := congrArg Semantics.mk UInt32.or_zero
    rw [hempty] at hunion
    exact congrArg some hunion
  next hunknown =>
    change [hex s.unknown.raw].foldlM addPart? (ofFlags s.flags) = some s
    rw [List.foldlM_cons, addPart?, ofPart?_hex]
    exact congrArg some hunion

/-- Only the word in which no bit is set has no parts. -/
theorem parts_eq_nil_iff : s.parts = [] ↔ s = ∅ := by
  constructor
  · intro hnone
    have hread := foldlM_addPart?_parts s
    rw [hnone] at hread
    exact (Option.some.inj hread).symm
  · rintro rfl
    rfl

theorem text_eq (w : Word) : text ⟨w⟩ = if w = 0 then "empty()" else " | ".intercalate (pieces w) := by
  have hzero : (⟨w⟩ : Semantics) = ∅ ↔ w = 0 := ⟨congrArg raw, congrArg mk⟩
  simp only [text, List.isEmpty_iff, parts_eq_nil_iff, hzero, ← parts_eq_pieces]

/-- A word is read from its text. -/
theorem ofText?_text (s : Semantics) : ofText? s.text = some s := by
  by_cases hempty : s = ∅
  · rw [hempty]
    rfl
  · have hnone : s.parts ≠ [] := mt parts_eq_nil_iff.mp hempty
    have htext : s.text = " | ".intercalate s.parts := if_neg (by simpa using hnone)
    rw [ofText?, htext, partsOf_intercalate hnone plain_of_mem_parts, foldlM_addPart?_parts]

/-- **The text of a semantics word tells which word it is.** It consists of the names of the flags that are
set, in the order of their bits, and of the bits that are no flag in hexadecimal, with bars between them. The
word can be read from it, bits that are no flag among the others, so no two words have the same text. -/
theorem text_eq_text_iff :
    (∀ w : Word, text ⟨w⟩ = if w = 0 then "empty()" else " | ".intercalate (pieces w)) ∧
    (∀ w : Word, ofText? (text ⟨w⟩) = some ⟨w⟩) ∧ ∀ a b : Word, text ⟨a⟩ = text ⟨b⟩ ↔ a = b := by
  refine ⟨text_eq, fun w => ofText?_text ⟨w⟩, fun a b => ⟨fun h => ?_, fun h => h ▸ rfl⟩⟩
  have hread := ofText?_text ⟨a⟩
  rw [h, ofText?_text] at hread
  exact (Semantics.mk.inj (Option.some.inj hread)).symm

example : ofText? "ACQUIRE_RELEASE | WORKGROUP_MEMORY | 0x80000001" = some ⟨0x80000109⟩ := by cbv

end SpirvAudit.Semantics
