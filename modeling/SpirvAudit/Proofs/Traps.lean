/-
No input traps the audit.

A slice can leave its list, a difference can fall below zero, a counter of 32
bits can be full, and a number can belong to no rule. The audit is written once
more here with a guard at each place where one of these could happen. A guard
that fails ends it in a trap, without an outcome (`Guarded`). The guarded audit
ends as the audit does, whatever it is given (`EndsAs`), so none of its guards
ever fails. What keeps the counter small is the audit itself, which counts a
second `OpMemoryModel` and goes no further.
-/
import SpirvAudit.Proofs.ByteOrder
import SpirvAudit.Proofs.Walk

namespace SpirvAudit

/-- What can end a computation without an outcome. -/
inductive Trap
  /-- An index or a slice leaves its list. -/
  | outOfRange
  /-- A difference falls below zero. -/
  | underflow
  /-- A counter of 32 bits is full. -/
  | overflow
  /-- A word is read from more or fewer bytes than it has. -/
  | wrongSize
  /-- The number of a rule is not known. -/
  | unknownRule (number : Nat)
deriving DecidableEq, Repr

/-- A computation that ends with a result or an error, or in a trap. -/
abbrev Guarded (ε : Type) := ExceptT ε (Except Trap)

namespace Guarded

variable {ε ε' α β : Type}

/-! ## Guards -/

def wordAt (ws : List Word) (index : Nat) : Except Trap Word :=
  match ws[index]? with
  | some w => .ok w
  | none => .error .outOfRange

/-- The elements from `start` on and before `stop`. -/
def slice (l : List α) (start stop : Nat) : Except Trap { s : List α // s.length = stop - start } :=
  if h : start ≤ stop ∧ stop ≤ l.length then
    .ok ⟨(l.take stop).drop start, by rw [List.length_drop, List.length_take, Nat.min_eq_left h.2]⟩
  else .error .outOfRange

def subtract (a b : Nat) : Except Trap Nat := if b ≤ a then .ok (a - b) else .error .underflow

/-- One more, on a counter of 32 bits. -/
def increment (n : Nat) : Except Trap Nat := if n + 1 < 2 ^ 32 then .ok (n + 1) else .error .overflow

def readWord : List UInt8 → Except Trap Word
  | [a, b, c, d] => .ok (.ofBytes a b c d)
  | _ => .error .wrongSize

/-- The text that identifies a rule. -/
def ruleText : Rule → Except Trap String
  | .spirv area name => .ok ("SPIRV-" ++ area ++ "-" ++ name)
  | .vulkan number =>
    match vuid? number with
    | some text => .ok text
    | none => .error (.unknownRule number)

/-- A computation without guards. -/
def total (x : Except ε α) : Guarded ε α := .mk (.ok x)

/-- Tells the violation of a check, under the text of its rule. -/
def report (x : Except Violation α) : Guarded Diagnostic α :=
  match x with
  | .ok a => return a
  | .error v => do
    let rule ← ruleText v.problem.rule
    throw { v.diagnostic with rule }

/-! ## Reading -/

/-- The string at the front of the words and the words after it. -/
def parseString (ws : List Word) : Guarded DecodeError (String × List Word) := do
  let text := Literal.textBytes ws
  let used := text.length / 4 + 1
  if ws.length < used then throw .malformedString
  else
    match String.fromUTF8? ⟨text.toArray⟩ with
    | none => throw .malformedString
    | some s =>
      let ⟨rest, _⟩ ← slice ws used ws.length
      return (s, rest)

/-- The literal string that starts at an operand. -/
def string (i : Instruction) (index : Nat) : Guarded DecodeError String := do
  if i.operands.length < index then throw (.missingOperand i.opcode)
  else
    let (text, _) ← parseString (i.operands.drop index)
    return text

/-- The instructions that the last words of a binary encode. The binary has `size` words. -/
def decodeBody (size : Nat) : List Word → Guarded DecodeError (List Instruction)
  | [] => return []
  | first :: rest => do
    if Instruction.countOf first = 0 then
      let offset ← subtract size (first :: rest).length
      throw (.zeroWordCount offset)
    else if (first :: rest).length < Instruction.countOf first then throw .incompleteInstruction
    else
      let ⟨tail, _⟩ ← slice (first :: rest) 1 (Instruction.countOf first)
      let i ← total (Instruction.ofWords (Instruction.codeOf first) tail)
      let ⟨next, _⟩ ← slice (first :: rest) (Instruction.countOf first) (first :: rest).length
      let is ← decodeBody size next
      return i :: is
termination_by ws => ws.length
decreasing_by
  simp only [List.length_cons] at *
  omega

/-- The module that a binary in the byte order of the host encodes. -/
def decode (ws : List Word) : Guarded DecodeError Module := do
  let version ← wordAt ws 1
  let bound ← wordAt ws 3
  let ⟨body, _⟩ ← slice ws Module.headerSize ws.length
  let instructions ← decodeBody ws.length body
  return { version := .ofWord version, bound, instructions }

/-- The module that a binary encodes, whichever its byte order. -/
def ofWords (ws : List Word) : Guarded DecodeError Module := do
  if ws.length < Module.headerSize then throw .missingHeader
  else
    let first ← wordAt ws 0
    if first = Module.magic then decode ws
    else if first.swap = Module.magic then decode (ws.map Word.swap)
    else throw .wrongHeader

/-- The whole words in the bytes, four bytes each. -/
def chunks : List UInt8 → List (List UInt8)
  | a :: b :: c :: d :: rest => [a, b, c, d] :: chunks rest
  | _ => []

/-- The module that the bytes of a binary encode. -/
def ofBytes (bytes : List UInt8) : Guarded DecodeError Module := do
  if bytes.length % 4 ≠ 0 then throw .incompleteWord
  else
    let ws ← (chunks bytes).mapM fun chunk => (readWord chunk : Guarded DecodeError Word)
    ofWords ws

/-! ## Auditing -/

/-- Records what an instruction declares. -/
def registerDeclaration (d : Declarations) (i : Instruction) : Guarded Diagnostic Declarations :=
  match i.opcode with
  | .opExtension => do
    let name ← (string i 0).adapt fun _ => (i.violation .name .malformedText).diagnostic
    return { d with extensions := name :: d.extensions }
  | .opMemoryModel => do
    let addressing ← report (i.required 0 .addressingModel)
    let memory ← report (i.required 1 .memoryModel)
    let count ← increment d.memoryModelCount
    return { d with
      addressingModel? := AddressingModel.ofCode? addressing.toNat
      memoryModel? := MemoryModel.ofCode? memory.toNat
      memoryModelCount := count }
  | _ => report (d.registerDeclaration i)

/-- Registers an instruction and checks it. -/
def step (d : Declarations) (i : Instruction) : Guarded Diagnostic Declarations := do
  let d ← registerDeclaration d i
  let d := i.result?.elim d fun id => d.define id (.ofInstruction i)
  report (d.check i)
  return d

/-- Registers and checks the instructions in order. -/
def run (d : Declarations) (is : List Instruction) : Guarded Diagnostic Declarations := is.foldlM step d

/-- Checks a module for an environment. -/
def audit (env : Environment) (m : Module) : Guarded Diagnostic Unit := do
  report (env.checkVersion m.version)
  let d ← run (.initial env) m.instructions
  report d.checkEnd

/-- Checks a module that is read. -/
def auditRead (env : Environment) (read : Guarded DecodeError Module) : Guarded (Failure DecodeError) Unit := do
  let m ← read.adapt .other
  (audit env m).adapt .invalid

/-! ## The same outcome -/

/-- The guarded computation ends with this result or error, and not in a trap. -/
def EndsAs (x : Guarded ε α) (r : Except ε α) : Prop := ExceptT.run x = .ok r

namespace EndsAs

variable {x : Guarded ε α} {r : Except ε α}

theorem pure (a : α) : EndsAs (pure a : Guarded ε α) (.ok a) := rfl

theorem throw (e : ε) : EndsAs (throw e : Guarded ε α) (.error e) := rfl

theorem total (r : Except ε α) : EndsAs (total r) r := rfl

theorem bind {f : α → Guarded ε β} {g : α → Except ε β} (hx : EndsAs x r)
    (hf : ∀ a, r = .ok a → EndsAs (f a) (g a)) : EndsAs (x >>= f) (r >>= g) := by
  have hrun : ExceptT.run (x >>= f) = match r with
      | .ok a => ExceptT.run (f a)
      | .error e => .ok (.error e) := by
    rw [ExceptT.run_bind, hx]
    cases r <;> rfl
  rw [EndsAs, hrun]
  cases r with
  | ok a => exact hf a rfl
  | error e => rfl

/-- A guard that does not fail is passed. -/
theorem guard {y : Except Trap α} {a : α} {f : α → Guarded ε β} {r : Except ε β} (hy : y = .ok a)
    (h : EndsAs (f a) r) : EndsAs (do f (← (y : Guarded ε α))) r := by
  rw [hy]
  exact h

theorem slice {l s : List α} {start stop : Nat} {f : { s : List α // s.length = stop - start } → Guarded ε β}
    {r : Except ε β} (hs : (l.take stop).drop start = s) (hstart : start ≤ stop) (hstop : stop ≤ l.length)
    (h : ∀ hlength, EndsAs (f ⟨s, hlength⟩) r) :
    EndsAs (do f (← (Guarded.slice l start stop : Guarded ε _))) r := by
  subst hs
  exact guard (dif_pos ⟨hstart, hstop⟩) (h _)

/-- A slice up to the end of the list. -/
theorem sliceFrom {l s : List α} {start : Nat} {f : { s : List α // s.length = l.length - start } → Guarded ε β}
    {r : Except ε β} (hs : l.drop start = s) (hstart : start ≤ l.length)
    (h : ∀ hlength, EndsAs (f ⟨s, hlength⟩) r) :
    EndsAs (do f (← (Guarded.slice l start l.length : Guarded ε _))) r :=
  slice (by rw [List.take_length, hs]) hstart (Nat.le_refl _) h

theorem adapt (hx : EndsAs x r) (φ : ε → ε') : EndsAs (x.adapt φ) (r.mapError φ) := by
  have hrun : ExceptT.run (x.adapt φ) = (ExceptT.run x).map (·.mapError φ) := rfl
  rw [EndsAs, hrun, hx]
  rfl

end EndsAs

theorem mapError_bind {x : Except ε α} {f : α → Except ε β} {φ : ε → ε'} :
    (x >>= f).mapError φ = x.mapError φ >>= fun a => (f a).mapError φ := by
  cases x <;> rfl

theorem mapError_eq_ok_iff {x : Except ε α} {φ : ε → ε'} {a : α} : x.mapError φ = .ok a ↔ x = .ok a := by
  cases x <;> simp [Except.mapError]

/-- Every problem has a rule with a text. -/
theorem ruleText_eq_ok (p : Problem) : ruleText p.rule = .ok (p.rule.text?.getD "") := by
  cases p <;> rfl

theorem report_endsAs (x : Except Violation α) : EndsAs (report x) (x.mapError Violation.diagnostic) := by
  cases x with
  | ok a => exact .pure a
  | error v => exact .guard (ruleText_eq_ok v.problem) (.throw v.diagnostic)

/-! ## Reading -/

theorem parseString_endsAs (ws : List Word) :
    EndsAs (parseString ws) ((Literal.decode? ws).elim (.error .malformedString) .ok) := by
  rw [parseString, Literal.decode?]
  split
  next hlt =>
    rw [if_neg (Nat.not_le.mpr hlt)]
    exact .throw _
  next hle =>
    rw [if_pos (Nat.not_lt.mp hle)]
    cases String.fromUTF8? ⟨(Literal.textBytes ws).toArray⟩ with
    | none => exact .throw _
    | some s =>
      exact .sliceFrom rfl (Nat.not_lt.mp hle) fun _ => .pure _

theorem string_endsAs (i : Instruction) (index : Nat) : EndsAs (string i index) (i.string index) := by
  rw [string, Instruction.string]
  split
  · exact .throw _
  · have hparse := (parseString_endsAs (i.operands.drop index)).bind (g := fun s => .ok s.1) fun s _ => .pure s.1
    cases hdecode : Literal.decode? (i.operands.drop index) with
    | none => rwa [hdecode] at hparse
    | some s => rwa [hdecode] at hparse

/-- The walk over the words stays within the binary. -/
theorem decodeBody_endsAs {size offset : Nat} {ws : List Word} (hsize : offset + ws.length = size) :
    EndsAs (decodeBody size ws) (Module.decodeBody offset ws) := by
  fun_induction Module.decodeBody offset ws with
  | case1 offset =>
    rw [decodeBody]
    exact .pure _
  | case2 offset first rest count hzero =>
    rw [decodeBody, if_pos hzero]
    have hoffset : subtract size (first :: rest).length = .ok offset := by
      rw [subtract, if_pos (by omega), ← hsize, Nat.add_sub_cancel]
    exact .guard hoffset (.throw _)
  | case3 offset first rest count tail hzero hshort =>
    have hlt : (first :: rest).length < count := by
      rw [List.length_take] at hshort
      rw [List.length_cons]
      omega
    rw [decodeBody, if_neg hzero, if_pos hlt]
    exact .throw _
  | case4 offset first rest count tail hzero hlong ih =>
    have hle : count ≤ (first :: rest).length := by
      rw [List.length_take] at hlong
      rw [List.length_cons]
      omega
    rw [decodeBody, if_neg hzero, if_neg (Nat.not_lt.mpr hle)]
    -- Both slices are in range because of the two tests before them.
    have htail : ((first :: rest).take count).drop 1 = tail := List.drop_take ..
    have hnext : (first :: rest).drop count = rest.drop (count - 1) := List.drop_cons (Nat.pos_of_ne_zero hzero)
    refine .slice htail (Nat.one_le_iff_ne_zero.mpr hzero) hle fun _ => ?_
    refine (EndsAs.total _).bind fun i _ => .sliceFrom hnext hle fun _ => ?_
    refine (ih ?_).bind fun is _ => .pure _
    rw [← hsize, List.length_drop, List.length_cons]
    rw [List.length_cons] at hle
    omega

theorem decode_endsAs {first version generator bound schema : Word} {body : List Word} :
    EndsAs (decode (first :: version :: generator :: bound :: schema :: body))
      (Module.ofParts version bound body) := by
  refine .guard rfl <| .guard rfl <| .sliceFrom (s := body) rfl (Nat.le_add_left 5 body.length) fun _ => ?_
  exact (decodeBody_endsAs (Nat.add_comm 5 body.length)).bind fun _ _ => .pure _

theorem ofWords_endsAs (ws : List Word) : EndsAs (ofWords ws) (Module.ofWords ws) := by
  rw [ofWords]
  match ws with
  | [] | [_] | [_, _] | [_, _, _] | [_, _, _, _] => exact .throw _
  | first :: version :: generator :: bound :: schema :: body =>
    have hlong : ¬ (first :: version :: generator :: bound :: schema :: body).length < Module.headerSize :=
      Nat.not_lt.mpr (Nat.le_add_left 5 body.length)
    rw [if_neg hlong, Module.ofWords]
    refine .guard rfl ?_
    split
    · exact decode_endsAs
    · split
      · exact decode_endsAs
      · exact .throw _

/-- Bytes that are whole words are read word by word. -/
theorem mapM_readWord_endsAs {bytes : List UInt8} {ws : List Word} (h : Word.listOfBytes? bytes = some ws) :
    EndsAs ((chunks bytes).mapM fun chunk => (readWord chunk : Guarded ε Word)) (.ok ws) := by
  fun_induction Word.listOfBytes? bytes generalizing ws with
  | case1 =>
    cases h
    exact .pure []
  | case2 a b c d rest ih =>
    obtain ⟨ws, hrest, rfl⟩ := Option.map_eq_some_iff.mp h
    rw [chunks, List.mapM_cons]
    exact .guard rfl <| (ih hrest).bind (g := fun ws => .ok (.ofBytes a b c d :: ws)) fun _ _ => .pure _
  | case3 => cases h

theorem ofBytes_endsAs (bytes : List UInt8) : EndsAs (ofBytes bytes) (Module.ofBytes bytes) := by
  rw [ofBytes, Module.ofBytes]
  split
  next hpart =>
    rw [Word.listOfBytes?_eq_none_iff.mpr (by omega)]
    exact .throw _
  next hwhole =>
    have hdvd : 4 ∣ bytes.length := Nat.dvd_of_mod_eq_zero (Decidable.not_not.mp hwhole)
    obtain ⟨ws, hws⟩ := Option.ne_none_iff_exists'.mp (mt Word.listOfBytes?_eq_none_iff.mp (not_not_intro hdvd))
    rw [hws]
    exact (mapM_readWord_endsAs hws).bind (g := Module.ofWords) fun ws _ => ofWords_endsAs ws

/-! ## Auditing -/

/-- A counter that is small is counted on. -/
theorem increment_eq_ok {n : Nat} (h : n ≤ 1) : increment n = .ok (n + 1) := if_pos (by omega)

theorem registerDeclaration_endsAs {d : Declarations} {i : Instruction} (h : d.memoryModelCount ≤ 1) :
    EndsAs (registerDeclaration d i) ((d.registerDeclaration i).mapError Violation.diagnostic) := by
  unfold registerDeclaration
  split
  next hop =>
    have hname := (string_endsAs i 0).adapt fun _ => (i.violation .name .malformedText).diagnostic
    have hbind := hname.bind (g := fun name => .ok { d with extensions := name :: d.extensions }) fun _ _ => .pure _
    simp only [Declarations.registerDeclaration, hop]
    cases hstring : i.string 0 with
    | error e => rwa [hstring] at hbind
    | ok name => rwa [hstring] at hbind
  next hop =>
    simp only [Declarations.registerDeclaration, hop, mapError_bind]
    refine (report_endsAs _).bind fun addressing _ => (report_endsAs _).bind fun memory _ => ?_
    exact .guard (increment_eq_ok h) (.pure _)
  next => exact report_endsAs _

theorem step_endsAs {d : Declarations} {i : Instruction} (h : d.memoryModelCount ≤ 1) :
    EndsAs (step d i) ((d.step i).mapError Violation.diagnostic) := by
  simp only [step, Declarations.step, Declarations.register, mapError_bind, bind_assoc]
  refine (registerDeclaration_endsAs h).bind fun d _ => ?_
  exact (report_endsAs _).bind fun _ _ => .pure _

/-- The counter stays small on a walk, which ends at the second `OpMemoryModel`. -/
theorem run_endsAs {d : Declarations} {is : List Instruction} (h : d.memoryModelCount ≤ 1) :
    EndsAs (run d is) ((d.run is).mapError Violation.diagnostic) := by
  induction is generalizing d with
  | nil => exact .pure d
  | cons i is ih =>
    rw [run, List.foldlM_cons, Declarations.run_cons, mapError_bind]
    -- The induction goes on only from a step that accepts, and such a step leaves the count at one at most.
    refine (step_endsAs h).bind fun d' hstep => ih ?_
    exact Declarations.memoryModelCount_le_one_of_step (mapError_eq_ok_iff.mp hstep) h

theorem audit_endsAs (env : Environment) (m : Module) :
    EndsAs (audit env m) ((m.audit env).mapError Violation.diagnostic) := by
  simp only [audit, Module.audit, mapError_bind]
  refine (report_endsAs _).bind fun _ _ => ?_
  exact (run_endsAs (Nat.zero_le 1)).bind fun _ _ => report_endsAs _

theorem auditRead_endsAs {env : Environment} {x : Guarded DecodeError Module} {read : Except DecodeError Module}
    (h : EndsAs x read) : EndsAs (Guarded.auditRead env x) (SpirvAudit.auditRead env read) := by
  have hread : SpirvAudit.auditRead env read =
      (read.mapError .other >>= fun m => ((m.audit env).mapError Violation.diagnostic).mapError .invalid) := by
    cases read with
    | error e => rfl
    | ok m =>
      change (m.audit env).mapError _ = ((m.audit env).mapError _).mapError _
      cases m.audit env <;> rfl
  rw [hread]
  exact (h.adapt _).bind fun m _ => (audit_endsAs env m).adapt _

/-! ## No trap -/

/-- Registering one more instruction after a walk declares the models twice at most. -/
theorem memoryModelCount_le_two {env : Environment} {is : List Instruction} {d d' : Declarations} {i : Instruction}
    (hrun : (Declarations.initial env).run is = .ok d) (h : d.register i = .ok d') : d'.memoryModelCount ≤ 2 := by
  have hone : d.memoryModelCount ≤ 1 := Declarations.memoryModelCount_le_one_of_run hrun (Nat.zero_le 1)
  obtain ⟨hi, rfl⟩ := Declarations.register_eq_ok_iff.mp h
  rw [(Declarations.registerOrSkip_registers hi).memoryModelCount]
  split <;> omega

/-- **No input traps the audit.** Whatever words or bytes it is given, in whatever environment, the guarded
audit ends as the audit does, so none of its guards fails. On the way the models are declared twice at most.
Each check of a synchronizing instruction, on any declarations, any instruction and any of its operands, ends
in a violation of a rule with a text, if it ends in one. -/
theorem noTrap (env : Environment) :
    (∀ ws, (auditRead env (ofWords ws)).EndsAs (auditWords env ws)) ∧
    (∀ bytes, (auditRead env (ofBytes bytes)).EndsAs (auditBytes env bytes)) ∧
    (∀ (is : List Instruction) (i : Instruction) (d d' : Declarations),
      (Declarations.initial env).run is = .ok d → d.register i = .ok d' → d'.memoryModelCount ≤ 2) ∧
    ∀ (d : Declarations) (i : Instruction) (index scopeIndex : Nat),
      ∀ x ∈ [d.checkAtomic i, d.checkControlBarrier i, d.checkMemoryBarrier i, d.checkMemoryNamedBarrier i,
        d.checkExecutionScope i index, d.checkMemoryScope i index, d.checkSemantics i index scopeIndex],
        (report x).EndsAs (x.mapError Violation.diagnostic) := by
  refine ⟨fun ws => auditRead_endsAs (ofWords_endsAs ws), fun bytes => auditRead_endsAs (ofBytes_endsAs bytes), ?_, ?_⟩
  · exact fun _ _ _ _ => memoryModelCount_le_two
  · exact fun _ _ _ _ x _ => report_endsAs x

/-- The front of a module that declares its models, and two orders at once as a constant. -/
def declaring : List Instruction := [
  ⟨.opCapability, none, none, [1]⟩,
  ⟨.opMemoryModel, none, none, [0, 1]⟩,
  ⟨.opTypeInt, none, some 1, [32, 0]⟩,
  ⟨.opConstant, some 1, some 2, [6]⟩]

/-- What it declares. -/
def declared : Declarations where
  environment := default
  capabilities := [.shader, .matrix]
  addressingModel? := some .logical
  memoryModel? := some .glsl450
  memoryModelCount := 1
  definitions := [
    (2, .ofInstruction ⟨.opConstant, some 1, some 2, [6]⟩),
    (1, .ofInstruction ⟨.opTypeInt, none, some 1, [32, 0]⟩)]

/-- A second declaration of the models is counted before it is rejected, and the two orders break a rule
with a text. -/
theorem noTrap_declared :
    (∃ d, declared.register ⟨.opMemoryModel, none, none, [0, 1]⟩ = .ok d ∧ d.memoryModelCount ≤ 2 ∧
      declared.step ⟨.opMemoryModel, none, none, [0, 1]⟩ ≠ .ok d) ∧
    ∃ e, (report (declared.checkSemantics ⟨.opMemoryBarrier, none, none, [2, 2]⟩ 1 0)).EndsAs (.error e) ∧
      e.rule = "VUID-StandaloneSpirv-MemorySemantics-10001" := by
  obtain ⟨-, -, hcount, hrules⟩ := noTrap (.universal 6)
  constructor
  · have hrun : (Declarations.initial (.universal 6)).run declaring = .ok declared := by cbv
    have hregister : declared.register ⟨.opMemoryModel, none, none, [0, 1]⟩ =
        .ok { declared with memoryModelCount := 2 } := by cbv
    exact ⟨_, hregister, hcount _ _ _ _ hrun hregister, by decide⟩
  · let i : Instruction := ⟨.opMemoryBarrier, none, none, [2, 2]⟩
    have hrule := hrules declared i 1 0 (declared.checkSemantics i 1 0) (by simp)
    exact ⟨_, hrule, rfl⟩

end Guarded

end SpirvAudit
