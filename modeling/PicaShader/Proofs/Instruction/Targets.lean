/-
**Branch targets are labels, and are written as such.**

An instruction is encoded under the addresses of labels. Its word holds a target and a distance, or
the address before a label, but the addresses that its text names are those of labels again
(`Mnemonic.named_of_encode`): a distance that fits its slot, backward ones included, is taken off
without loss.

Where all targets have names, no address is written as a number. Nothing else in the text of an
instruction has the byte that leads such a number (`Instruction.atFree_disassemble`).
-/

import PicaShader.Proofs.Instruction.Reassembly
import PicaShader.Proofs.Text.Trimming

namespace PicaShader

/-! ### Targets of encoded instructions -/

namespace Instruction

variable {labels : Labels} {operands : Text} {fields : Fields}

/-- All targets of an instruction are addresses of labels. -/
def Named (labels : Labels) (instruction : Instruction) : Prop :=
  ∀ address ∈ instruction.targets, ∃ name, labels name = some address

/-- Only fields with a slot matter. -/
theorem targets_congr {mnemonic : Mnemonic} {others : Fields}
    (same : ∀ slot ∈ mnemonic.format.layout, others.get slot.field = fields.get slot.field) :
    targets ⟨mnemonic, others⟩ = targets ⟨mnemonic, fields⟩ := by
  obtain ⟨name, opcode, format⟩ := mnemonic
  have address (slot : Slot) (mem : slot ∈ format.layout) (is : slot.field = .address) :
      others.address = fields.address := by
    have found := same slot mem
    rw [is] at found
    exact found
  have offset (slot : Slot) (mem : slot ∈ format.layout) (is : slot.field = .offset) :
      others.offset = fields.offset := by
    have found := same slot mem
    rw [is] at found
    exact found
  unfold targets
  cases format with
  | condBranch | call | uniformBranch =>
    simp only
    rw [address ⟨.address, 12, 10⟩ (by simp [Format.layout]) rfl,
      offset ⟨.offset, 10, 0⟩ (by simp [Format.layout]) rfl]
  | loop =>
    simp only
    rw [address ⟨.address, 12, 10⟩ (by simp [Format.layout]) rfl]
  | _ => rfl

end Instruction

namespace Labels

theorem address_eq_ok_iff {labels : Labels} {name : Text} {address : Word} :
    labels.address name = .ok address ↔ labels name = some address := by
  unfold Labels.address
  cases labels name <;> simp

end Labels

namespace Operands

variable {labels : Labels} {operands : Text} {fields : Fields}

/-- The two ends of a branch are labels. -/
structure NamedPair (labels : Labels) (fields : Fields) : Prop where
  target : ∃ name, labels name = some (fields.address + fields.offset)
  address : ∃ name, labels name = some fields.address

theorem namedPair_of_found {first second : Text} {target address : Word}
    (foundTarget : labels.address first = .ok target)
    (foundAddress : labels.address second = .ok address) (isAddress : fields.address = address)
    (isOffset : fields.offset = target - address) : NamedPair labels fields := by
  refine ⟨⟨first, ?_⟩, ⟨second, ?_⟩⟩
  · rw [isAddress, isOffset, BitVec.add_comm, BitVec.sub_add_cancel]
    exact Labels.address_eq_ok_iff.mp foundTarget
  · rw [isAddress]
    exact Labels.address_eq_ok_iff.mp foundAddress

theorem namedPair_of_branchPair {first second : Text}
    (paired : branchPair labels first second = .ok fields) : NamedPair labels fields := by
  unfold branchPair at paired
  obtain ⟨target, foundTarget, paired⟩ := Except.bind_eq_ok_iff.mp paired
  obtain ⟨address, foundAddress, same⟩ := Except.bind_eq_ok_iff.mp paired
  obtain rfl := Except.ok.inj same
  exact namedPair_of_found foundTarget foundAddress rfl rfl

theorem namedPair_of_parseCondBranch (parsed : parseCondBranch labels operands = .ok fields) :
    NamedPair labels fields := by
  unfold parseCondBranch at parsed
  split at parsed
  · split at parsed
    · split at parsed
      · cases parsed
      · obtain ⟨pair, paired, same⟩ := Except.bind_eq_ok_iff.mp parsed
        obtain rfl := Except.ok.inj same
        obtain ⟨target, address⟩ := namedPair_of_branchPair paired
        exact ⟨target, address⟩
    · cases parsed
  · cases parsed

theorem namedPair_of_parseUniformBranch (parsed : parseUniformBranch labels operands = .ok fields) :
    NamedPair labels fields := by
  unfold parseUniformBranch at parsed
  split at parsed
  · split at parsed
    · obtain ⟨boolean, -, parsed⟩ := Except.bind_eq_ok_iff.mp parsed
      obtain ⟨pair, paired, same⟩ := Except.bind_eq_ok_iff.mp parsed
      obtain rfl := Except.ok.inj same
      obtain ⟨target, address⟩ := namedPair_of_branchPair paired
      exact ⟨target, address⟩
    · cases parsed
  · cases parsed

theorem namedPair_of_parseCall (parsed : parseCall labels operands = .ok fields) :
    NamedPair labels fields := by
  unfold parseCall at parsed
  split at parsed
  · obtain ⟨address, foundAddress, parsed⟩ := Except.bind_eq_ok_iff.mp parsed
    obtain ⟨target, foundTarget, same⟩ := Except.bind_eq_ok_iff.mp parsed
    obtain rfl := Except.ok.inj same
    exact namedPair_of_found foundTarget foundAddress rfl rfl
  · cases parsed

/-- A loop ends at a label, which is not the first address. -/
theorem named_of_parseLoop (parsed : parseLoop labels operands = .ok fields) :
    ∃ name, labels name = some (fields.address + 1) := by
  unfold parseLoop at parsed
  split at parsed
  · split at parsed
    · obtain ⟨stop, found, parsed⟩ := Except.bind_eq_ok_iff.mp parsed
      split at parsed
      · cases parsed
      · obtain ⟨integer, -, same⟩ := Except.bind_eq_ok_iff.mp parsed
        obtain rfl := Except.ok.inj same
        refine ⟨_, (Labels.address_eq_ok_iff.mp found).trans (congrArg some ?_)⟩
        exact (BitVec.sub_add_cancel stop 1).symm
    · cases parsed
  · cases parsed

end Operands

namespace Mnemonic

variable {mnemonic : Mnemonic} {labels : Labels} {operands : Text} {fields : Fields} {word : Word}

theorem named_of_parse (parsed : mnemonic.parse operands labels = .ok fields) :
    Instruction.Named labels ⟨mnemonic, fields⟩ := by
  unfold Mnemonic.parse at parsed
  rw [Except.mapError_eq_ok_iff] at parsed
  unfold Instruction.Named Instruction.targets
  have pair (named : Operands.NamedPair labels fields) :
      ∀ address ∈ [fields.address + fields.offset, fields.address],
        ∃ name, labels name = some address := by
    simp only [List.forall_mem_cons]
    exact ⟨named.target, named.address, List.forall_mem_nil _⟩
  cases format : mnemonic.format <;> rw [format] at parsed
  case condBranch => exact pair (Operands.namedPair_of_parseCondBranch parsed)
  case uniformBranch => exact pair (Operands.namedPair_of_parseUniformBranch parsed)
  case call => exact pair (Operands.namedPair_of_parseCall parsed)
  case loop => exact List.forall_mem_singleton.mpr (Operands.named_of_parseLoop parsed)
  all_goals exact List.forall_mem_nil _

/-- **The targets of an encoded instruction are labels.** -/
theorem named_of_encode (known : mnemonic ∈ table)
    (encoded : mnemonic.encode operands labels = .ok word) :
    ∀ address ∈ word.branchTargets, ∃ name, labels name = some address := by
  obtain ⟨fields, parsed, packed⟩ := Except.bind_eq_ok_iff.mp encoded
  obtain ⟨kept, decoded, slots⟩ := decode_slots_of_pack known packed
  have same : Instruction.targets ⟨mnemonic, kept⟩ = Instruction.targets ⟨mnemonic, fields⟩ :=
    Instruction.targets_congr slots
  rw [Word.branchTargets, decoded]
  simp only [same]
  exact named_of_parse parsed

end Mnemonic

/-! ### Texts without numbered addresses -/

namespace Text

/-- No byte of a text leads an address that is written as a number. -/
def AtFree (text : Text) : Prop := '@'.toUInt8 ∉ text

instance (text : Text) : Decidable text.AtFree := inferInstanceAs (Decidable (_ ∉ _))

@[simp] theorem atFree_append {first second : Text} :
    AtFree (first ++ second) ↔ first.AtFree ∧ second.AtFree := by
  simp [AtFree]

@[simp] theorem atFree_cons {byte : UInt8} {text : Text} :
    AtFree (byte :: text) ↔ byte ≠ '@'.toUInt8 ∧ text.AtFree := by
  simp [AtFree, eq_comm]

theorem AtFree.of_bytes {inClass : UInt8 → Bool} (outside : inClass '@'.toUInt8 = false)
    {text : Text} (bytes : ∀ byte ∈ text, inClass byte) : text.AtFree := fun mem =>
  Bool.eq_false_iff.mp outside (bytes _ mem)

theorem AtFree.joinWith {separator : Text} (between : separator.AtFree) {texts : List Text}
    (each : ∀ text ∈ texts, text.AtFree) : (Text.joinWith separator texts).AtFree := by
  have other : ∀ byte ∈ Text.joinWith separator texts, byte ≠ '@'.toUInt8 := by
    refine forall_mem_joinWith ?_ fun text inTexts => ?_
    · rintro byte here rfl
      exact between here
    · rintro byte here rfl
      exact each text inTexts here
  exact fun mem => other _ mem rfl

/-- Trimming adds nothing. -/
theorem AtFree.trim {text : Text} (free : text.AtFree) : (Text.trim text).AtFree :=
  fun mem => free (trim_subset text mem)

@[simp] theorem atFree_decimal (value : Nat) : (Numeral.decimal value).AtFree :=
  AtFree.of_bytes (by decide) fun _ mem => Numeral.isDigit_of_mem_decimal mem

@[simp] theorem atFree_hex (value : Nat) : (Numeral.hex value).AtFree :=
  AtFree.of_bytes (by decide) fun _ mem => Numeral.isHexDigit_of_mem_hex mem

@[simp] theorem atFree_hexPadded (width value : Nat) : (Numeral.hexPadded width value).AtFree := by
  unfold Numeral.hexPadded padLeft padding
  rw [atFree_append]
  refine ⟨fun mem => ?_, atFree_hex value⟩
  exact absurd (List.eq_of_mem_replicate mem) (by decide)

theorem atFree_of_isLabelName {name : Text} (isLabel : Line.isLabelName name) : name.AtFree := by
  rw [Line.isLabelName, Bool.and_eq_true, List.all_eq_true] at isLabel
  exact AtFree.of_bytes (by decide) isLabel.2

end Text

namespace Register

theorem atFree_name (register : Word) (role : OperandRole) : (name register role).AtFree := by
  have letters : ∀ named ∈ filesOf role, named.1.toUInt8 ≠ '@'.toUInt8 := by
    cases role with
    | destination | firstSource | secondSource => decide
    | other code => exact List.forall_mem_nil _
  rcases name_cases register role with ⟨letter, file, mem, -, -, same⟩ | same
  · rw [same, Text.atFree_cons]
    exact ⟨letters _ mem, Text.atFree_decimal _⟩
  · rw [same, Text.atFree_cons]
    exact ⟨by decide, Text.atFree_hex _⟩

theorem atFree_indexedName (register : Word) (index : RelativeIndex) :
    (indexedName register index).AtFree := by
  have named : index.name.AtFree := by
    unfold RelativeIndex.name
    repeat' split
    case isFalse.isFalse.isFalse.isFalse =>
      simp only [Text.atFree_append, Text.atFree_decimal, and_true]
      decide
    all_goals decide
  unfold indexedName
  split
  · exact atFree_name register .firstSource
  · simp only [Text.atFree_append]
    exact ⟨⟨⟨atFree_name register .firstSource, by decide⟩, named⟩, by decide⟩

end Register

theorem Comparison.atFree_name (comparison : Comparison) : comparison.name.AtFree := by
  have each : ∀ name ∈ names, name.AtFree := by decide
  unfold Comparison.name
  rw [List.getD_eq_getElem?_getD]
  cases found : names[comparison.code.toNat]? with
  | some name => exact each name (List.mem_of_getElem? found)
  | none =>
    simp only [Option.getD_none, Text.atFree_append, Text.atFree_decimal, and_true]
    decide

theorem Condition.atFree_text (flags : Word) : (Condition.text flags).AtFree := by
  have test (bit : Word) {letter : Char} (other : letter.toUInt8 ≠ '@'.toUInt8) :
      (testText flags bit letter).AtFree := by
    unfold testText
    split
    · exact Text.atFree_append.mpr ⟨by decide, Text.atFree_cons.mpr ⟨other, by decide⟩⟩
    · exact Text.atFree_append.mpr ⟨by decide, Text.atFree_cons.mpr ⟨other, by decide⟩⟩
  have x := test 8 (show 'x'.toUInt8 ≠ '@'.toUInt8 by decide)
  have y := test 4 (show 'y'.toUInt8 ≠ '@'.toUInt8 by decide)
  unfold Condition.text
  repeat' split
  · exact Text.atFree_append.mpr ⟨Text.atFree_append.mpr ⟨x, by decide⟩, y⟩
  · exact Text.atFree_append.mpr ⟨Text.atFree_append.mpr ⟨x, by decide⟩, y⟩
  · exact x
  · exact y

namespace Instruction

theorem atFree_operandTexts {instruction : Instruction} {namer : Namer}
    (named : ∀ address ∈ instruction.targets, (namer.text address).AtFree) :
    ∀ text ∈ instruction.operandTexts namer, text.AtFree := by
  obtain ⟨⟨name, opcode, format⟩, fields⟩ := instruction
  have flag (value : Bool) : (flagText value).AtFree := by cases value <;> decide
  have described {last : Text} (free : last.AtFree) :
      (last ++ " " ++ descriptorText fields.descriptor).AtFree := by
    unfold descriptorText
    simp only [Text.atFree_append, Text.atFree_hex, and_true]
    exact ⟨⟨free, by decide⟩, by decide, by decide⟩
  have numbered (letter : Char) (other : letter.toUInt8 ≠ '@'.toUInt8) (value : Nat) :
      Text.AtFree (letter.toUInt8 :: Numeral.decimal value) :=
    Text.atFree_cons.mpr ⟨other, Text.atFree_decimal value⟩
  unfold targets at named
  unfold operandTexts
  cases format <;> simp only [List.forall_mem_cons] at named ⊢
  case arith =>
    exact ⟨Register.atFree_name _ _, Register.atFree_indexedName _ _,
      described (Register.atFree_name _ _), List.forall_mem_nil _⟩
  case arithImm =>
    exact ⟨Register.atFree_name _ _, Register.atFree_name _ _,
      described (Register.atFree_name _ _), List.forall_mem_nil _⟩
  case unary =>
    exact ⟨Register.atFree_name _ _, described (Register.atFree_indexedName _ _),
      List.forall_mem_nil _⟩
  case compare =>
    exact ⟨Register.atFree_name _ _, Comparison.atFree_name _, Comparison.atFree_name _,
      described (Register.atFree_name _ _), List.forall_mem_nil _⟩
  case condBranch =>
    exact ⟨named.1, named.2.1, Condition.atFree_text _, List.forall_mem_nil _⟩
  case call => exact ⟨named.2.1, named.1, List.forall_mem_nil _⟩
  case loop => exact ⟨named.1, numbered 'i' (by decide) _, List.forall_mem_nil _⟩
  case uniformBranch =>
    exact ⟨named.1, named.2.1, numbered 'b' (by decide) _, List.forall_mem_nil _⟩
  case setEmit =>
    exact ⟨Text.atFree_append.mpr ⟨by decide, Text.atFree_decimal _⟩, flag _, flag _,
      List.forall_mem_nil _⟩
  case mad | madi =>
    exact ⟨Register.atFree_name _ _, Register.atFree_name _ _, Register.atFree_name _ _,
      described (Register.atFree_name _ _), List.forall_mem_nil _⟩
  all_goals exact List.forall_mem_nil _

/-- **No address is written as a number** where all targets have names. -/
theorem atFree_disassemble {word : Word} {namer : Namer}
    (named : ∀ address ∈ word.branchTargets, (namer.text address).AtFree) :
    (disassemble word namer).AtFree := by
  have names : ∀ mnemonic ∈ Mnemonic.table, mnemonic.name.AtFree := by decide
  unfold disassemble
  unfold Word.branchTargets at named
  cases decoded : decode word with
  | error fault =>
    simp only [Text.atFree_append, Text.atFree_hexPadded, and_true]
    decide
  | ok instruction =>
    rw [decoded] at named
    have operands := atFree_operandTexts named
    have name : instruction.mnemonic.name.AtFree :=
      names _ (Mnemonic.mem_table_of_ofWord? (decode_eq_ok_iff.mp decoded).1)
    refine Text.AtFree.trim ?_
    unfold text
    split
    · exact name
    · refine Text.atFree_append.mpr ⟨Text.atFree_append.mpr ⟨name, by decide⟩, ?_⟩
      exact Text.AtFree.joinWith (by decide) operands

end Instruction

end PicaShader
