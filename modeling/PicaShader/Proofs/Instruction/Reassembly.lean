/-
**Disassembly is undone by assembly.**

The text of an instruction is parsed back to its fields, format by format (`Instruction.Rereads`),
and the fields of a canonical word are packed to that word. So a canonical word is assembled again
from its text, if its branch targets have names that the labels resolve
(`Instruction.assemble_disassemble`); and only canonical words are assembled at all. There are names
for every address, the numbers (`Namer.numbers`), so that each canonical word can be assembled.
-/

import PicaShader.Assembly.Line
import PicaShader.Proofs.Instruction.Canonical
import PicaShader.Proofs.Instruction.Parsing
import PicaShader.Proofs.Instruction.Statements

namespace PicaShader

/-! ### Names of addresses -/

namespace Namer

/-- An address has a name that is a label with this address. -/
def Resolves (namer : Namer) (labels : Labels) (address : Word) : Prop :=
  ∃ name, namer address = some name ∧ Line.isLabelName name ∧ labels name = some address

theorem isTokenByte_of_isNameByte : ∀ byte : UInt8,
    (Line.isNameByte byte && !('A'.toUInt8 ≤ byte && byte ≤ 'Z'.toUInt8)) →
      Operands.isTokenByte byte := by
  apply Text.forall_byte
  decide +kernel

theorem isLabelByte_of_isDigit : ∀ byte : UInt8, Numeral.isDigit byte →
    (Line.isNameByte byte && !('A'.toUInt8 ≤ byte && byte ≤ 'Z'.toUInt8)) := by
  apply Text.forall_byte
  decide +kernel

theorem isToken_of_isLabelName {name : Text} (isLabel : Line.isLabelName name) :
    Operands.IsToken name := by
  rw [Line.isLabelName, Bool.and_eq_true, List.all_eq_true, Bool.not_eq_true',
    List.isEmpty_eq_false_iff] at isLabel
  exact ⟨isLabel.1, fun byte mem => isTokenByte_of_isNameByte byte (isLabel.2 byte mem)⟩

theorem isLabelName_decimal (value : Nat) : Line.isLabelName (Numeral.decimal value) := by
  rw [Line.isLabelName, Bool.and_eq_true, List.all_eq_true, Bool.not_eq_true',
    List.isEmpty_eq_false_iff]
  exact ⟨Numeral.inBase_ne_nil 10 value, fun byte mem =>
    isLabelByte_of_isDigit byte (Numeral.isDigit_of_mem_decimal mem)⟩

theorem Resolves.names {namer : Namer} {labels : Labels} {address : Word}
    (resolves : namer.Resolves labels address) :
    Operands.Names labels (namer.text address) address := by
  obtain ⟨name, named, isLabel, found⟩ := resolves
  have text : namer.text address = name := by rw [Namer.text, named]
  rw [text]
  exact ⟨isToken_of_isLabelName isLabel, by rw [Labels.address, found]⟩

/-- Every address is called by its number. -/
def numbers : Namer := fun address => some (Numeral.decimal address.toNat)

theorem numbers_resolves (address : Word) :
    numbers.Resolves (fun name => (Numeral.readPlain? name).map (BitVec.ofNat 32)) address := by
  refine ⟨Numeral.decimal address.toNat, rfl, isLabelName_decimal address.toNat, ?_⟩
  show (Numeral.readPlain? (Numeral.decimal address.toNat)).map (BitVec.ofNat 32) = some address
  rw [Numeral.readPlain?_decimal address.isLt, Option.map_some, Word.ofNat_toNat]

end Namer

/-! ### Written operands -/

namespace Operands

theorem IsToken.printed {token : Text} (isToken : IsToken token) :
    ∀ byte ∈ token, Text.isPrinted byte := fun _ mem =>
  Text.printed_of_visible (isToken.visible mem)

theorem IsToken.ends {token : Text} (isToken : IsToken token) :
    token.getLast?.any Text.isVisible := by
  rw [List.getLast?_eq_some_getLast isToken.nonempty]
  exact isToken.visible (List.getLast_mem isToken.nonempty)

theorem printed_withDescriptor {token : Text} (printed : ∀ byte ∈ token, Text.isPrinted byte)
    (descriptor : Word) : ∀ byte ∈ withDescriptor token descriptor, Text.isPrinted byte := by
  have numeral := (List.forall_mem_append.mp (isToken_hex descriptor.toNat).printed).2
  simp only [withDescriptor, List.forall_mem_append]
  exact ⟨⟨printed, Text.forall_mem_of_all (by decide)⟩,
    ⟨Text.forall_mem_of_all (by decide), numeral⟩, Text.forall_mem_of_all (by decide)⟩

theorem ends_withDescriptor (token : Text) (descriptor : Word) :
    (withDescriptor token descriptor).getLast?.any Text.isVisible := by
  rw [withDescriptor, List.getLast?_append, List.getLast?_append]
  rfl

theorem lower_withDescriptor {token : Text} (printed : ∀ byte ∈ token, Text.isPrinted byte)
    (descriptor : Word) :
    Text.lower (withDescriptor token descriptor)
      = withDescriptor (Text.lower token) descriptor := by
  have numeral : ∀ byte ∈ Numeral.hex descriptor.toNat, Text.isPlain byte := fun byte mem =>
    (isToken_hex descriptor.toNat).plain (List.mem_append_right _ mem)
  have tail : ∀ byte ∈ (" " : Text) ++ ("(0x" ++ Numeral.hex descriptor.toNat ++ ")"),
      Text.isPlain byte := by
    simp only [List.forall_mem_append]
    exact ⟨Text.forall_mem_of_all (by decide), ⟨Text.forall_mem_of_all (by decide), numeral⟩,
      Text.forall_mem_of_all (by decide)⟩
  rw [withDescriptor, withDescriptor, List.append_assoc token,
    Text.lower_append_of_ascii fun byte mem => Text.ascii_of_printed (printed byte mem),
    Text.lower_of_plain tail, List.append_assoc (Text.lower token)]

end Operands

/-! ### Formats -/

namespace Instruction

/-- The operands of an instruction are parsed back to its fields. -/
structure Rereads (instruction : Instruction) (namer : Namer) (labels : Labels) (texts : List Text)
    (last : Text) : Prop where
  written : instruction.operandTexts namer = texts ++ [last]
  printed : ∀ text ∈ texts ++ [last], ∀ byte ∈ text, Text.isPrinted byte
  ends : last.getLast?.any Text.isVisible
  parsed : instruction.mnemonic.format.parse instruction.mnemonic.name labels
    (" " ++ Text.joinWith ", " ((texts ++ [last]).map Text.lower)) = .ok instruction.fields

/-- An instruction that is parsed back is assembled to its word. -/
theorem Rereads.assemble {mnemonic : Mnemonic} {fields : Fields} {namer : Namer} {labels : Labels}
    {texts : List Text} {last : Text}
    (rereads : Rereads ⟨mnemonic, fields⟩ namer labels texts last)
    (known : mnemonic ∈ Mnemonic.table) {word : Word} (packed : mnemonic.pack fields = .ok word) :
    assemble (Text.trim (text ⟨mnemonic, fields⟩ namer)) labels = .ok word := by
  have shape : text ⟨mnemonic, fields⟩ namer
      = mnemonic.name ++ " " ++ Text.joinWith ", " (texts ++ [last]) := by
    obtain ⟨first, rest, cons⟩ := List.exists_cons_of_ne_nil (List.concat_ne_nil last texts)
    rw [text, rereads.written, cons]
  rw [shape, assemble_joinWith known rereads.printed rereads.ends, rereads.parsed]
  exact packed

section Formats

open Register Operands

variable {name : Text} {opcode : BitVec 8} {fields : Fields} {namer : Namer} {labels : Labels}

/-- A list of tokens is in lower case already. -/
theorem Rereads.of_tokens {instruction : Instruction} {texts : List Text} {last : Text}
    (written : instruction.operandTexts namer = texts ++ [last])
    (areTokens : ∀ token ∈ texts ++ [last], IsToken token)
    (parsed : instruction.mnemonic.format.parse instruction.mnemonic.name labels
      (" " ++ Text.joinWith ", " (texts ++ [last])) = .ok instruction.fields) :
    Rereads instruction namer labels texts last where
  written := written
  printed token mem := (areTokens token mem).printed
  ends := (areTokens last (by simp)).ends
  parsed := by
    have lower : (texts ++ [last]).map Text.lower = texts ++ [last] :=
      (List.map_congr_left fun token mem => (areTokens token mem).lower).trans (List.map_id _)
    rwa [lower]

/-- Only the tokens of a list with a descriptor are put into lower case. -/
theorem Rereads.of_described {instruction : Instruction} {texts : List Text} {token : Text}
    {descriptor : Word}
    (written : instruction.operandTexts namer = texts ++ [withDescriptor token descriptor])
    (printed : ∀ text ∈ texts ++ [token], ∀ byte ∈ text, Text.isPrinted byte)
    (parsed : instruction.mnemonic.format.parse instruction.mnemonic.name labels
      (" " ++ Text.joinWith ", "
        (texts.map Text.lower ++ [withDescriptor (Text.lower token) descriptor]))
        = .ok instruction.fields) :
    Rereads instruction namer labels texts (withDescriptor token descriptor) := by
  rw [List.forall_mem_append, List.forall_mem_singleton] at printed
  refine ⟨written, ?_, ends_withDescriptor token descriptor, ?_⟩
  · rw [List.forall_mem_append, List.forall_mem_singleton]
    exact ⟨printed.1, printed_withDescriptor printed.2 descriptor⟩
  · rwa [List.map_append, List.map_singleton, lower_withDescriptor printed.2]

/-- A list of tokens with a descriptor is in lower case already. -/
theorem Rereads.of_describedTokens {instruction : Instruction} {texts : List Text} {token : Text}
    {descriptor : Word}
    (written : instruction.operandTexts namer = texts ++ [withDescriptor token descriptor])
    (areTokens : ∀ text ∈ texts ++ [token], IsToken text)
    (parsed : instruction.mnemonic.format.parse instruction.mnemonic.name labels
      (" " ++ Text.joinWith ", " (texts ++ [withDescriptor token descriptor]))
        = .ok instruction.fields) :
    Rereads instruction namer labels texts (withDescriptor token descriptor) := by
  refine Rereads.of_described written (fun text mem => (areTokens text mem).printed) ?_
  have lower : texts.map Text.lower = texts :=
    (List.map_congr_left fun text mem => (areTokens text (by simp [mem])).lower).trans
      (List.map_id _)
  rwa [lower, (areTokens token (by simp)).lower]

theorem rereads_arith (index : fields.index.code.toNat < 4)
    (rest : fields = { dst := fields.dst, src1 := fields.src1, index := fields.index,
                       src2 := fields.src2, descriptor := fields.descriptor }) :
    Rereads ⟨⟨name, opcode, .arith⟩, fields⟩ namer labels
      [Register.name fields.dst .destination, indexedName fields.src1 fields.index]
      (withDescriptor (Register.name fields.src2 .secondSource) fields.descriptor) := by
  have dst := standsFor_name fields.dst usable_destination
  have src1 := standsFor_lower_indexedName fields.src1 index
  have src2 := standsFor_name fields.src2 (usable_secondSource (.inr rfl))
  refine Rereads.of_described rfl ?_ ?_
  · simp only [List.cons_append, List.nil_append, List.forall_mem_cons]
    exact ⟨dst.isToken.printed, printed_indexedName _ index, src2.isToken.printed,
      List.forall_mem_nil _⟩
  · simp only [List.map_cons, List.map_nil, dst.isToken.lower, src2.isToken.lower]
    exact (parseArith_written dst src1 src2 fields.descriptor).trans (congrArg Except.ok rest.symm)

theorem rereads_unary (index : fields.index.code.toNat < 4)
    (rest : fields = { dst := fields.dst, src1 := fields.src1, index := fields.index,
                       descriptor := fields.descriptor }) :
    Rereads ⟨⟨name, opcode, .unary⟩, fields⟩ namer labels
      [Register.name fields.dst .destination]
      (withDescriptor (indexedName fields.src1 fields.index) fields.descriptor) := by
  have dst := standsFor_name fields.dst usable_destination
  have src1 := standsFor_lower_indexedName fields.src1 index
  refine Rereads.of_described rfl ?_ ?_
  · simp only [List.cons_append, List.nil_append, List.forall_mem_cons]
    exact ⟨dst.isToken.printed, printed_indexedName _ index, List.forall_mem_nil _⟩
  · simp only [List.map_cons, List.map_nil, dst.isToken.lower]
    exact (parseUnary_written dst src1 fields.descriptor).trans (congrArg Except.ok rest.symm)

theorem rereads_arithImm
    (rest : fields = { dst := fields.dst, src1 := fields.src1, src2 := fields.src2,
                       descriptor := fields.descriptor }) :
    Rereads ⟨⟨name, opcode, .arithImm⟩, fields⟩ namer labels
      [Register.name fields.dst .destination, Register.name fields.src1 .secondSource]
      (withDescriptor (Register.name fields.src2 .secondSource) fields.descriptor) := by
  have dst := standsFor_name fields.dst usable_destination
  have src1 := standsFor_name fields.src1 (usable_secondSource (.inl rfl))
  have src2 := standsFor_name fields.src2 (usable_secondSource (.inr rfl))
  refine Rereads.of_describedTokens rfl (by simp [dst.isToken, src1.isToken, src2.isToken]) ?_
  exact (parseArith_written dst src1 src2 fields.descriptor).trans (congrArg Except.ok rest.symm)

theorem rereads_compare (knownX : fields.compareX.code.toNat ≤ 5)
    (knownY : fields.compareY.code.toNat ≤ 5)
    (rest : fields = { src1 := fields.src1, src2 := fields.src2, compareX := fields.compareX,
                       compareY := fields.compareY, descriptor := fields.descriptor }) :
    Rereads ⟨⟨name, opcode, .compare⟩, fields⟩ namer labels
      [Register.name fields.src1 .firstSource, fields.compareX.name, fields.compareY.name]
      (withDescriptor (Register.name fields.src2 .secondSource) fields.descriptor) := by
  have src1 := standsFor_name fields.src1 usable_firstSource
  have src2 := standsFor_name fields.src2 (usable_secondSource (.inr rfl))
  refine Rereads.of_describedTokens rfl ?_ ?_
  · simp [src1.isToken, (name_of_known knownX).1, (name_of_known knownY).1, src2.isToken]
  · exact (parseCompare_written src1 src2 knownX knownY fields.descriptor).trans
      (congrArg Except.ok rest.symm)

/-- The sources of the `mad` family are written for the roles in which they are read. -/
theorem rereads_mad {format : Format} {wide last : OperandRole} (usableWide : Usable wide wide)
    (usableLast : Usable last last)
    (written : operandTexts ⟨⟨name, opcode, format⟩, fields⟩ namer
      = [Register.name fields.dst .destination, Register.name fields.src1 .firstSource,
        Register.name fields.src2 wide]
          ++ [withDescriptor (Register.name fields.src3 last) fields.descriptor])
    (grammar : format.parse name labels = parseMad wide last)
    (rest : fields = { dst := fields.dst, src1 := fields.src1, src2 := fields.src2,
                       src3 := fields.src3, descriptor := fields.descriptor }) :
    Rereads ⟨⟨name, opcode, format⟩, fields⟩ namer labels
      [Register.name fields.dst .destination, Register.name fields.src1 .firstSource,
        Register.name fields.src2 wide]
      (withDescriptor (Register.name fields.src3 last) fields.descriptor) := by
  have dst := standsFor_name fields.dst usable_destination
  have src1 := standsFor_name fields.src1 usable_firstSource
  have src2 := standsFor_name fields.src2 usableWide
  have src3 := standsFor_name fields.src3 usableLast
  refine Rereads.of_describedTokens written
    (by simp [dst.isToken, src1.isToken, src2.isToken, src3.isToken]) ?_
  rw [grammar]
  exact (parseMad_written dst src1 src2 src3 fields.descriptor).trans (congrArg Except.ok rest.symm)

section Branches

theorem rereads_loop (target : namer.Resolves labels (fields.address + 1))
    (small : fields.address.toNat < 2 ^ 12) (canonical : Format.loop.CanonicalFields fields)
    (rest : fields = { address := fields.address, integer := fields.integer,
                       offset := fields.offset }) :
    Rereads ⟨⟨name, opcode, .loop⟩, fields⟩ namer labels [namer.text (fields.address + 1)]
      ('i'.toUInt8 :: Numeral.decimal fields.integer.toNat) := by
  have positive : fields.address + 1 ≠ 0 := by
    intro zero
    have number := congrArg BitVec.toNat zero
    rw [BitVec.toNat_add] at number
    change (fields.address.toNat + 1) % 2 ^ 32 = 0 at number
    omega
  have isToken : IsToken ('i'.toUInt8 :: Numeral.decimal fields.integer.toNat) :=
    isToken_numbered "i" (by decide) fields.integer.toNat
  refine Rereads.of_tokens rfl (by simpa [isToken] using target.names.isToken) ?_
  refine (parseLoop_written target.names positive fields.integer).trans ?_
  rw [show fields.offset = 0 from canonical] at rest
  rw [BitVec.add_sub_cancel]
  exact congrArg Except.ok rest.symm

theorem rereads_setEmit
    (rest : fields = { vertex := fields.vertex, primitive := fields.primitive,
                       winding := fields.winding }) :
    Rereads ⟨⟨name, opcode, .setEmit⟩, fields⟩ namer labels
      ["vtx" ++ Numeral.decimal fields.vertex.toNat, flagText fields.primitive]
      (flagText fields.winding) := by
  have vertex := isToken_numbered "vtx" (by decide) fields.vertex.toNat
  refine Rereads.of_tokens rfl
    (by simp [vertex, (flag_written fields.primitive).1, (flag_written fields.winding).1]) ?_
  exact (parseSetEmit_written fields.vertex fields.primitive fields.winding).trans
    (congrArg Except.ok rest.symm)

variable (address : namer.Resolves labels fields.address)
  (target : namer.Resolves labels (fields.address + fields.offset))

include address target

theorem rereads_call (canonical : Format.call.CanonicalFields fields)
    (rest : fields = { address := fields.address, offset := fields.offset,
                       flags := fields.flags }) :
    Rereads ⟨⟨name, opcode, .call⟩, fields⟩ namer labels [namer.text fields.address]
      (namer.text (fields.address + fields.offset)) := by
  refine Rereads.of_tokens rfl (by simp [address.names.isToken, target.names.isToken]) ?_
  refine (parseCall_written address.names target.names).trans ?_
  rw [show fields.flags = 0 from canonical] at rest
  rw [BitVec.add_comm fields.address, BitVec.add_sub_cancel]
  exact congrArg Except.ok rest.symm

theorem rereads_uniformBranch
    (rest : fields = { address := fields.address, offset := fields.offset,
                       boolean := fields.boolean }) :
    Rereads ⟨⟨name, opcode, .uniformBranch⟩, fields⟩ namer labels
      [namer.text (fields.address + fields.offset), namer.text fields.address]
      ('b'.toUInt8 :: Numeral.decimal fields.boolean.toNat) := by
  have isToken : IsToken ('b'.toUInt8 :: Numeral.decimal fields.boolean.toNat) :=
    isToken_numbered "b" (by decide) fields.boolean.toNat
  refine Rereads.of_tokens rfl (by simp [address.names.isToken, target.names.isToken, isToken]) ?_
  refine (parseUniformBranch_written target.names address.names fields.boolean).trans ?_
  rw [BitVec.add_comm fields.address, BitVec.add_sub_cancel]
  exact congrArg Except.ok rest.symm

/-- The condition is the one operand with blanks in it. -/
theorem rereads_condBranch (small : fields.flags.toNat < 16)
    (canonical : Format.condBranch.CanonicalFields fields)
    (rest : fields = { address := fields.address, offset := fields.offset,
                       flags := fields.flags }) :
    Rereads ⟨⟨name, opcode, .condBranch⟩, fields⟩ namer labels
      [namer.text (fields.address + fields.offset), namer.text fields.address]
      (Condition.text fields.flags) := by
  obtain ⟨condition, writes⟩ := writesCondition small canonical.1 canonical.2
  obtain ⟨printed, ends, lower⟩ := printable_condition small
  refine ⟨rfl, ?_, ends, ?_⟩
  · simp only [List.cons_append, List.nil_append, List.forall_mem_cons]
    exact ⟨target.names.isToken.printed, address.names.isToken.printed, printed,
      List.forall_mem_nil _⟩
  · simp only [List.cons_append, List.nil_append, List.map_cons, List.map_nil,
      target.names.isToken.lower, address.names.isToken.lower, lower]
    refine (parseCondBranch_written target.names address.names writes).trans ?_
    rw [BitVec.add_comm fields.address, BitVec.add_sub_cancel]
    exact congrArg Except.ok rest.symm

end Branches

end Formats

/-- A statement without operands is its mnemonic. -/
theorem assemble_bare {name : Text} {opcode : BitVec 8}
    (known : ⟨name, opcode, .bare⟩ ∈ Mnemonic.table) {word : Word}
    (packed : Mnemonic.pack ⟨name, opcode, .bare⟩ {} = .ok word) (namer : Namer) (labels : Labels) :
    assemble (Text.trim (text ⟨⟨name, opcode, .bare⟩, {}⟩ namer)) labels = .ok word := by
  have isToken := Mnemonic.isToken_name _ known
  have shape : text ⟨⟨name, opcode, .bare⟩, {}⟩ namer = name ++ [] := (List.append_nil name).symm
  rw [shape, assemble_append known (.inl rfl) (List.forall_mem_nil _)
    (by rw [List.append_nil]; exact isToken.ends)]
  exact packed

end Instruction

/-! ### Canonical words -/

namespace Format

/-- What an unsigned field of an unpacked record can be. -/
theorem get_unpack_lt {format : Format} {slot : Slot} (mem : slot ∈ format.layout)
    (unsigned : ¬ slot.field.isSigned) (word : Word) :
    ((format.unpack word).get slot.field).toNat < 2 ^ slot.width := by
  rw [get_unpack_of_mem mem]
  exact extract_lt_of_unsigned mem unsigned word

theorem index_unpack_lt {format : Format} {slot : Slot} (mem : slot ∈ format.layout)
    (index : slot.field = .index) (narrow : slot.width = 2) (word : Word) :
    (format.unpack word).index.code.toNat < 4 := by
  have small := get_unpack_lt mem (by rw [index]; decide) word
  rw [index, narrow] at small
  change ((format.unpack word).index.code.setWidth 32).toNat < 4 at small
  rw [BitVec.toNat_setWidth] at small
  omega

end Format

namespace Instruction

/-- The code addresses that the text of an instruction names. -/
def targets (instruction : Instruction) : List Word :=
  let fields := instruction.fields
  match instruction.mnemonic.format with
  | .condBranch | .uniformBranch | .call => [fields.address + fields.offset, fields.address]
  | .loop => [fields.address + 1]
  | _ => []

/-- A decoded word without uncovered bits is packed from its fields. -/
theorem pack_of_covered {word : Word} {mnemonic : Mnemonic} {fields : Fields}
    (decoded : decode word = .ok ⟨mnemonic, fields⟩)
    (covered : ∀ bit, word.getLsbD bit → mnemonic.format.Covers bit) :
    mnemonic.pack fields = .ok word := by
  obtain ⟨packed, packs, bits⟩ := pack_of_decode decoded
  have same : packed = word := by
    apply BitVec.eq_of_getLsbD_eq
    intro bit _
    rw [bits]
    by_cases set : word.getLsbD bit
    · rw [set, decide_eq_true (covered bit set), Bool.and_true]
    · rw [Bool.eq_false_iff.mpr set, Bool.false_and]
  rw [packs, same]

/-- The text of unpacked fields is assembled to the word that they are packed to. -/
theorem assemble_text {mnemonic : Mnemonic} (known : mnemonic ∈ Mnemonic.table) {word : Word}
    (canonical : mnemonic.format.CanonicalFields (mnemonic.format.unpack word)) {namer : Namer}
    {labels : Labels}
    (resolves : ∀ address ∈ targets ⟨mnemonic, mnemonic.format.unpack word⟩,
      namer.Resolves labels address)
    (packed : mnemonic.pack (mnemonic.format.unpack word) = .ok word) :
    assemble (Text.trim (text ⟨mnemonic, mnemonic.format.unpack word⟩ namer)) labels
      = .ok word := by
  obtain ⟨name, opcode, format⟩ := mnemonic
  -- In each format, `rfl` says that an unpacked record has nothing but the fields of its layout.
  cases format with
  | arith =>
    have index := Format.index_unpack_lt (show ⟨.index, 2, 19⟩ ∈ Format.arith.layout by decide)
      rfl rfl word
    exact (rereads_arith index rfl).assemble known packed
  | arithImm => exact (rereads_arithImm rfl).assemble known packed
  | unary =>
    have index := Format.index_unpack_lt (show ⟨.index, 2, 19⟩ ∈ Format.unary.layout by decide)
      rfl rfl word
    exact (rereads_unary index rfl).assemble known packed
  | bare => exact assemble_bare known packed namer labels
  | compare => exact (rereads_compare canonical.1 canonical.2 rfl).assemble known packed
  | condBranch =>
    have small := Format.get_unpack_lt
      (show ⟨.flags, 4, 22⟩ ∈ Format.condBranch.layout by decide) (by decide) word
    exact (rereads_condBranch (resolves _ (by simp [targets])) (resolves _ (by simp [targets]))
      small canonical rfl).assemble known packed
  | call =>
    exact (rereads_call (resolves _ (by simp [targets])) (resolves _ (by simp [targets]))
      canonical rfl).assemble known packed
  | loop =>
    have small := Format.get_unpack_lt
      (show ⟨.address, 12, 10⟩ ∈ Format.loop.layout by decide) (by decide) word
    exact (rereads_loop (resolves _ (by simp [targets])) small canonical rfl).assemble known packed
  | uniformBranch =>
    exact (rereads_uniformBranch (resolves _ (by simp [targets])) (resolves _ (by simp [targets]))
      rfl).assemble known packed
  | setEmit => exact (rereads_setEmit rfl).assemble known packed
  | mad =>
    exact (rereads_mad Register.usable_firstSource (Register.usable_secondSource (.inr rfl)) rfl rfl
      rfl).assemble known packed
  | madi =>
    exact (rereads_mad (Register.usable_secondSource (.inr rfl)) Register.usable_firstSource rfl rfl
      rfl).assemble known packed
  | other code => simp [Mnemonic.table] at known

end Instruction

namespace Word

/-- The code addresses that the text of a word names. -/
def branchTargets (word : Word) : List Word :=
  match Instruction.decode word with
  | .ok instruction => instruction.targets
  | .error _ => []

end Word

namespace Instruction

/-- **A canonical word is assembled from its text**, whatever the names of its branch targets are,
as long as the labels resolve them. -/
theorem assemble_disassemble {word : Word} (canonical : word.Canonical) {namer : Namer}
    {labels : Labels} (resolves : ∀ address ∈ word.branchTargets, namer.Resolves labels address) :
    assemble (disassemble word namer) labels = .ok word := by
  obtain ⟨mnemonic, fields, decoded, covered, known⟩ := canonical
  have packed := pack_of_covered decoded covered
  rw [Word.branchTargets, decoded] at resolves
  rw [disassemble, decoded]
  obtain ⟨found, rfl⟩ := decode_eq_ok_iff.mp decoded
  exact assemble_text (Mnemonic.mem_table_of_ofWord? found) known resolves packed

/-- **Disassembly is a right inverse of assembly on the words that can be assembled.** These are the
canonical words, and each of them is assembled from its text under any labels that resolve the names
of its branch targets. -/
theorem assemble_disassemble_canonical :
    (∀ statement labels word, assemble statement labels = .ok word → word.Canonical)
    ∧ (∀ word : Word, word.Canonical → ∃ statement labels, assemble statement labels = .ok word)
    ∧ ∀ word : Word, word.Canonical → ∀ namer labels,
      (∀ address ∈ word.branchTargets, namer.Resolves labels address) →
        assemble (disassemble word namer) labels = .ok word := by
  refine ⟨fun _ _ _ => canonical_of_assemble, ?_, ?_⟩
  · intro word canonical
    exact ⟨_, _, assemble_disassemble canonical fun address _ => Namer.numbers_resolves address⟩
  · intro word canonical namer labels resolves
    exact assemble_disassemble canonical resolves

/-- A branch back from address 5 to address 2. -/
theorem assemble_disassemble_backward :
    let namer : Namer := fun address =>
      if address = 2 then some "top" else if address = 5 then some "tail" else none
    let labels : Labels := fun name =>
      if name = ("top" : Text) then some 2 else if name = ("tail" : Text) then some 5 else none
    disassemble 0xA28017FD namer = "ifc top, tail, cmp.x"
      ∧ assemble "ifc top, tail, cmp.x" labels = .ok 0xA28017FD := by
  intro namer labels
  have text : disassemble 0xA28017FD namer = "ifc top, tail, cmp.x" := by decide +kernel
  have covered : ∀ bit < 32, Format.condBranch.Covers bit := by decide
  have canonical : Word.Canonical 0xA28017FD :=
    ⟨_, _, rfl, fun bit set => covered bit (BitVec.lt_of_getLsbD set), by decide +kernel⟩
  have resolves : ∀ address ∈ Word.branchTargets 0xA28017FD, namer.Resolves labels address := by
    rw [show Word.branchTargets 0xA28017FD = [2, 5] by decide +kernel]
    simp only [List.forall_mem_cons]
    exact ⟨⟨"top", rfl, by decide, rfl⟩, ⟨"tail", rfl, by decide, rfl⟩, List.forall_mem_nil _⟩
  refine ⟨text, ?_⟩
  rw [← text]
  exact assemble_disassemble_canonical.2.2 _ canonical namer labels resolves

end Instruction

end PicaShader
