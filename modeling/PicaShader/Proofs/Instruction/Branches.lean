/-
**Branches encode the addresses that they name.**

A word of a branch holds the address of one label, and the signed distance from there to another
one; a loop holds the address before its label. A list of a branch is encoded exactly if its labels
are known and what the word has to hold fits (`Mnemonic.EncodesPair`, `Mnemonic.EncodesLoop`), and
the word decodes to the addresses, over the integers, and to the register. Distances are taken
modulo `2 ^ 32`: between addresses below `2 ^ 31` nothing wraps (`Word.toInt_sub_of_lt`).
-/

import PicaShader.Proofs.Digits
import PicaShader.Proofs.Instruction.Conditions
import PicaShader.Proofs.Instruction.Packing
import PicaShader.Proofs.Instruction.Targets

namespace PicaShader

/-- Addresses below `2 ^ 31` have the distance that their numbers have. -/
theorem Word.toInt_sub_of_lt {target base : Word} (smallTarget : target.toNat < 2 ^ 31)
    (smallBase : base.toNat < 2 ^ 31) :
    (target - base).toInt = (target.toNat : Int) - base.toNat := by
  rw [BitVec.toInt_sub, BitVec.toInt_eq_toNat_of_lt (by omega),
    BitVec.toInt_eq_toNat_of_lt (by omega)]
  exact Int.bmod_eq_of_le_mul_two (by omega) (by omega)

/-- All addresses are below `2 ^ 31`. -/
def Labels.Small (labels : Labels) : Prop :=
  ∀ name address, labels name = some address → address.toNat < 2 ^ 31

/-! ### Operand lists -/

namespace Operands

/-- **An operand list of `ifc`:** two labels and a condition, with a comma between each two. -/
inductive ListsCondition (first second : Text) (condition : Condition) : Text → Prop where
  | intro {left middle right : Text} (holdsFirst : Holds first left)
    (holdsSecond : Holds second middle) (spells : condition.Spells right) :
    ListsCondition first second condition
      (left ++ ','.toUInt8 :: (middle ++ ','.toUInt8 :: right))

variable {list digits : Text} {number : Nat}

/-- The number of a register is what stands behind its letter. -/
theorem numbered?_of_spells (lead : Text) (spells : Numeral.Digits 10 number digits) :
    numbered? lead (lead ++ digits) = some digits :=
  numbered?_of_digits lead spells.nonempty (Numeral.isDigitOf_ten ▸ spells.bytes)

/-- The digits of a register are read if their number fits a word. -/
theorem number_eq_ok_iff (spells : Numeral.Digits 10 number digits) {word : Word} :
    Operands.number digits = .ok word ↔ number < 2 ^ 32 ∧ word = BitVec.ofNat 32 number := by
  unfold Operands.number
  cases read : Numeral.readPlain? digits with
  | none =>
    simp only [reduceCtorEq, false_iff, not_and]
    intro small
    have found := Numeral.readPlain?_eq_some_iff.mpr ⟨.decimal spells, small⟩
    rw [read] at found
    cases found
  | some found =>
    obtain ⟨spelled, small⟩ := Numeral.readPlain?_eq_some_iff.mp read
    obtain rfl := spelled.unique (.decimal spells)
    simp [small, eq_comm]

end Operands

/-! ### Parsing -/

/-- The record of a branch: an address, a distance, and a number in the field of the format that takes
one, which is the condition or a boolean register. -/
def Fields.branch (address offset : Word) (field : Field) (number : Word) : Fields :=
  match field with
  | .boolean => { address, offset, boolean := number }
  | _ => { address, offset, flags := number }

namespace Operands

variable {labels : Labels} {list : Text}

/-- A list is parsed to a branch from one label to another, with a number in a further field. -/
def ReadsPair (labels : Labels) (base target : Text) (field : Field) (number : Nat)
    (outcome : Except Fault Fields) : Prop :=
  ∀ fields, outcome = .ok fields ↔ number < 2 ^ 32
    ∧ ∃ address stop, labels base = some address ∧ labels target = some stop
      ∧ fields = Fields.branch address (stop - address) field (BitVec.ofNat 32 number)

theorem branchPair_eq_ok_iff {first second : Text} {fields : Fields} :
    branchPair labels first second = .ok fields
      ↔ ∃ address stop, labels second = some address ∧ labels first = some stop
        ∧ fields = { address, offset := stop - address } := by
  simp only [branchPair, Except.bind_eq_ok_iff, Labels.address_eq_ok_iff, pure, Except.pure,
    Except.ok.injEq]
  constructor
  · rintro ⟨stop, namesStop, address, namesAddress, rfl⟩
    exact ⟨address, stop, namesAddress, namesStop, rfl⟩
  · rintro ⟨address, stop, namesAddress, namesStop, rfl⟩
    exact ⟨stop, namesStop, address, namesAddress, rfl⟩

/-- `ifc` starts at its second label and runs to the first. -/
theorem readsPair_parseCondBranch {first second : Text} {condition : Condition}
    (lists : ListsCondition first second condition list) :
    ReadsPair labels second first .flags condition.flags.toNat (parseCondBranch labels list) := by
  obtain @⟨left, middle, right, holdsFirst, holdsSecond, spells⟩ := lists
  have pieces : pieces? 3 (left ++ ','.toUInt8 :: (middle ++ ','.toUInt8 :: right))
      = some [left, middle, right] := by
    rw [pieces?_eq_some_iff,
      Text.pieces_append_cons (holdsFirst.2.comma_not_mem holdsFirst.1.commaFree),
      Text.pieces_append_cons (holdsSecond.2.comma_not_mem holdsSecond.1.commaFree),
      Text.pieces_of_not_mem spells.comma_not_mem]
    exact ⟨rfl, rfl⟩
  intro fields
  simp only [parseCondBranch, pieces, holdsFirst.token?, holdsSecond.token?, spells.read?,
    spells.not_redundant, Bool.false_eq_true, if_false, Except.bind_eq_ok_iff,
    branchPair_eq_ok_iff, pure, Except.pure, Except.ok.injEq, Word.ofNat_toNat]
  constructor
  · rintro ⟨_, ⟨address, stop, namesAddress, namesStop, rfl⟩, rfl⟩
    exact ⟨condition.flags.isLt, address, stop, namesAddress, namesStop, rfl⟩
  · rintro ⟨-, address, stop, namesAddress, namesStop, rfl⟩
    exact ⟨_, ⟨address, stop, namesAddress, namesStop, rfl⟩, rfl⟩

/-- So does `ifu`, whose register is a number of any length. -/
theorem readsPair_parseUniformBranch {first second digits : Text} {number : Nat}
    (lists : Lists [first, second, "b" ++ digits] list)
    (spells : Numeral.Digits 10 number digits) :
    ReadsPair labels second first .boolean number (parseUniformBranch labels list) := by
  have tokens : tokens? 3 list = some [first, second, "b" ++ digits] :=
    tokens?_eq_some_iff.mpr ⟨rfl, lists⟩
  intro fields
  simp only [parseUniformBranch, tokens, numbered?_of_spells "b" spells, Except.bind_eq_ok_iff,
    number_eq_ok_iff spells, branchPair_eq_ok_iff, pure, Except.pure, Except.ok.injEq]
  constructor
  · rintro ⟨_, ⟨small, rfl⟩, _, ⟨address, stop, namesAddress, namesStop, rfl⟩, rfl⟩
    exact ⟨small, address, stop, namesAddress, namesStop, rfl⟩
  · rintro ⟨small, address, stop, namesAddress, namesStop, rfl⟩
    exact ⟨_, ⟨small, rfl⟩, _, ⟨address, stop, namesAddress, namesStop, rfl⟩, rfl⟩

/-- `call` starts at its first label and runs to the second. -/
theorem readsPair_parseCall {target stop : Text} (lists : Lists [target, stop] list) :
    ReadsPair labels target stop .flags 0 (parseCall labels list) := by
  have tokens : tokens? 2 list = some [target, stop] := tokens?_eq_some_iff.mpr ⟨rfl, lists⟩
  intro fields
  simp only [parseCall, tokens, Except.bind_eq_ok_iff, Labels.address_eq_ok_iff, pure, Except.pure,
    Except.ok.injEq]
  constructor
  · rintro ⟨address, namesAddress, stop, namesStop, rfl⟩
    exact ⟨by decide, address, stop, namesAddress, namesStop, rfl⟩
  · rintro ⟨-, address, stop, namesAddress, namesStop, rfl⟩
    exact ⟨address, namesAddress, stop, namesStop, rfl⟩

/-- `loop` ends before its label. -/
theorem parseLoop_eq_ok_iff {label digits : Text} {number : Nat}
    (lists : Lists [label, "i" ++ digits] list) (spells : Numeral.Digits 10 number digits)
    {fields : Fields} : parseLoop labels list = .ok fields
      ↔ number < 2 ^ 32 ∧ ∃ stop, labels label = some stop ∧ stop ≠ 0
        ∧ fields = { address := stop - 1, integer := BitVec.ofNat 32 number } := by
  have tokens : tokens? 2 list = some [label, "i" ++ digits] :=
    tokens?_eq_some_iff.mpr ⟨rfl, lists⟩
  simp only [parseLoop, tokens, numbered?_of_spells "i" spells, Except.bind_eq_ok_iff,
    Labels.address_eq_ok_iff]
  constructor
  · rintro ⟨stop, names, parsed⟩
    by_cases start : stop = 0
    · rw [if_pos start] at parsed
      cases parsed
    · rw [if_neg start] at parsed
      obtain ⟨integer, read, same⟩ := Except.bind_eq_ok_iff.mp parsed
      obtain ⟨small, rfl⟩ := (number_eq_ok_iff spells).mp read
      exact ⟨small, stop, names, start, (Except.ok.inj same).symm⟩
  · rintro ⟨small, stop, names, positive, rfl⟩
    refine ⟨stop, names, ?_⟩
    rw [if_neg positive, (number_eq_ok_iff spells).mpr ⟨small, rfl⟩]
    rfl

end Operands

/-! ### Words -/

namespace Format

/-- The layout of a branch: four bits for a field of the format, an address and a distance. -/
def branchLayout (field : Field) : List Slot :=
  [⟨field, 4, 22⟩, ⟨.address, 12, 10⟩, ⟨.offset, 10, 0⟩]

theorem admits_iff_of_branchLayout {format : Format} {field : Field}
    (layout : format.layout = branchLayout field) (other : field ≠ .offset) {fields : Fields} :
    format.Admits fields ↔ (fields.get field).toNat < 16 ∧ fields.address.toNat < 4096
      ∧ -512 ≤ fields.offset.toInt ∧ fields.offset.toInt ≤ 511 := by
  have indexed : ¬ format ∈ [arithImm, compare, mad, madi] := by
    intro mem
    simp only [List.mem_cons, List.not_mem_nil, or_false] at mem
    rcases mem with rfl | rfl | rfl | rfl <;> simp [Format.layout, branchLayout] at layout
  rw [Admits, layout]
  simp only [branchLayout, List.forall_mem_cons, other, if_false, if_true, reduceCtorEq, indexed,
    false_imp_iff, and_true]
  constructor
  · rintro ⟨code, address, distance, -⟩
    exact ⟨code, address, distance⟩
  · rintro ⟨code, address, distance⟩
    exact ⟨code, address, distance, List.forall_mem_nil _⟩

end Format

namespace Mnemonic

variable {mnemonic : Mnemonic} {operands : Text} {labels : Labels}

/-- A list is encoded exactly if it is parsed to fields that the format admits. -/
theorem exists_encode_iff : (∃ word, mnemonic.encode operands labels = .ok word)
    ↔ ∃ fields, mnemonic.format.parse mnemonic.name labels (Text.lower operands) = .ok fields
      ∧ mnemonic.format.Admits fields := by
  simp only [encode, Except.bind_eq_ok_iff, parse, Except.mapError_eq_ok_iff, Format.admits_iff,
    pack_eq_ok_iff]
  constructor
  · rintro ⟨word, fields, parsed, unindexed, fits, -⟩
    exact ⟨fields, parsed, unindexed, fits⟩
  · rintro ⟨fields, parsed, unindexed, fits⟩
    exact ⟨_, fields, parsed, unindexed, fits, rfl⟩

/-- The word of a list decodes to the fields with a slot that the list is parsed to. -/
theorem decode_of_encode (known : mnemonic ∈ table) {word : Word}
    (encoded : mnemonic.encode operands labels = .ok word) :
    ∃ fields kept, mnemonic.format.parse mnemonic.name labels (Text.lower operands) = .ok fields
      ∧ mnemonic.format.Admits fields ∧ Instruction.decode word = .ok ⟨mnemonic, kept⟩
      ∧ ∀ slot ∈ mnemonic.format.layout, kept.get slot.field = fields.get slot.field := by
  obtain ⟨fields, parsed, packed⟩ := Except.bind_eq_ok_iff.mp encoded
  obtain ⟨kept, decoded, same⟩ := decode_slots_of_pack known packed
  obtain ⟨unindexed, fits, -⟩ := pack_eq_ok_iff.mp packed
  exact ⟨fields, kept, Except.mapError_eq_ok_iff.mp parsed,
    Format.admits_iff.mpr ⟨unindexed, fits⟩, decoded, same⟩

/-- The word of a branch decodes to the address, the distance and the further field of its list. -/
theorem decode_branch_of_encode (known : mnemonic ∈ table) {field : Field}
    (layout : mnemonic.format.layout = Format.branchLayout field) {word : Word}
    (encoded : mnemonic.encode operands labels = .ok word) :
    ∃ fields kept, mnemonic.format.parse mnemonic.name labels (Text.lower operands) = .ok fields
      ∧ Instruction.decode word = .ok ⟨mnemonic, kept⟩ ∧ kept.address = fields.address
      ∧ kept.offset = fields.offset ∧ kept.get field = fields.get field := by
  obtain ⟨fields, kept, parsed, -, decoded, same⟩ := decode_of_encode known encoded
  rw [layout] at same
  exact ⟨fields, kept, parsed, decoded, same ⟨.address, 12, 10⟩ (by simp [Format.branchLayout]),
    same ⟨.offset, 10, 0⟩ (by simp [Format.branchLayout]),
    same ⟨field, 4, 22⟩ (by simp [Format.branchLayout])⟩

/-- **A list is encoded as a branch** from one label to another, with a number in a further field:
exactly if the labels are known, the address fits 12 bits, the distance 10 bits with its sign and
the number 4 bits. The word then decodes to the address, to the distance that leads to the other
one, and to the number. -/
structure EncodesPair (mnemonic : Mnemonic) (operands : Text) (labels : Labels) (base target : Text)
    (field : Field) (number : Nat) : Prop where
  encodes : (∃ word, mnemonic.encode operands labels = .ok word)
    ↔ number < 16 ∧ ∃ address stop, labels base = some address ∧ labels target = some stop
      ∧ address.toNat < 4096 ∧ -512 ≤ (stop.toNat : Int) - address.toNat
      ∧ (stop.toNat : Int) - address.toNat ≤ 511
  decodes : ∀ word, mnemonic.encode operands labels = .ok word →
    ∃ fields address stop, Instruction.decode word = .ok ⟨mnemonic, fields⟩
      ∧ labels base = some address ∧ labels target = some stop ∧ fields.address = address
      ∧ (fields.address.toNat : Int) + fields.offset.toInt = stop.toNat
      ∧ (fields.get field).toNat = number

/-- **A list is encoded as a loop** to a label, with an integer register: exactly if the label is
known, is not the first address and follows one that fits 12 bits, and the register fits 4 bits. The
word then decodes to the address before the label, and to the register. -/
structure EncodesLoop (mnemonic : Mnemonic) (operands : Text) (labels : Labels) (label : Text)
    (number : Nat) : Prop where
  encodes : (∃ word, mnemonic.encode operands labels = .ok word)
    ↔ number < 16 ∧ ∃ stop, labels label = some stop ∧ 1 ≤ stop.toNat ∧ stop.toNat ≤ 4096
  decodes : ∀ word, mnemonic.encode operands labels = .ok word →
    ∃ fields stop, Instruction.decode word = .ok ⟨mnemonic, fields⟩ ∧ labels label = some stop
      ∧ fields.address.toNat + 1 = stop.toNat ∧ fields.offset = 0
      ∧ fields.integer.toNat = number

/-- A list that is parsed to a pair of labels is encoded as a branch between them. -/
theorem encodesPair_of_readsPair (known : mnemonic ∈ table) (small : labels.Small) {field : Field}
    (isCode : field = .flags ∨ field = .boolean)
    (layout : mnemonic.format.layout = Format.branchLayout field) {base target : Text}
    {number : Nat} (reads : Operands.ReadsPair labels base target field number
      (mnemonic.format.parse mnemonic.name labels (Text.lower operands))) :
    mnemonic.EncodesPair operands labels base target field number := by
  have other : field ≠ .offset := by rcases isCode with rfl | rfl <;> decide
  -- The fields of a pair that is parsed, and what the format asks of them.
  have kept (address stop : Word) (fits : number < 2 ^ 32) :
      let fields := Fields.branch address (stop - address) field (BitVec.ofNat 32 number)
      fields.address = address ∧ fields.offset = stop - address
        ∧ (fields.get field).toNat = number := by
    have value : (BitVec.ofNat 32 number).toNat = number := by
      rw [BitVec.toNat_ofNat, Nat.mod_eq_of_lt fits]
    rcases isCode with rfl | rfl <;> exact ⟨rfl, rfl, value⟩
  constructor
  · rw [exists_encode_iff]
    simp only [Format.admits_iff_of_branchLayout layout other, reads _]
    constructor
    · rintro ⟨_, ⟨fits, address, stop, namesAddress, namesStop, rfl⟩, code, inside, low, high⟩
      obtain ⟨isAddress, isOffset, isCode⟩ := kept address stop fits
      rw [isOffset, Word.toInt_sub_of_lt (small _ _ namesStop) (small _ _ namesAddress)] at low high
      rw [isAddress] at inside
      rw [isCode] at code
      exact ⟨code, address, stop, namesAddress, namesStop, inside, low, high⟩
    · rintro ⟨code, address, stop, namesAddress, namesStop, inside, low, high⟩
      have fits : number < 2 ^ 32 := by omega
      obtain ⟨isAddress, isOffset, isCode⟩ := kept address stop fits
      refine ⟨_, ⟨fits, address, stop, namesAddress, namesStop, rfl⟩, ?_⟩
      rw [isOffset, Word.toInt_sub_of_lt (small _ _ namesStop) (small _ _ namesAddress), isAddress,
        isCode]
      exact ⟨code, inside, low, high⟩
  · intro word encoded
    obtain ⟨_, fields, parsed, decoded, sameAddress, sameOffset, sameCode⟩ :=
      decode_branch_of_encode known layout encoded
    obtain ⟨fits, address, stop, namesAddress, namesStop, rfl⟩ := (reads _).mp parsed
    obtain ⟨isAddress, isOffset, isCode⟩ := kept address stop fits
    rw [isAddress] at sameAddress
    rw [isOffset] at sameOffset
    refine ⟨fields, address, stop, decoded, namesAddress, namesStop, sameAddress, ?_,
      (congrArg BitVec.toNat sameCode).trans isCode⟩
    rw [sameAddress, sameOffset,
      Word.toInt_sub_of_lt (small _ _ namesStop) (small _ _ namesAddress)]
    omega

/-- A list of a loop is encoded as one. -/
theorem encodesLoop_of_lists (known : mnemonic ∈ table) (isLoop : mnemonic.format = .loop)
    {label digits : Text} {number : Nat}
    (lists : Operands.Lists [label, "i" ++ digits] (Text.lower operands))
    (spells : Numeral.Digits 10 number digits) :
    mnemonic.EncodesLoop operands labels label number := by
  have layout : mnemonic.format.layout = Format.branchLayout .integer := by rw [isLoop]; rfl
  have parsed (fields : Fields) :
      mnemonic.format.parse mnemonic.name labels (Text.lower operands) = .ok fields
        ↔ number < 2 ^ 32 ∧ ∃ stop, labels label = some stop ∧ stop ≠ 0
          ∧ fields = { address := stop - 1, integer := BitVec.ofNat 32 number } := by
    rw [isLoop]
    exact Operands.parseLoop_eq_ok_iff lists spells
  have value (fits : number < 2 ^ 32) : (BitVec.ofNat 32 number).toNat = number := by
    rw [BitVec.toNat_ofNat, Nat.mod_eq_of_lt fits]
  have before {stop : Word} (positive : 1 ≤ stop.toNat) : (stop - 1).toNat + 1 = stop.toNat := by
    bv_omega
  have positive_iff {stop : Word} : stop ≠ 0 ↔ 1 ≤ stop.toNat := by bv_omega
  constructor
  · rw [exists_encode_iff]
    simp only [Format.admits_iff_of_branchLayout layout (by decide), parsed, positive_iff]
    constructor
    · rintro ⟨_, ⟨fits, stop, names, positive, rfl⟩, code, inside, -⟩
      have code : (BitVec.ofNat 32 number).toNat < 16 := code
      have inside : (stop - 1).toNat < 4096 := inside
      have next := before positive
      rw [value fits] at code
      exact ⟨code, stop, names, positive, by omega⟩
    · rintro ⟨code, stop, names, positive, inside⟩
      have fits : number < 2 ^ 32 := by omega
      have next := before positive
      refine ⟨_, ⟨fits, stop, names, positive, rfl⟩, (value fits).trans_lt code, ?_, ?_⟩
      · show (stop - 1).toNat < 4096
        omega
      · show -512 ≤ (0 : Word).toInt ∧ (0 : Word).toInt ≤ 511
        decide
  · intro word encoded
    obtain ⟨_, fields, isParsed, decoded, sameAddress, sameOffset, sameCode⟩ :=
      decode_branch_of_encode known layout encoded
    obtain ⟨fits, stop, names, positive, rfl⟩ := (parsed _).mp isParsed
    refine ⟨fields, stop, decoded, names, ?_, sameOffset,
      (congrArg BitVec.toNat sameCode).trans (value fits)⟩
    rw [sameAddress]
    exact before (positive_iff.mp positive)

/-- **Branches encode exactly the addresses that they name.** Where the addresses of labels are
below `2 ^ 31`: `ifc` and `ifu` run from the second label to the first, `call` from the first to the
second, and `loop` up to its label. Each is encoded exactly if what its word has to hold fits, and
then nothing is truncated or wrapped. -/
theorem branches_encode_addresses {labels : Labels} (small : labels.Small) :
    ∀ mnemonic ∈ table, ∀ operands,
      (mnemonic.format = .condBranch → ∀ first second condition,
        Operands.ListsCondition first second condition (Text.lower operands) →
          condition.flags.toNat < 16 ∧ mnemonic.EncodesPair operands labels second first .flags
            condition.flags.toNat)
      ∧ (mnemonic.format = .uniformBranch → ∀ first second digits number,
        Operands.Lists [first, second, "b" ++ digits] (Text.lower operands) →
        Numeral.Digits 10 number digits →
          mnemonic.EncodesPair operands labels second first .boolean number)
      ∧ (mnemonic.format = .call → ∀ target stop,
        Operands.Lists [target, stop] (Text.lower operands) →
          mnemonic.EncodesPair operands labels target stop .flags 0)
      ∧ (mnemonic.format = .loop → ∀ label digits number,
        Operands.Lists [label, "i" ++ digits] (Text.lower operands) →
        Numeral.Digits 10 number digits →
          mnemonic.EncodesLoop operands labels label number) := by
  intro mnemonic known operands
  refine ⟨?_, ?_, ?_, fun isLoop _ _ _ => encodesLoop_of_lists known isLoop⟩
  · intro isCondition first second condition lists
    refine ⟨condition.flags_lt, encodesPair_of_readsPair known small (.inl rfl) ?_ ?_⟩
    · rw [isCondition]
      rfl
    · rw [isCondition]
      exact Operands.readsPair_parseCondBranch lists
  · intro isUniform first second digits number lists spells
    refine encodesPair_of_readsPair known small (.inr rfl) ?_ ?_
    · rw [isUniform]
      rfl
    · rw [isUniform]
      exact Operands.readsPair_parseUniformBranch lists spells
  · intro isCall target stop lists
    refine encodesPair_of_readsPair known small (.inl rfl) ?_ ?_
    · rw [isCall]
      rfl
    · rw [isCall]
      exact Operands.readsPair_parseCall lists

/-- A branch that goes as far back as it can, and a loop up to the last address. -/
theorem branches_encode_addresses_atLimits :
    let labels : Labels := fun name => if name = Text.ofString "head" then some 88
      else if name = Text.ofString "tail" then some 600
      else if name = Text.ofString "stop" then some 4096 else none
    (∃ word fields,
      Mnemonic.encode ⟨"ifc", 0x28, .condBranch⟩ " HEAD, tail, !CMP.x" labels = .ok word
        ∧ Instruction.decode word = .ok ⟨⟨"ifc", 0x28, .condBranch⟩, fields⟩
        ∧ fields.address = 600 ∧ (fields.address.toNat : Int) + fields.offset.toInt = 88)
    ∧ ∃ word, Mnemonic.encode ⟨"loop", 0x29, .loop⟩ " stop, i015" labels = .ok word := by
  intro labels
  have small : labels.Small := by
    intro name address named
    simp only [labels] at named
    repeat' split at named
    all_goals cases named
    all_goals decide
  have lists : Operands.ListsCondition "head" "tail" ⟨⟨true, .x⟩, none⟩
      (Text.lower " HEAD, tail, !CMP.x") := by
    have blank : Operands.IsBlank (Text.ofString " ") := List.forall_mem_singleton.mpr (by decide)
    have spells : Condition.Spells ⟨⟨true, .x⟩, none⟩ " !cmp.x" :=
      .one blank (.negated .x (List.forall_mem_nil _)) (List.forall_mem_nil _)
    have lower : Text.lower " HEAD, tail, !CMP.x" = Text.ofString " head"
        ++ ','.toUInt8 :: (Text.ofString " tail" ++ ','.toUInt8 :: Text.ofString " !cmp.x") := by
      decide +kernel
    rw [lower]
    exact .intro ((Operands.token?_eq_some_iff (by decide)).mp (by decide +kernel))
      ((Operands.token?_eq_some_iff (by decide)).mp (by decide +kernel)) spells
  have loopLists : Operands.Lists ["stop", "i" ++ "015"] (Text.lower " stop, i015") :=
    (Operands.tokens?_eq_some_iff.mp (show Operands.tokens? 2 _ = _ by decide +kernel)).2
  have digits : Numeral.Digits 10 15 "015" := ⟨by decide, by decide +kernel, by decide⟩
  have encoded := branches_encode_addresses small
  obtain ⟨inRange, branch⟩ := (encoded ⟨"ifc", 0x28, .condBranch⟩ (by decide) _).1 rfl _ _ _ lists
  have loop := (encoded ⟨"loop", 0x29, .loop⟩ (by decide) _).2.2.2 rfl _ _ _ loopLists digits
  obtain ⟨word, done⟩ := branch.encodes.mpr
    ⟨inRange, 600, 88, by decide +kernel, by decide +kernel, by decide, by decide, by decide⟩
  obtain ⟨fields, address, stop, decoded, isAddress, isStop, same, distance, -⟩ :=
    branch.decodes word done
  obtain rfl : (600 : Word) = address := Option.some.inj isAddress
  obtain rfl : (88 : Word) = stop := Option.some.inj isStop
  exact ⟨⟨word, fields, done, decoded, same, distance⟩,
    loop.encodes.mpr ⟨by decide, 4096, by decide +kernel, by decide, by decide⟩⟩

end Mnemonic

end PicaShader
