/-
**Operand lists with a descriptor.**

Six formats have a number of operands that are followed by a descriptor (`Format.Reads`). A list is
refused as malformed exactly if it is not of that form, and a list of that form is taken apart in
one way (`Format.Reads.unique`). What it is parsed to is then told by its parts
(`Format.Reads.parse_congr`).
-/

import PicaShader.Proofs.Instruction.OperandLists
import PicaShader.Instruction.Parsing
import PicaShader.Proofs.Outcome

namespace PicaShader

namespace Format

/-- The formats with a descriptor. -/
def described : List Format := [arith, arithImm, unary, compare, mad, madi]

/-- How many operands stand before the descriptor, in a format that has one. -/
def operandCount : Format → Nat
  | arith | arithImm => 3
  | unary => 2
  | compare | mad | madi => 4
  | _ => 0

/-- **An operand list of a format:** as many tokens as the format has operands, then a descriptor.
The two comparisons of `cmp` are words of letters. -/
structure Reads (format : Format) (tokens : List Text) (numeral operands : Text) : Prop where
  count : tokens.length = format.operandCount
  describes : Operands.Describes tokens numeral operands
  letters : format = compare → ∀ comparison ∈ (tokens.drop 1).take 2, ∀ byte ∈ comparison,
    'a'.toUInt8 ≤ byte ∧ byte ≤ 'z'.toUInt8

variable {format : Format} {tokens : List Text} {numeral operands : Text}

/-- A list of a format is one that is read and has words of letters for comparisons. -/
theorem reads_iff : format.Reads tokens numeral operands
    ↔ Operands.described? format.operandCount operands = some (tokens, numeral)
      ∧ (format = compare → ∀ comparison ∈ (tokens.drop 1).take 2, ∀ byte ∈ comparison,
        'a'.toUInt8 ≤ byte ∧ byte ≤ 'z'.toUInt8) := by
  rw [Operands.described?_eq_some_iff]
  constructor
  · rintro ⟨count, describes, letters⟩
    exact ⟨⟨count, describes⟩, letters⟩
  · rintro ⟨⟨count, describes⟩, letters⟩
    exact ⟨count, describes, letters⟩

/-- **A list is taken apart in one way.** -/
theorem Reads.unique (reads : format.Reads tokens numeral operands) {others : List Text}
    {other : Text} (readsOther : format.Reads others other operands) :
    tokens = others ∧ numeral = other := by
  have same := (reads_iff.mp reads).1.symm.trans (reads_iff.mp readsOther).1
  rwa [Option.some.injEq, Prod.mk.injEq] at same

end Format

/-! ### Faults of the parts -/

/-- The faults of one operand: they are not about the list as a whole, and not about labels. -/
def Fault.OfOperand : Fault → Prop
  | malformedOperands _ | duplicateLabel _ _ | undefinedLabel _ => False
  | _ => True

namespace Register

variable (token text : Text) (role : OperandRole)

theorem splitIndex_ofOperand : (splitIndex token text role).Raises Fault.OfOperand := by
  fun_cases splitIndex token text role <;> simp [Fault.OfOperand]

theorem number_ofOperand : (number token text role).Raises Fault.OfOperand := by
  fun_cases number token text role <;> simp [Fault.OfOperand]

theorem resolve_ofOperand : (resolve token role).Raises Fault.OfOperand := by
  unfold resolve
  split
  · simp [Fault.OfOperand]
  · exact (splitIndex_ofOperand _ _ _).bind fun _ => (number_ofOperand _ _ _).bind fun _ =>
      Except.raises_ok _

end Register

namespace Operands

theorem number_ofOperand (numeral : Text) : (number numeral).Raises Fault.OfOperand := by
  fun_cases number numeral <;> simp [Fault.OfOperand]

theorem comparison_ofOperand (name : Text) : (comparison name).Raises Fault.OfOperand := by
  fun_cases comparison name <;> simp [Fault.OfOperand]

/-- Two words are the comparisons of a list. -/
theorem isLetters_and_iff {first second : Text} :
    (isLetters first && isLetters second) = true
      ↔ ∀ comparison ∈ [first, second], ∀ byte ∈ comparison,
        'a'.toUInt8 ≤ byte ∧ byte ≤ 'z'.toUInt8 := by
  simp [isLetters]

end Operands

/-! ### Parsing -/

namespace Format

variable {format : Format} {tokens : List Text} {numeral operands : Text}

/-- What a list is parsed to is told by its parts. -/
theorem Reads.parse_congr (reads : format.Reads tokens numeral operands)
    (hasDescriptor : format ∈ described) {others : Text}
    (readsOthers : format.Reads tokens numeral others) (name other : Text)
    (labels otherLabels : Labels) :
    format.parse name labels operands = format.parse other otherLabels others := by
  obtain ⟨here, letters⟩ := reads_iff.mp reads
  obtain ⟨there, -⟩ := reads_iff.mp readsOthers
  have count := reads.count
  simp only [described, List.mem_cons, List.not_mem_nil, or_false] at hasDescriptor
  rcases hasDescriptor with rfl | rfl | rfl | rfl | rfl | rfl
  case inl | inr.inl =>
    obtain ⟨dst, src1, src2, rfl⟩ := List.length_eq_three.mp count
    simp only [operandCount] at here there
    simp only [parse, Operands.parseArith, here, there]
  case inr.inr.inl =>
    obtain ⟨dst, src1, rfl⟩ := List.length_eq_two.mp count
    simp only [operandCount] at here there
    simp only [parse, Operands.parseUnary, here, there]
  case inr.inr.inr.inl =>
    obtain ⟨src1, compareX, compareY, src2, rfl⟩ := List.length_eq_four.mp count
    simp only [operandCount] at here there
    simp only [parse, Operands.parseCompare, here, there,
      Operands.isLetters_and_iff.mpr (letters rfl), if_true]
  all_goals
    obtain ⟨dst, src1, src2, src3, rfl⟩ := List.length_eq_four.mp count
    simp only [operandCount] at here there
    simp only [parse, Operands.parseMad, here, there]

/-- **A list of the format is refused for one of its operands only.** -/
theorem Reads.parse_ofOperand (reads : format.Reads tokens numeral operands)
    (hasDescriptor : format ∈ described) (name : Text) (labels : Labels) :
    (format.parse name labels operands).Raises Fault.OfOperand := by
  obtain ⟨found, letters⟩ := reads_iff.mp reads
  have count := reads.count
  have numbered (fields : Word → Fields) : (Operands.number numeral >>= fun number =>
      pure (fields number)).Raises Fault.OfOperand :=
    (Operands.number_ofOperand numeral).bind fun _ => Except.raises_ok _
  simp only [described, List.mem_cons, List.not_mem_nil, or_false] at hasDescriptor
  rcases hasDescriptor with rfl | rfl | rfl | rfl | rfl | rfl
  case inl | inr.inl =>
    obtain ⟨dst, src1, src2, rfl⟩ := List.length_eq_three.mp count
    simp only [operandCount] at found
    simp only [parse, Operands.parseArith, found]
    exact (Register.resolve_ofOperand _ _).bind fun _ => (Register.resolve_ofOperand _ _).bind fun _ =>
      (Register.resolve_ofOperand _ _).bind fun _ => numbered _
  case inr.inr.inl =>
    obtain ⟨dst, src1, rfl⟩ := List.length_eq_two.mp count
    simp only [operandCount] at found
    simp only [parse, Operands.parseUnary, found]
    exact (Register.resolve_ofOperand _ _).bind fun _ => (Register.resolve_ofOperand _ _).bind fun _ =>
      numbered _
  case inr.inr.inr.inl =>
    obtain ⟨src1, compareX, compareY, src2, rfl⟩ := List.length_eq_four.mp count
    simp only [operandCount] at found
    simp only [parse, Operands.parseCompare, found,
      Operands.isLetters_and_iff.mpr (letters rfl), if_true]
    exact (Register.resolve_ofOperand _ _).bind fun _ => (Register.resolve_ofOperand _ _).bind fun _ =>
      (Operands.comparison_ofOperand _).bind fun _ => (Operands.comparison_ofOperand _).bind fun _ =>
        numbered _
  all_goals
    obtain ⟨dst, src1, src2, src3, rfl⟩ := List.length_eq_four.mp count
    simp only [operandCount] at found
    simp only [parse, Operands.parseMad, found]
    exact (Register.resolve_ofOperand _ _).bind fun _ => (Register.resolve_ofOperand _ _).bind fun _ =>
      (Register.resolve_ofOperand _ _).bind fun _ => (Register.resolve_ofOperand _ _).bind fun _ =>
        numbered _

/-- A list of the format is not refused as malformed. -/
theorem Reads.parse_ne_malformed (reads : format.Reads tokens numeral operands)
    (hasDescriptor : format ∈ described) (name : Text) (labels : Labels) (listed : Text) :
    format.parse name labels operands ≠ .error (.malformedOperands listed) :=
  reads.parse_ofOperand hasDescriptor name labels (.malformedOperands listed)

/-- Any other list is refused as malformed. -/
theorem parse_of_not_reads (hasDescriptor : format ∈ described)
    (not : ¬ ∃ tokens numeral, format.Reads tokens numeral operands) (name : Text)
    (labels : Labels) : format.parse name labels operands = Operands.malformed operands := by
  simp only [reads_iff, not_exists, not_and] at not
  simp only [described, List.mem_cons, List.not_mem_nil, or_false] at hasDescriptor
  rcases hasDescriptor with rfl | rfl | rfl | rfl | rfl | rfl
  case inr.inr.inr.inl =>
    simp only [parse, Operands.parseCompare]
    split
    · next src1 compareX compareY src2 numeral found =>
      refine if_neg fun isLetters => not _ _ found fun _ => ?_
      exact Operands.isLetters_and_iff.mp isLetters
    · rfl
  case inl | inr.inl =>
    simp only [parse, Operands.parseArith]
    split
    · next found => exact absurd nofun (not _ _ found)
    · rfl
  case inr.inr.inl =>
    simp only [parse, Operands.parseUnary]
    split
    · next found => exact absurd nofun (not _ _ found)
    · rfl
  all_goals
    simp only [parse, Operands.parseMad]
    split
    · next found => exact absurd nofun (not _ _ found)
    · rfl

end Format

namespace Fault

/-- A malformed list is reported under the name of the instruction, and nothing else is reported
in these words. -/
theorem under_eq_malformed_iff {name listed : Text} {fault : Fault} :
    under name fault = .inInstruction name (.malformedOperands listed)
      ↔ fault = .malformedOperands listed := by
  unfold under
  split
  · simp
  · next other =>
    constructor
    · rintro rfl
      exact absurd rfl other
    · rintro rfl
      exact absurd rfl other

end Fault

namespace Mnemonic

/-- **The grammar of operand lists with a descriptor is exact and unambiguous.** A list is refused
as malformed, and then quoted without the white space around it, exactly if it is not of the form
that the format has. It is of that form in one way, however the last operand is set off from the
descriptor and whatever parentheses it holds. The fields that it gives, or the kind of the fault,
depend on the format and the parts of the list only. -/
theorem described_grammar_exact {mnemonic : Mnemonic}
    (hasDescriptor : mnemonic.format ∈ Format.described) :
    (∀ operands labels,
      ((∃ listed, mnemonic.parse operands labels
          = .error (.inInstruction mnemonic.name (.malformedOperands listed)))
        ↔ ¬ ∃ tokens numeral, mnemonic.format.Reads tokens numeral (Text.lower operands))
      ∧ ∀ listed, mnemonic.parse operands labels
          = .error (.inInstruction mnemonic.name (.malformedOperands listed)) →
        listed = Text.trim (Text.lower operands))
    ∧ (∀ list tokens numeral others other, mnemonic.format.Reads tokens numeral list →
      mnemonic.format.Reads others other list → tokens = others ∧ numeral = other)
    ∧ ∀ other : Mnemonic, other.format = mnemonic.format →
      ∀ tokens numeral operands otherOperands,
        mnemonic.format.Reads tokens numeral (Text.lower operands) →
        mnemonic.format.Reads tokens numeral (Text.lower otherOperands) →
        ∀ labels otherLabels, (mnemonic.parse operands labels).mapError Fault.kind
          = (other.parse otherOperands otherLabels).mapError Fault.kind := by
  have parsed (operands : Text) (labels : Labels) (listed : Text) :
      mnemonic.parse operands labels
          = .error (.inInstruction mnemonic.name (.malformedOperands listed))
        ↔ mnemonic.format.parse mnemonic.name labels (Text.lower operands)
          = .error (.malformedOperands listed) := by
    unfold Mnemonic.parse
    cases mnemonic.format.parse mnemonic.name labels (Text.lower operands) with
    | ok fields => simp
    | error fault =>
      rw [Except.mapError_error, Except.error.injEq, Except.error.injEq]
      exact Fault.under_eq_malformed_iff
  refine ⟨fun operands labels => ?_, fun list tokens numeral others other reads => reads.unique, ?_⟩
  · simp only [parsed]
    by_cases reads : ∃ tokens numeral, mnemonic.format.Reads tokens numeral (Text.lower operands)
    · obtain ⟨tokens, numeral, here⟩ := reads
      have never := here.parse_ne_malformed hasDescriptor mnemonic.name labels
      refine ⟨⟨?_, fun not => absurd ⟨tokens, numeral, here⟩ not⟩, fun listed failed => ?_⟩
      · rintro ⟨listed, failed⟩
        exact absurd failed (never listed)
      · exact absurd failed (never listed)
    · rw [Format.parse_of_not_reads hasDescriptor reads mnemonic.name labels]
      refine ⟨⟨fun _ => reads, fun _ => ⟨_, rfl⟩⟩, fun listed failed => ?_⟩
      exact (Fault.malformedOperands.inj (Except.error.inj failed)).symm
  · intro other sameFormat tokens numeral operands otherOperands here there labels otherLabels
    have kind (name : Text) (outcome : Except Fault Fields) :
        (outcome.mapError (Fault.under name)).mapError Fault.kind
          = outcome.mapError Fault.kind := by
      cases outcome with
      | ok fields => rfl
      | error fault => exact congrArg Except.error (Fault.under_kind name fault)
    unfold Mnemonic.parse
    rw [kind, kind, sameFormat,
      here.parse_congr hasDescriptor there mnemonic.name other.name labels otherLabels]

/-- A last operand with parentheses of its own, which touches the descriptor. -/
theorem described_grammar_exact_nested :
    (¬ ∃ listed, Mnemonic.parse ⟨"add", 0x00, .arith⟩ " O0, v0, r1(2)(0x0F)" Labels.empty
      = .error (.inInstruction "add" (.malformedOperands listed)))
    ∧ (∀ tokens numeral, Format.arith.Reads tokens numeral " o0, v0, r1(2)(0x0f)" →
      tokens = (["o0", "v0", "r1(2)"] : List Text) ∧ numeral = ("0x0f" : Text))
    ∧ (Mnemonic.parse ⟨"add", 0x00, .arith⟩ " O0, v0, r1(2)(0x0F)" Labels.empty).mapError Fault.kind
      = (Mnemonic.parse ⟨"mul", 0x08, .arith⟩ "o0 ,v0,r1(2) ( 0x0f ) " Labels.empty).mapError
        Fault.kind := by
  have reads : Format.arith.Reads ["o0", "v0", "r1(2)"] "0x0f" " o0, v0, r1(2)(0x0f)" :=
    Format.reads_iff.mpr ⟨by decide +kernel, nofun⟩
  have readsOther : Format.arith.Reads ["o0", "v0", "r1(2)"] "0x0f" "o0 ,v0,r1(2) ( 0x0f ) " :=
    Format.reads_iff.mpr ⟨by decide +kernel, nofun⟩
  have lower : Text.lower " O0, v0, r1(2)(0x0F)" = Text.ofString " o0, v0, r1(2)(0x0f)" := by
    decide +kernel
  have lowerOther :
      Text.lower "o0 ,v0,r1(2) ( 0x0f ) " = Text.ofString "o0 ,v0,r1(2) ( 0x0f ) " := by
    decide +kernel
  have hasDescriptor : Mnemonic.format ⟨"add", 0x00, .arith⟩ ∈ Format.described := by decide
  obtain ⟨exact, unique, alike⟩ := described_grammar_exact hasDescriptor
  refine ⟨fun failed => (exact _ _).1.mp failed ⟨_, _, lower ▸ reads⟩, ?_, ?_⟩
  · exact fun tokens numeral found => unique _ _ _ _ _ found reads
  · exact alike ⟨"mul", 0x08, .arith⟩ rfl _ _ _ _ (lower ▸ reads) (lowerOther ▸ readsOther) _ _

end Mnemonic

end PicaShader
