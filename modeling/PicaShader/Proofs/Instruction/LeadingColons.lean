/-
**No instruction has operands that start with a colon.**

The first byte of an operand list, white space aside, is the first byte of its first operand
(`Operands.Lists.firstByte?`, `Operands.Describes.firstByte?`). That is the class letter of a
register, the name of a label, the letters of a vertex, or nothing at all in a format without
operands. A colon is none of these, so a list that starts with one is refused by every format
(`Format.parse_ne_ok_of_colon`), as long as no label is called by a name with a colon.
-/

import PicaShader.Proofs.Instruction.OperandLists
import PicaShader.Proofs.Instruction.RegisterTokens
import PicaShader.Proofs.Instruction.Targets
import PicaShader.Proofs.Text.LowerCase

namespace PicaShader

/-! ### The first byte of a list -/

namespace Operands

/-- The first byte of a list that is no white space. -/
def firstByte? (operands : Text) : Option UInt8 := (operands.dropWhile Text.isOperandSpace).head?

variable {inner piece token list operands numeral : Text} {others : List Text}

theorem Pads.firstByte? (pads : Pads inner piece) (nonempty : inner ≠ [])
    (spaceless : ∀ byte ∈ inner, ¬ Text.isOperandSpace byte) (rest : Text) :
    Operands.firstByte? (piece ++ rest) = inner.head? := by
  obtain ⟨blankBefore, blankAfter⟩ := pads
  obtain ⟨byte, more, rfl⟩ := List.exists_cons_of_ne_nil nonempty
  have solid := spaceless byte List.mem_cons_self
  rw [Operands.firstByte?, List.append_assoc, List.dropWhile_append_of_pos blankBefore,
    List.cons_append, List.cons_append, List.dropWhile_cons_of_neg solid]
  rfl

/-- A list starts with its first token. -/
theorem Lists.firstByte? (lists : Lists (token :: others) list) (rest : Text) :
    Operands.firstByte? (list ++ rest) = token.head? := by
  cases lists with
  | single solid pads => exact pads.firstByte? solid.nonempty solid.spaceless rest
  | cons solid pads lists =>
    rw [List.append_assoc]
    exact pads.firstByte? solid.nonempty solid.spaceless _

/-- So does a list with a descriptor. -/
theorem Describes.firstByte? (describes : Describes (token :: others) numeral operands) :
    Operands.firstByte? operands = token.head? := by
  obtain ⟨lists, -, -, -⟩ := describes
  exact lists.firstByte? _

theorem firstByte?_of_tokens? {count : Nat} (read : tokens? count operands = some (token :: others)) :
    firstByte? operands = token.head? := by
  rw [← (tokens?_eq_some_iff.mp read).2.firstByte? [], List.append_nil]

theorem firstByte?_of_described? {count : Nat}
    (read : described? count operands = some (token :: others, numeral)) :
    firstByte? operands = token.head? :=
  (described?_eq_some_iff.mp read).2.firstByte?

/-- A list starts with the token of its first piece, whatever the others hold. -/
theorem firstByte?_of_pieces? {count : Nat} (split : pieces? count operands = some (piece :: others))
    (read : token? piece = some token) : firstByte? operands = token.head? := by
  obtain ⟨pieces, -⟩ := pieces?_eq_some_iff.mp split
  have commaFree : ','.toUInt8 ∉ piece :=
    Text.not_mem_of_mem_pieces (pieces ▸ List.mem_cons_self)
  obtain ⟨solid, pads⟩ := (token?_eq_some_iff commaFree).mp read
  have joined : ∃ rest, operands = piece ++ rest := by
    rw [← Text.joinWith_pieces ','.toUInt8 operands, pieces]
    cases others with
    | nil => exact ⟨[], by rw [Text.joinWith_singleton, List.append_nil]⟩
    | cons second others =>
      rw [Text.joinWith_cons_cons]
      exact ⟨_, rfl⟩
  obtain ⟨rest, rfl⟩ := joined
  exact pads.firstByte? solid.nonempty solid.spaceless rest

end Operands

/-! ### Operands that start with a colon -/

/-- No register starts with a colon. -/
theorem Register.resolve_ne_ok_of_colon {token : Text} (led : token.head? = some ':'.toUInt8)
    (role : OperandRole) (operand : Operand) : resolve token role ≠ .ok operand := by
  intro resolved
  obtain ⟨rest, rfl⟩ := List.head?_eq_some_iff.mp led
  have starts := Text.head?_trim_of_visible (by decide : Text.isVisible ':'.toUInt8) rest
  obtain ⟨more, trimmed⟩ := List.head?_eq_some_iff.mp starts
  have classed : classOf? (':'.toUInt8 :: rest) = some ':'.toUInt8 := by
    rw [classOf?, trimmed, Text.lower_cons_of_plain (by decide)]
    rfl
  rcases (resolve_cases resolved).2 with raw | ⟨letter, file, index, isClass, -, usable, -⟩
  · rw [classed] at raw
    exact absurd raw (by decide)
  · obtain rfl := Option.some.inj (classed.symm.trans isClass)
    cases usable

/-- No label is called by a name that starts with a colon. -/
def Labels.ColonFree (labels : Labels) : Prop :=
  ∀ name, name.head? = some ':'.toUInt8 → labels name = none

namespace Operands

variable {operands : Text} {labels : Labels} {fields : Fields}

section

variable {count : Nat} {token numeral : Text} {others : List Text}

/-- The first token of a list is no register if the list starts with a colon, -/
theorem resolve_ne_ok_of_described? (led : firstByte? operands = some ':'.toUInt8)
    (read : described? count operands = some (token :: others, numeral)) (role : OperandRole)
    (operand : Operand) : Register.resolve token role ≠ .ok operand :=
  Register.resolve_ne_ok_of_colon ((firstByte?_of_described? read).symm.trans led) role operand

theorem address_ne_ok_of_colon (free : labels.ColonFree) (led : token.head? = some ':'.toUInt8)
    (address : Word) : labels.address token ≠ .ok address := by
  intro found
  rw [Labels.address_eq_ok_iff, free token led] at found
  cases found

/-- nor is it the name of a label. -/
theorem address_ne_ok_of_tokens? (free : labels.ColonFree)
    (led : firstByte? operands = some ':'.toUInt8)
    (read : tokens? count operands = some (token :: others)) (address : Word) :
    labels.address token ≠ .ok address :=
  address_ne_ok_of_colon free ((firstByte?_of_tokens? read).symm.trans led) address

end

theorem parseArith_ne_ok_of_colon (led : firstByte? operands = some ':'.toUInt8) :
    parseArith operands ≠ .ok fields := by
  unfold parseArith
  split
  · next read => exact Except.bind_ne_ok (resolve_ne_ok_of_described? led read _)
  · exact nofun

theorem parseUnary_ne_ok_of_colon (led : firstByte? operands = some ':'.toUInt8) :
    parseUnary operands ≠ .ok fields := by
  unfold parseUnary
  split
  · next read => exact Except.bind_ne_ok (resolve_ne_ok_of_described? led read _)
  · exact nofun

theorem parseCompare_ne_ok_of_colon (led : firstByte? operands = some ':'.toUInt8) :
    parseCompare operands ≠ .ok fields := by
  unfold parseCompare
  split
  · next read =>
    split
    · exact Except.bind_ne_ok (resolve_ne_ok_of_described? led read _)
    · exact nofun
  · exact nofun

theorem parseMad_ne_ok_of_colon (led : firstByte? operands = some ':'.toUInt8)
    (wide last : OperandRole) : parseMad wide last operands ≠ .ok fields := by
  unfold parseMad
  split
  · next read => exact Except.bind_ne_ok (resolve_ne_ok_of_described? led read _)
  · exact nofun

theorem parseBare_ne_ok_of_colon (led : firstByte? operands = some ':'.toUInt8) :
    parseBare operands ≠ .ok fields := by
  have mem : ':'.toUInt8 ∈ operands :=
    (List.dropWhile_suffix _).subset (List.mem_of_mem_head? led)
  have kept := Text.mem_trim (by decide) mem
  unfold parseBare
  split
  · next empty =>
    rw [empty] at kept
    cases kept
  · exact nofun

theorem branchPair_ne_ok_of_colon (free : labels.ColonFree) {first : Text}
    (led : first.head? = some ':'.toUInt8) (second : Text) :
    branchPair labels first second ≠ .ok fields :=
  Except.bind_ne_ok (address_ne_ok_of_colon free led)

theorem parseCondBranch_ne_ok_of_colon (free : labels.ColonFree)
    (led : firstByte? operands = some ':'.toUInt8) : parseCondBranch labels operands ≠ .ok fields := by
  unfold parseCondBranch
  split
  · next pieces =>
    split
    · next read _ _ =>
      have first := (firstByte?_of_pieces? pieces read).symm.trans led
      split
      · exact nofun
      · exact Except.bind_ne_ok fun _ => branchPair_ne_ok_of_colon free first _
    · exact nofun
  · exact nofun

theorem parseCall_ne_ok_of_colon (free : labels.ColonFree)
    (led : firstByte? operands = some ':'.toUInt8) : parseCall labels operands ≠ .ok fields := by
  unfold parseCall
  split
  · next read => exact Except.bind_ne_ok (address_ne_ok_of_tokens? free led read)
  · exact nofun

theorem parseLoop_ne_ok_of_colon (free : labels.ColonFree)
    (led : firstByte? operands = some ':'.toUInt8) : parseLoop labels operands ≠ .ok fields := by
  unfold parseLoop
  split
  · next read =>
    split
    · exact Except.bind_ne_ok (address_ne_ok_of_tokens? free led read)
    · exact nofun
  · exact nofun

/-- The flag at the end of the list is read before the labels. -/
theorem parseUniformBranch_ne_ok_of_colon (free : labels.ColonFree)
    (led : firstByte? operands = some ':'.toUInt8) :
    parseUniformBranch labels operands ≠ .ok fields := by
  intro parsed
  unfold parseUniformBranch at parsed
  split at parsed
  · next read =>
    split at parsed
    · obtain ⟨boolean, -, parsed⟩ := Except.bind_eq_ok_iff.mp parsed
      have first := (firstByte?_of_tokens? read).symm.trans led
      exact Except.bind_ne_ok (fun _ => branchPair_ne_ok_of_colon free first _) parsed
    · cases parsed
  · cases parsed

theorem parseSetEmit_ne_ok_of_colon (led : firstByte? operands = some ':'.toUInt8) :
    parseSetEmit operands ≠ .ok fields := by
  intro parsed
  unfold parseSetEmit at parsed
  split at parsed
  · next vertex primitive winding read =>
    obtain ⟨rest, rfl⟩ := List.head?_eq_some_iff.mp ((firstByte?_of_tokens? read).symm.trans led)
    cases parsed
  · cases parsed

end Operands

/-! ### Instructions -/

/-- **No format has operands that start with a colon.** -/
theorem Format.parse_ne_ok_of_colon (format : Format) (name : Text) {labels : Labels}
    (free : labels.ColonFree) {operands : Text}
    (led : Operands.firstByte? operands = some ':'.toUInt8) (fields : Fields) :
    format.parse name labels operands ≠ .ok fields := by
  cases format with
  | arith | arithImm => exact Operands.parseArith_ne_ok_of_colon led
  | unary => exact Operands.parseUnary_ne_ok_of_colon led
  | bare => exact Operands.parseBare_ne_ok_of_colon led
  | compare => exact Operands.parseCompare_ne_ok_of_colon led
  | condBranch => exact Operands.parseCondBranch_ne_ok_of_colon free led
  | call => exact Operands.parseCall_ne_ok_of_colon free led
  | loop => exact Operands.parseLoop_ne_ok_of_colon free led
  | uniformBranch => exact Operands.parseUniformBranch_ne_ok_of_colon free led
  | setEmit => exact Operands.parseSetEmit_ne_ok_of_colon led
  | mad | madi => exact Operands.parseMad_ne_ok_of_colon led _ _
  | other code => exact nofun

/-- **No instruction has operands that start with a colon**, in any case. -/
theorem Mnemonic.encode_ne_ok_of_colon (mnemonic : Mnemonic) {labels : Labels}
    (free : labels.ColonFree) {blank : Text} (isBlank : Operands.IsBlank blank) (rest : Text)
    (word : Word) : mnemonic.encode (blank ++ ':'.toUInt8 :: rest) labels ≠ .ok word := by
  intro encoded
  obtain ⟨fields, parsed, -⟩ := Except.bind_eq_ok_iff.mp encoded
  rw [Mnemonic.parse, Except.mapError_eq_ok_iff] at parsed
  refine mnemonic.format.parse_ne_ok_of_colon _ free ?_ fields parsed
  have plain : ∀ byte ∈ blank, Text.isPlain byte := fun byte mem =>
    Text.plain_of_isOperandSpace byte (isBlank byte mem)
  have lower : Text.lower (blank ++ ':'.toUInt8 :: rest)
      = blank ++ ':'.toUInt8 :: Text.lower rest := by
    rw [Text.lower_append_of_ascii fun byte mem => Text.ascii_of_plain (plain byte mem),
      Text.lower_of_plain plain, Text.lower_cons_of_plain (by decide)]
  rw [lower, Operands.firstByte?, List.dropWhile_append_of_pos isBlank]
  rfl

end PicaShader
