/-
**Statements are taken apart again.**

A statement is written as a mnemonic and, after a blank, its operands. Reading it in lower case
gives the mnemonic of the table and the operand list (`Instruction.assemble_append`), so that what
is left is to parse the list of each format.
-/

import PicaShader.Instruction.Disassembly
import PicaShader.Proofs.Instruction.Lookup
import PicaShader.Proofs.Instruction.Tokens

namespace PicaShader

namespace Mnemonic

theorem isToken_name : ∀ mnemonic ∈ table, Operands.IsToken mnemonic.name := by decide +kernel

theorem ofName?_name {mnemonic : Mnemonic} (known : mnemonic ∈ table) :
    ofName? mnemonic.name = some mnemonic :=
  ofName?_eq_some_iff.mpr ⟨known, rfl⟩

end Mnemonic

namespace Instruction

theorem split?_blank_append {lead : Text} (blank : ∀ byte ∈ lead, Text.isOperandSpace byte)
    (statement : Text) : split? (lead ++ statement) = split? statement := by
  rw [split?, List.dropWhile_append_of_pos blank, split?]

/-- A name is split from the operands at the blank between them, if they stay on one line. -/
theorem split?_append {name operands : Text} (nonempty : name ≠ [])
    (solid : ∀ byte ∈ name, ¬ Text.isOperandSpace byte)
    (spaced : ∀ byte ∈ operands.head?, Text.isOperandSpace byte) :
    split? (name ++ operands)
      = if '\n'.toUInt8 ∈ operands then none else some (name, operands) := by
  have solid' : ∀ byte ∈ name, (!Text.isOperandSpace byte) = true := by
    intro byte mem
    rw [Bool.not_eq_true']
    exact Bool.eq_false_iff.mpr (solid byte mem)
  have start : (name ++ operands).dropWhile Text.isOperandSpace = name ++ operands :=
    Text.dropWhile_append_of_not nonempty solid operands
  have stops : operands.takeWhile (!Text.isOperandSpace ·) = []
      ∧ operands.dropWhile (!Text.isOperandSpace ·) = operands := by
    cases operands with
    | nil => exact ⟨rfl, rfl⟩
    | cons byte rest =>
      have space : Text.isOperandSpace byte := spaced byte rfl
      simp [space]
  have taken : (name ++ operands).takeWhile (!Text.isOperandSpace ·) = name := by
    rw [List.takeWhile_append_of_pos solid', stops.1, List.append_nil]
  have left : (name ++ operands).dropWhile (!Text.isOperandSpace ·) = operands := by
    rw [List.dropWhile_append_of_pos solid', stops.2]
  have refused : (name.isEmpty || operands.contains '\n'.toUInt8) = true
      ↔ '\n'.toUInt8 ∈ operands := by
    rw [List.isEmpty_eq_false_iff.mpr nonempty, Bool.false_or, List.contains_iff_mem]
  rw [split?, start]
  simp only [taken, left, refused]

/-- **A statement is read as its mnemonic with its operand list.** -/
theorem assemble_append {mnemonic : Mnemonic} (known : mnemonic ∈ Mnemonic.table) {operands : Text}
    (spaced : operands = [] ∨ ∃ list : Text, operands = " " ++ list)
    (printed : ∀ byte ∈ operands, Text.isPrinted byte)
    (ends : (mnemonic.name ++ operands).getLast?.any Text.isVisible) (labels : Labels) :
    assemble (Text.trim (mnemonic.name ++ operands)) labels
      = (mnemonic.format.parse mnemonic.name labels (Text.lower operands)).mapError
          (Fault.under mnemonic.name) >>= mnemonic.pack := by
  have isToken := Mnemonic.isToken_name mnemonic known
  have trimmed : Text.trim (mnemonic.name ++ operands) = mnemonic.name ++ operands := by
    refine Text.trim_of_visible ?_ ends
    obtain ⟨byte, rest, shape⟩ := List.exists_cons_of_ne_nil isToken.nonempty
    rw [shape]
    exact isToken.visible (by simp [shape])
  have lowered : Text.lower (mnemonic.name ++ operands) = mnemonic.name ++ Text.lower operands := by
    rw [Text.lower_append_of_ascii fun _ mem => Text.ascii_of_plain (isToken.plain mem),
      isToken.lower]
  have plain := Text.plain_of_mem_lower printed
  have again : Text.lower (Text.lower operands) = Text.lower operands :=
    Text.lower_of_plain fun byte mem => (plain byte mem).1
  have oneLine : '\n'.toUInt8 ∉ Text.lower operands := fun mem => absurd (plain _ mem).2 (by decide)
  have stillSpaced : ∀ byte ∈ (Text.lower operands).head?, Text.isOperandSpace byte := by
    rcases spaced with rfl | ⟨list, rfl⟩
    · exact nofun
    · rw [Text.lower_append_of_ascii (Text.forall_mem_of_all (by decide))]
      exact fun byte leads => Option.some.inj leads ▸ rfl
  have split : split? (mnemonic.name ++ Text.lower operands)
      = some (mnemonic.name, Text.lower operands) := by
    rw [split?_append isToken.nonempty (fun _ mem => isToken.not_space mem) stillSpaced,
      if_neg oneLine]
  rw [assemble, trimmed, lowered, split]
  simp only [Mnemonic.ofName?_name known]
  rw [Mnemonic.encode, Mnemonic.parse, again]

/-- A written instruction with operands is read as its mnemonic with the operands in lower case. -/
theorem assemble_joinWith {mnemonic : Mnemonic} (known : mnemonic ∈ Mnemonic.table)
    {texts : List Text} {last : Text}
    (printed : ∀ text ∈ texts ++ [last], ∀ byte ∈ text, Text.isPrinted byte)
    (ends : last.getLast?.any Text.isVisible) (labels : Labels) :
    assemble (Text.trim (mnemonic.name ++ " " ++ Text.joinWith ", " (texts ++ [last]))) labels
      = (mnemonic.format.parse mnemonic.name labels
          (" " ++ Text.joinWith ", " ((texts ++ [last]).map Text.lower))).mapError
            (Fault.under mnemonic.name) >>= mnemonic.pack := by
  have some : last ≠ [] := by
    rintro rfl
    cases ends
  have list : ∀ byte ∈ Text.joinWith ", " (texts ++ [last]), Text.isPrinted byte :=
    Text.forall_mem_joinWith (Text.forall_mem_of_all (by decide)) printed
  have lowered : Text.lower (" " ++ Text.joinWith ", " (texts ++ [last]))
      = " " ++ Text.joinWith ", " ((texts ++ [last]).map Text.lower) := by
    rw [Text.lower_append_of_ascii (Text.forall_mem_of_all (by decide)),
      Text.lower_joinWith (Text.forall_mem_of_all (by decide)) printed]
    rfl
  rw [List.append_assoc, ← lowered]
  refine assemble_append known (.inr ⟨_, rfl⟩) ?_ ?_ labels
  · exact List.forall_mem_append.mpr ⟨Text.forall_mem_of_all (by decide), list⟩
  · rw [List.getLast?_append, List.getLast?_append, Text.getLast?_joinWith _ _ some]
    exact Option.any_or_of_any_left (Option.any_or_of_any_left ends)

end Instruction

end PicaShader
