/-
**Registers are read back.**

The token of a register names it in a file that the role can use, or gives its number raw
(`Register.name_cases`). Either way it is resolved to the register again, in every role that can use
the files of the role it was written for (`Register.standsFor_name`); a first source also with its
index (`Register.standsFor_lower_indexedName`).
-/

import PicaShader.Instruction.Register
import PicaShader.Proofs.Instruction.Tokens
import PicaShader.Proofs.Word
import Mathlib.Data.List.TakeWhile

namespace PicaShader

namespace Register

/-! ### Names -/

/-- A register has the name of the first file that it lies in, and else its number. -/
theorem name_eq (register : Word) (role : OperandRole) :
    name register role
      = ((filesOf role).findSome? fun named => nameIn? named.1 named.2 register).getD
        ('d'.toUInt8 :: Numeral.hex register.toNat) := rfl

/-- A register is written by its index in a file, or raw. -/
theorem name_cases (register : Word) (role : OperandRole) :
    (∃ letter file, (letter, file) ∈ filesOf role ∧ file.base ≤ register.toNat
      ∧ register.toNat < file.base + file.size
      ∧ name register role = letter.toUInt8 :: Numeral.decimal (register.toNat - file.base))
    ∨ name register role = 'd'.toUInt8 :: Numeral.hex register.toNat := by
  rw [name_eq]
  cases found : (filesOf role).findSome? fun named => nameIn? named.1 named.2 register with
  | none => exact .inr rfl
  | some text =>
    obtain ⟨⟨letter, file⟩, mem, named⟩ := List.exists_of_findSome?_eq_some found
    by_cases inside : file.base ≤ register.toNat ∧ register.toNat < file.base + file.size
    · rw [nameIn?, if_pos inside] at named
      obtain rfl := Option.some.inj named
      exact .inl ⟨letter, file, mem, inside.1, inside.2, rfl⟩
    · rw [nameIn?, if_neg inside] at named
      cases named

/-- The classes that a role can name can be used by another. -/
def Usable (written role : OperandRole) : Prop :=
  ∀ named ∈ filesOf written, fileOf? named.1.toUInt8 role = some (named.2, true)

theorem usable_destination : Usable .destination .destination := by
  simp only [Usable, filesOf, List.forall_mem_cons]
  exact ⟨rfl, rfl, List.forall_mem_nil _⟩

theorem usable_firstSource : Usable .firstSource .firstSource := by
  simp only [Usable, filesOf, List.forall_mem_cons]
  exact ⟨rfl, rfl, rfl, List.forall_mem_nil _⟩

/-- What a second source can name, each source can use. -/
theorem usable_secondSource {role : OperandRole}
    (isSource : role = .firstSource ∨ role = .secondSource) : Usable .secondSource role := by
  simp only [Usable, filesOf, List.forall_mem_cons]
  rcases isSource with rfl | rfl <;> exact ⟨rfl, rfl, List.forall_mem_nil _⟩

/-- A byte of a register name: a token byte that opens no index. -/
def isNameByte (byte : UInt8) : Bool := Operands.isTokenByte byte && byte != '['.toUInt8

theorem isNameByte_of_isHexDigit : ∀ byte : UInt8, Operands.isHexDigit byte → isNameByte byte := by
  apply Text.forall_byte
  decide +kernel

theorem isNameByte_of_isDigit : ∀ byte : UInt8, Numeral.isDigit byte → isNameByte byte := by
  apply Text.forall_byte
  decide +kernel

theorem letters_of_filesOf (role : OperandRole) : ∀ named ∈ filesOf role,
    isNameByte named.1.toUInt8 ∧ named.1.toUInt8 ≠ 'd'.toUInt8 := by
  cases role with
  | destination | firstSource | secondSource => decide
  | other code => simp [filesOf]

theorem isNameByte_of_mem_name {register : Word} {role : OperandRole} :
    ∀ byte ∈ name register role, isNameByte byte := by
  rcases name_cases register role with ⟨letter, file, mem, _, _, same⟩ | same
  · rw [same, List.forall_mem_cons]
    exact ⟨(letters_of_filesOf role _ mem).1, fun byte mem =>
      isNameByte_of_isDigit byte (Numeral.isDigit_of_mem_decimal mem)⟩
  · rw [same, List.forall_mem_cons]
    exact ⟨by decide, fun byte mem =>
      isNameByte_of_isHexDigit byte (Numeral.isHexDigit_of_mem_hex mem)⟩

theorem isToken_name (register : Word) (role : OperandRole) :
    Operands.IsToken (name register role) where
  nonempty := by
    rcases name_cases register role with ⟨_, _, _, _, _, same⟩ | same <;> simp [same]
  bytes byte mem := by
    have := isNameByte_of_mem_name byte mem
    simp only [isNameByte, Bool.and_eq_true] at this
    exact this.1

/-! ### Numbers -/

theorem number_raw (token : Text) (register : Word) (role : OperandRole) :
    number token ('d'.toUInt8 :: Numeral.hex register.toNat) role = .ok register := by
  obtain ⟨digit, digits, shape⟩ :=
    List.exists_cons_of_ne_nil (Numeral.inBase_ne_nil 16 register.toNat)
  have read : Numeral.readWord? 16 (digit :: digits) = some register.toNat := by
    rw [← shape]
    exact Numeral.read?_inBase (by decide) (by decide) register.isLt
  rw [Numeral.hex, shape, number, if_pos rfl, read]
  exact congrArg Except.ok (Word.ofNat_toNat register)

theorem number_in_file (token : Text) {letter : UInt8} {role : OperandRole} {file : File}
    (found : fileOf? letter role = some (file, true)) (other : letter ≠ 'd'.toUInt8) {index : Nat}
    (inside : index < file.size) (small : index < 2 ^ 32) :
    number token (letter :: Numeral.decimal index) role
      = .ok (BitVec.ofNat 32 (file.base + index)) := by
  obtain ⟨digit, digits, shape⟩ := List.exists_cons_of_ne_nil (Numeral.inBase_ne_nil 10 index)
  have read : Numeral.readPlain? (digit :: digits) = some index := by
    rw [← shape]
    exact Numeral.readPlain?_decimal small
  rw [Numeral.decimal, shape, number, if_neg other, found]
  simp only [read, if_pos inside]

/-- A name has the number of its register. -/
theorem number_name (token : Text) (register : Word) {written role : OperandRole}
    (usable : Usable written role) : number token (name register written) role = .ok register := by
  rcases name_cases register written with ⟨letter, file, mem, above, below, same⟩ | same
  · have bound := register.isLt
    have index : register.toNat - file.base < file.size := by omega
    rw [same, number_in_file token (usable _ mem) (letters_of_filesOf written _ mem).2 index
      (by omega), Nat.add_sub_cancel' above, Word.ofNat_toNat]
  · rw [same, number_raw]

/-! ### Operands -/

theorem not_open_of_mem_name {register : Word} {role : OperandRole} :
    ∀ byte ∈ name register role, (!(byte == '['.toUInt8)) = true := by
  intro byte mem
  have := isNameByte_of_mem_name byte mem
  simp only [isNameByte, Bool.and_eq_true] at this
  exact this.2

/-- A token is resolved to its number and its index. -/
theorem resolve_of_isToken {token base : Text} {role : OperandRole} {register : Word}
    {index : RelativeIndex} (isToken : Operands.IsToken token)
    (split : splitIndex token token role = .ok (base, index))
    (found : number token base role = .ok register) :
    resolve token role = .ok ⟨register, index⟩ := by
  have lowered : Text.lower (Text.trim token) = token := by rw [isToken.trim, isToken.lower]
  obtain ⟨byte, rest, rfl⟩ := List.exists_cons_of_ne_nil isToken.nonempty
  rw [resolve, lowered]
  show (splitIndex _ _ _ >>= _) = _
  rw [split, Except.ok_bind]
  show (number _ _ _ >>= _) = _
  rw [found]
  rfl

/-- A token stands for an operand in a role. -/
structure StandsFor (token : Text) (role : OperandRole) (operand : Operand) : Prop where
  isToken : Operands.IsToken token
  resolved : resolve token role = .ok operand

/-- **A register is resolved to itself** where its files can be used. -/
theorem standsFor_name (register : Word) {written role : OperandRole}
    (usable : Usable written role) :
    StandsFor (name register written) role ⟨register, .absent⟩ := by
  have isToken := isToken_name register written
  refine ⟨isToken, resolve_of_isToken isToken ?_ (number_name _ register usable)⟩
  have closed : (name register written).dropWhile (fun byte => !(byte == '['.toUInt8)) = [] := by
    rw [List.dropWhile_eq_nil_iff]
    exact not_open_of_mem_name
  simp only [splitIndex, closed]

/-- An indexed register is resolved with its index. -/
theorem standsFor_indexed (register : Word) {inside : Text} {index : RelativeIndex}
    (bytes : ∀ byte ∈ inside, Operands.isTokenByte byte)
    (named : RelativeIndex.ofName? inside = some index) :
    StandsFor (name register .firstSource ++ '['.toUInt8 :: (inside ++ [']'.toUInt8])) .firstSource
      ⟨register, index⟩ := by
  have isToken : Operands.IsToken
      (name register .firstSource ++ '['.toUInt8 :: (inside ++ [']'.toUInt8])) := by
    refine (isToken_name register .firstSource).append ?_
    rw [List.forall_mem_cons, List.forall_mem_append, List.forall_mem_singleton]
    exact ⟨by decide, bytes, by decide⟩
  refine ⟨isToken, resolve_of_isToken isToken ?_ (number_name _ register usable_firstSource)⟩
  have opened : (name register .firstSource ++ '['.toUInt8 :: (inside ++ [']'.toUInt8])).dropWhile
      (fun byte => !(byte == '['.toUInt8)) = '['.toUInt8 :: (inside ++ [']'.toUInt8]) := by
    rw [List.dropWhile_append_of_pos not_open_of_mem_name]
    exact List.dropWhile_cons_of_neg (by decide)
  have before : (name register .firstSource ++ '['.toUInt8 :: (inside ++ [']'.toUInt8])).takeWhile
      (fun byte => !(byte == '['.toUInt8)) = name register .firstSource := by
    rw [List.takeWhile_append_of_pos not_open_of_mem_name, List.takeWhile_cons_of_neg (by decide),
      List.append_nil]
  simp only [splitIndex, opened, before, List.getLast?_concat, List.dropLast_concat, named]
  rfl

theorem index_cases {index : RelativeIndex} (small : index.code.toNat < 4) :
    index = .absent ∨ index = .addressX ∨ index = .addressY ∨ index = .loopCounter := by
  obtain ⟨code⟩ := index
  have codes : code = 0 ∨ code = 1 ∨ code = 2 ∨ code = 3 := by
    simp only [← BitVec.toNat_inj]
    show code.toNat = 0 ∨ code.toNat = 1 ∨ code.toNat = 2 ∨ code.toNat = 3
    have : code.toNat < 4 := small
    omega
  rcases codes with rfl | rfl | rfl | rfl
  · exact .inl rfl
  · exact .inr (.inl rfl)
  · exact .inr (.inr (.inl rfl))
  · exact .inr (.inr (.inr rfl))

/-- **A first source is resolved with its index,** from its token in lower case. -/
theorem standsFor_lower_indexedName (register : Word) {index : RelativeIndex}
    (small : index.code.toNat < 4) :
    StandsFor (Text.lower (indexedName register index)) .firstSource ⟨register, index⟩ := by
  have isToken := isToken_name register .firstSource
  -- The loop counter is the only token with a capital; `inside` is the index in lower case.
  have indexed {index : RelativeIndex} (inside : Text) (present : index ≠ .absent)
      (lower : Text.lower ("[" ++ index.name ++ "]") = '['.toUInt8 :: (inside ++ [']'.toUInt8]))
      (bytes : inside.all Operands.isTokenByte)
      (named : RelativeIndex.ofName? inside = some index) :
      StandsFor (Text.lower (indexedName register index)) .firstSource ⟨register, index⟩ := by
    rw [indexedName, if_neg present, List.append_assoc, List.append_assoc,
      Text.lower_append_of_ascii fun _ mem => Text.ascii_of_plain (isToken.plain mem),
      isToken.lower, ← List.append_assoc ("[" : Text), lower]
    exact standsFor_indexed register (List.all_eq_true.mp bytes) named
  rcases index_cases small with rfl | rfl | rfl | rfl
  · rw [indexedName, if_pos rfl, isToken.lower]
    exact standsFor_name register usable_firstSource
  · exact indexed "a0.x" (by decide) (by decide) (by decide) (by decide)
  · exact indexed "a0.y" (by decide) (by decide) (by decide) (by decide)
  · exact indexed "al" (by decide) (by decide) (by decide) (by decide)

theorem printed_indexedName (register : Word) {index : RelativeIndex}
    (small : index.code.toNat < 4) : ∀ byte ∈ indexedName register index, Text.isPrinted byte := by
  have name : ∀ byte ∈ name register .firstSource, Text.isPrinted byte := fun byte mem =>
    Text.printed_of_visible ((isToken_name register .firstSource).visible mem)
  rcases index_cases small with rfl | rfl | rfl | rfl
  · rwa [indexedName, if_pos rfl]
  all_goals
    rw [indexedName, if_neg (by decide), List.append_assoc, List.append_assoc,
      List.forall_mem_append]
    exact ⟨name, Text.forall_mem_of_all (by decide)⟩

end Register

end PicaShader
