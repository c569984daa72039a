/-
**Register tokens and register names.**

A token that is accepted has a class letter, a numeral and possibly a relative index
(`Register.splitIndex_eq_ok_iff`, `Register.number_cases`). A class letter stands for a file
that the role can use, and an index lies in its file. The files of a role follow each other
(`Register.name_of_mem_filesOf`), so that the register has the name that the token spells, and no
two tokens of different registers stand for one.
-/

import PicaShader.Proofs.Digits
import PicaShader.Proofs.Instruction.Registers

namespace PicaShader

namespace Register

/-! ### Parts of a token -/

/-- The class letter of a token, in lower case. -/
def classOf? (token : Text) : Option UInt8 := (Text.lower (Text.trim token)).head?

/-- What stands between the class letter of a token and its relative index. -/
def numeralOf (token : Text) : Text :=
  ((Text.lower (Text.trim token)).takeWhile fun byte => !(byte == '['.toUInt8)).tail

/-- The relative index of a token in lower case, with its brackets; empty if there is none. -/
def suffixOf (token : Text) : Text :=
  (Text.lower (Text.trim token)).dropWhile fun byte => !(byte == '['.toUInt8)

/-- **The relative indices of a role.** Only a first source can have one. -/
inductive IndexedBy : OperandRole → RelativeIndex → Text → Prop where
  | absent {role : OperandRole} : IndexedBy role .absent []
  | addressX : IndexedBy .firstSource .addressX "[a0.x]"
  | addressY : IndexedBy .firstSource .addressY "[a0.y]"
  | loopCounter : IndexedBy .firstSource .loopCounter "[al]"

variable {token text base : Text} {role : OperandRole} {index : RelativeIndex}

/-- What stands between the brackets is the name of an index. -/
theorem indexedBy_iff {inside : Text} :
    IndexedBy role index ('['.toUInt8 :: (inside ++ [']'.toUInt8]))
      ↔ role = .firstSource ∧ RelativeIndex.ofName? inside = some index := by
  have within {name : Text} (other : Text)
      (same : '['.toUInt8 :: (name ++ [']'.toUInt8]) = '['.toUInt8 :: (other ++ [']'.toUInt8])) :
      name = other := List.append_cancel_right (List.cons.inj same).2
  constructor
  · intro indexed
    generalize suffix : '['.toUInt8 :: (inside ++ [']'.toUInt8]) = whole at indexed
    cases indexed with
    | absent => cases suffix
    | addressX =>
      obtain rfl := within "a0.x" suffix
      exact ⟨rfl, rfl⟩
    | addressY =>
      obtain rfl := within "a0.y" suffix
      exact ⟨rfl, rfl⟩
    | loopCounter =>
      obtain rfl := within "al" suffix
      exact ⟨rfl, rfl⟩
  · rintro ⟨rfl, named⟩
    unfold RelativeIndex.ofName? at named
    split at named
    · next isX =>
      obtain rfl := Option.some.inj named
      exact isX ▸ .addressX
    · split at named
      · next isY =>
        obtain rfl := Option.some.inj named
        exact isY ▸ .addressY
      · split at named
        · next isCounter =>
          obtain rfl := Option.some.inj named
          exact isCounter ▸ .loopCounter
        · cases named

/-- A relative index ends with its bracket. -/
theorem IndexedBy.closed {inside : Text} (indexed : IndexedBy role index ('['.toUInt8 :: inside)) :
    inside.getLast? = some ']'.toUInt8 := by
  generalize suffix : '['.toUInt8 :: inside = whole at indexed
  cases indexed with
  | absent => cases suffix
  | addressX | addressY | loopCounter =>
    rw [(List.cons.inj suffix).2]
    rfl

/-- A token is split where its relative index starts. -/
theorem splitIndex_eq_ok_iff : splitIndex token text role = .ok (base, index)
    ↔ base = text.takeWhile (fun byte => !(byte == '['.toUInt8))
      ∧ IndexedBy role index (text.dropWhile fun byte => !(byte == '['.toUInt8)) := by
  unfold splitIndex
  dsimp only
  have parts := List.takeWhile_append_dropWhile (l := text)
    (p := fun byte => !(byte == '['.toUInt8))
  have head := List.head?_dropWhile_not (fun byte => !(byte == '['.toUInt8)) text
  cases rest : text.dropWhile fun byte => !(byte == '['.toUInt8) with
  | nil =>
    rw [rest, List.append_nil] at parts
    rw [parts]
    simp only [Except.ok.injEq, Prod.mk.injEq]
    constructor
    · rintro ⟨rfl, rfl⟩
      exact ⟨rfl, .absent⟩
    · rintro ⟨rfl, indexed⟩
      cases indexed
      exact ⟨rfl, rfl⟩
  | cons byte inside =>
    obtain rfl : byte = '['.toUInt8 := by
      rw [rest] at head
      simpa using head
    by_cases closed : inside.getLast? = some ']'.toUInt8
    · obtain ⟨name, rfl⟩ := List.getLast?_eq_some_iff.mp closed
      rw [indexedBy_iff]
      by_cases source : role = .firstSource
      · cases named : RelativeIndex.ofName? name <;> simp [source, named, eq_comm]
      · simp [source]
    · simp only [ne_eq, closed, not_false_eq_true, if_true, reduceCtorEq, false_iff, not_and]
      exact fun _ indexed => closed indexed.closed

/-- A number is raw, or an index in a file that the role can use. -/
theorem number_cases {register : Word} (found : number token text role = .ok register) :
    (∃ digits, text = 'd'.toUInt8 :: digits)
      ∨ ∃ letter numeral file index, text = letter :: numeral ∧ letter ≠ 'd'.toUInt8
        ∧ fileOf? letter role = some (file, true) ∧ Numeral.Spells index numeral
        ∧ index < file.size ∧ register = BitVec.ofNat 32 (file.base + index) := by
  unfold number at found
  split at found
  · next letter digit digits =>
    split at found
    · next raw =>
      rw [raw]
      exact .inl ⟨_, rfl⟩
    · next other =>
      split at found
      · cases found
      · cases found
      · next file usable =>
        split at found
        · cases found
        · next index read =>
          split at found
          · next inside =>
            obtain ⟨spelled, -⟩ := Numeral.readPlain?_eq_some_iff.mp read
            exact .inr ⟨letter, _, file, index, rfl, other, usable, spelled, inside,
              (Except.ok.inj found).symm⟩
          · cases found
  · cases found

/-! ### Files of a role -/

/-- The roles of the three operand places. -/
def places : List OperandRole := [.destination, .firstSource, .secondSource]

/-- How many registers a place can hold. -/
def capacity (role : OperandRole) : Nat := if role = .firstSource then 128 else 32

/-- A file that can be used in a place can be named there, and all of it fits. -/
theorem mem_filesOf_of_usable (place : role ∈ places) {letter : UInt8} {file : File}
    (usable : fileOf? letter role = some (file, true)) :
    (∃ char, (char, file) ∈ filesOf role ∧ char.toUInt8 = letter)
      ∧ file.base + file.size ≤ capacity role := by
  simp only [places, List.mem_cons, List.not_mem_nil, or_false] at place
  unfold fileOf? at usable
  split at usable
  · next isOutput =>
    obtain ⟨rfl, allowed⟩ := Prod.mk.inj (Option.some.inj usable)
    rcases place with rfl | rfl | rfl
    · exact ⟨⟨'o', by simp [filesOf], isOutput.symm⟩, by decide⟩
    all_goals cases allowed
  split at usable
  · next isAttribute =>
    obtain ⟨rfl, allowed⟩ := Prod.mk.inj (Option.some.inj usable)
    rcases place with rfl | rfl | rfl
    · cases allowed
    all_goals exact ⟨⟨'v', by simp [filesOf], isAttribute.symm⟩, by decide⟩
  split at usable
  · next isTemporary =>
    obtain ⟨rfl, -⟩ := Prod.mk.inj (Option.some.inj usable)
    rcases place with rfl | rfl | rfl
    all_goals exact ⟨⟨'r', by simp [filesOf], isTemporary.symm⟩, by decide⟩
  split at usable
  · next isUniform =>
    obtain ⟨rfl, allowed⟩ := Prod.mk.inj (Option.some.inj usable)
    rcases place with rfl | rfl | rfl
    · cases allowed
    · exact ⟨⟨'c', by simp [filesOf], isUniform.symm⟩, by decide⟩
    · cases allowed
  · cases usable

/-- The files of a role follow each other. -/
theorem filesOf_apart (role : OperandRole) : (filesOf role).Pairwise fun first second =>
    first.2.base + first.2.size ≤ second.2.base := by
  cases role <;> simp [filesOf, outputs, attributes, temporaries, uniforms]

/-- A register is found in the file it lies in, where files follow each other. -/
theorem findSome?_nameIn? {files : List (Char × File)}
    (apart : files.Pairwise fun first second => first.2.base + first.2.size ≤ second.2.base)
    {letter : Char} {file : File} (mem : (letter, file) ∈ files) {register : Word}
    (above : file.base ≤ register.toNat) (below : register.toNat < file.base + file.size) :
    (files.findSome? fun named => nameIn? named.1 named.2 register)
      = some (letter.toUInt8 :: Numeral.decimal (register.toNat - file.base)) := by
  induction files with
  | nil => cases mem
  | cons first files ih =>
    obtain ⟨behind, apart⟩ := List.pairwise_cons.mp apart
    rw [List.findSome?_cons]
    rcases List.mem_cons.mp mem with rfl | later
    · rw [nameIn?, if_pos ⟨above, below⟩]
    · have past : ¬ (first.2.base ≤ register.toNat
          ∧ register.toNat < first.2.base + first.2.size) := by
        have before : first.2.base + first.2.size ≤ file.base := behind _ later
        omega
      rw [nameIn?, if_neg past]
      exact ih apart later

/-- **A register has the name of the file it lies in.** -/
theorem name_of_mem_filesOf {letter : Char} {file : File} (mem : (letter, file) ∈ filesOf role)
    {register : Word} (above : file.base ≤ register.toNat)
    (below : register.toNat < file.base + file.size) :
    name register role = letter.toUInt8 :: Numeral.decimal (register.toNat - file.base) := by
  rw [name_eq, findSome?_nameIn? (filesOf_apart role) mem above below, Option.getD_some]

/-! ### Accepted tokens -/

variable {operand : Operand}

/-- A token that is accepted has a relative index of its role, and is raw or has a class letter and
an index of a file that the role can use. -/
theorem resolve_cases (resolved : resolve token role = .ok operand) :
    IndexedBy role operand.index (suffixOf token)
      ∧ (classOf? token = some 'd'.toUInt8
        ∨ ∃ letter file index, classOf? token = some letter ∧ letter ≠ 'd'.toUInt8
          ∧ fileOf? letter role = some (file, true) ∧ Numeral.Spells index (numeralOf token)
          ∧ index < file.size ∧ operand.register = BitVec.ofNat 32 (file.base + index)) := by
  unfold resolve at resolved
  unfold classOf? numeralOf suffixOf
  generalize Text.lower (Text.trim token) = text at resolved ⊢
  split at resolved
  · cases resolved
  · obtain ⟨⟨base, index⟩, split, resolved⟩ := Except.bind_eq_ok_iff.mp resolved
    obtain ⟨register, found, same⟩ := Except.bind_eq_ok_iff.mp resolved
    obtain rfl := Except.ok.inj same
    obtain ⟨isBase, indexed⟩ := splitIndex_eq_ok_iff.mp split
    refine ⟨indexed, ?_⟩
    -- The class letter stands before the relative index.
    have head {letter : UInt8} {numeral : Text} (leads : base = letter :: numeral) :
        text.head? = some letter := by
      rw [← List.takeWhile_append_dropWhile (p := fun byte => !(byte == '['.toUInt8)) (l := text),
        ← isBase, leads]
      rfl
    rcases number_cases found with ⟨digits, raw⟩
      | ⟨letter, numeral, file, number, inFile, other, usable, spells, inside, isRegister⟩
    · exact .inl (head raw)
    · refine .inr ⟨letter, file, number, head inFile, other, usable, ?_, inside, isRegister⟩
      rw [← isBase, inFile]
      exact spells

/-- **A token of a class spells the name of its register.** -/
theorem name_of_resolve (place : role ∈ places) (resolved : resolve token role = .ok operand)
    (classed : classOf? token ≠ some 'd'.toUInt8) :
    ∃ letter index, classOf? token = some letter ∧ Numeral.Spells index (numeralOf token)
      ∧ operand.register.toNat < capacity role
      ∧ name operand.register role = letter :: Numeral.decimal index := by
  rcases (resolve_cases resolved).2 with raw
    | ⟨letter, file, index, isClass, -, usable, spells, inside, isRegister⟩
  · exact absurd raw classed
  · obtain ⟨⟨char, mem, isLetter⟩, fits⟩ := mem_filesOf_of_usable place usable
    have bound : capacity role ≤ 128 := by
      unfold capacity
      split <;> decide
    have number : operand.register.toNat = file.base + index := by
      rw [isRegister, BitVec.toNat_ofNat, Nat.mod_eq_of_lt (by omega)]
    have named : name operand.register role = _ :=
      name_of_mem_filesOf mem (by omega) (by omega)
    rw [isLetter, number, Nat.add_sub_cancel_left] at named
    exact ⟨letter, index, isClass, spells, by omega, named⟩

theorem usable_self (role : OperandRole) : Usable role role := by
  cases role with
  | destination => exact usable_destination
  | firstSource => exact usable_firstSource
  | secondSource => exact usable_secondSource (.inr rfl)
  | other code => exact List.forall_mem_nil _

/-- **Register tokens and register names are inverse, and files do not alias.** The name of a
register in a role is resolved to the register, without a relative index. A token that is accepted
has no relative index, or is a first source and has one of the three; if it is not raw, its register
fits the place, and is named there by the class letter of the token and the number that its index
spells. So two such tokens of one register have the same class and the same number. -/
theorem resolve_name_inverse :
    (∀ register role, resolve (name register role) role = .ok ⟨register, .absent⟩)
    ∧ (∀ token role operand, resolve token role = .ok operand →
      IndexedBy role operand.index (suffixOf token))
    ∧ (∀ role ∈ places, ∀ token operand, resolve token role = .ok operand →
      classOf? token ≠ some 'd'.toUInt8 →
        ∃ letter index, classOf? token = some letter ∧ Numeral.Spells index (numeralOf token)
          ∧ operand.register.toNat < capacity role
          ∧ name operand.register role = letter :: Numeral.decimal index)
    ∧ ∀ role ∈ places, ∀ token operand other otherOperand,
      resolve token role = .ok operand → classOf? token ≠ some 'd'.toUInt8 →
      resolve other role = .ok otherOperand → classOf? other ≠ some 'd'.toUInt8 →
      operand.register = otherOperand.register →
        classOf? token = classOf? other
          ∧ ∃ index, Numeral.Spells index (numeralOf token)
            ∧ Numeral.Spells index (numeralOf other) := by
  refine ⟨fun register role => (standsFor_name register (usable_self role)).resolved,
    fun token role operand resolved => (resolve_cases resolved).1,
    fun role place token operand => name_of_resolve place, ?_⟩
  intro role place token operand other otherOperand resolved classed otherResolved otherClassed same
  obtain ⟨letter, index, isClass, spells, -, named⟩ := name_of_resolve place resolved classed
  obtain ⟨otherLetter, otherIndex, isOtherClass, otherSpells, -, otherNamed⟩ :=
    name_of_resolve place otherResolved otherClassed
  rw [same, otherNamed] at named
  obtain ⟨rfl, digits⟩ := List.cons.inj named
  have sameIndex : otherIndex = index := by
    rw [← Single.digitsValue_decimal otherIndex, digits, Single.digitsValue_decimal]
  exact ⟨isClass.trans isOtherClass.symm, index, spells, sameIndex ▸ otherSpells⟩

/-- The last uniform, with its index in hexadecimal and a relative index. -/
theorem resolve_name_inverse_lastUniform :
    resolve " C0x5F[aL]" .firstSource = .ok ⟨127, .loopCounter⟩
      ∧ IndexedBy .firstSource .loopCounter (suffixOf " C0x5F[aL]")
      ∧ (∃ letter index, classOf? " C0x5F[aL]" = some letter
        ∧ Numeral.Spells index (numeralOf " C0x5F[aL]")
        ∧ name 127 .firstSource = letter :: Numeral.decimal index)
      ∧ ∃ index, Numeral.Spells index (numeralOf " C0x5F[aL]")
        ∧ Numeral.Spells index (numeralOf "c95") := by
  obtain ⟨back, indexed, named, apart⟩ := resolve_name_inverse
  have resolved : resolve " C0x5F[aL]" .firstSource = .ok ⟨127, .loopCounter⟩ := by decide +kernel
  have plain : resolve "c95" .firstSource = .ok ⟨127, .absent⟩ := back 127 .firstSource
  have classed : classOf? " C0x5F[aL]" ≠ some 'd'.toUInt8 := by decide +kernel
  have plainClassed : classOf? "c95" ≠ some 'd'.toUInt8 := by decide +kernel
  obtain ⟨letter, index, isClass, spells, -, same⟩ :=
    named .firstSource (by decide) _ _ resolved classed
  exact ⟨resolved, indexed _ _ _ resolved, ⟨letter, index, isClass, spells, same⟩,
    (apart .firstSource (by decide) _ _ _ _ resolved classed plain plainClassed rfl).2⟩

end Register

end PicaShader
