/-
**What directives can ask for.**

Every record that a directive puts into a table is in range. The ranges are stated on the records
(`Constant.WellFormed`, `Output.WellFormed`, `Input.WellFormed`, `StoredDescriptor.WellFormed`), so
that they can be asked of a container; `Directive.wellFormed_of_parse` says that a parsed directive
makes no other records. A uniform has a name without NUL, so that it can stand in a pool.

What a parsed directive can be at all is said by `Directive.Parses` (`Directive.parses_of_parse`).
-/

import PicaShader.Assembly.Directive
import PicaShader.Proofs.Float24
import PicaShader.Proofs.Outcome

namespace PicaShader

/-! ### Records in range -/

/-- A truth value, one word of packed bytes, or four words of 24 bits. -/
def Constant.WellFormed (constant : Constant) : Prop :=
  constant.kind = .bool ∧ (constant.values = {} ∨ constant.values = { x := 1 })
    ∨ constant.kind = .int ∧ constant.values = { x := constant.values.x }
    ∨ constant.kind = .float ∧ ∀ value ∈ constant.values.toList, value.toNat < 2 ^ 24

theorem Constant.WellFormed.kind_lt {constant : Constant} (inRange : constant.WellFormed) :
    constant.kind.code.toNat < 2 ^ 16 := by
  rcases inRange with ⟨kind, -⟩ | ⟨kind, -⟩ | ⟨kind, -⟩ <;> rw [kind] <;> decide

/-- One of sixteen registers, a mask of four bits and a semantic of the table. -/
structure Output.WellFormed (output : Output) : Prop where
  register : output.register.toNat < 16
  mask : output.mask.toNat ≤ 0xF
  semantic : output.semantic ∈ Semantic.table.map Prod.snd

/-- A range of registers of one uniform file. -/
def Input.WellFormed (input : Input) : Prop :=
  input.first.toNat ≤ input.last.toNat
    ∧ (0x10 ≤ input.first.toNat ∧ input.last.toNat ≤ 0x6F
      ∨ 0x70 ≤ input.first.toNat ∧ input.last.toNat ≤ 0x73
      ∨ 0x78 ≤ input.first.toNat ∧ input.last.toNat ≤ 0x87)

/-- The mask word of all descriptors, and bit 31. -/
structure StoredDescriptor.WellFormed (descriptor : StoredDescriptor) : Prop where
  mask : descriptor.mask = 0xF
  topBit : descriptor.word.getLsbD 31

theorem Descriptor.getLsbD_word (descriptor : Descriptor) : descriptor.word.getLsbD 31 := by
  simp only [Descriptor.word, BitVec.getLsbD_append]
  rfl

/-! ### Parsed directives -/

namespace Directive

/-- The record that a directive makes is in range, and a uniform can be named in a pool. -/
def WellFormed : Directive → Prop
  | .constant made => made.WellFormed
  | .output made => made.WellFormed
  | .descriptor _ => True
  | .uniform first last name =>
    (∀ symbol, ({ first, last, symbol, name } : Input).WellFormed) ∧ 0 ∉ name
  | .entry _ _ _ => True

theorem lt_of_registerIndex {token digits : Text} {limit index : Nat}
    (parsed : registerIndex token digits limit = .ok index) : index < limit := by
  unfold registerIndex at parsed
  split at parsed
  · cases parsed
  split at parsed
  · cases parsed
  split at parsed
  · next inside =>
    obtain rfl := Except.ok.inj parsed
    exact inside
  · cases parsed

theorem wellFormed_of_parseBool {operands : List Text} {constant : Constant}
    (parsed : parseBool operands = .ok constant) : constant.WellFormed := by
  unfold parseBool at parsed
  split at parsed
  · obtain ⟨register, -, parsed⟩ := Except.bind_eq_ok_iff.mp parsed
    split at parsed
    · obtain rfl := Except.ok.inj parsed
      exact .inl ⟨rfl, .inl rfl⟩
    · obtain rfl := Except.ok.inj parsed
      exact .inl ⟨rfl, .inr rfl⟩
    · cases parsed
  · cases parsed

theorem wellFormed_of_parseInt {operands : List Text} {constant : Constant}
    (parsed : parseInt operands = .ok constant) : constant.WellFormed := by
  unfold parseInt at parsed
  split at parsed
  · simp only [Except.bind_eq_ok_iff] at parsed
    obtain ⟨register, -, x, -, y, -, z, -, w, -, word, -, same⟩ := parsed
    obtain rfl := Except.ok.inj same
    exact .inr (.inl ⟨rfl, rfl⟩)
  · cases parsed

theorem lt_of_float {token : Text} {word : Word} (parsed : float token = .ok word) :
    word.toNat < 2 ^ 24 := by
  unfold float at parsed
  split at parsed
  · exact Float24.encode_lt parsed
  · cases parsed

theorem wellFormed_of_parseFloat {operands : List Text} {constant : Constant}
    (parsed : parseFloat operands = .ok constant) : constant.WellFormed := by
  unfold parseFloat at parsed
  split at parsed
  · simp only [Except.bind_eq_ok_iff] at parsed
    obtain ⟨register, -, x, readX, y, readY, z, readZ, w, readW, same⟩ := parsed
    obtain rfl := Except.ok.inj same
    refine .inr (.inr ⟨rfl, ?_⟩)
    simp only [Quad.toList, List.forall_mem_cons]
    exact ⟨lt_of_float readX, lt_of_float readY, lt_of_float readZ, lt_of_float readW,
      List.forall_mem_nil _⟩
  · cases parsed

theorem wellFormed_of_parseConstant {operands : List Text} {constant : Constant}
    (parsed : parseConstant operands = .ok constant) : constant.WellFormed := by
  unfold parseConstant at parsed
  split at parsed
  · cases parsed
  dsimp only at parsed
  split at parsed
  · exact wellFormed_of_parseBool parsed
  split at parsed
  · exact wellFormed_of_parseInt parsed
  split at parsed
  · exact wellFormed_of_parseFloat parsed
  · cases parsed

theorem wellFormed_of_parseOutput {operands : List Text} {output : Output}
    (parsed : parseOutput operands = .ok output) : output.WellFormed := by
  unfold parseOutput at parsed
  split at parsed
  · dsimp only at parsed
    split at parsed
    · cases parsed
    obtain ⟨index, inside, parsed⟩ := Except.bind_eq_ok_iff.mp parsed
    have small := lt_of_registerIndex inside
    split at parsed
    · next semantic named =>
      split at parsed
      · split at parsed
        · cases parsed
        next narrow =>
          obtain rfl := Except.ok.inj parsed
          refine ⟨?_, ?_, ?_⟩
          · show (BitVec.ofNat 16 index).toNat < 16
            rw [BitVec.toNat_ofNat]
            exact Nat.lt_of_le_of_lt (Nat.mod_le _ _) small
          · show (BitVec.ofNat 32 _).toNat ≤ 0xF
            rw [BitVec.toNat_ofNat]
            exact Nat.le_trans (Nat.mod_le _ _) (Nat.not_lt.mp narrow)
          · obtain ⟨before, after, split, -⟩ := List.lookup_eq_some_iff.mp named
            rw [split]
            simp
      · cases parsed
    · cases parsed
  · cases parsed

/-- Two registers of one file make a range. -/
theorem wellFormed_range {file : UniformFile} (known : file ∈ UniformFile.all) {start stop : Nat}
    (ordered : start ≤ stop) (inside : stop < file.size) (symbol : Word) (name : Text) :
    ({ first := BitVec.ofNat 16 (file.base + start), last := BitVec.ofNat 16 (file.base + stop),
       symbol, name } : Input).WellFormed := by
  unfold Input.WellFormed
  simp only [BitVec.toNat_ofNat]
  simp only [UniformFile.all, List.mem_cons, List.not_mem_nil, or_false] at known
  rcases known with rfl | rfl | rfl
  · simp only [UniformFile.booleans] at inside ⊢
    omega
  · simp only [UniformFile.integers] at inside ⊢
    omega
  · simp only [UniformFile.floats] at inside ⊢
    omega

/-- A uniform has registers of one file, in order, and a name without forbidden bytes. -/
theorem exists_of_parseUniform {operands : List Text} {directive : Directive}
    (parsed : parseUniform operands = .ok directive) :
    ∃ first last name file start stop, operands = [first, last, name] ∧ file ∈ UniformFile.all
      ∧ start ≤ stop ∧ stop < file.size ∧ name.any isForbiddenInName = false
      ∧ directive = .uniform (BitVec.ofNat 16 (file.base + start))
        (BitVec.ofNat 16 (file.base + stop)) name := by
  unfold parseUniform at parsed
  split at parsed
  · next first last name =>
    dsimp only at parsed
    split at parsed
    · cases parsed
    split at parsed
    · next file found =>
      obtain ⟨start, -, parsed⟩ := Except.bind_eq_ok_iff.mp parsed
      obtain ⟨stop, inside, parsed⟩ := Except.bind_eq_ok_iff.mp parsed
      split at parsed
      · cases parsed
      next ordered =>
        split at parsed
        · cases parsed
        next allowed =>
          exact ⟨first, last, name, file, start, stop, rfl, List.mem_of_find?_eq_some found,
            Nat.not_lt.mp ordered, lt_of_registerIndex inside, Bool.not_eq_true _ ▸ allowed,
            (Except.ok.inj parsed).symm⟩
    · cases parsed
  · cases parsed

theorem wellFormed_of_parseUniform {operands : List Text} {directive : Directive}
    (parsed : parseUniform operands = .ok directive) : directive.WellFormed := by
  obtain ⟨-, -, name, file, start, stop, -, known, ordered, inside, allowed, rfl⟩ :=
    exists_of_parseUniform parsed
  refine ⟨fun symbol => wellFormed_range known ordered inside symbol name, fun nul => ?_⟩
  exact absurd (List.any_eq_true.mpr ⟨0, nul, rfl⟩) (Bool.eq_false_iff.mp allowed)

/-- **What a parsed directive is,** by its name and its operands. -/
inductive Parses (operands : List Text) : Text → Directive → Prop where
  | constant {constant : Constant} (made : parseConstant operands = .ok constant) :
    Parses operands "const" (.constant constant)
  | output {output : Output} (made : parseOutput operands = .ok output) :
    Parses operands "out" (.output output)
  | descriptor {descriptor : Descriptor} (made : parseDescriptor operands = .ok descriptor) :
    Parses operands "opdesc" (.descriptor descriptor)
  | uniform {directive : Directive} (made : parseUniform operands = .ok directive) :
    Parses operands "uniform" directive
  | entry {kind : EntryKind} {main stop : Text} (listed : operands = [main, stop]) :
    Parses operands kind.directive (.entry kind main stop)

theorem parses_of_parseEntry {kind : EntryKind} {operands : List Text} {directive : Directive}
    (parsed : parseEntry kind operands = .ok directive) :
    Parses operands kind.directive directive := by
  unfold parseEntry at parsed
  split at parsed
  · obtain rfl := Except.ok.inj parsed
    exact .entry rfl
  · cases parsed

theorem parses_of_parse {name args : Text} {directive : Directive}
    (parsed : parse name args = .ok directive) :
    ∃ found, operands args = .ok found ∧ Parses found name directive := by
  unfold parse at parsed
  split at parsed
  · cases parsed
  next parser known =>
    obtain ⟨found, taken, parsed⟩ := Except.bind_eq_ok_iff.mp parsed
    refine ⟨found, taken, ?_⟩
    unfold parser? at known
    repeat' split at known
    all_goals cases known
    all_goals subst name
    · obtain ⟨constant, made, rfl⟩ := Except.map_eq_ok_iff.mp parsed
      exact .constant made
    · obtain ⟨output, made, rfl⟩ := Except.map_eq_ok_iff.mp parsed
      exact .output made
    · obtain ⟨descriptor, made, rfl⟩ := Except.map_eq_ok_iff.mp parsed
      exact .descriptor made
    · exact .uniform parsed
    · exact parses_of_parseEntry parsed
    · exact parses_of_parseEntry parsed

/-- **A parsed directive makes records in range.** -/
theorem wellFormed_of_parse {name args : Text} {directive : Directive}
    (parsed : parse name args = .ok directive) : directive.WellFormed := by
  obtain ⟨found, -, parses⟩ := parses_of_parse parsed
  cases parses with
  | constant made => exact wellFormed_of_parseConstant made
  | output made => exact wellFormed_of_parseOutput made
  | descriptor made => trivial
  | uniform made => exact wellFormed_of_parseUniform made
  | entry listed => trivial

end Directive

end PicaShader
