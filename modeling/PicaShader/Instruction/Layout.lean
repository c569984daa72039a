/-
**Bit layouts.**

The layout of a format lists the fields that the encoder fills, with their widths and places. The
decoder has the places written out once more (`Format.unpack`). Two facts hold of every layout and
are checked by evaluation: each slot lies inside the word (`inside_of_mem`), and no two slots share a
bit (`layout_disjoint`).
-/

import PicaShader.Instruction.Fields
import PicaShader.Instruction.Format

namespace PicaShader

/-- A field of an instruction word: `width` bits from bit `shift` up. -/
structure Slot where
  field : Field
  width : Nat
  shift : Nat
deriving DecidableEq, Repr

namespace Slot

/-- Two slots share no bit. -/
def Disjoint (first second : Slot) : Prop :=
  first.shift + first.width ≤ second.shift ∨ second.shift + second.width ≤ first.shift

instance (first second : Slot) : Decidable (Disjoint first second) :=
  inferInstanceAs (Decidable (_ ∨ _))

end Slot

namespace Format

/-- The slots of a format, in the order in which they are filled. -/
def layout : Format → List Slot
  | arith => [⟨.dst, 5, 21⟩, ⟨.index, 2, 19⟩, ⟨.src1, 7, 12⟩, ⟨.src2, 5, 7⟩, ⟨.descriptor, 7, 0⟩]
  | arithImm => [⟨.dst, 5, 21⟩, ⟨.src1, 5, 14⟩, ⟨.src2, 7, 7⟩, ⟨.descriptor, 7, 0⟩]
  | unary => [⟨.dst, 5, 21⟩, ⟨.index, 2, 19⟩, ⟨.src1, 7, 12⟩, ⟨.descriptor, 7, 0⟩]
  | compare =>
    [⟨.compareX, 3, 24⟩, ⟨.compareY, 3, 21⟩, ⟨.src1, 7, 12⟩, ⟨.src2, 5, 7⟩, ⟨.descriptor, 7, 0⟩]
  | condBranch => [⟨.flags, 4, 22⟩, ⟨.address, 12, 10⟩, ⟨.offset, 10, 0⟩]
  | call => [⟨.flags, 4, 22⟩, ⟨.address, 12, 10⟩, ⟨.offset, 10, 0⟩]
  | loop => [⟨.integer, 4, 22⟩, ⟨.address, 12, 10⟩, ⟨.offset, 10, 0⟩]
  | uniformBranch => [⟨.boolean, 4, 22⟩, ⟨.address, 12, 10⟩, ⟨.offset, 10, 0⟩]
  | setEmit => [⟨.vertex, 2, 24⟩, ⟨.primitive, 1, 23⟩, ⟨.winding, 1, 22⟩]
  | mad =>
    [⟨.dst, 5, 24⟩, ⟨.src1, 7, 17⟩, ⟨.src2, 7, 10⟩, ⟨.src3, 5, 5⟩, ⟨.descriptor, 5, 0⟩]
  | madi =>
    [⟨.dst, 5, 24⟩, ⟨.src1, 7, 17⟩, ⟨.src2, 5, 12⟩, ⟨.src3, 7, 5⟩, ⟨.descriptor, 5, 0⟩]
  | bare => []
  | other _ => []

/-- The formats whose sources could be indexed but whose word has no place for the index. -/
def lacksIndex : Format → Bool
  | arithImm | compare | mad | madi => true
  | _ => false

/-- Every slot lies inside the word. -/
theorem inside_of_mem {format : Format} {slot : Slot} (mem : slot ∈ format.layout) :
    slot.shift + slot.width ≤ 29 := by
  cases format <;> simp [layout] at mem <;> grind

/-- No two slots of a format share a bit. -/
theorem layout_disjoint (format : Format) : format.layout.Pairwise Slot.Disjoint := by
  cases format <;> simp [layout, Slot.Disjoint]

/-- No field has two slots. -/
theorem layout_fields_nodup (format : Format) : (format.layout.map Slot.field).Nodup := by
  cases format <;> simp [layout]

end Format

end PicaShader
