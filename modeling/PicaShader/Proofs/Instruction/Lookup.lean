/-
**Entries that a key tells apart.**

Where no two entries of a list share a key, looking one up by its key finds it and nothing else
(`List.find?_eq_some_iff_of_nodup`). The mnemonics of the instruction table are told apart by their
names and by their opcodes, the slots of a layout by their fields.
-/

import PicaShader.Instruction.Layout
import PicaShader.Instruction.Mnemonic

namespace List

/-- An entry is found by its key exactly if it is there, where no two entries share a key. -/
theorem find?_eq_some_iff_of_nodup {α κ : Type} [DecidableEq κ] {key : α → κ} {entries : List α}
    (distinct : (entries.map key).Nodup) {wanted : κ} {entry : α} :
    entries.find? (fun other => key other = wanted) = some entry
      ↔ entry ∈ entries ∧ key entry = wanted := by
  induction entries with
  | nil => simp
  | cons first entries ih =>
    rw [map_cons, nodup_cons] at distinct
    by_cases here : key first = wanted
    · rw [find?_cons_of_pos (by simpa using here), mem_cons]
      constructor
      · intro found
        obtain rfl := Option.some.inj found
        exact ⟨.inl rfl, here⟩
      · rintro ⟨rfl | later, same⟩
        · rfl
        · exact absurd (mem_map.mpr ⟨entry, later, same.trans here.symm⟩) distinct.1
    · rw [find?_cons_of_neg (by simpa using here), ih distinct.2, mem_cons]
      constructor
      · exact fun ⟨later, same⟩ => ⟨.inr later, same⟩
      · rintro ⟨rfl | later, same⟩
        · exact absurd same here
        · exact ⟨later, same⟩

end List

namespace PicaShader

namespace Mnemonic

theorem ofName?_eq_some_iff {name : Text} {mnemonic : Mnemonic} :
    ofName? name = some mnemonic ↔ mnemonic ∈ table ∧ mnemonic.name = name :=
  List.find?_eq_some_iff_of_nodup table_names_nodup

theorem ofWord?_eq_some_iff_opcodeOf {word : Word} {mnemonic : Mnemonic} :
    ofWord? word = some mnemonic ↔ mnemonic ∈ table ∧ mnemonic.opcode = opcodeOf word :=
  List.find?_eq_some_iff_of_nodup table_opcodes_nodup

end Mnemonic

namespace Format

theorem find?_layout {format : Format} {slot : Slot} (mem : slot ∈ format.layout) :
    format.layout.find? (fun other => other.field = slot.field) = some slot :=
  (List.find?_eq_some_iff_of_nodup format.layout_fields_nodup).mpr ⟨mem, rfl⟩

end Format

end PicaShader
