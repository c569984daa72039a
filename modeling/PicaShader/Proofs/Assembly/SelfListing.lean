/-
**Assembled files are listed by their own labels.**

The bytes of an assembled container are read back with the code and the labels that were written,
and these labels name every target of a branch: an instruction is encoded under the addresses of
labels, and the first label at an address has a name of its own, which leads back to that address
(`Tables.Built.labelAt?_of_declared`). So every code word is assembled again from its line in the
listing, and no line names an address by its number (`Assembler.listing_reassembles`).
-/

import PicaShader.Assembler
import PicaShader.Container.Listing
import PicaShader.Proofs.Assembly.WellFormed
import PicaShader.Proofs.Instruction.Targets

namespace PicaShader

/-! ### Labels at addresses -/

namespace Tables

variable {tables : Tables}

theorem Built.labelAddress?_of_mem (built : tables.Built) {label : Label}
    (mem : label ∈ tables.labels) : tables.labelAddress? label.name = some label.offset := by
  obtain ⟨before, after, split⟩ := List.append_of_mem mem
  have distinct := built.labels_distinct
  rw [split, List.map_append, List.map_cons, List.nodup_append] at distinct
  rw [labelAddress?, built.labelIndex, split, List.map_append, List.map_cons,
    List.lookup_eq_some_iff]
  refine ⟨_, _, rfl, fun pair earlier => bne_iff_ne.mpr fun same => ?_⟩
  obtain ⟨other, inBefore, rfl⟩ := List.mem_map.mp earlier
  exact distinct.2.2 _ (List.mem_map_of_mem inBefore) _ List.mem_cons_self same.symm

/-- The first label at the address of a label has a name of its own, which leads back there. -/
theorem Built.labelAt?_of_declared (built : tables.Built) {name : Text} {address : Word}
    (found : tables.labelAddress? name = some address) :
    ∃ label ∈ tables.labels, label.offset = address
      ∧ tables.labelAt? address = some label.name
      ∧ tables.labelAddress? label.name = some address := by
  obtain ⟨declared, mem, -, here⟩ := built.exists_label found
  cases first : tables.labels.find? (·.offset = address) with
  | none =>
    have elsewhere := List.find?_eq_none.mp first declared mem
    exact absurd (decide_eq_true here) elsewhere
  | some label =>
    have inTable := List.mem_of_find?_eq_some first
    have offset : label.offset = address := by simpa using List.find?_some first
    refine ⟨label, inTable, offset, ?_, ?_⟩
    · rw [labelAt?, first, Option.map_some]
    · rw [built.labelAddress?_of_mem inTable, offset]

end Tables

/-! ### Code of assembled containers -/

namespace Session

open OneShot

namespace Assembled

variable {source : Source} {first second : Opening} {container : Container}

/-- A branch goes to labels, which the tables of an entry point name and resolve. -/
theorem exists_label_of_target (assembled : Assembled source first second container)
    {entry : EntryPoint} (inEntries : entry ∈ container.entries) {word address : Word}
    (inCode : word ∈ container.program.code) (target : address ∈ word.branchTargets) :
    ∃ label ∈ entry.tables.labels, label.offset = address ∧ Line.isLabelName label.name
      ∧ entry.tables.labelAt? address = some label.name
      ∧ entry.tables.labelAddress? label.name = some address := by
  have recorded := assembled.recorded inEntries
  obtain ⟨statement, mnemonic, named, encoded⟩ := assembled.exists_encodes inCode
  obtain ⟨known, -⟩ := Mnemonic.ofName?_eq_some_iff.mp named
  obtain ⟨name, found⟩ := Mnemonic.named_of_encode known encoded address target
  rw [← assembled.labelAddress? inEntries] at found
  obtain ⟨label, inTable, here, naming, back⟩ := recorded.built.labelAt?_of_declared found
  exact ⟨label, inTable, here, recorded.label_names label inTable, naming, back⟩

/-- Every code word is assembled again from its text. -/
theorem assemble_disassemble (assembled : Assembled source first second container)
    {entry : EntryPoint} (inEntries : entry ∈ container.entries) {word : Word}
    (inCode : word ∈ container.program.code) :
    Instruction.assemble (Instruction.disassemble word entry.tables.labelAt?)
      entry.tables.labelAddress? = .ok word := by
  obtain ⟨statement, encodes⟩ := assembled.exists_encodes inCode
  refine Instruction.assemble_disassemble encodes.canonical fun address target => ?_
  obtain ⟨label, -, -, isLabel, naming, back⟩ :=
    assembled.exists_label_of_target inEntries inCode target
  exact ⟨label.name, naming, isLabel, back⟩

/-- An assembled container is read back from its bytes. -/
theorem decode_encode (assembled : Assembled source first second container)
    (fits : container.encode.length < 2 ^ 32) :
    Container.decode container.encode = .ok container.stored := by
  refine Container.decode_encode fits fun entry mem => ?_
  have pool := Container.length_pool_le_length_encode mem
  exact (assembled.recorded mem).built.coherent (by omega)

end Assembled

end Session

/-! ### Listings -/

namespace Container

/-- The lines of the code in a listing. -/
def codeListing (container : Container) : Text :=
  container.program.code.toList.zipIdx.flatMap fun (word, address) =>
    container.instructionListing word address

theorem codeListing_infix (container : Container) :
    container.codeListing <:+: container.listing := by
  unfold listing
  refine List.IsInfix.trans ?_ (List.prefix_append _ _).isInfix
  refine List.IsInfix.trans ?_ (List.prefix_append _ _).isInfix
  exact (List.suffix_append _ _).isInfix

/-- No line of the code names an address by its number, if labels and text do not. -/
theorem atFree_codeListing {container : Container}
    (labels : ∀ label ∈ container.labels, label.name.AtFree)
    (code : ∀ word ∈ container.program.code,
      (Instruction.disassemble word container.namer).AtFree) : container.codeListing.AtFree := by
  intro mem
  obtain ⟨⟨word, address⟩, inCode, mem⟩ := List.mem_flatMap.mp mem
  have lines : Text.AtFree ((container.labels.filter (·.offset = BitVec.ofNat 32 address)).flatMap
      fun label => label.name ++ Text.ofString ":\n") := by
    intro mem
    obtain ⟨label, kept, mem⟩ := List.mem_flatMap.mp mem
    have free := labels label (List.mem_of_mem_filter kept)
    exact Text.atFree_append.mpr ⟨free, by decide⟩ mem
  have text := code word (Array.mem_toList_iff.mp (List.fst_mem_of_mem_zipIdx inCode))
  refine absurd mem ?_
  show (container.instructionListing word address).AtFree
  simp only [instructionListing, Text.atFree_append, Text.atFree_hexPadded, and_true]
  exact ⟨⟨⟨⟨⟨lines, by decide⟩, by decide⟩, by decide⟩, text⟩, by decide⟩

end Container

namespace Assembler

open Session

/-- Assembled bytes are those of a container that a session gives. -/
theorem exists_run_of_assemble {source : Source} {maxErrors : Int} {bytes : Text}
    (assembled : (assemble source maxErrors).result = .ok bytes) :
    ∃ container, (Session.run { source, maxErrors }).1 = .ok container
      ∧ bytes = container.encode := by
  unfold assemble at assembled
  rcases ran : Session.run { source, maxErrors } with ⟨outcome, session⟩
  rw [ran] at assembled
  cases outcome with
  | error fault => cases assembled
  | ok container => exact ⟨container, rfl, (Except.ok.inj assembled).symm⟩

/-- **An assembled file is faithfully listed by its own labels.** For every source and every limit,
if there are fewer than `2 ^ 32` bytes, they are read back as the program that was assembled. Every
word of its code is assembled again from its text, under the labels of the first entry point and
with the names that these give to addresses. Every target of a branch is written as a label that is
declared there, so that the code in the listing names no address by its number. -/
theorem listing_reassembles (source : Source) (maxErrors : Int) (bytes : Text)
    (assembled : (assemble source maxErrors).result = .ok bytes) (fits : bytes.length < 2 ^ 32) :
    ∃ built container entry others, (Session.run { source, maxErrors }).1 = .ok built
      ∧ decode bytes = .ok container ∧ container.program = built.program
      ∧ container.entries = entry :: others
      ∧ (∀ (address : Nat) word, container.program.code[address]? = some word →
        Instruction.assemble (Instruction.disassemble word entry.tables.labelAt?)
            entry.tables.labelAddress? = .ok word
          ∧ ∀ target ∈ word.branchTargets, ∃ label ∈ entry.tables.labels,
            label.offset = target ∧ container.namer.text target = label.name)
      ∧ container.codeListing <:+: container.listing ∧ container.codeListing.AtFree := by
  obtain ⟨built, ran, rfl⟩ := exists_run_of_assemble assembled
  obtain ⟨first, second, assembled⟩ := assembled_of_run ran
  obtain ⟨entry, others, entries⟩ := List.exists_cons_of_ne_nil assembled.ranges.1
  have inEntries : entry ∈ built.entries := by
    rw [entries]
    exact List.mem_cons_self
  have stored : built.stored.entries = entry.stored :: others.map EntryPoint.stored := by
    rw [Container.stored, entries, List.map_cons]
  have namer : built.stored.namer = entry.tables.labelAt? := by
    rw [Container.namer, stored]
    rfl
  have labels : built.stored.labels = entry.tables.labels := by
    rw [Container.labels, stored]
    rfl
  have target {word address : Word} (inCode : word ∈ built.program.code)
      (isTarget : address ∈ word.branchTargets) : ∃ label ∈ entry.tables.labels,
        label.offset = address ∧ built.stored.namer.text address = label.name := by
    obtain ⟨label, inTable, here, -, naming, -⟩ :=
      assembled.exists_label_of_target inEntries inCode isTarget
    refine ⟨label, inTable, here, ?_⟩
    rw [namer, Namer.text, naming]
  have labelNames : ∀ label ∈ entry.tables.labels, label.name.AtFree := fun label inTable =>
    Text.atFree_of_isLabelName ((assembled.recorded inEntries).label_names label inTable)
  refine ⟨built, built.stored, entry.stored, _, ran, assembled.decode_encode fits, rfl, stored,
    fun address word found => ?_, built.stored.codeListing_infix, ?_⟩
  · have inCode : word ∈ built.program.code := Array.mem_of_getElem? found
    exact ⟨assembled.assemble_disassemble inEntries inCode, fun _ => target inCode⟩
  · refine Container.atFree_codeListing (by rwa [labels]) fun word inCode => ?_
    refine Instruction.atFree_disassemble fun address isTarget => ?_
    obtain ⟨label, inTable, -, written⟩ := target inCode isTarget
    rw [written]
    exact labelNames label inTable

/-- A source with a branch back, a loop whose end has two labels, and a call. -/
def branches : Text :=
  ".vsh Top, done\ntop: nop\n loop after, i1\n nop\nafter:\nNEXT: ifc top, next, cmp.x\n"
    ++ " call top, after\n ifu after, top, b2\ndone: end\n"

/-- The seven words of `branches` are assembled again from their texts. -/
theorem listing_reassembles_branches :
    ∃ bytes container entry others,
      (assemble (Source.ofText unnamed branches) 0).result = .ok bytes ∧ bytes.length < 2 ^ 32
      ∧ decode bytes = .ok container ∧ container.program.code.size = 7
      ∧ container.entries = entry :: others
      ∧ (∀ (address : Nat) word, container.program.code[address]? = some word →
        Instruction.assemble (Instruction.disassemble word entry.tables.labelAt?)
          entry.tables.labelAddress? = .ok word)
      ∧ container.codeListing.AtFree := by
  have succeeds : (assemble (Source.ofText unnamed branches) 0).result.toOption.any
      fun bytes => bytes.length < 2 ^ 32 := by
    decide +kernel
  have size : (Session.run { source := Source.ofText unnamed branches }).1.toOption.map
      (fun built => built.program.code.size) = some 7 := by
    decide +kernel
  cases assembled : (assemble (Source.ofText unnamed branches) 0).result with
  | error fault => simp [assembled, Except.toOption] at succeeds
  | ok bytes =>
    have fits : bytes.length < 2 ^ 32 := by simpa [assembled, Except.toOption] using succeeds
    obtain ⟨built, container, entry, others, ran, read, program, entries, code, -, free⟩ :=
      listing_reassembles (Source.ofText unnamed branches) 0 bytes assembled fits
    have seven : built.program.code.size = 7 := by simpa [ran, Except.toOption] using size
    refine ⟨bytes, container, entry, others, rfl, fits, read, ?_, entries, ?_, free⟩
    · rw [program, seven]
    · exact fun address word found => (code address word found).1

end Assembler

end PicaShader
