/-
**Drafts of containers.**

While a container is being built, an entry point can be derived from another one and then shares its
tables, and an entry point that was added to the container can still be changed. A draft keeps entry
points and tables in numbered lists, so that both kinds of sharing are references by number;
`Draft.container` is the container as it stands.
-/

import PicaShader.Container.Basic

namespace PicaShader

/-- An entry point of a draft; its tables are given by their number. -/
structure EntryDraft where
  stage : Stage
  main : Word := 0
  endMain : Word := 0
  tables : Nat
deriving DecidableEq, Repr

/-- A container under construction. -/
structure Draft where
  program : Program := {}
  tables : List Tables := []
  entries : List EntryDraft := []
  /-- The numbers of the entry points that were added to the container, in order. -/
  added : List Nat := []
deriving DecidableEq, Repr

namespace Draft

/-- The tables with a number. -/
def tablesAt (draft : Draft) (number : Nat) : Tables := draft.tables.getD number {}

/-- An entry point as it stands. -/
def resolve (draft : Draft) (entry : EntryDraft) : EntryPoint :=
  { stage := entry.stage, main := entry.main, endMain := entry.endMain,
    tables := draft.tablesAt entry.tables }

/-- The entry point with a number. -/
def entry? (draft : Draft) (number : Nat) : Option EntryPoint :=
  (draft.entries[number]?).map draft.resolve

/-- The container as it stands. -/
def container (draft : Draft) : Container :=
  { program := draft.program, entries := draft.added.filterMap draft.entry? }

/-- The draft of a container, each entry point with tables of its own. -/
def ofContainer (container : Container) : Draft where
  program := container.program
  tables := container.entries.map EntryPoint.tables
  entries := container.entries.zipIdx.map fun (entry, number) =>
    { stage := entry.stage, main := entry.main, endMain := entry.endMain, tables := number }
  added := List.range container.entries.length

/-- One more entry point with empty tables, and its number. -/
def newEntry (draft : Draft) (stage : Stage) : Nat × Draft :=
  (draft.entries.length, { draft with
    tables := draft.tables ++ [{}]
    entries := draft.entries ++ [{ stage, tables := draft.tables.length }] })

/-- One more entry point over the tables of an entry point, and its number. -/
def derive? (draft : Draft) (number : Nat) (stage : Stage) : Option (Nat × Draft) :=
  (draft.entries[number]?).map fun entry =>
    (draft.entries.length, { draft with
      entries := draft.entries ++ [{ stage, tables := entry.tables }] })

/-- The draft with an entry point added to the container. -/
def addEntry? (draft : Draft) (number : Nat) : Option Draft :=
  (draft.entries[number]?).map fun _ => { draft with added := draft.added ++ [number] }

/-- The draft with the main range of an entry point set. -/
def setMain? (draft : Draft) (number : Nat) (main endMain : Word) : Option Draft :=
  (draft.entries[number]?).map fun entry =>
    { draft with entries := draft.entries.set number { entry with main, endMain } }

/-- The draft with a change to the tables of an entry point, and the result of the change. -/
def update? {α : Type} (draft : Draft) (number : Nat) (change : Tables → α × Tables) :
    Option (α × Draft) :=
  (draft.entries[number]?).map fun entry =>
    let (result, tables) := change (draft.tablesAt entry.tables)
    (result, { draft with tables := draft.tables.set entry.tables tables })

/-- A label is added unless its name is taken; the tables stay as they are then. -/
def addLabel (name : Text) (offset : Word) (tables : Tables) : Except Fault Label × Tables :=
  match tables.addLabel name offset with
  | .ok (label, changed) => (.ok label, changed)
  | .error fault => (.error fault, tables)

end Draft

end PicaShader
