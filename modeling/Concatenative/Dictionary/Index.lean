import Concatenative.Dictionary.Entry
import Concatenative.Dictionary.Table
import Concatenative.Error.Cause

/-!
# The index of the words

The words of a dictionary are kept in two tables and a counter: the numbers under the
names, the entries under the numbers, and the number of the next new word.  Primitives are
there from the start, under their fixed negative numbers.  Each operation changes the tables
and the counter one by one, and nothing here looks after their agreement: `IsBuilt` only
says that an index comes from such operations.
-/

namespace Concatenative

open Error (Cause)

/-- Names with their numbers, numbers with their entries, and the next number. -/
structure Index where
  ids : Table String Int
  entries : Table Int Entry
  nextId : Nat

namespace Index

/-- The index of the primitives. -/
def initial : Index where
  ids := ⟨Primitive.all.map fun primitive => (primitive.name, primitive.id)⟩
  entries := ⟨Primitive.all.map fun primitive => (primitive.id, .primitive primitive)⟩
  nextId := 1

/-- The compiled words, in the order in which they were added. -/
def words (index : Index) : List Word :=
  index.entries.values.filterMap Entry.word?

/-- The entry with a name. -/
def lookup (index : Index) (name : String) : Option Entry :=
  (index.ids.get? name).bind index.entries.get?

/-- Adds a compiled word without layers. -/
def allocate (index : Index) (name : String) : Index where
  ids := index.ids.set name index.nextId
  entries := index.entries.set index.nextId (.compiled index.nextId ⟨name, []⟩)
  nextId := index.nextId + 1

/--
The number of the compiled word with a name, and an index that has the word: the given one,
or one with a new word.
-/
def userWord (index : Index) (name : String) : Except Cause (Int × Index) :=
  match index.ids.get? name with
  | none => .ok (index.nextId, index.allocate name)
  | some id =>
      match index.entries.get? id with
      | some (.primitive _) => .error (.primitiveName name)
      | _ => .ok (id, index)

/-- Changes the word under a number. -/
def changeEntry (index : Index) (id : Int) (change : Word → Word) : Index :=
  { index with entries := index.entries.modify id (Entry.mapWord change) }

/-- Revises the word with a name, which is added first if it is not there. -/
def revise (index : Index) (name : String) (revision : Revision) : Except Cause Index :=
  (index.userWord name).map fun (id, index) => index.changeEntry id revision.apply

/-- The index comes from that of the primitives by revisions that were accepted. -/
inductive IsBuilt : Index → Prop where
  | initial : IsBuilt .initial
  | revise {index later : Index} {name : String} {revision : Revision} :
      index.IsBuilt → index.revise name revision = .ok later → later.IsBuilt

end Index
end Concatenative
