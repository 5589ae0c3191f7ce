import Concatenative.Dictionary.Index
import Concatenative.Dictionary.Store

/-!
# The dictionary

Words and variables share one space of names.  Primitives are always there under their
fixed negative numbers; compiled words are numbered from 1 in the order in which their
names first appear.  A word takes a name over from a variable, never the other way round.
-/

namespace Concatenative

open Error (Cause)

/-- The index of the words, and the variables. -/
structure Dictionary where
  index : Index
  /-- Nothing but the operations on dictionaries has made the index. -/
  built : index.IsBuilt
  store : Store

namespace Dictionary

/-- The dictionary with the primitives only. -/
def initial : Dictionary where
  index := .initial
  built := .initial
  store := .empty

/-- The number that the next new word will have. -/
def nextId (dictionary : Dictionary) : Nat :=
  dictionary.index.nextId

/-- All entries: the primitives, then the compiled words. -/
def entries (dictionary : Dictionary) : List Entry :=
  dictionary.index.entries.values

/-- The compiled words, in the order of their numbers. -/
def words (dictionary : Dictionary) : List Word :=
  dictionary.index.words

/-- The entry with a number. -/
def entry? (dictionary : Dictionary) (id : Int) : Option Entry :=
  dictionary.index.entries.get? id

/-- The entry with a name. -/
def lookup (dictionary : Dictionary) (name : String) : Option Entry :=
  dictionary.index.lookup name

/-- Whether a name is a word. -/
def contains (dictionary : Dictionary) (name : String) : Bool :=
  dictionary.index.ids.contains name

/-- A reference to the newest layer of the word with a name. -/
def reference? (dictionary : Dictionary) (name : String) : Option WordRef :=
  (dictionary.lookup name).map fun entry => ⟨entry.id, name, entry.current⟩

/-- Revises a word, which takes its name over from a variable. -/
def revise (dictionary : Dictionary) (name : String) (revision : Revision) :
    Except Cause Dictionary :=
  match revise_eq : dictionary.index.revise name revision with
  | .error cause => .error cause
  | .ok index => .ok ⟨index, .revise dictionary.built revise_eq, dictionary.store.erase name⟩

/-- Gives a word a body: that of its pending layer, or else of a new one. -/
def define (dictionary : Dictionary) (name : String) (body : Body) :
    Except Cause Dictionary :=
  dictionary.revise name (.define body)

/-- Reserves a layer of a word for a later definition. -/
def defer (dictionary : Dictionary) (name : String) : Except Cause Dictionary :=
  dictionary.revise name .reserve

/-- Declares a variable under a name that is no word. -/
def declareVariable (dictionary : Dictionary) (name : String) : Except Cause Dictionary :=
  if dictionary.contains name then .error (.wordName name)
  else .ok { dictionary with store := dictionary.store.declare name }

/-- The names of the words whose newest layer is pending, in the order of their numbers. -/
def deferred (dictionary : Dictionary) : List String :=
  (dictionary.entries.filter Entry.isPending).map Entry.name

/-- All entries, in increasing order of their names. -/
def sortedEntries (dictionary : Dictionary) : List Entry :=
  (dictionary.index.ids.keys.mergeSort fun left right => left ≤ right).filterMap
    dictionary.lookup

end Dictionary
end Concatenative
