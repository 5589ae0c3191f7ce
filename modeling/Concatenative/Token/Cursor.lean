/-!
# Cursors

A position in a text, as the characters on either side of it.  A lexer reads forward
from a cursor one character at a time and may look at any distance to both sides.
-/

namespace Concatenative

/-- A position in a text. -/
structure Cursor where
  /-- The characters behind the position, nearest first. -/
  before : List Char
  /-- The characters from the position on. -/
  after : List Char

namespace Cursor

/-- The position at the start of a text. -/
def ofText (text : String) : Cursor where
  before := []
  after := text.toList

/-- The number of characters behind the position. -/
def index (cursor : Cursor) : Nat :=
  cursor.before.length

/-- Whether no character is left. -/
def atEnd (cursor : Cursor) : Bool :=
  cursor.after.isEmpty

/-- The character at a distance from the position, or nothing beyond either end. -/
def peek (cursor : Cursor) : Int → Option Char
  | .ofNat distance => cursor.after[distance]?
  | .negSucc distance => cursor.before[distance]?

/-- The next character, and the position behind it. -/
def consume (cursor : Cursor) : Option Char × Cursor :=
  match cursor.after with
  | [] => (none, cursor)
  | character :: rest => (some character, ⟨character :: cursor.before, rest⟩)

/-- The position one character back, and whether there is one. -/
def pushback (cursor : Cursor) : Bool × Cursor :=
  match cursor.before with
  | [] => (false, cursor)
  | character :: rest => (true, ⟨rest, character :: cursor.after⟩)

/-- The longest run of characters from the position on that all satisfy a test. -/
def takeRun (keep : Char → Bool) (cursor : Cursor) : List Char × Cursor :=
  let run := cursor.after.takeWhile keep
  (run, ⟨run.reverse ++ cursor.before, cursor.after.dropWhile keep⟩)

/-- The position behind the longest run of characters that all satisfy a test. -/
def skipRun (keep : Char → Bool) (cursor : Cursor) : Cursor :=
  (cursor.takeRun keep).2

/-- The position behind the next character. -/
def advance (cursor : Cursor) : Cursor :=
  cursor.consume.2

@[simp] theorem length_after_advance (cursor : Cursor) :
    cursor.advance.after.length = cursor.after.length - 1 := by
  unfold advance consume
  split <;> simp_all

theorem length_after_skipRun_le (keep : Char → Bool) (cursor : Cursor) :
    (cursor.skipRun keep).after.length ≤ cursor.after.length :=
  (List.dropWhile_sublist keep (l := cursor.after)).length_le

theorem length_after_skipRun_lt
    {keep : Char → Bool} {cursor : Cursor} {first : Char} {rest : List Char}
    (after_eq : cursor.after = first :: rest)
    (kept : keep first = true) :
    (cursor.skipRun keep).after.length < cursor.after.length := by
  have shorter := (List.dropWhile_sublist keep (l := rest)).length_le
  simp only [skipRun, takeRun, after_eq, List.dropWhile_cons, kept, if_true, List.length_cons]
  omega

end Cursor
end Concatenative
