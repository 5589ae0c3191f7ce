import Concatenative.Value.Basic

/-!
# The call stack

Each body being run has a frame.  The call stack knows its depth, so that asking for it
takes no time however deep calls nest.
-/

namespace Concatenative

/-- A body being run. -/
structure Frame where
  /-- The number of values taken already. -/
  cursor : Nat
  /-- The values still to be taken. -/
  pending : List Value

namespace Frame

/-- The frame of a body of which nothing is taken yet. -/
def ofBody (body : Body) : Frame where
  cursor := 0
  pending := body

/-- The number of values, taken or not. -/
def size (frame : Frame) : Nat :=
  frame.cursor + frame.pending.length

end Frame

/-- The frames of the bodies being run, and their number. -/
structure CallStack where
  /-- The frames, innermost first. -/
  frames : List Frame
  depth : Nat
  depth_eq : depth = frames.length

namespace CallStack

/-- The call stack with the given frames, innermost first. -/
def ofList (frames : List Frame) : CallStack where
  frames := frames
  depth := frames.length
  depth_eq := rfl

@[ext] theorem ext {left right : CallStack} (frames_eq : left.frames = right.frames) :
    left = right := by
  obtain ⟨leftFrames, leftDepth, left_eq⟩ := left
  obtain ⟨rightFrames, rightDepth, right_eq⟩ := right
  simp only at frames_eq
  subst frames_eq left_eq right_eq
  rfl

/-- No frames. -/
def empty : CallStack :=
  ofList []

/-- Adds an innermost frame. -/
def push (calls : CallStack) (frame : Frame) : CallStack where
  frames := frame :: calls.frames
  depth := calls.depth + 1
  depth_eq := by simp [calls.depth_eq]

/-- Drops the innermost frame. -/
def pop (calls : CallStack) : CallStack where
  frames := calls.frames.tail
  depth := calls.depth - 1
  depth_eq := by simp [calls.depth_eq]

/-- Keeps only the given number of outermost frames. -/
def truncate (calls : CallStack) (base : Nat) : CallStack :=
  ofList (calls.frames.drop (calls.depth - base))

/--
The next value of the innermost frame, and the call stack without that value.  A frame
is dropped as soon as its last value is taken.
-/
def take? (calls : CallStack) : Option (Value × CallStack) :=
  match calls.frames with
  | ⟨cursor, value :: later⟩ :: _ =>
      let outer := calls.pop
      some (value, if later.isEmpty then outer else outer.push ⟨cursor + 1, later⟩)
  | _ => none

@[simp] theorem frames_ofList (frames : List Frame) : (ofList frames).frames = frames := rfl

@[simp] theorem frames_empty : empty.frames = [] := rfl

@[simp] theorem frames_push (calls : CallStack) (frame : Frame) :
    (calls.push frame).frames = frame :: calls.frames := rfl

@[simp] theorem frames_pop (calls : CallStack) : calls.pop.frames = calls.frames.tail := rfl

@[simp] theorem frames_truncate (calls : CallStack) (base : Nat) :
    (calls.truncate base).frames = calls.frames.drop (calls.frames.length - base) := by
  simp [truncate, calls.depth_eq]

end CallStack
end Concatenative
