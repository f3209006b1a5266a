import HerdBook.Fault
import HerdBook.Value.Equality
import HerdBook.Value.Text

/-!
# Frames

A frame binds symbols to values for one candidate way to carry a rule out. It never changes;
extending it yields another one. Each symbol is bound at most once, and the bindings keep the
order in which their symbols were first bound.

Reading a symbol that is not bound is a fault (`Frame.read`); the optional reading `Frame.getD`
asks for a default by name.
-/

namespace HerdBook

/-- Bindings of symbols to values, each symbol at most once, in the order of first binding. -/
structure Frame where
  bindings : List (Symbol × Value)
  nodup : (Table.keys bindings).Nodup

namespace Frame

/-- The frame that binds nothing. -/
def empty : Frame := ⟨[], List.nodup_nil⟩

instance : Inhabited Frame := ⟨empty⟩

/-- The value of a symbol, if it is bound. -/
def get? (frame : Frame) (s : Symbol) : Option Value := Table.get? s frame.bindings

/-- Whether the frame binds the symbol. -/
def binds (frame : Frame) (s : Symbol) : Bool := (frame.get? s).isSome

/-- The symbols bound, in order. -/
def symbols (frame : Frame) : List Symbol := Table.keys frame.bindings

/-- The number of symbols bound. -/
def size (frame : Frame) : Nat := frame.bindings.length

/-- The value of a symbol; a fault when it is not bound. -/
def read (frame : Frame) (s : Symbol) : Except Fault Value :=
  match frame.get? s with
  | some v => .ok v
  | none => .error (.unbound s.text (frame.symbols.map Symbol.text))

/-- The value of a symbol, or the given value when it is not bound. -/
def getD (frame : Frame) (s : Symbol) (default : Value) : Value := (frame.get? s).getD default

/-- The frame with the symbol bound to the value, in its place if it was bound before. -/
def bind (frame : Frame) (s : Symbol) (v : Value) : Frame :=
  ⟨Table.set s v frame.bindings, Table.nodup_keys_set s v frame.nodup⟩

/-- The frame with further bindings made in order. -/
def extend (frame : Frame) (more : List (Symbol × Value)) : Frame :=
  ⟨Table.merge frame.bindings more, Table.nodup_keys_merge more frame.nodup⟩

/-- The frame that binds the pairs in order. -/
def ofPairs (pairs : List (Symbol × Value)) : Frame := empty.extend pairs

/-- The bindings of the symbols that satisfy `keep`. -/
def restrict (frame : Frame) (keep : Symbol → Bool) : Frame :=
  ofPairs (frame.bindings.filter fun entry => keep entry.1)

/-- Whether each binding of the list is in the table with the same value. -/
def agrees (bindings table : List (Symbol × Value)) : Bool :=
  bindings.all fun entry =>
    match Table.get? entry.1 table with
    | some v => entry.2.sameItem v
    | none => false

/-- Whether two frames bind the same symbols to the same values, in any order. -/
def same (frame other : Frame) : Bool :=
  frame.size == other.size && agrees frame.bindings other.bindings

/-- The frame as messages show it. -/
def text (frame : Frame) : Except Misuse String := do
  let inner ← frame.bindings.mapM fun entry => do
    return entry.1.text ++ ": " ++ (← entry.2.shown)
  return "Frame(\x7b" ++ ", ".intercalate inner ++ "\x7d)"

/-- The empty frame binds no symbol. -/
@[simp] theorem get?_empty (s : Symbol) : empty.get? s = none := rfl

/-- A symbol that was bound reads as its new value, any other symbol as before. -/
theorem get?_bind (frame : Frame) (s t : Symbol) (v : Value) :
    (frame.bind s v).get? t = if s = t then some v else frame.get? t :=
  Table.get?_set s t v frame.bindings

/-- A symbol reads as the value it was bound to last. -/
theorem read_bind_self (frame : Frame) (s : Symbol) (v : Value) :
    (frame.bind s v).read s = .ok v := by
  simp [read, get?_bind]

end Frame

/-- The text of a sequence of frames. -/
def Frame.textAll (frames : List Frame) : Except Misuse String := do
  return "Frames([" ++ ", ".intercalate (← frames.mapM Frame.text) ++ "])"

/-- Whether two sequences of frames are the same frame by frame. -/
def Frame.sameAll : List Frame → List Frame → Bool
  | [], [] => true
  | a :: as, b :: bs => a.same b && Frame.sameAll as bs
  | _, _ => false

end HerdBook
