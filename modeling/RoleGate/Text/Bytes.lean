/-!
# Positions in a text

Faults are located by the number of UTF-8 bytes before them. A reader that knows what
is left of its input knows its position, so readers carry the remaining text and the
number is computed once, where a fault is reported.

- `byteLength`: the number of bytes a text takes in UTF-8.
- `offset s rest`: the position in `s` at which `rest` is what remains.
- `offset_append`: the position after a part that was read is that part's length.
-/

namespace RoleGate

namespace Text

/-- The number of bytes a text takes in UTF-8. -/
def byteLength (s : List Char) : Nat :=
  s.foldr (fun c n => c.utf8Size + n) 0

/-- The position in `s`, in bytes, at which `rest` is what remains to be read. -/
def offset (s rest : List Char) : Nat :=
  byteLength s - byteLength rest

@[simp] theorem byteLength_append (a b : List Char) :
    byteLength (a ++ b) = byteLength a + byteLength b := by
  induction a with
  | nil => exact (Nat.zero_add _).symm
  | cons c a ih =>
    show c.utf8Size + byteLength (a ++ b) = c.utf8Size + byteLength a + byteLength b
    rw [ih, Nat.add_assoc]

/-- After reading `a` the position is the length of `a`. -/
@[simp] theorem offset_append (a rest : List Char) : offset (a ++ rest) rest = byteLength a := by
  simp [offset]

end Text

end RoleGate
