/-!
# Bytes of a text

The number of bytes that a text takes when it is stored, one to four for each character.
-/

namespace Trivalent.Text

/-- The number of bytes of a text. -/
def bytes : List Char → Nat
  | [] => 0
  | c :: rest => c.utf8Size + bytes rest

@[simp]
theorem bytes_append (front back : List Char) :
    bytes (front ++ back) = bytes front + bytes back := by
  induction front with
  | nil => simp [bytes]
  | cons c front ih =>
      simp only [List.cons_append, bytes, ih]
      omega

end Trivalent.Text
