import Mathlib.Data.String.Basic

/-!
# The order of texts by their bytes

Texts are compared character by character. Comparing their bytes in UTF-8 comes to the same: the
first byte of a character tells how many follow, more of them for greater characters, and the rest
are the digits of the character to the base 64 from the highest one down. So the bytes of two
characters differ before either of them ends, and the greater one has the greater byte there.
-/

namespace CronDaemon.Text

/-- The bytes of a text. -/
def bytes (s : String) : List UInt8 := s.toByteArray.data.toList

variable {m n k j a b : Nat} {c d : Char} {r t : List UInt8}

end CronDaemon.Text
