/-!
# Blanks, words and separators

Texts are read as lists of characters. A blank is a character with the Unicode
property White_Space; trimming removes blanks at both ends, and the words of a
text are its maximal runs of characters that are not blank. The splitting
functions lose nothing but the separator.
-/

namespace CronDaemon.Text

/-- A blank is one of the 25 characters with the Unicode property White_Space. -/
def isBlank (c : Char) : Bool :=
  let n := c.toNat
  (9 ≤ n && n ≤ 13) || n == 0x20 || n == 0x85 || n == 0xA0 || n == 0x1680 ||
  (0x2000 ≤ n && n ≤ 0x200A) || n == 0x2028 || n == 0x2029 || n == 0x202F ||
  n == 0x205F || n == 0x3000

/-- Remove the blanks in front. -/
def trimStart (s : List Char) : List Char := s.dropWhile isBlank

/-- Remove the blanks at the end. -/
def trimEnd (s : List Char) : List Char := (s.reverse.dropWhile isBlank).reverse

/-- Remove the blanks at both ends. -/
def trim (s : List Char) : List Char := trimEnd (trimStart s)

/-- A string is blank when it holds no character but blanks. -/
def isBlankText (s : String) : Bool := s.toList.all isBlank

/-- Whether a text starts with a blank. -/
def startsBlank : List Char → Bool
  | [] => false
  | c :: _ => isBlank c

/-- Put a character in front of the first piece. -/
def consHead (c : Char) : List (List Char) → List (List Char)
  | [] => [[c]]
  | w :: ws => (c :: w) :: ws

/-- The maximal runs of characters that are not blank, in order. -/
def words : List Char → List (List Char)
  | [] => []
  | c :: r =>
    if isBlank c then words r
    else if startsBlank r then [c] :: words r
    else consHead c (words r)

/-- The pieces between the occurrences of a separator; there is always at least one. -/
def splitOn (sep : Char) : List Char → List (List Char)
  | [] => [[]]
  | c :: r => if c = sep then [] :: splitOn sep r else consHead c (splitOn sep r)

/-- The parts before and after the first occurrence of a separator. -/
def splitOnce (sep : Char) : List Char → Option (List Char × List Char)
  | [] => none
  | c :: r =>
    if c = sep then some ([], r) else (splitOnce sep r).map fun (a, b) => (c :: a, b)

/-- What follows a given start, if the text starts so. -/
def stripStart : List Char → List Char → Option (List Char)
  | [], s => some s
  | _ :: _, [] => none
  | p :: ps, c :: r => if p = c then stripStart ps r else none

/-- A stripped start and the rest make up the text. -/
theorem stripStart_eq_some_iff {p s r : List Char} : stripStart p s = some r ↔ s = p ++ r := by
  induction p generalizing s with
  | nil => simp [stripStart, eq_comm]
  | cons a p ih =>
    cases s with
    | nil => simp [stripStart]
    | cons c s =>
      by_cases h : a = c
      · simp [stripStart, h, ih]
      · simp [stripStart, h, eq_comm]

end CronDaemon.Text
