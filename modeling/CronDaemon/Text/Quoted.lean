import CronDaemon.Text.Unprintable

/-!
# Quoted texts

A quoted text stands between double quotes. A quote and a backslash are marked by a
backslash, the common control characters have short forms, and any other character that
does not show on its own is written by its code point in hexadecimal. Structured values are
written by their name and their named parts.
-/

namespace CronDaemon.Text

/-- A number in lower-case hexadecimal. -/
def hex (n : Nat) : String := String.ofList (Nat.toDigits 16 n)

/-- The written form of one character inside quotes. -/
def escaped (c : Char) : String :=
  match c with
  | '\x00' => "\\0"
  | '\t' => "\\t"
  | '\r' => "\\r"
  | '\n' => "\\n"
  | '"' => "\\\""
  | '\\' => "\\\\"
  | c => if isPrintable c then String.singleton c else "\\u\x7b" ++ hex c.toNat ++ "\x7d"

/-- A text between double quotes. -/
def quoted (s : String) : String :=
  "\"" ++ String.join (s.toList.map escaped) ++ "\""

/-- The structured form of a value: its name and, in braces, its named parts. -/
def record (name : String) (parts : List (String × String)) : String :=
  if parts.isEmpty then name
  else name ++ " \x7b " ++ ", ".intercalate
    (parts.map fun (part, value) => part ++ ": " ++ value) ++ " \x7d"

/-- The structured form of a value that may be absent. -/
def optional (value : Option String) : String :=
  match value with
  | some value => "Some(" ++ value ++ ")"
  | none => "None"

end CronDaemon.Text
