import CronDaemon.Calendar.Timestamp
import CronDaemon.Toml.Value

/-!
# Words of a TOML document

Readers for blanks, comments, quoted texts, numbers and points of time. A reader takes the
characters from where it stands and gives what it read and the characters that follow, or nothing
when the text is malformed.
-/

namespace CronDaemon.Toml

/-- A space or a tab. -/
def isGap (c : Char) : Bool := c == ' ' || c == '\t'

/-- Skip spaces and tabs. -/
def skipGap (s : List Char) : List Char := s.dropWhile isGap

/-- Whether a character may stand in a comment or a text of one line. -/
def isPlain (c : Char) : Bool := c == '\t' || (0x20 ≤ c.toNat && c.toNat != 0x7F)

/-- Read the end of a line. -/
def newline : List Char → Option (List Char)
  | '\n' :: r => some r
  | '\r' :: '\n' :: r => some r
  | _ => none

/-- Skip a comment up to the end of its line. -/
def skipComment : List Char → List Char
  | '#' :: r => r.dropWhile isPlain
  | s => s

/-- Read what may follow a statement on its line, and the end of the line or of the document. -/
def lineEnd (s : List Char) : Option (List Char) :=
  match skipComment (skipGap s) with
  | [] => some []
  | s => newline s

/-- Skip blanks, line ends and comments; the flag tells whether a comment is open. -/
def skipLayout (inComment : Bool) : List Char → List Char
  | [] => []
  | c :: r =>
    if c == '\n' then skipLayout false r
    else if c == '\r' then
      match r with
      | '\n' :: _ => skipLayout false r
      | _ => c :: r
    else if inComment then if isPlain c then skipLayout true r else c :: r
    else if isGap c then skipLayout false r
    else if c == '#' then skipLayout true r
    else c :: r

/-- The value of a hexadecimal digit. -/
def hexDigit? (c : Char) : Option Nat :=
  let n := c.toNat
  if 48 ≤ n && n ≤ 57 then some (n - 48)
  else if 97 ≤ n && n ≤ 102 then some (n - 87)
  else if 65 ≤ n && n ≤ 70 then some (n - 55)
  else none

/-- Read a character given by exactly so many hexadecimal digits. -/
def codePoint (width : Nat) (s : List Char) : Option (Char × List Char) := do
  let front := s.take width
  if front.length < width then none
  let n ← front.foldlM (fun n c => return 16 * n + (← hexDigit? c)) 0
  if n < 0xD800 || (0xE000 ≤ n && n ≤ 0x10FFFF) then some (Char.ofNat n, s.drop width) else none

/-- Read what follows a backslash. -/
def escape : List Char → Option (Char × List Char)
  | 'b' :: r => some ('\x08', r)
  | 't' :: r => some ('\t', r)
  | 'n' :: r => some ('\n', r)
  | 'f' :: r => some ('\x0c', r)
  | 'r' :: r => some ('\r', r)
  | '"' :: r => some ('"', r)
  | '\\' :: r => some ('\\', r)
  | 'u' :: r => codePoint 4 r
  | 'U' :: r => codePoint 8 r
  | _ => none

/-- Read a text of one line up to its closing double quote. -/
def basicText : Nat → List Char → Option (List Char × List Char)
  | 0, _ => none
  | fuel + 1, s =>
    match s with
    | [] => none
    | '"' :: r => some ([], r)
    | '\\' :: r => do
      let (c, r) ← escape r
      let (cs, r) ← basicText fuel r
      return (c :: cs, r)
    | c :: r =>
      if isPlain c then do
        let (cs, r) ← basicText fuel r
        return (c :: cs, r)
      else none

/-- Read a text of one line up to its closing single quote. -/
def literalText : List Char → Option (List Char × List Char)
  | [] => none
  | '\'' :: r => some ([], r)
  | c :: r => if isPlain c then (literalText r).map fun (cs, r) => (c :: cs, r) else none

/-- A backslash at the end of a line joins it with the next text. -/
def joinedLine (s : List Char) : Option (List Char) :=
  (newline (skipGap s)).map fun r => r.dropWhile fun c => isGap c || c == '\n' || c == '\r'

/-- Whether every carriage return is followed by a line feed. -/
def returnsPaired : List Char → Bool
  | [] => true
  | '\r' :: '\n' :: r => returnsPaired r
  | '\r' :: _ => false
  | _ :: r => returnsPaired r

/-- The closing of a text between tripled quotes: three to five quotes, those beyond three
belonging to the text. -/
def tripled (quote : Char) (s : List Char) : Option (List Char × List Char) :=
  let quotes := (s.takeWhile (· == quote)).length
  if quotes < 3 then none
  else
    let extra := min (quotes - 3) 2
    some (List.replicate extra quote, s.drop (3 + extra))

/-- Read a text of several lines up to its closing quotes. Only between double quotes does a
backslash mark an escape. -/
def longText (quote : Char) : Nat → List Char → Option (List Char × List Char)
  | 0, _ => none
  | fuel + 1, s =>
    match tripled quote s with
    | some closed => some closed
    | none =>
      match s with
      | [] => none
      | c :: r =>
        if c == '\\' && quote == '"' then
          match joinedLine r with
          | some rest =>
            if returnsPaired (r.take (r.length - rest.length)) then longText quote fuel rest
              else none
          | none => do
            let (c, r) ← escape r
            let (cs, r) ← longText quote fuel r
            return (c :: cs, r)
        else
          match newline s with
          | some r => (longText quote fuel r).map fun (cs, r) => ('\n' :: cs, r)
          | none =>
            if isPlain c then (longText quote fuel r).map fun (cs, r) => (c :: cs, r) else none

/-- Read a quoted text of one line, from its opening quote on. -/
def shortQuoted : List Char → Option (String × List Char)
  | '"' :: r => (basicText (r.length + 1) r).map fun (cs, r) => (String.ofList cs, r)
  | '\'' :: r => (literalText r).map fun (cs, r) => (String.ofList cs, r)
  | _ => none

/-- Skip a line end that directly follows the opening of a long text. -/
def skipNewline (s : List Char) : List Char := (newline s).getD s

/-- Read a quoted text, from its opening quote on. -/
def quotedText (s : List Char) : Option (String × List Char) :=
  match s with
  | '"' :: '"' :: '"' :: r =>
    (longText '"' (r.length + 1) (skipNewline r)).map fun (cs, r) => (String.ofList cs, r)
  | '\'' :: '\'' :: '\'' :: r =>
    (longText '\'' (r.length + 1) (skipNewline r)).map fun (cs, r) => (String.ofList cs, r)
  | s => shortQuoted s

/-- Digits of a base, with single underscores between them, as one number. -/
def grouped (digit? : Char → Option Nat) (base : Nat) : List Char → Option Nat
  | [] => none
  | s => go 0 false s
where
  /-- Continue a number; the flag tells whether an underscore may come. -/
  go (n : Nat) (afterDigit : Bool) : List Char → Option Nat
    | [] => if afterDigit then some n else none
    | c :: r =>
      if c == '_' then if afterDigit then go n false r else none
      else (digit? c).bind fun d => go (base * n + d) true r

/-- The value of a digit below a base. -/
def digitBelow (base : Nat) (c : Char) : Option Nat := (hexDigit? c).filter (· < base)

/-- Split off a sign; the flag tells whether it is a minus. -/
def signed : List Char → Bool × List Char
  | '+' :: r => (false, r)
  | '-' :: r => (true, r)
  | s => (false, s)

/-- A whole number without a sign: no zero stands in front of another digit. -/
def unsignedNumber (s : List Char) : Option Nat :=
  match s with
  | ['0'] => some 0
  | '0' :: _ => none
  | s => grouped (digitBelow 10) 10 s

/-- The whole number of a word, if it fits 64 bits with a sign. -/
def integer? (word : List Char) : Option Int := do
  let n : Int ←
    match word with
    | '0' :: 'x' :: r => (grouped (digitBelow 16) 16 r).map (Int.ofNat ·)
    | '0' :: 'o' :: r => (grouped (digitBelow 8) 8 r).map (Int.ofNat ·)
    | '0' :: 'b' :: r => (grouped (digitBelow 2) 2 r).map (Int.ofNat ·)
    | _ =>
      let (negative, r) := signed word
      (unsignedNumber r).map fun n => if negative then -(n : Int) else (n : Int)
  if -0x8000000000000000 ≤ n ∧ n < 0x8000000000000000 then some n else none

/-- Whether a decimal number `n * 10 ^ e` is too large for a float: at least the midpoint between
the largest one and the next power of two. -/
def exceedsFloat (n : Nat) (e : Int) : Bool :=
  let digits := (toString n).length
  if n = 0 then false
  else if digits + e < 300 then false
  else if 320 < digits + e then true
  else
    let limit := Nat.pow 2 1024 - Nat.pow 2 970
    if 0 ≤ e then limit ≤ n * Nat.pow 10 e.toNat else limit * Nat.pow 10 (-e).toNat ≤ n

/-- Whether a word is a float: a whole part followed by a fraction, an exponent or both. -/
def isFloat (word : List Char) : Bool :=
  let (negative, r) := signed word
  if r == "inf".toList || r == "nan".toList then true
  else
    let isExponent := fun c : Char => c == 'e' || c == 'E'
    let mantissa := r.takeWhile fun c => !isExponent c
    let exponent : Option Int :=
      match r.dropWhile (fun c => !isExponent c) with
      | [] => some 0
      | _ :: e =>
        let (minus, e) := signed e
        (grouped (digitBelow 10) 10 e).map fun n => if minus then -(n : Int) else (n : Int)
    let hasExponent := mantissa.length < r.length
    match exponent, Text.splitOnce '.' mantissa with
    | some e, some (whole, fraction) =>
      match unsignedNumber whole, grouped (digitBelow 10) 10 fraction with
      | some w, some f =>
        let places := (fraction.filter (· != '_')).length
        negative || !exceedsFloat (w * Nat.pow 10 places + f) (e - places)
      | _, _ => false
    | some e, none =>
      match unsignedNumber mantissa with
      | some w => hasExponent && (negative || !exceedsFloat w e)
      | none => false
    | none, _ => false

open Calendar.Timestamp (digits oneOf) in
/-- Read a time of the day. -/
def timeOfDay (s : List Char) : Option (List Char) := do
  let (hour, s) ← digits 2 s
  let (minute, s) ← digits 2 (← oneOf [':'] s)
  let (second, s) ← digits 2 (← oneOf [':'] s)
  let (_, s) ← Calendar.Timestamp.fraction s
  if hour < 24 ∧ minute < 60 ∧ second ≤ 60 then some s else none

open Calendar.Timestamp (digits oneOf) in
/-- Read a date. -/
def calendarDate (s : List Char) : Option (List Char) := do
  let (year, s) ← digits 4 s
  let (month, s) ← digits 2 (← oneOf ['-'] s)
  let (day, s) ← digits 2 (← oneOf ['-'] s)
  if (Calendar.Date.mk year month day).isValid then some s else none

open Calendar.Timestamp (digits oneOf) in
/-- Read a distance from universal time, if there is one. -/
def zoneDistance (s : List Char) : Option (List Char) :=
  match s with
  | [] => some []
  | 'Z' :: r | 'z' :: r => some r
  | c :: r => do
    if c != '+' && c != '-' then none
    let (hours, r) ← digits 2 r
    let (minutes, r) ← digits 2 (← oneOf [':'] r)
    if hours < 24 ∧ minutes < 60 then some r else none

/-- Whether a word is a date, a time of the day, or both with or without a distance. -/
def isDatetime (word : List Char) : Bool :=
  match calendarDate word with
  | some [] => true
  | some (c :: r) =>
    (c == 'T' || c == 't' || c == ' ') && ((timeOfDay r).bind zoneDistance) == some []
  | none => timeOfDay word == some []

/-- Whether a character may stand in an unquoted word. -/
def isWordChar (c : Char) : Bool :=
  c.isAlphanum || c == '_' || c == '-' || c == '+' || c == '.' || c == ':'

/-- The value of an unquoted word. -/
def wordValue? (word : List Char) : Option Value :=
  if word == "true".toList then some (.boolean true)
  else if word == "false".toList then some (.boolean false)
  else
    match integer? word with
    | some n => some (.integer n)
    | none =>
      if isDatetime word then some (.datetime (String.ofList word))
      else if isFloat word then some (.float (String.ofList word))
      else none

/-- Read an unquoted value. A date may be followed by a space and a time of the day. -/
def wordValue (s : List Char) : Option (Value × List Char) :=
  let word := s.takeWhile isWordChar
  let rest := s.dropWhile isWordChar
  let joined : Option (Value × List Char) :=
    match calendarDate word, rest with
    | some [], ' ' :: r =>
      let time := r.takeWhile isWordChar
      let whole := word ++ ' ' :: time
      if isDatetime whole then some (.datetime (String.ofList whole), r.dropWhile isWordChar)
      else none
    | _, _ => none
  match joined with
  | some read => some read
  | none => (wordValue? word).map fun v => (v, rest)

end CronDaemon.Toml
