import CronDaemon.Toml.Literal
import CronDaemon.Toml.Tree

/-!
# TOML documents

A document is a sequence of lines, each a header or an assignment or blank, after an optional
byte order mark. Arrays and inline tables nest less than 80 deep, and a dotted key has less than
80 parts.
-/

namespace CronDaemon.Toml

/-- How deep values may nest, and how many parts a key may have. -/
def depthLimit : Nat := 80

/-- Whether a character may stand in a key without quotes. -/
def isKeyChar (c : Char) : Bool := c.isAlphanum || c == '_' || c == '-'

/-- Read one part of a key. -/
def keyPart (s : List Char) : Option (String × List Char) :=
  match s with
  | '"' :: _ | '\'' :: _ => shortQuoted s
  | s =>
    let word := s.takeWhile isKeyChar
    if word.isEmpty then none else some (String.ofList word, s.dropWhile isKeyChar)

/-- Read a key of parts between points, at most as many as the fuel. -/
def keyParts : Nat → List Char → Option (List String × List Char)
  | 0, _ => none
  | fuel + 1, s => do
    let (part, r) ← keyPart (skipGap s)
    match skipGap r with
    | '.' :: r => do
      let (parts, r) ← keyParts fuel r
      return (part :: parts, r)
    | r => return ([part], r)

/-- Read a dotted key. -/
def key (s : List Char) : Option (List String × List Char) := keyParts (depthLimit - 1) s

mutual

/-- Read a value; `depth` bounds the nesting and `fuel` the number of items. -/
def value (depth fuel : Nat) (s : List Char) : Option (Value × List Char) :=
  match s with
  | '"' :: _ | '\'' :: _ => (quotedText s).map fun (text, r) => (.string text, r)
  | '[' :: r =>
    match depth with
    | 0 => none
    | depth + 1 => (arrayItems depth fuel r).map fun (items, r) => (.array items, r)
  | '\x7b' :: r =>
    match depth with
    | 0 => none
    | depth + 1 =>
      match skipGap r with
      | '\x7d' :: r => some (.table [], r)
      | r => (inlineEntries depth fuel [] r).map fun (children, r) =>
          (.table (Node.toEntries children), r)
  | s => wordValue s
termination_by (depth, 0, 0)

/-- Read the items of an array up to its closing bracket. -/
def arrayItems (depth fuel : Nat) (s : List Char) : Option (List Value × List Char) :=
  match fuel with
  | 0 => none
  | fuel + 1 =>
    match skipLayout false s with
    | ']' :: r => some ([], r)
    | s => do
      let (item, r) ← value depth fuel s
      match skipLayout false r with
      | ']' :: r => return ([item], r)
      | ',' :: r => do
        let (items, r) ← arrayItems depth fuel r
        return (item :: items, r)
      | _ => none
termination_by (depth, 1, fuel)

/-- Read the assignments of an inline table up to its closing brace. -/
def inlineEntries (depth fuel : Nat) (children : Node.Children) (s : List Char) :
    Option (Node.Children × List Char) :=
  match fuel with
  | 0 => none
  | fuel + 1 => do
    let (path, r) ← key s
    match r with
    | '=' :: r => do
      let (v, r) ← value depth fuel (skipGap r)
      let children ← Node.assign v true path children
      match skipGap r with
      | '\x7d' :: r => return (children, r)
      | ',' :: r => inlineEntries depth fuel children r
      | _ => none
    | _ => none
termination_by (depth, 1, fuel)

end

/-- The state of a document while it is read. -/
structure Draft where
  /-- The tree so far. -/
  root : Node.Children
  /-- The path of the last header. -/
  path : List String
  deriving Repr

/-- Read the header of a table, after its opening bracket. -/
def header (draft : Draft) (s : List Char) : Option (Draft × List Char) := do
  let (path, r) ← key s
  match r with
  | ']' :: r => do
    let root ← Node.within (Node.openTable (path.getLastD "")) path.dropLast draft.root
    return (⟨root, path⟩, ← lineEnd r)
  | _ => none

/-- Read the header of a table in a series, after its opening brackets. -/
def seriesHeader (draft : Draft) (s : List Char) : Option (Draft × List Char) := do
  let (path, r) ← key s
  match r with
  | ']' :: ']' :: r => do
    let root ← Node.within (Node.openNext (path.getLastD "")) path.dropLast draft.root
    return (⟨root, path⟩, ← lineEnd r)
  | _ => none

/-- Read an assignment. -/
def assignment (draft : Draft) (s : List Char) : Option (Draft × List Char) := do
  let (path, r) ← key s
  match r with
  | '=' :: r => do
    let (v, r) ← value (depthLimit - 1) (r.length + 1) (skipGap r)
    let root ← Node.within (Node.assign v true path) draft.path draft.root
    return (⟨root, draft.path⟩, ← lineEnd r)
  | _ => none

/-- Read the lines of a document, at most as many as the fuel. -/
def lines : Nat → Draft → List Char → Option Draft
  | 0, _, _ => none
  | fuel + 1, draft, s =>
    match skipGap s with
    | [] => some draft
    | '[' :: '[' :: r => do
      let (draft, r) ← seriesHeader draft r
      lines fuel draft r
    | '[' :: r => do
      let (draft, r) ← header draft r
      lines fuel draft r
    | c :: r =>
      if c == '#' || c == '\n' || c == '\r' then do lines fuel draft (← lineEnd (c :: r))
      else do
        let (draft, r) ← assignment draft (c :: r)
        lines fuel draft r

/-- The text without a byte order mark. -/
def skipMark : List Char → List Char
  | '\uFEFF' :: r => r
  | s => s

/-- The entries of the table that a document denotes; nothing if the document is malformed. -/
def parse? (text : String) : Option (List (String × Value)) :=
  let s := skipMark text.toList
  (lines (s.length + 1) ⟨[], []⟩ s).map fun draft => Node.toEntries draft.root

end CronDaemon.Toml
