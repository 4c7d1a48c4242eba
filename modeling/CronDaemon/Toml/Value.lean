/-!
# Values of a TOML document

A document is a table of named values. Numbers that are not whole and points of time keep their
text.
-/

namespace CronDaemon.Toml

/-- A value of a document. -/
inductive Value where
  | string (text : String)
  | integer (n : Int)
  | float (text : String)
  | boolean (b : Bool)
  | datetime (text : String)
  | array (items : List Value)
  | table (entries : List (String × Value))
  deriving Repr

/-- The value of a key among the entries of a table. -/
def entry? (key : String) (entries : List (String × Value)) : Option Value :=
  (entries.find? fun e => e.1 == key).map (·.2)

end CronDaemon.Toml
