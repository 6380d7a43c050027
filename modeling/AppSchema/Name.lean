/-
**Names of tables and columns.**

A human label becomes an identifier that needs no quotes: a letter or an underscore, then letters,
digits and underscores, all lower case, and no reserved word. Sanitizing a label forgets a lot
(`2-A` and `2$A` both become `_2_a`), so whoever needs distinct names checks for collisions.
-/

namespace AppSchema

namespace Ident

/-- The words that cannot stand as identifiers: the reserved words of the database, and a few that
read poorly as names of columns. -/
def reserved : List String :=
  ["all", "analyse", "analyze", "and", "any", "array", "as", "asc", "asymmetric", "authorization",
   "binary", "both", "case", "cast", "check", "collate", "collation", "column", "concurrently",
   "constraint", "create", "cross", "current_catalog", "current_date", "current_role",
   "current_schema", "current_time", "current_timestamp", "current_user", "default", "deferrable",
   "desc", "distinct", "do", "else", "end", "except", "false", "fetch", "for", "foreign",
   "freeze", "from", "full", "grant", "group", "having", "ilike", "in", "initially", "inner",
   "intersect", "into", "is", "isnull", "join", "lateral", "leading", "left", "like", "limit",
   "localtime", "localtimestamp", "natural", "not", "notnull", "null", "number", "offset", "on",
   "only", "or", "order", "outer", "overlaps", "placing", "primary", "references", "returning",
   "right", "select", "session_user", "similar", "some", "symmetric", "system_user", "table",
   "tablesample", "then", "to", "trailing", "true", "union", "unique", "user", "using",
   "variadic", "verbose", "view", "when", "where", "window", "with"]

/-- Whether a word is reserved. -/
def isReserved (word : String) : Bool :=
  reserved.contains word

/-- Whether a character can begin an identifier. -/
def isHead (char : Char) : Bool :=
  char.isLower || char == '_'

/-- Whether a character can stand in an identifier. -/
def isTail (char : Char) : Bool :=
  char.isLower || char.isDigit || char == '_'

/-- Whether characters spell an identifier. -/
def isSpelled : List Char → Bool
  | [] => false
  | first :: rest => isHead first && rest.all isTail

/-- Whether a text is an identifier that needs no quotes. -/
def isPlain (text : String) : Bool :=
  isSpelled text.toList && !isReserved text

/-- The part of an identifier that one character of a label becomes: its lower case if that is a
letter from `a` to `z`, itself if it is a digit, and an underscore otherwise. The kelvin sign has
the lower case `k`, and a dotted capital I has two characters, of which the second is a mark. -/
def sanitizeChar (char : Char) : List Char :=
  if char.isLower || char.isDigit then [char]
  else if char.isUpper then [char.toLower]
  else if char = '\u212a' then ['k']
  else if char = '\u0130' then ['i', '_']
  else ['_']

/-- Puts an underscore before a digit at the start, and in the place of nothing. -/
def guardStart : List Char → List Char
  | [] => ['_']
  | first :: rest => if first.isDigit then '_' :: first :: rest else first :: rest

/-- Puts an underscore before a reserved word. -/
def guardReserved (ident : String) : String :=
  if isReserved ident then "_" ++ ident else ident

/-- The identifier of a label. -/
def sanitize (label : String) : String :=
  guardReserved (String.ofList (guardStart (label.toList.flatMap sanitizeChar)))

end Ident

/-- An identifier together with the label that it was made from. -/
structure Name where
  ident : String
  label : String
  deriving DecidableEq, Repr, Inhabited

namespace Name

/-- The name of a label. -/
def ofLabel (label : String) : Name :=
  ⟨Ident.sanitize label, label⟩

/-- The name of a column that no label stands for. -/
def ofIdent (ident : String) : Name :=
  ⟨ident, ident⟩

/-- The first name of a list whose identifier is taken, behind the name that took it. `taken` are
the names before the list. -/
def collision? (taken : List Name) : List Name → Option (Name × Name)
  | [] => none
  | name :: rest =>
    match taken.find? (·.ident == name.ident) with
    | some first => some (first, name)
    | none => collision? (name :: taken) rest

end Name

end AppSchema
