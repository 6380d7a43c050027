/-
**Literals of texts.**

A text in SQL stands between single quotes, and each single quote in it is written twice.
-/

namespace AppSchema.Sql

/-- One character of a literal. -/
def literalChar (char : Char) : List Char :=
  if char = '\'' then ['\'', '\''] else [char]

/-- The literal of a text. -/
def literal (text : List Char) : String :=
  String.ofList ('\'' :: text.flatMap literalChar ++ ['\''])

end AppSchema.Sql
