/-
**Expressions of the views.**

A view computes texts and numbers from the columns of its table, of joined views, and of the rows of
another view that are linked to a row of its own. A subquery reads those rows: what it selects from,
and the condition that links them, directly or through an association.
-/

import AppSchema.Application.Basic
import AppSchema.Sql.Literal

namespace AppSchema.Sql

/-- A column of a table, a view or an alias. -/
structure ColumnRef where
  qualifier : String
  column : String
  deriving DecidableEq, Repr, Inhabited

/-- A condition on ids. -/
inductive Condition
  /-- SQL from outside. -/
  | raw (sql : String)
  | equal (left right : ColumnRef)
  /-- The left id is among those of an array. -/
  | member (left array : ColumnRef)
  | both (first second : Condition)
  deriving DecidableEq, Repr, Inhabited

/-- What a subquery or a join reads: a table or a view, with an alias or without. -/
structure FromItem where
  relation : String
  aliasName : Option String := none
  deriving DecidableEq, Repr, Inhabited

/-- How the rows of a subquery are chosen. -/
inductive Filter
  | onlyIf (condition : Condition)
  /-- By the rows of an association that meet a condition. -/
  | through (association : String) (condition : Condition)
  deriving DecidableEq, Repr, Inhabited

/-- The rows that a subquery reads. -/
structure Rows where
  source : FromItem
  filter : Filter
  deriving DecidableEq, Repr, Inhabited

/-- What a subquery computes from a column of its rows. -/
inductive Summary
  | aggregate (method : AggregateMethod)
  /-- The values as texts, joined with commas. -/
  | joined
  deriving DecidableEq, Repr, Inhabited

/-- An expression. -/
inductive Expr
  /-- SQL from outside. -/
  | raw (sql : String)
  | literal (text : List Char)
  | column (column : ColumnRef)
  /-- All parts as one text; without parts, the empty text. -/
  | concat (parts : List Expr)
  | call (name : String) (arguments : List Expr)
  /-- The name of a part of a date. -/
  | dateName (date : Expr) (format : String)
  /-- A text without any occurrence of a part. -/
  | remove (text part : Expr)
  /-- The first match of a pattern in a text. -/
  | firstMatch (text pattern : Expr)
  | summary (summary : Summary) (column : ColumnRef) (rows : Rows)
  deriving Inhabited

/-! ## Writing SQL -/

namespace ColumnRef

/-- A column in SQL. -/
def sql (column : ColumnRef) : String :=
  column.qualifier ++ "." ++ column.column

end ColumnRef

namespace Condition

/-- A condition in SQL. -/
def sql : Condition → String
  | raw text => text
  | equal left right => left.sql ++ " = " ++ right.sql
  | member left array => left.sql ++ " = ANY(" ++ array.sql ++ ")"
  | both first second => first.sql ++ " AND " ++ second.sql

end Condition

namespace FromItem

/-- The name by which columns of the source are qualified. -/
def name (source : FromItem) : String :=
  source.aliasName.getD source.relation

/-- The source where it is introduced. -/
def sql (source : FromItem) : String :=
  match source.aliasName with
  | some name => source.relation ++ " AS " ++ name
  | none => source.relation

end FromItem

namespace Rows

/-- The rows in SQL. -/
def sql (rows : Rows) : String :=
  "FROM " ++ rows.source.sql ++
    match rows.filter with
    | .onlyIf condition => " WHERE " ++ condition.sql
    | .through association condition => " JOIN " ++ association ++ " ON " ++ condition.sql

end Rows

namespace Summary

/-- A summary of a column in SQL. -/
def sql (column : ColumnRef) : Summary → String
  | aggregate method => method.sql ++ "(" ++ column.sql ++ ")"
  | joined => "STRING_AGG(" ++ column.sql ++ "::text, ', ')"

end Summary

namespace Expr

mutual

/-- An expression in SQL. -/
def sql : Expr → String
  | .raw text => text
  | .literal text => Sql.literal text
  | .column ref => ref.sql
  | .concat [] => Sql.literal []
  | .concat (first :: rest) =>
    "CONCAT(" ++ String.intercalate ", " (first.sql :: sqlEach rest) ++ ")"
  | .call name arguments => name ++ "(" ++ String.intercalate ", " (sqlEach arguments) ++ ")"
  | .dateName date format => "to_char(" ++ date.sql ++ ", '" ++ format ++ "')"
  | .remove text part => "REPLACE(" ++ text.sql ++ ", " ++ part.sql ++ ", '')"
  | .firstMatch text pattern => "SUBSTRING(" ++ text.sql ++ " FROM " ++ pattern.sql ++ ")"
  | .summary kind ref rows => "(SELECT " ++ kind.sql ref ++ " " ++ rows.sql ++ ")"

/-- Several expressions in SQL. -/
def sqlEach : List Expr → List String
  | [] => []
  | first :: rest => first.sql :: sqlEach rest

end

end Expr

end AppSchema.Sql
