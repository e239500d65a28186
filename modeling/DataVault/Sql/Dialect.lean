/-
DataVault.Sql.Dialect — the points on which the target warehouses differ.

Statements are built without a dialect in mind. A `Dialect` then supplies
the text of a relation reference, the text type, the digest function, the
string literal, the clock, the end of a statement, and the way one row per
partition is kept.
-/
import DataVault.Sql.Literal
import DataVault.Sql.TableRef

namespace DataVault.Sql

/-- A target warehouse. -/
inductive Dialect where
  /-- BigQuery SQL inside Dataform files; a relation is a reference placeholder. -/
  | bigQuery
  /-- PostgreSQL 15 or later; a relation is its dotted name. -/
  | postgres
  deriving DecidableEq

/-- How a warehouse keeps the first row of each partition. -/
inductive RowDedup where
  /-- A window function in a `QUALIFY` clause. -/
  | qualify
  /-- `SELECT DISTINCT ON`, with the order in an `ORDER BY`. -/
  | distinctOn
  deriving DecidableEq

namespace Dialect

/-- The dialect's name in settings. -/
def name : Dialect → String
  | bigQuery => "bigquery"
  | postgres => "postgres"

/-- The dialect with exactly this name or short name. -/
def ofName? (s : String) : Option Dialect :=
  if s = "bigquery" ∨ s = "dataform" then some bigQuery
  else if s = "postgres" ∨ s = "pg" then some postgres
  else none

/-- The dialect with this name or short name, in any case. -/
def ofNameIgnoringCase? (s : String) : Option Dialect := ofName? (Text.lower s)

/-- A part of a reference placeholder: a name between double quotes. -/
def quotedName (i : Ident) : String := "\"" ++ i.text ++ "\""

/-- A relation reference. -/
def resolve : Dialect → TableRef → String
  | bigQuery, .bare name => "$\x7bref(" ++ quotedName name ++ ")\x7d"
  | bigQuery, .inSchema schema name =>
      "$\x7bref(" ++ quotedName schema ++ ", " ++ quotedName name ++ ")\x7d"
  | bigQuery, .inDatabase database schema name =>
      "$\x7bref(\x7bdatabase: " ++ quotedName database ++ ", schema: " ++ quotedName schema ++
        ", name: " ++ quotedName name ++ "\x7d)\x7d"
  | postgres, t => t.dotted

/-- The text type of casts. -/
def textType : Dialect → String
  | bigQuery => "STRING"
  | postgres => "TEXT"

/-- An expression cast to text. -/
def castText (d : Dialect) (e : String) : String := "CAST(" ++ e ++ " AS " ++ d.textType ++ ")"

/-- The lower-case hexadecimal SHA-256 of a text expression. -/
def hexDigest : Dialect → String → String
  | bigQuery, e => "TO_HEX(SHA256(" ++ e ++ "))"
  | postgres, e => "ENCODE(SHA256(CONVERT_TO(" ++ e ++ ", 'UTF8')), 'hex')"

/-- The length of a text expression in characters. -/
def charLength (_ : Dialect) (e : String) : String := "CHAR_LENGTH(" ++ e ++ ")"

/-- The concatenation of text expressions. -/
def concat (_ : Dialect) (parts : List String) : String :=
  "CONCAT(" ++ String.intercalate ", " parts ++ ")"

/-- A string literal. -/
def stringLiteral : Dialect → String → String
  | bigQuery, value => Literal.bigQuery value
  | postgres, value => Literal.postgres value

/-- The time at which the statement runs. -/
def currentTimestamp : Dialect → String
  | bigQuery => "CURRENT_TIMESTAMP()"
  | postgres => "CURRENT_TIMESTAMP"

/-- The day on which the statement runs. -/
def currentDate : Dialect → String
  | bigQuery => "CURRENT_DATE()"
  | postgres => "CURRENT_DATE"

/-- What ends a complete statement. -/
def terminator : Dialect → String
  | bigQuery => ""
  | postgres => ";"

def rowDedup : Dialect → RowDedup
  | bigQuery => .qualify
  | postgres => .distinctOn

end Dialect

end DataVault.Sql
