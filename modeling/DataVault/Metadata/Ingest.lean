/-
DataVault.Metadata.Ingest — rows become entities.

Rows are read in order and counted from one. A row that describes no
entity is rejected, and so is a row whose entity name an earlier accepted
row has, in any case; the first one is kept. An accepted entity can be
rejected later on, and the rejections stay in the order of the rows.

Entities are kept in pairs with their rows. Lists of their own, with a table
of the names seen so far and rejections that are sorted anew each time, come
to the same: see `DataVault.Proofs.Metadata.Ledger`.
-/
import DataVault.Entity.Rejection
import DataVault.Metadata.Row

namespace DataVault.Metadata

open DataVault.Entity DataVault.Text

/-- An entity and the row it came from. -/
structure Accepted where
  row : Nat
  spec : EntitySpec
  deriving DecidableEq

/-- The outcome of reading rows. -/
structure Ingested where
  accepted : List Accepted
  rejections : List Rejection
  deriving DecidableEq

namespace Ingested

/-- The entities, in the order of their rows. -/
def specs (g : Ingested) : List EntitySpec := g.accepted.map Accepted.spec

/-- The accepted entity with a name, in any case. -/
def find? (g : Ingested) (name : String) : Option Accepted :=
  g.accepted.find? fun a => eqIgnoreCase a.spec.name.text name

/-- The row that an accepted entity came from. -/
def rowOf? (g : Ingested) (name : String) : Option Nat := (g.find? name).map Accepted.row

/-- Puts a rejection behind those of earlier or equal rows. -/
def insertByRow (r : Rejection) : List Rejection → List Rejection
  | [] => [r]
  | other :: rest =>
      if r.row.getD 0 < other.row.getD 0 then r :: other :: rest
      else other :: insertByRow r rest

/-- Rejects the accepted entity at a position. -/
def reject (g : Ingested) (index : Nat) (error : CompileError) : Ingested :=
  match g.accepted[index]? with
  | none => g
  | some a =>
      ⟨g.accepted.eraseIdx index,
        insertByRow (.ofError (some a.row) a.spec.name.text error) g.rejections⟩

/-- Reads one more row. -/
def add (separator : Char) (g : Ingested) (number : Nat) (row : Row) : Ingested :=
  let refuse (error : CompileError) : Ingested :=
    { g with rejections := g.rejections ++ [.ofError (some number) (trim row.name) error] }
  match row.toSpec separator with
  | .error e => refuse e
  | .ok spec =>
      match g.rowOf? spec.name.text with
      | some first => refuse (spec.reject (.duplicateEntity first))
      | none => { g with accepted := g.accepted ++ [⟨number, spec⟩] }

end Ingested

/-- Reads rows whose first one has the given number. -/
def ingestFrom (separator : Char) (g : Ingested) (number : Nat) : List Row → Ingested
  | [] => g
  | row :: rows => ingestFrom separator (g.add separator number row) (number + 1) rows

/-- Reads all rows. -/
def ingest (separator : Char) (rows : List Row) : Ingested :=
  ingestFrom separator ⟨[], []⟩ 1 rows

end DataVault.Metadata
