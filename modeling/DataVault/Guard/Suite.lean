/-
DataVault.Guard.Suite — the guards of a run.

Three guards look at every run: whether the key separator can occur in
data, whether artifact names overlap, and what the inputs hash to. Only an
empty separator stops a run.
-/
import DataVault.Entity.Canonical
import DataVault.Guard.Claims
import DataVault.Guard.Result

namespace DataVault.Guard

open DataVault.Digest DataVault.Entity DataVault.Generate DataVault.Text

/-- A guard checks the whole set of entities. -/
structure Check where
  name : String
  description : String
  /-- The check, given the name to report under. -/
  run : String → Settings → List EntitySpec → GuardResult

/-- The report of a guard. -/
def Check.report (g : Check) (s : Settings) (specs : List EntitySpec) : GuardResult :=
  g.run g.name s specs

/-! ## 1. Key delimiter -/

/-- A separator without a control character may occur in data. -/
def checkDelimiter (name : String) : KeyEncoding → GuardResult
  | .lengthPrefixed => .passed name "Length-prefixed key encoding is unambiguous"
  | .delimited separator =>
      if separator.isEmpty then
        .ofVerdict .fail name
          "Key separator is empty; key parts would be concatenated without a boundary"
          "Configure a separator such as \\x1f, or length-prefixed key encoding"
      else if separator.toList.any isControl then
        .passed name ("Key separator " ++ asciiOnly separator ++ " contains a control character")
      else
        (GuardResult.ofVerdict .warn name
          ("Key separator " ++ quoted separator ++ " may occur in business key values")
          "Use a control character such as \\x1f, or length-prefixed key encoding").withEvidence
          [("separator", asciiOnly separator)]

def keyDelimiterGuard : Check where
  name := "Key Delimiter"
  description := "Checks that the key separator is unlikely to occur in data"
  run name s _ := checkDelimiter name s.keyEncoding

/-! ## 2. Output overlap -/

/-- An overlap, with the entity that loses the name. -/
def overlapText (specs : List EntitySpec) (o : Overlap) : String :=
  let loser := (specs[o.index]?).map fun spec => spec.name.text
  o.name.text ++ " (" ++ o.owner.text ++ " and " ++ loser.getD "" ++ ")"

/-- Artifact names that more than one entity claims. -/
def checkOverlaps (name : String) (s : Settings) (specs : List EntitySpec) : GuardResult :=
  let claims := Claims.of s specs
  if claims.overlaps.isEmpty then
    .passed name
      ("No output conflicts: " ++ toString claims.claimed.length ++ " unique artifact names")
  else
    (GuardResult.ofVerdict .warn name
      ("Duplicate artifact names detected: " ++
        String.intercalate ", " (claims.overlaps.map (overlapText specs)))
      "The later entity is rejected; rename it so every artifact name is unique").withEvidence
      [("rejected", toString claims.overlaps.length)]

def outputOverlapGuard : Check where
  name := "Output Overlap"
  description := "Reports artifact names claimed by more than one entity"
  run := checkOverlaps

/-! ## 3. Determinism -/

/-- The first sixteen characters of a hash. -/
def shortHash (hash : String) : String := String.ofList (hash.toList.take 16)

/-- The hashes of the inputs. -/
def checkInputs (name : String) (s : Settings) (specs : List EntitySpec) : GuardResult :=
  let input := inputHash specs
  (GuardResult.passed name ("Input hash computed: " ++ shortHash input)).withEvidence
    [("input_hash", input), ("config_hash", s.fingerprint), ("entities", toString specs.length)]

def determinismGuard : Check where
  name := "Determinism"
  description := "Hashes the canonical inputs of the run"
  run := checkInputs

/-! ## 4. All guards -/

/-- The guards of a run. -/
def suite : List Check := [keyDelimiterGuard, outputOverlapGuard, determinismGuard]

/-- The reports of all guards. -/
def evaluate (s : Settings) (specs : List EntitySpec) : List GuardResult :=
  suite.map fun g => g.report s specs

end DataVault.Guard
