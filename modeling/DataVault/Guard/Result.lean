/-
DataVault.Guard.Result — what guards report.

A guard looks at the whole set of entities before anything is generated.
Its verdict lets the run go on, lets it go on with a warning, or stops it.
-/

namespace DataVault.Guard

inductive Verdict where
  | pass
  /-- The run goes on and the finding is reported. -/
  | warn
  | fail
  deriving DecidableEq

namespace Verdict

def name : Verdict → String
  | pass => "pass"
  | warn => "warn"
  | fail => "fail"

def ofName? (s : String) : Option Verdict := [pass, warn, fail].find? (·.name == s)

end Verdict

/-- The report of one guard. -/
structure GuardResult where
  guard : String
  verdict : Verdict
  diagnostic : String
  /-- What to do about it; empty when the guard passes. -/
  remediation : String
  /-- Hashes and counts, by name. -/
  evidence : List (String × String)
  deriving DecidableEq

namespace GuardResult

/-- A guard that found nothing wrong. -/
def passed (guard diagnostic : String) : GuardResult := ⟨guard, .pass, diagnostic, "", []⟩

/-- The report of a verdict; a passing guard has no remediation. -/
def ofVerdict (verdict : Verdict) (guard diagnostic remediation : String) : GuardResult :=
  match verdict with
  | .pass => passed guard diagnostic
  | .warn | .fail => ⟨guard, verdict, diagnostic, remediation, []⟩

/-- The report with more evidence. A name that is already there gets the new
value. -/
def withEvidence (r : GuardResult) (more : List (String × String)) : GuardResult :=
  { r with
    evidence := more.foldl (fun acc e => acc.filter (·.1 != e.1) ++ [e]) r.evidence }

def failed (r : GuardResult) : Bool := r.verdict == .fail

def warned (r : GuardResult) : Bool := r.verdict == .warn

end GuardResult

/-- No guard stops the run. -/
def allPassed (results : List GuardResult) : Bool := !results.any GuardResult.failed

/-- The failures, numbered from the given number, with what to do. -/
def failureLines (number : Nat) : List GuardResult → String
  | [] => ""
  | r :: rest =>
      toString number ++ ". " ++ r.guard ++ " - " ++ r.diagnostic ++ "\n   Remediation: " ++
        r.remediation ++ "\n" ++ failureLines (number + 1) rest

/-- What the user is told when guards stop a run. -/
def remediationSummary (results : List GuardResult) : String :=
  let failures := results.filter GuardResult.failed
  if failures.isEmpty then "All guards passed."
  else toString failures.length ++ " guard(s) failed:\n" ++ failureLines 1 failures

end DataVault.Guard
