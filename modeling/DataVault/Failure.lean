/-
DataVault.Failure — why a run stops.

A failure is a chain of messages, the outermost first. It may end at a
cause outside this library: a document that cannot be read, or the file
system. The cause is named by its class only.
-/
namespace DataVault

/-- What a failure ends at. -/
inductive Cause where
  | json
  | yaml
  | toml
  | csv
  | io
  deriving DecidableEq

def Cause.name : Cause → String
  | json => "json"
  | yaml => "yaml"
  | toml => "toml"
  | csv => "csv"
  | io => "io"

/-- A chain of messages, with the outside cause that it ends at. -/
structure Failure where
  messages : List String
  cause : Option Cause
  deriving DecidableEq

namespace Failure

/-- A failure of this library. -/
def of (message : String) : Failure := ⟨[message], none⟩

/-- A failure that an outside cause explains. -/
def because (cause : Cause) (message : String) : Failure := ⟨[message], some cause⟩

/-- The failure of a step that failed for the given reason. -/
def within (message : String) (f : Failure) : Failure :=
  { f with messages := message :: f.messages }

/-- The messages on one line. -/
def text (f : Failure) : String := String.intercalate ": " f.messages

/-- The outermost message. -/
def headline (f : Failure) : String := f.messages.head?.getD ""

end Failure

end DataVault
