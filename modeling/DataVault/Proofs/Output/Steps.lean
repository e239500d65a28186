/-
DataVault.Proofs.Output.Steps — what a sink is handed.

A sink that keeps a log does all that the sink without it does, and writes
down the artifacts that it is handed. `persistAll_logged` says what stands in
the log of a run that went through: all artifacts, in order.
-/
import DataVault.Output.Sink

namespace DataVault.Output

open DataVault.Artifact DataVault.Sql

variable {σ α β : Type}

/-! ## 1. Steps -/

/-- Two steps go through exactly when the first does, and the second from
where it left off. -/
theorem andThen_eq_ok_iff {first : Step σ α} {second : α → Step σ β} {s t : σ} {b : β} :
    first.andThen second s = (.ok b, t) ↔
      ∃ a r, first s = (.ok a, r) ∧ second a r = (.ok b, t) := by
  unfold Step.andThen
  rcases hfirst : first s with ⟨a | a, r⟩
  · simp
  · simp only [Prod.mk.injEq, Except.ok.injEq]
    constructor
    · intro h
      exact ⟨a, r, ⟨rfl, rfl⟩, h⟩
    · rintro ⟨_, _, ⟨rfl, rfl⟩, h⟩
      exact h

/-! ## 2. Sinks with a log -/

/-- The sink, with a log of the artifacts that it is handed. -/
def Sink.logged (sink : Sink σ) : Sink (σ × List Artifact) where
  persist a := fun (s, log) =>
    let (result, s) := sink.persist a s
    (result, s, log ++ [a])
  finish := fun (s, log) =>
    let (result, s) := sink.finish s
    (result, s, log)

theorem persist_logged {sink : Sink σ} {a : Artifact} {s t : σ} (h : sink.persist a s = (.ok (), t))
    (log : List Artifact) : sink.logged.persist a (s, log) = (.ok (), t, log ++ [a]) := by
  simp only [Sink.logged, h]

theorem finish_logged {sink : Sink σ} {report : SinkReport} {s t : σ}
    (h : sink.finish s = (.ok report, t)) (log : List Artifact) :
    sink.logged.finish (s, log) = (.ok report, t, log) := by
  simp only [Sink.logged, h]

theorem persistAll_logged {sink : Sink σ} {artifacts : List Artifact} {s t : σ}
    (h : sink.persistAll artifacts s = (.ok (), t)) (log : List Artifact) :
    sink.logged.persistAll artifacts (s, log) = (.ok (), t, log ++ artifacts) := by
  induction artifacts generalizing s log with
  | nil =>
    cases h
    simp only [Sink.persistAll, Step.done, List.append_nil]
  | cons a rest ih =>
    obtain ⟨⟨⟩, r, hpersist, hrest⟩ := andThen_eq_ok_iff.mp h
    refine andThen_eq_ok_iff.mpr ⟨(), _, persist_logged hpersist log, ?_⟩
    rw [ih hrest, List.append_assoc]
    rfl

/-! ## 3. The memory sink -/

/-- The memory sink never fails. -/
theorem persistAll_memorySink (artifacts kept : List Artifact) :
    memorySink.persistAll artifacts kept = (.ok (), kept ++ artifacts) := by
  induction artifacts generalizing kept with
  | nil => simp only [Sink.persistAll, Step.done, List.append_nil]
  | cons a rest ih =>
    refine andThen_eq_ok_iff.mpr ⟨(), kept ++ [a], rfl, ?_⟩
    rw [ih, List.append_assoc]
    rfl

/-! ## 4. Small artifacts -/

/-- A table with nothing but a name and a statement. -/
def bareTable (name : Ident) (body : String) : Artifact :=
  ⟨name, .table, name, .hub, .primary, .empty, body⟩

def customerTable : Artifact := bareTable ⟨"customer", by decide, by decide⟩ "SELECT 1"

def ordersTable : Artifact := bareTable ⟨"orders", by decide, by decide⟩ "SELECT 2"

end DataVault.Output
