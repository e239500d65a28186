/-
DataVault.Proofs.CommandLine.Pools — a run does the same on every pool.

A run can be told to generate its entities on a pool of workers. All that is
known of a pool is that it collects each result at the place of its entity
(`Pool.KeepsOrder`); when a worker is done with an entity is left open. That
is enough: entities and results are gone through side by side, so the outcome
is that of generating in turn (`dispatchOn_eq`).

`RunConfig.compile_eq` carries this over to compiling. Whatever holds of
`compile` therefore holds of a run that was told to use a pool, and the
command prints and writes the same on every pool, told to use it or not
(`executeConfig_parallel`, `execute_eq`).
-/
import DataVault.CommandLine.Program

/-! ## 1. Generating -/

namespace DataVault.Generate

open DataVault.Entity

theorem Pool.keepsOrder_single : Pool.single.KeepsOrder := by
  intro f specs index
  exact List.getElem?_map

theorem Pool.KeepsOrder.eq_map {pool : Pool} (h : pool.KeepsOrder) (f : EntitySpec → Result)
    (specs : List EntitySpec) : pool f specs = specs.map f := by
  refine List.ext_getElem? fun index => ?_
  rw [h, List.getElem?_map]

theorem Outcome.add_generate (o : Outcome) (s : Settings) (spec : EntitySpec) :
    o.add spec (generate s spec) =
      ⟨o.artifacts ++ artifactsOf s spec, o.rejections ++ (rejectionOf? s spec).toList⟩ := by
  unfold Outcome.add artifactsOf rejectionOf?
  cases generate s spec with
  | ok artifacts => simp only [Option.toList_none, List.append_nil]
  | error e => simp only [Option.toList_some, List.append_nil]

/-- The entities behind some others add what they become to what those did. -/
theorem foldl_add_generate (s : Settings) (specs : List EntitySpec) (o : Outcome) :
    (specs.zip (specs.map (generate s))).foldl (fun o entry => o.add entry.1 entry.2) o =
      ⟨o.artifacts ++ (dispatch s specs).artifacts,
        o.rejections ++ (dispatch s specs).rejections⟩ := by
  unfold dispatch
  induction specs generalizing o with
  | nil => simp
  | cons spec specs ih =>
    rw [List.map_cons, List.zip_cons_cons, List.foldl_cons, ih, Outcome.add_generate,
      List.flatMap_cons, List.filterMap_cons, ← List.append_assoc]
    cases rejectionOf? s spec <;> simp

theorem dispatchOn_eq {pool : Pool} (h : pool.KeepsOrder) (s : Settings)
    (specs : List EntitySpec) : dispatchOn pool s specs = dispatch s specs := by
  rw [dispatchOn, collect, h.eq_map, foldl_add_generate]
  rfl

end DataVault.Generate

/-! ## 2. Compiling -/

namespace DataVault.Compile.RunConfig

open DataVault.Generate DataVault.Metadata DataVault.Output

variable {pool : Pool} (h : pool.KeepsOrder)
include h

theorem generating_eq (c : RunConfig) : c.generating pool = dispatch c.settings := by
  unfold generating
  split
  · exact funext (dispatchOn_eq h c.settings)
  · rfl

theorem compile_eq {σ : Type} (c : RunConfig) (sink : Sink σ) (now : String) (rows : List Row) :
    c.compile pool sink now rows =
      Compile.compile c.settings c.listSeparator sink now rows := by
  rw [compile, generating_eq h]
  rfl

/-- It makes no difference which pool a run has, nor whether it is told to use
it. -/
theorem run_parallel (c : RunConfig) (parallel : Bool) :
    { c with parallel := parallel }.run pool = c.run .single := by
  have hsame {σ : Type} : @RunConfig.compile σ { c with parallel := parallel } pool =
      c.compile .single := by
    funext sink now rows
    rw [compile_eq h, compile_eq Pool.keepsOrder_single]
  funext now t
  unfold run runInMemory runIntoFiles
  rw [hsame, hsame]
  rfl

end DataVault.Compile.RunConfig

/-! ## 3. The command -/

namespace DataVault.CommandLine

open DataVault.Compile DataVault.Files
open DataVault.Generate (Pool)

variable {pool : Pool} (h : pool.KeepsOrder)
include h

theorem executeConfig_parallel (c : RunConfig) (parallel : Bool) (now : String) (t : Tree) :
    executeConfig pool { c with parallel := parallel } now t = executeConfig .single c now t := by
  unfold executeConfig
  rw [RunConfig.run_parallel h]
  obtain ⟨result, t⟩ := c.run .single now t
  cases result <;> rfl

theorem execute_eq (env : List (String × String)) (args : List String) (now : String) (t : Tree) :
    execute pool env args now t = execute .single env args now t := by
  unfold execute
  split
  · rfl
  · split
    · rfl
    · next c _ => exact executeConfig_parallel h c c.parallel now t

end DataVault.CommandLine
