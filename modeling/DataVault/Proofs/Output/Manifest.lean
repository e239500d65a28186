/-
DataVault.Proofs.Output.Manifest — a manifest says which names it was saved for.

The names are sorted, and each stands once, so which names a manifest has is
all that it says.
-/
import DataVault.Output.Sink
import DataVault.Proofs.Json.WrittenForms
import DataVault.Proofs.Results

namespace DataVault.Output

open DataVault.Document DataVault.Json DataVault.Results

theorem mem_insertName {name other : String} {names : List String} :
    name ∈ insertName other names ↔ name = other ∨ name ∈ names := by
  induction names with
  | nil => simp [insertName]
  | cons first names ih =>
    unfold insertName
    split
    · next h => simp [h]
    · split
      · simp
      · rw [List.mem_cons, ih, List.mem_cons]
        exact or_left_comm

theorem mem_sortedNames {name : String} {names : List String} :
    name ∈ sortedNames names ↔ name ∈ names := by
  unfold sortedNames
  induction names with
  | nil => simp
  | cons first names ih => rw [List.foldr_cons, mem_insertName, ih, List.mem_cons]

theorem pairwise_insertName {names : List String} (name : String)
    (h : names.Pairwise (· < ·)) : (insertName name names).Pairwise (· < ·) := by
  induction names with
  | nil => exact List.pairwise_singleton _ _
  | cons first rest ih =>
    obtain ⟨hfirst, hrest⟩ := List.pairwise_cons.mp h
    unfold insertName
    split
    · exact h
    · next hne =>
      split
      · next hlt =>
        exact List.pairwise_cons.mpr ⟨List.forall_mem_cons.mpr
          ⟨hlt, fun other hother => String.lt_trans hlt (hfirst other hother)⟩, h⟩
      · next hge =>
        have hlt : first < name :=
          Std.lt_of_le_of_ne (String.not_lt.mp hge) (Ne.symm hne)
        refine List.pairwise_cons.mpr ⟨fun other hother => ?_, ih hrest⟩
        rcases mem_insertName.mp hother with rfl | hmem
        · exact hlt
        · exact hfirst other hmem

/-- The names are in order, and each stands once. -/
theorem pairwise_sortedNames (names : List String) : (sortedNames names).Pairwise (· < ·) := by
  induction names with
  | nil => exact .nil
  | cons name names ih => exact pairwise_insertName name ih

/-- The list of texts is read back. -/
theorem listOf?_strings (texts : List String) :
    (Value.strings texts).node.listOf? Node.text? = some texts := by
  unfold Value.strings
  rw [Value.node, nodes_map]
  simp only [Node.listOf?, Node.items?, Option.bind_some]
  rw [mapM_eq_some_iff, List.forall₂_map_left_iff, List.forall₂_same]
  exact fun _ _ => rfl

/-- A saved manifest is read as the names it was saved for. -/
theorem manifestFiles?_manifestText (names : List String) :
    manifestFiles? (manifestText names) = some (sortedNames names) := by
  have hfits : (Value.object [("files", .strings (sortedNames names))]).Fits 0 :=
    ⟨by decide, fits_strings (by decide) _, trivial⟩
  unfold manifestFiles? manifestText
  rw [read?_pretty hfits]
  exact listOf?_strings _

end DataVault.Output
