/-
DataVault.Proofs.Metadata.Ledger — entities and rows in lists of their own.

An `Ingested` pairs each entity with its row, searches the pairs for names,
and puts a later rejection in its place. A `Ledger` keeps the same things
apart: the entities in one list, their rows at the same positions in another
one, and the rejections in a third, which is sorted by rows whenever an entity
is rejected. While rows are read, a table of the names so far stands beside
the three lists.

`Reading.Represents` is what relates the two while rows are read, and each row
keeps it (`Represents.add`), so both read the same (`ledger_ingest`). They
stay the same when entities are rejected, which is where the order of the
rejections comes in: one more of them, at the end, is sorted to the place that
`insertByRow` finds, since no other has its row (`sortByRow_concat`). With
`ledger_rejectAll_ingest` all that is known of the pairs is known of the three
lists, above all that entities and rows stay side by side
(`forall₂_rejectAll_ingest`).
-/
import DataVault.Proofs.Metadata.RowNumbers

namespace DataVault.Metadata

open DataVault.Entity DataVault.Text

/-! ## 1. Three lists -/

/-- The outcome of reading rows. An entity and its row are at one position. -/
structure Ledger where
  specs : List EntitySpec
  specRows : List Nat
  rejections : List Rejection

/-- The rejections in the order of their rows. Of those with one row, the
order stays. -/
def sortByRow (rejections : List Rejection) : List Rejection :=
  rejections.mergeSort fun r t => sortKey r ≤ sortKey t

namespace Ledger

/-- The row at the position of the entity with a name, in any case. -/
def rowOf? (l : Ledger) (name : String) : Option Nat := do
  let index ← l.specs.findIdx? fun spec => eqIgnoreCase spec.name.text name
  l.specRows[index]?

/-- Takes the entity at a position out of its list and the row out of the
other, and sorts the rejections with the new one among them. -/
def reject (l : Ledger) (index : Nat) (error : CompileError) : Ledger :=
  match l.specs[index]?, l.specRows[index]? with
  | some spec, some row =>
      { specs := l.specs.eraseIdx index
        specRows := l.specRows.eraseIdx index
        rejections :=
          sortByRow (l.rejections ++ [.ofError (some row) spec.name.text error]) }
  | _, _ => l

/-- Rejects entities one after the other, each at its position by then. -/
def rejectAll (l : Ledger) (calls : List (Nat × CompileError)) : Ledger :=
  calls.foldl (fun l call => l.reject call.1 call.2) l

end Ledger

/-- The lists, and the rows of the entities in them by the names in lower
case. -/
structure Reading where
  ledger : Ledger
  firstSeen : List (String × Nat)

/-- Reads one more row. -/
def Reading.add (separator : Char) (st : Reading) (number : Nat) (row : Row) : Reading :=
  let refuse (error : CompileError) : Reading :=
    { st with
      ledger.rejections :=
        st.ledger.rejections ++ [.ofError (some number) (trim row.name) error] }
  match row.toSpec separator with
  | .error e => refuse e
  | .ok spec =>
      match st.firstSeen.lookup (lower spec.name.text) with
      | some first => refuse (spec.reject (.duplicateEntity first))
      | none =>
          { ledger :=
              { st.ledger with
                specs := st.ledger.specs ++ [spec]
                specRows := st.ledger.specRows ++ [number] }
            firstSeen := (lower spec.name.text, number) :: st.firstSeen }

/-- Reads rows with their numbers. -/
def Reading.addAll (separator : Char) (st : Reading) (numbered : List (Row × Nat)) : Reading :=
  numbered.foldl (fun st entry => st.add separator entry.2 entry.1) st

/-- Reads all rows. -/
def Ledger.ingest (separator : Char) (rows : List Row) : Ledger :=
  (Reading.addAll separator ⟨⟨[], [], []⟩, []⟩ (rows.zipIdx 1)).ledger

/-- The pairs taken apart. -/
def Ingested.ledger (g : Ingested) : Ledger := ⟨g.specs, g.specRows, g.rejections⟩

/-! ## 2. Reading -/

/-- A name is at the same place in the list of entities as in that of the
pairs. -/
theorem rowOf?_ledger (g : Ingested) (name : String) : g.ledger.rowOf? name = g.rowOf? name := by
  obtain ⟨accepted, rejections⟩ := g
  simp only [Ledger.rowOf?, Ingested.ledger, Ingested.specs, Ingested.specRows, Ingested.rowOf?,
    Ingested.find?]
  induction accepted with
  | nil => rfl
  | cons a rest ih =>
    rw [List.map_cons, List.map_cons, List.findIdx?_cons, List.find?_cons]
    cases eqIgnoreCase a.spec.name.text name with
    | true => rfl
    | false =>
      rw [← ih]
      cases (rest.map Accepted.spec).findIdx? fun spec => eqIgnoreCase spec.name.text name <;> rfl

/-- An entity with a new name is found by this name, and the others by
theirs. -/
theorem rowOf?_concat {g : Ingested} {spec : EntitySpec} {number : Nat}
    (hnew : g.rowOf? spec.name.text = none) (name : String) :
    ({ g with accepted := g.accepted ++ [⟨number, spec⟩] } : Ingested).rowOf? name =
      if lower name = lower spec.name.text then some number else g.rowOf? name := by
  unfold Ingested.rowOf? Ingested.find? at hnew ⊢
  rw [List.find?_append]
  split
  · next hsame =>
    simp only [eqIgnoreCase, hsame, Option.map_eq_none_iff] at hnew ⊢
    rw [hnew, Option.none_or, List.find?_singleton, if_pos (beq_self_eq_true _)]
    rfl
  · next hother =>
    have hnone : eqIgnoreCase spec.name.text name = false :=
      Bool.eq_false_iff.mpr fun h => hother (eqIgnoreCase_iff.mp h).symm
    rw [List.find?_singleton, if_neg (Bool.eq_false_iff.mp hnone), Option.or_none]

namespace Reading

/-- The lists are the pairs taken apart, and the table knows the same rows. -/
structure Represents (st : Reading) (g : Ingested) : Prop where
  ledger_eq : st.ledger = g.ledger
  lookup_eq : ∀ name, st.firstSeen.lookup (lower name) = g.rowOf? name

theorem Represents.add {st : Reading} {g : Ingested} (h : st.Represents g) (separator : Char)
    (number : Nat) (row : Row) :
    (st.add separator number row).Represents (g.add separator number row) := by
  have refused (e : CompileError) : Represents
      { st with
        ledger.rejections := st.ledger.rejections ++ [.ofError (some number) (trim row.name) e] }
      { g with rejections := g.rejections ++ [.ofError (some number) (trim row.name) e] } :=
    ⟨by rw [h.ledger_eq]; rfl, h.lookup_eq⟩
  unfold Reading.add Ingested.add
  cases row.toSpec separator with
  | error e => exact refused e
  | ok spec =>
    simp only [h.lookup_eq]
    cases hfirst : g.rowOf? spec.name.text with
    | some first => exact refused _
    | none =>
      refine ⟨?_, fun name => ?_⟩
      · rw [h.ledger_eq]
        simp only [Ingested.ledger, Ingested.specs, Ingested.specRows, List.map_append,
          List.map_cons, List.map_nil]
      · rw [rowOf?_concat hfirst, List.lookup_cons]
        split
        · next hsame => rw [if_pos (beq_iff_eq.mp hsame)]
        · next hother => rw [if_neg (beq_eq_false_iff_ne.mp hother), h.lookup_eq]

/-- Both count the rows from the same number. -/
theorem Represents.addAll {st : Reading} {g : Ingested} (h : st.Represents g) (separator : Char)
    (number : Nat) (rows : List Row) :
    (Reading.addAll separator st (rows.zipIdx number)).Represents
      (ingestFrom separator g number rows) := by
  induction rows generalizing st g number with
  | nil => exact h
  | cons row rows ih =>
    rw [List.zipIdx_cons]
    exact ih (h.add separator number row) (number + 1)

end Reading

/-- Reading into pairs comes to the same as reading into three lists. -/
theorem ledger_ingest (separator : Char) (rows : List Row) :
    (ingest separator rows).ledger = Ledger.ingest separator rows := by
  have hempty : Reading.Represents ⟨⟨[], [], []⟩, []⟩ ⟨[], []⟩ := ⟨rfl, fun _ => rfl⟩
  exact (hempty.addAll separator 1 rows).ledger_eq.symm

/-! ## 3. Rejecting -/

/-- Sorting takes one more rejection to the place where it is put, if no other
has its row. -/
theorem sortByRow_concat {r : Rejection} {rejections : List Rejection}
    (h : InRowOrder (Ingested.insertByRow r rejections)) :
    sortByRow (rejections ++ [r]) = Ingested.insertByRow r rejections := by
  have hkeys : (Ingested.insertByRow r rejections).Pairwise fun a b => sortKey a < sortKey b :=
    List.Pairwise.imp sortKey_lt h
  have hnodup : ((Ingested.insertByRow r rejections).map sortKey).Nodup :=
    List.pairwise_map.mpr (hkeys.imp Nat.ne_of_lt)
  have hperm : (sortByRow (rejections ++ [r])).Perm (Ingested.insertByRow r rejections) := by
    refine (List.mergeSort_perm _ _).trans ?_
    exact (List.perm_append_singleton r rejections).trans (insertByRow_perm r rejections).symm
  have hsorted : (sortByRow (rejections ++ [r])).Pairwise fun a b => sortKey a ≤ sortKey b := by
    refine List.Pairwise.imp of_decide_eq_true
      (List.pairwise_mergeSort (fun a b c hab hbc => ?_) (fun a b => ?_) _)
    · exact decide_eq_true (Nat.le_trans (of_decide_eq_true hab) (of_decide_eq_true hbc))
    · simpa using Nat.le_total (sortKey a) (sortKey b)
  refine List.Perm.eq_of_pairwise (fun a b ha hb hab hba => ?_) hsorted
    (hkeys.imp Nat.le_of_lt) hperm
  exact List.inj_on_of_nodup_map hnodup (hperm.mem_iff.mp ha) hb (Nat.le_antisymm hab hba)

section
variable {separator : Char} {g : Ingested} {rows : List Row} (h : g.Sorted separator rows)
include h

theorem ledger_reject (index : Nat) (e : CompileError) :
    (g.reject index e).ledger = g.ledger.reject index e := by
  have hsorted := (h.reject index e).in_row_order
  unfold Ingested.reject at hsorted ⊢
  unfold Ledger.reject
  simp only [Ingested.ledger, Ingested.specs, Ingested.specRows, List.getElem?_map]
  cases hentry : g.accepted[index]? with
  | none => rfl
  | some a =>
    simp only [hentry] at hsorted
    simp only [Option.map_some, List.eraseIdx_map, sortByRow_concat hsorted]

theorem ledger_rejectAll (calls : List (Nat × CompileError)) :
    (g.rejectAll calls).ledger = g.ledger.rejectAll calls := by
  induction calls generalizing g with
  | nil => rfl
  | cons call calls ih =>
    rw [Ledger.rejectAll, List.foldl_cons, ← ledger_reject h]
    exact ih (h.reject call.1 call.2)

end

/-- The same goes for rejecting, from the pairs and from the three lists. -/
theorem ledger_rejectAll_ingest (separator : Char) (rows : List Row)
    (calls : List (Nat × CompileError)) :
    ((ingest separator rows).rejectAll calls).ledger =
      (Ledger.ingest separator rows).rejectAll calls := by
  rw [ledger_rejectAll (sorted_ingest separator rows), ledger_ingest]

/-- Each entity is at the position of its row, so the two lists have one
length. -/
theorem forall₂_rejectAll_ingest (separator : Char) (rows : List Row)
    (calls : List (Nat × CompileError)) :
    List.Forall₂ (fun number spec => ∃ row, rows[number - 1]? = some row ∧
        row.toSpec separator = .ok spec)
      ((Ledger.ingest separator rows).rejectAll calls).specRows
      ((Ledger.ingest separator rows).rejectAll calls).specs := by
  rw [← ledger_rejectAll_ingest]
  exact ((sorted_ingest separator rows).rejectAll calls).orderly.described

end DataVault.Metadata
