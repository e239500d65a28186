/-
DataVault.Proofs.Metadata.ListCells — the two spellings of a list cell.

A list cell is one text with separators between the items, or a list. When
such a text is cut, blanks around an item change nothing: as long as they are
not separators they are trimmed away, and where the separator is a blank
itself they only give more pieces that are blank. So the cut of a joined text
has the entries of its items, one after another (`cellEntries_intercalate`),
and nothing that is made of a row can tell the two spellings apart: neither
the entity, nor its row, nor any rejection (`ingest_respelled`).
-/
import DataVault.Metadata.Ingest
import DataVault.Proofs.Text.Cutting
import Mathlib.Data.List.Forall2

namespace DataVault.Metadata

open DataVault.Entity DataVault.Text

/-! ## 1. Entries of a text -/

/-- The entries that a text gives when it is cut: its trimmed pieces, but for
the blank ones. -/
def cellEntries (separator : Char) (cs : List Char) : List (List Char) :=
  ((splitChars separator cs).map trimChars).filter (!·.isEmpty)

section
variable {separator : Char}

/-- A blank in front is trimmed away, or ends one more piece that is blank. -/
theorem cellEntries_cons {c : Char} (hc : isBlank c = true) (cs : List Char) :
    cellEntries separator (c :: cs) = cellEntries separator cs := by
  unfold cellEntries
  obtain ⟨piece, pieces, hpieces⟩ := List.exists_cons_of_ne_nil (splitChars_ne_nil separator cs)
  rw [splitChars, hpieces]
  split
  · rfl
  · rw [List.map_cons, List.map_cons, trimChars_cons hc]

theorem cellEntries_append (a b : List Char) :
    cellEntries separator (a ++ separator :: b) =
      cellEntries separator a ++ cellEntries separator b := by
  unfold cellEntries
  rw [splitChars_append, List.map_append, List.filter_append]

theorem cellEntries_of_notMem {cs : List Char} (h : separator ∉ cs) :
    cellEntries separator cs = [trimChars cs].filter (!·.isEmpty) := by
  unfold cellEntries
  rw [splitChars_of_notMem h, List.map_singleton]

/-- A blank behind is trimmed away too: it belongs to the last piece, or is a
separator after which nothing comes. -/
theorem cellEntries_concat {c : Char} (hc : isBlank c = true) (cs : List Char) :
    cellEntries separator (cs ++ [c]) = cellEntries separator cs := by
  by_cases hsep : c = separator
  · subst hsep
    rw [cellEntries_append]
    exact List.append_nil _
  · have hlast : ∀ {last : List Char}, separator ∉ last →
        cellEntries separator (last ++ [c]) = cellEntries separator last := by
      intro last hfree
      have hfree' : separator ∉ last ++ [c] := by
        rw [List.mem_append, List.mem_singleton]
        exact not_or.mpr ⟨hfree, Ne.symm hsep⟩
      rw [cellEntries_of_notMem hfree, cellEntries_of_notMem hfree', trimChars_concat hc]
    rcases splitChars_cases separator cs with hone | ⟨start, last, rfl, hpieces⟩
    · exact hlast (notMem_of_mem_splitChars (hone ▸ List.mem_singleton_self cs))
    · have hmem : last ∈ splitChars separator (start ++ separator :: last) := by
        rw [hpieces]
        exact List.mem_append_right _ (List.mem_singleton_self last)
      rw [List.append_assoc, List.cons_append, cellEntries_append, cellEntries_append,
        hlast (notMem_of_mem_splitChars hmem)]

/-- Blanks around a text, separators among them or not, do not change its
entries. -/
theorem cellEntries_padded {left right : List Char} (hleft : ∀ c ∈ left, isBlank c = true)
    (hright : ∀ c ∈ right, isBlank c = true) (cs : List Char) :
    cellEntries separator (left ++ cs ++ right) = cellEntries separator cs := by
  have hfront : cellEntries separator (left ++ cs) = cellEntries separator cs := by
    induction left with
    | nil => rfl
    | cons c left ih =>
      obtain ⟨hc, hrest⟩ := List.forall_mem_cons.mp hleft
      rw [List.cons_append, cellEntries_cons hc, ih hrest]
  rw [← hfront]
  induction right using List.reverseRecOn with
  | nil => rw [List.append_nil]
  | append_singleton right c ih =>
    obtain ⟨hrest, hc⟩ := List.forall_mem_append.mp hright
    rw [← List.append_assoc, cellEntries_concat (hc c (List.mem_singleton_self c)), ih hrest]

/-- The entries of joined texts are those of each of them. -/
theorem cellEntries_intercalate (texts : List (List Char)) :
    cellEntries separator ([separator].intercalate texts) =
      texts.flatMap (cellEntries separator) := by
  induction texts with
  | nil => rfl
  | cons text texts ih =>
    cases texts with
    | nil => simp
    | cons next texts =>
      rw [List.intercalate_cons_cons, List.append_assoc, List.singleton_append,
        cellEntries_append, ih]
      rfl

end

/-! ## 2. Spellings of a cell -/

/-- The text is the item with blanks around it. -/
def Padded (item text : String) : Prop :=
  ∃ left right : List Char, (∀ c ∈ left, isBlank c = true) ∧ (∀ c ∈ right, isBlank c = true) ∧
    text.toList = left ++ item.toList ++ right

/-- A list of items in which the separator does not occur, left as it is or
joined with separators, with blanks around the items. -/
inductive ListCell.Respelled (separator : Char) : ListCell → ListCell → Prop
  | kept {items : List String} (hfree : ∀ item ∈ items, separator ∉ item.toList) :
      Respelled separator (.items items) (.items items)
  | joined {items padded : List String} {text : String}
      (hfree : ∀ item ∈ items, separator ∉ item.toList)
      (hpadded : List.Forall₂ Padded items padded)
      (htext : text = String.intercalate (String.singleton separator) padded) :
      Respelled separator (.items items) (.joined text)

/-- The row with some of its list cells spelled in the other way. -/
structure Row.Respelled (separator : Char) (row other : Row) : Prop where
  name_eq : other.name = row.name
  kind_eq : other.kind = row.kind
  businessKey : row.businessKey.Respelled separator other.businessKey
  descriptive : row.descriptive.Respelled separator other.descriptive
  source_eq : other.source = row.source

section
variable {separator : Char}

theorem isEmpty_ofList (cs : List Char) : (String.ofList cs).isEmpty = cs.isEmpty := by
  rw [Bool.eq_iff_iff, String.isEmpty_iff, List.isEmpty_iff, ← String.toList_inj,
    String.toList_ofList]
  rfl

theorem entries_joined (text : String) :
    (ListCell.joined text).entries separator =
      (cellEntries separator text.toList).map String.ofList := by
  have htrimmed : ((splitChars separator text.toList).map String.ofList).map trim =
      ((splitChars separator text.toList).map trimChars).map String.ofList := by
    rw [List.map_map, List.map_map]
    refine List.map_congr_left fun cs _ => ?_
    rw [Function.comp_apply, Function.comp_apply, trim, String.toList_ofList]
  unfold ListCell.entries ListCell.pieces splitOn cellEntries
  rw [htrimmed, List.filter_map]
  refine congrArg (List.map String.ofList) (List.filter_congr fun cs _ => ?_)
  rw [Function.comp_apply, isEmpty_ofList]

theorem entries_items {items : List String} (hfree : ∀ item ∈ items, separator ∉ item.toList) :
    (ListCell.items items).entries separator =
      (items.flatMap fun item => cellEntries separator item.toList).map String.ofList := by
  unfold ListCell.entries ListCell.pieces
  induction items with
  | nil => rfl
  | cons item items ih =>
    obtain ⟨hitem, hrest⟩ := List.forall_mem_cons.mp hfree
    rw [List.flatMap_cons, List.map_append, ← ih hrest, cellEntries_of_notMem hitem, List.map_cons,
      List.filter_cons, List.filter_cons]
    simp only [trim, isEmpty_ofList]
    split <;> rfl

theorem flatMap_cellEntries_padded {items padded : List String}
    (h : List.Forall₂ Padded items padded) :
    (padded.map String.toList).flatMap (cellEntries separator) =
      items.flatMap fun item => cellEntries separator item.toList := by
  induction h with
  | nil => rfl
  | cons hpadded _ ih =>
    obtain ⟨left, right, hleft, hright, htext⟩ := hpadded
    rw [List.map_cons, List.flatMap_cons, List.flatMap_cons, htext,
      cellEntries_padded hleft hright, ih]

theorem ListCell.Respelled.entries_eq {cell other : ListCell}
    (h : cell.Respelled separator other) : other.entries separator = cell.entries separator := by
  cases h with
  | kept => rfl
  | joined hfree hpadded htext =>
    rw [entries_joined, entries_items hfree, htext, String.toList_intercalate,
      String.toList_singleton, cellEntries_intercalate, flatMap_cellEntries_padded hpadded]

/-! ## 3. Rows -/

theorem Row.Respelled.toSpec_eq {row other : Row} (h : row.Respelled separator other) :
    other.toSpec separator = row.toSpec separator := by
  unfold Row.toSpec
  rw [h.name_eq, h.kind_eq, h.businessKey.entries_eq, h.descriptive.entries_eq, h.source_eq]

/-- A row that is spelled in another way is accepted or refused as it was. -/
theorem Row.Respelled.add_eq {row other : Row} (h : row.Respelled separator other) (g : Ingested)
    (number : Nat) : g.add separator number other = g.add separator number row := by
  unfold Ingested.add
  rw [h.toSpec_eq, h.name_eq]

end

/-- Whichever of the list cells of some rows are joined into one text, and
whatever blanks are put around the items, the same entities are accepted from
the same rows, and the same rows are rejected for the same reasons. -/
theorem ingest_respelled (separator : Char) (rows others : List Row)
    (h : List.Forall₂ (Row.Respelled separator) rows others) :
    ingest separator others = ingest separator rows := by
  have hfrom : ∀ (g : Ingested) (number : Nat),
      ingestFrom separator g number others = ingestFrom separator g number rows := by
    induction h with
    | nil => exact fun _ _ => rfl
    | cons hrow _ ih =>
      intro g number
      rw [ingestFrom, ingestFrom, hrow.add_eq, ih]
  exact hfrom _ _

/-- Rows as a document gives them. The second one has the name of the first. -/
def listedRows : List Row :=
  [⟨"customer_details", "satellite", .items ["customer_id"], .items ["email", "", "status"],
      "stg.customer"⟩,
   ⟨"CUSTOMER_DETAILS", "hub", .items ["customer_id"], .items [], "stg.customer"⟩]

/-- The same rows with all lists but one in one text each. -/
def joinedRows : List Row :=
  [⟨"customer_details", "satellite", .items ["customer_id"], .joined " email\t| |status\n",
      "stg.customer"⟩,
   ⟨"CUSTOMER_DETAILS", "hub", .joined "customer_id ", .joined "", "stg.customer"⟩]

/-- One row is accepted and the other one is refused, in both spellings. -/
theorem ingest_respelled_repeated :
    ingest '|' joinedRows = ingest '|' listedRows ∧
      (ingest '|' joinedRows).accepted.map Accepted.row = [1] ∧
        (ingest '|' joinedRows).rejections.map Rejection.row = [some 2] := by
  have hblank : isBlank ' ' = true ∧ isBlank '\t' = true ∧ isBlank '\n' = true := ⟨rfl, rfl, rfl⟩
  have hnone : ∀ c ∈ ([] : List Char), isBlank c = true := List.forall_mem_nil _
  have hspace : ∀ c ∈ [' '], isBlank c = true := List.forall_mem_singleton.mpr hblank.1
  have hfields : List.Forall₂ Padded ["email", "", "status"] [" email\t", " ", "status\n"] :=
    .cons ⟨[' '], ['\t'], hspace, List.forall_mem_singleton.mpr hblank.2.1, rfl⟩
      (.cons ⟨[' '], [], hspace, hnone, rfl⟩
        (.cons ⟨[], ['\n'], hnone, List.forall_mem_singleton.mpr hblank.2.2, rfl⟩ .nil))
  have hkey : List.Forall₂ Padded ["customer_id"] ["customer_id "] :=
    .cons ⟨[], [' '], hnone, hspace, rfl⟩ .nil
  have hfirst : Row.Respelled '|' listedRows[0] joinedRows[0] :=
    ⟨rfl, rfl, .kept (by decide), .joined (by decide) hfields (by decide), rfl⟩
  have hsecond : Row.Respelled '|' listedRows[1] joinedRows[1] :=
    ⟨rfl, rfl, .joined (by decide) hkey (by decide), .joined nofun .nil (by decide), rfl⟩
  exact ⟨ingest_respelled '|' listedRows joinedRows (.cons hfirst (.cons hsecond .nil)),
    by decide +kernel, by decide +kernel⟩

end DataVault.Metadata
