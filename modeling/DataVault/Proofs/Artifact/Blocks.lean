/-
DataVault.Proofs.Artifact.Blocks — configuration blocks are read back.

A block is made of entries: a key with a text, with a list of texts, or with a
group of such. Its texts are arbitrary, but they are written as JSON strings,
which end where their closing quote stands, whatever follows. So does all that
is put together from them, lists, entries and groups, since what stands between
two parts differs from what stands behind the last one (`EndsItself.list`). The
text of an artifact therefore gives back its entries and its statement
(`sqlxText_inj`), and the entries, which have different keys, give back what was
written into them (`sameBlock_of_blockOf_eq`).
-/
import DataVault.Artifact.Written
import DataVault.Proofs.Json.Reading
import DataVault.Proofs.Lists
import DataVault.Proofs.Sql.Names

namespace DataVault.Artifact

open DataVault.Json DataVault.Lists DataVault.Sql

/-! ## 1. Texts that end themselves -/

section
variable {α : Type} {P : α → Prop} {write : α → List Char}

/-- What is written for a value tells where it ends, whatever follows, and
which value it was written for. -/
def EndsItself (P : α → Prop) (write : α → List Char) : Prop :=
  ∀ a b, P a → P b → ∀ r t, write a ++ r = write b ++ t → a = b ∧ r = t

/-- Values with marks between them and another mark behind the last one. -/
theorem EndsItself.list (h : EndsItself P write) (sep close : List Char)
    (hmarks : ∀ r t, sep ++ r ≠ close ++ t) :
    EndsItself (fun as : List α => as ≠ [] ∧ ∀ a ∈ as, P a)
      fun as => sep.intercalate (as.map write) ++ close := by
  rintro as bs ⟨hne, has⟩ ⟨hne', hbs⟩ r t heq
  simp only [List.append_assoc] at heq
  induction as generalizing bs with
  | nil => exact absurd rfl hne
  | cons a as ih =>
    obtain ⟨b, bs, rfl⟩ := List.exists_cons_of_ne_nil hne'
    obtain ⟨ha, hrestA⟩ := List.forall_mem_cons.mp has
    obtain ⟨hb, hrestB⟩ := List.forall_mem_cons.mp hbs
    cases as with
    | nil =>
      cases bs with
      | nil =>
        obtain ⟨rfl, hrest⟩ := h a b ha hb _ _ (by simpa using heq)
        exact ⟨rfl, List.append_cancel_left hrest⟩
      | cons b' bs =>
        obtain ⟨-, hrest⟩ := h a b ha hb _ _ (by simpa using heq)
        exact absurd hrest.symm (hmarks _ _)
    | cons a' as =>
      cases bs with
      | nil =>
        obtain ⟨-, hrest⟩ := h a b ha hb _ _ (by simpa using heq)
        exact absurd hrest (hmarks _ _)
      | cons b' bs =>
        simp only [List.map_cons, List.intercalate_cons_cons, List.append_assoc] at heq ih
        obtain ⟨rfl, hrest⟩ := h a b ha hb _ _ heq
        obtain ⟨hsame, hbehind⟩ :=
          ih (b' :: bs) (List.cons_ne_nil _ _) hrestA (List.cons_ne_nil _ _) hrestB
            (List.append_cancel_left hrest)
        exact ⟨congrArg (a :: ·) hsame, hbehind⟩

/-- The same, for fewer values and in other words. -/
theorem EndsItself.of_eq {Q : α → Prop} {other : α → List Char} (h : EndsItself P write)
    (hQ : ∀ a, Q a → P a) (heq : ∀ a, other a = write a) : EndsItself Q other := by
  intro a b ha hb r t hsame
  rw [heq, heq] at hsame
  exact h a b (hQ a ha) (hQ b hb) r t hsame

/-- A fixed text in front of what is written. -/
theorem EndsItself.after (h : EndsItself P write) (front : List Char) :
    EndsItself P fun a => front ++ write a := by
  intro a b ha hb r t heq
  simp only [List.append_assoc] at heq
  exact h a b ha hb r t (List.append_cancel_left heq)

end

/-- A JSON string ends at the quote that closes it. -/
theorem endsItself_stringText :
    EndsItself (fun _ => True) fun s : String => (stringText s).toList := by
  intro a b _ _ r t h
  have hread : ∀ (s : String) (rest : List Char), (stringText s).toList ++ rest =
      '"' :: (s.toList.flatMap stringPiece ++ '"' :: rest) := by
    intro s rest
    rw [stringText, String.toList_ofList]
    simp
  rw [hread, hread, List.cons.injEq] at h
  have hpieces := congrArg pieces? h.2
  rw [pieces?_written, pieces?_written, Option.some.injEq, Prod.mk.injEq] at hpieces
  have htexts := congrArg textOf? hpieces.1
  rw [textOf?_pieceOf, textOf?_pieceOf] at htexts
  exact ⟨Option.some.inj htexts, hpieces.2⟩

theorem endsItself_listText :
    EndsItself (fun texts : List String => texts ≠ []) fun texts => (listText texts).toList := by
  refine ((endsItself_stringText.list ", ".toList [']'] nofun).after ['[']).of_eq
    (fun texts hne => ⟨hne, fun _ _ => trivial⟩) fun texts => ?_
  rw [listText, String.toList_append, String.toList_append, String.toList_intercalate,
    List.map_map, List.append_assoc]
  rfl

/-! ## 2. Entries -/

/-- What stands under a key. -/
inductive BlockValue where
  | text (s : String)
  | list (texts : List String)

namespace BlockValue

def written : BlockValue → String
  | text s => stringText s
  | list texts => listText texts

/-- A list that is written has something in it. -/
def Proper : BlockValue → Prop
  | text _ => True
  | list texts => texts ≠ []

/-- The sign that a written value begins with. -/
def opening : BlockValue → Char
  | text _ => '"'
  | list _ => '['

theorem exists_opening (v : BlockValue) : ∃ rest, v.written.toList = v.opening :: rest := by
  cases v with
  | text s => exact ⟨_, String.toList_ofList⟩
  | list texts =>
    refine ⟨(", ".intercalate (texts.map stringText)).toList ++ "]".toList, ?_⟩
    rw [written, listText, String.toList_append, String.toList_append]
    rfl

theorem opening_ne_brace (v : BlockValue) : v.opening ≠ '\x7b' := by
  cases v with
  | text s => exact show '"' ≠ '\x7b' by decide
  | list texts => exact show '[' ≠ '\x7b' by decide

/-- The first sign of a written value says of which sort it is. -/
theorem opening_eq {v w : BlockValue} {r t : List Char}
    (h : v.written.toList ++ r = w.written.toList ++ t) : v.opening = w.opening := by
  obtain ⟨rest, hrest⟩ := v.exists_opening
  obtain ⟨rest', hrest'⟩ := w.exists_opening
  rw [hrest, hrest'] at h
  exact (List.cons.inj h).1

theorem endsItself : EndsItself Proper fun v => v.written.toList := by
  intro v w hv hw r t h
  have hsort := opening_eq h
  cases v with
  | text s =>
    cases w with
    | text s' =>
      obtain ⟨rfl, hrest⟩ := endsItself_stringText s s' trivial trivial r t h
      exact ⟨rfl, hrest⟩
    | list texts => exact absurd hsort (show '"' ≠ '[' by decide)
  | list texts =>
    cases w with
    | text s => exact absurd hsort (show '[' ≠ '"' by decide)
    | list texts' =>
      obtain ⟨rfl, hrest⟩ := endsItself_listText texts texts' hv hw r t h
      exact ⟨rfl, hrest⟩

end BlockValue

/-- The key is a word. -/
def IsKey (key : String) : Prop := ∀ c ∈ key.toList, Ident.isPart c = true

instance (key : String) : Decidable (IsKey key) := List.decidableBAll _ _

/-- A word ends before the colon behind it. -/
theorem key_append_inj {key key' : String} (hkey : IsKey key) (hkey' : IsKey key') {r t : List Char}
    (h : key.toList ++ ':' :: r = key'.toList ++ ':' :: t) : key = key' ∧ r = t := by
  have hcolon : ∀ rest : List Char, ∀ c ∈ (':' :: rest).head?, Ident.isPart c = false := by
    rintro rest _ ⟨⟩
    decide
  obtain ⟨hsame, hrest⟩ := append_inj_of_all hkey hkey' (hcolon r) (hcolon t) h
  exact ⟨String.toList_inj.mp hsame, (List.cons.inj hrest).2⟩

/-- A key with a value. -/
abbrev BlockLine := String × BlockValue

namespace BlockLine

def written (l : BlockLine) : String := l.1 ++ ": " ++ l.2.written

def Proper (l : BlockLine) : Prop := IsKey l.1 ∧ l.2.Proper

theorem written_append (l : BlockLine) (rest : List Char) : (written l).toList ++ rest =
    l.1.toList ++ ':' :: ' ' :: (l.2.written.toList ++ rest) := by
  rw [written, String.toList_append, String.toList_append, List.append_assoc, List.append_assoc]
  rfl

theorem endsItself : EndsItself Proper fun l => (written l).toList := by
  rintro ⟨key, v⟩ ⟨key', w⟩ ⟨hkey, hv⟩ ⟨hkey', hw⟩ r t h
  simp only [written_append] at h
  obtain ⟨rfl, hvalue⟩ := key_append_inj hkey hkey' h
  obtain ⟨rfl, hrest⟩ := BlockValue.endsItself v w hv hw r t (List.cons.inj hvalue).2
  exact ⟨rfl, hrest⟩

end BlockLine

/-- An entry of a block: a line, or a group of lines under a key. -/
inductive BlockEntry where
  | line (l : BlockLine)
  | group (key : String) (lines : List BlockLine)

namespace BlockEntry

def key : BlockEntry → String
  | line l => l.1
  | group key _ => key

def written : BlockEntry → String
  | line l => BlockLine.written l
  | group key lines => groupText key (lines.map BlockLine.written)

/-- A group that is written has something in it. -/
def Proper : BlockEntry → Prop
  | line l => BlockLine.Proper l
  | group key lines => IsKey key ∧ lines ≠ [] ∧ ∀ l ∈ lines, BlockLine.Proper l

/-- The lines of a group, up to the brace that closes it. -/
def groupLines (lines : List BlockLine) : List Char :=
  ",\n    ".toList.intercalate (lines.map fun l => (BlockLine.written l).toList) ++
    "\n  \x7d".toList

theorem endsItself_groupLines :
    EndsItself (fun lines => lines ≠ [] ∧ ∀ l ∈ lines, BlockLine.Proper l) groupLines :=
  BlockLine.endsItself.list _ _ nofun

theorem group_append (key : String) (lines : List BlockLine) (rest : List Char) :
    (group key lines).written.toList ++ rest =
      key.toList ++ ':' :: ' ' :: '\x7b' :: ("\n    ".toList ++ (groupLines lines ++ rest)) := by
  rw [written, groupText, String.toList_append, String.toList_append, String.toList_append,
    String.toList_intercalate, List.map_map]
  simp only [List.append_assoc, groupLines]
  rfl

/-- A group is told from a line by the brace that opens it. -/
theorem line_ne_group {l : BlockLine} {key : String} {lines : List BlockLine} {r t : List Char}
    (hl : IsKey l.1) (hkey : IsKey key) :
    (line l).written.toList ++ r ≠ (group key lines).written.toList ++ t := by
  intro h
  obtain ⟨rest, hrest⟩ := l.2.exists_opening
  rw [group_append, written, BlockLine.written_append, hrest] at h
  have hopening := (List.cons.inj (List.cons.inj (key_append_inj hl hkey h).2).2).1
  exact l.2.opening_ne_brace hopening

theorem endsItself : EndsItself Proper fun e => e.written.toList := by
  intro e f he hf r t h
  cases e with
  | line l =>
    cases f with
    | line l' =>
      obtain ⟨rfl, hrest⟩ := BlockLine.endsItself l l' he hf r t h
      exact ⟨rfl, hrest⟩
    | group key lines => exact absurd h (line_ne_group he.1 hf.1)
  | group key lines =>
    cases f with
    | line l => exact absurd h.symm (line_ne_group hf.1 he.1)
    | group key' lines' =>
      simp only [group_append] at h
      obtain ⟨rfl, hbrace⟩ := key_append_inj he.1 hf.1 h
      have hlines := List.append_cancel_left (List.cons.inj (List.cons.inj hbrace).2).2
      obtain ⟨rfl, hrest⟩ := endsItself_groupLines lines lines' he.2 hf.2 r t hlines
      exact ⟨rfl, hrest⟩

end BlockEntry

/-! ## 3. The block of an artifact -/

/-- A member that is left out when there is nothing in it. -/
def memberUnlessEmpty {α β : Type} (items : List α) (b : β) : List β :=
  if items.isEmpty then [] else [b]

section
variable {α β γ : Type} {items items' : List α}

theorem map_memberUnlessEmpty (f : β → γ) (b : β) :
    (memberUnlessEmpty items b).map f = memberUnlessEmpty items (f b) := by
  unfold memberUnlessEmpty
  split <;> rfl

theorem memberUnlessEmpty_map (f : γ → α) (as : List γ) (b : β) :
    memberUnlessEmpty (as.map f) b = memberUnlessEmpty as b := by
  unfold memberUnlessEmpty
  rw [List.isEmpty_map]

theorem unlessEmpty_eq (entry : String) : unlessEmpty items entry = memberUnlessEmpty items entry :=
  rfl

theorem filter_memberUnlessEmpty (p : β → Bool) (b : β) :
    (memberUnlessEmpty items b).filter p = if p b then memberUnlessEmpty items b else [] := by
  unfold memberUnlessEmpty
  cases hp : p b <;> split <;> simp [hp]

/-- A member that gives back what is in it does so also where it is left out. -/
theorem memberUnlessEmpty_inj {b b' : β} (hmember : b = b' → items = items')
    (h : memberUnlessEmpty items b = memberUnlessEmpty items' b') : items = items' := by
  unfold memberUnlessEmpty at h
  cases items with
  | nil =>
    cases items' with
    | nil => rfl
    | cons => cases h
  | cons =>
    cases items' with
    | nil => cases h
    | cons => exact hmember (List.singleton_inj.mp h)

theorem forall_mem_memberUnlessEmpty {P : β → Prop} {b : β} (h : items ≠ [] → P b) :
    ∀ x ∈ memberUnlessEmpty items b, P x := by
  unfold memberUnlessEmpty
  split
  · nofun
  · next hne => exact List.forall_mem_singleton.mpr (h fun hnil => hne (hnil ▸ rfl))

end

/-- What the warehouse is told. -/
def Header.warehouseLines (h : Header) : List BlockLine :=
  (h.partitionBy.map fun text => ("partitionBy", .text text)).toList ++
    memberUnlessEmpty h.clusterBy ("clusterBy", .list h.clusterBy)

/-- The columns with their descriptions. -/
def Header.columnLines (h : Header) : List BlockLine :=
  h.columns.map fun (name, doc) => (name, .text doc)

/-- The entries of the block of an artifact. -/
def blockOf (a : Artifact) : List BlockEntry :=
  [.line ("type", .text a.buildType), .line ("name", .text a.targetName.text),
    .line ("schema", .text a.header.schema)] ++
  memberUnlessEmpty a.header.description.toList
    (.line ("description", .text a.header.description)) ++
  memberUnlessEmpty a.header.tags (.line ("tags", .list a.header.tags)) ++
  memberUnlessEmpty a.header.warehouseLines (.group "bigquery" a.header.warehouseLines) ++
  memberUnlessEmpty a.header.columns (.group "columns" a.header.columnLines)

theorem warehouseEntries_eq (h : Header) :
    h.warehouseEntries = h.warehouseLines.map BlockLine.written := by
  unfold Header.warehouseEntries Header.warehouseLines
  rw [List.map_append, map_memberUnlessEmpty]
  cases h.partitionBy <;> rfl

theorem blockEntries_eq (a : Artifact) : a.blockEntries = (blockOf a).map BlockEntry.written := by
  have hcolumns : a.header.columns.map (fun (name, doc) => name ++ ": " ++ stringText doc) =
      a.header.columnLines.map BlockLine.written := by
    rw [Header.columnLines, List.map_map]
    rfl
  have hempty : ∀ entry : String, memberUnlessEmpty a.header.columnLines entry =
      memberUnlessEmpty a.header.columns entry := memberUnlessEmpty_map _ _
  unfold Artifact.blockEntries blockOf
  simp only [unlessEmpty_eq, hcolumns, warehouseEntries_eq, memberUnlessEmpty_map, hempty,
    List.map_append, map_memberUnlessEmpty]
  rfl

/-- The columns are documented under identifiers. -/
def Header.NamesColumns (h : Header) : Prop :=
  ∀ column ∈ h.columns, ∃ name : Ident, name.text = column.1

theorem Header.NamesColumns.isKey {h : Header} (hnames : h.NamesColumns) :
    ∀ column ∈ h.columns, IsKey column.1 := by
  intro column hcolumn
  obtain ⟨name, hname⟩ := hnames column hcolumn
  exact hname ▸ fun _ hc => isPart_of_mem hc

theorem proper_warehouseLines (h : Header) : ∀ l ∈ h.warehouseLines, BlockLine.Proper l := by
  refine List.forall_mem_append.mpr ⟨?_, ?_⟩
  · intro l hl
    obtain ⟨text, -, rfl⟩ := Option.map_eq_some_iff.mp (Option.mem_toList.mp hl)
    exact ⟨show IsKey "partitionBy" by decide, trivial⟩
  · exact forall_mem_memberUnlessEmpty fun hne => ⟨show IsKey "clusterBy" by decide, hne⟩

theorem proper_blockOf {a : Artifact} (h : a.header.NamesColumns) :
    ∀ e ∈ blockOf a, BlockEntry.Proper e := by
  have hlines : ∀ e ∈ [BlockEntry.line ("type", .text a.buildType),
      .line ("name", .text a.targetName.text), .line ("schema", .text a.header.schema)],
      e.Proper := by
    simp only [List.forall_mem_cons, List.not_mem_nil, false_imp_iff, implies_true, and_true]
    exact ⟨⟨show IsKey "type" by decide, trivial⟩, ⟨show IsKey "name" by decide, trivial⟩,
      show IsKey "schema" by decide, trivial⟩
  have hcolumns : ∀ l ∈ a.header.columnLines, BlockLine.Proper l :=
    List.forall_mem_map.mpr fun column hcolumn => ⟨h.isKey column hcolumn, trivial⟩
  unfold blockOf
  simp only [List.forall_mem_append]
  refine ⟨⟨⟨⟨hlines, ?_⟩, ?_⟩, ?_⟩, ?_⟩
  · exact forall_mem_memberUnlessEmpty fun _ => ⟨show IsKey "description" by decide, trivial⟩
  · exact forall_mem_memberUnlessEmpty fun hne => ⟨show IsKey "tags" by decide, hne⟩
  · exact forall_mem_memberUnlessEmpty fun hne =>
      ⟨show IsKey "bigquery" by decide, hne, proper_warehouseLines a.header⟩
  · exact forall_mem_memberUnlessEmpty fun hne =>
      ⟨show IsKey "columns" by decide, fun hnil => hne (List.map_eq_nil_iff.mp hnil), hcolumns⟩

theorem toList_sqlxText (a : Artifact) : a.sqlxText.toList =
    "config \x7b\n  ".toList ++
      (",\n  ".toList.intercalate ((blockOf a).map fun e => e.written.toList) ++
        "\n\x7d\n\n".toList) ++ a.body.toList := by
  unfold Artifact.sqlxText
  rw [blockEntries_eq]
  simp only [String.toList_append, String.toList_intercalate, List.map_map, List.append_assoc]
  rfl

theorem sqlxText_inj {a b : Artifact} (ha : a.header.NamesColumns) (hb : b.header.NamesColumns)
    (h : a.sqlxText = b.sqlxText) : blockOf a = blockOf b ∧ a.body = b.body := by
  have htext := congrArg String.toList h
  rw [toList_sqlxText, toList_sqlxText] at htext
  have hends := (BlockEntry.endsItself.list ",\n  ".toList "\n\x7d\n\n".toList nofun).after
    "config \x7b\n  ".toList
  obtain ⟨hblock, hbody⟩ := hends (blockOf a) (blockOf b) ⟨List.cons_ne_nil _ _, proper_blockOf ha⟩
    ⟨List.cons_ne_nil _ _, proper_blockOf hb⟩ _ _ htext
  exact ⟨hblock, String.toList_inj.mp hbody⟩

/-- Two artifacts are built and documented alike. -/
structure SameBlock (a b : Artifact) : Prop where
  buildType : a.buildType = b.buildType
  targetName : a.targetName = b.targetName
  schema : a.header.schema = b.header.schema
  description : a.header.description = b.header.description
  tags : a.header.tags = b.header.tags
  partitionBy : a.header.partitionBy = b.header.partitionBy
  clusterBy : a.header.clusterBy = b.header.clusterBy
  columns : a.header.columns = b.header.columns

theorem columnLines_inj {h h' : Header} (heq : h.columnLines = h'.columnLines) :
    h.columns = h'.columns := by
  refine List.map_injective_iff.mpr ?_ heq
  rintro ⟨name, doc⟩ ⟨name', doc'⟩ hline
  cases hline
  rfl

/-- A line under another key does not stand in the place of a member. -/
theorem cons_ne_memberUnlessEmpty {items : List String} {l l' : BlockLine} (hkey : l.1 ≠ l'.1)
    (rest : List BlockLine) : l :: rest ≠ memberUnlessEmpty items l' := by
  unfold memberUnlessEmpty
  split
  · nofun
  · intro h
    exact hkey (congrArg Prod.fst (List.cons.inj h).1)

theorem warehouseLines_inj {h h' : Header} (heq : h.warehouseLines = h'.warehouseLines) :
    h.partitionBy = h'.partitionBy ∧ h.clusterBy = h'.clusterBy := by
  have hcluster : ∀ {texts texts' : List String},
      memberUnlessEmpty texts (("clusterBy", .list texts) : BlockLine) =
        memberUnlessEmpty texts' ("clusterBy", .list texts') → texts = texts' :=
    memberUnlessEmpty_inj fun hline => BlockValue.list.inj (Prod.mk.inj hline).2
  have hkeys : "partitionBy" ≠ "clusterBy" := by decide
  unfold Header.warehouseLines at heq
  cases hp : h.partitionBy with
  | none =>
    cases hp' : h'.partitionBy with
    | none =>
      rw [hp, hp'] at heq
      exact ⟨rfl, hcluster heq⟩
    | some p' =>
      rw [hp, hp'] at heq
      exact absurd heq.symm (cons_ne_memberUnlessEmpty hkeys _)
  | some p =>
    cases hp' : h'.partitionBy with
    | none =>
      rw [hp, hp'] at heq
      exact absurd heq (cons_ne_memberUnlessEmpty hkeys _)
    | some p' =>
      rw [hp, hp'] at heq
      obtain ⟨hline, hrest⟩ := List.cons.inj heq
      exact ⟨congrArg some (BlockValue.text.inj (Prod.mk.inj hline).2), hcluster hrest⟩

/-- The entries have different keys, so each part is found by its own. -/
theorem sameBlock_of_blockOf_eq {a b : Artifact} (h : blockOf a = blockOf b) : SameBlock a b := by
  have hpart : ∀ key : String,
      (blockOf a).filter (·.key == key) = (blockOf b).filter (·.key == key) :=
    fun key => congrArg (List.filter (·.key == key)) h
  have hdescription := hpart "description"
  have htags := hpart "tags"
  have hwarehouse := hpart "bigquery"
  have hcolumns := hpart "columns"
  simp only [blockOf, filter_memberUnlessEmpty, BlockEntry.key, List.filter_append,
    List.filter_cons, List.filter_nil, String.reduceBEq, Bool.false_eq_true, if_false, if_true,
    List.nil_append, List.append_nil] at hdescription htags hwarehouse hcolumns
  unfold blockOf at h
  simp only [List.cons_append, List.cons.injEq, BlockEntry.line.injEq, Prod.mk.injEq,
    BlockValue.text.injEq, true_and] at h
  obtain ⟨htype, hname, hschema, -⟩ := h
  have hlines : a.header.warehouseLines = b.header.warehouseLines :=
    memberUnlessEmpty_inj (fun hgroup => (BlockEntry.group.inj hgroup).2) hwarehouse
  exact {
    buildType := htype
    targetName := Ident.ext_text hname
    schema := hschema
    description := String.toList_inj.mp (memberUnlessEmpty_inj (fun hline =>
      congrArg String.toList (BlockValue.text.inj (Prod.mk.inj (BlockEntry.line.inj hline)).2))
      hdescription)
    tags := memberUnlessEmpty_inj
      (fun hline => BlockValue.list.inj (Prod.mk.inj (BlockEntry.line.inj hline)).2) htags
    partitionBy := (warehouseLines_inj hlines).1
    clusterBy := (warehouseLines_inj hlines).2
    columns := memberUnlessEmpty_inj
      (fun hgroup => columnLines_inj (BlockEntry.group.inj hgroup).2) hcolumns }

end DataVault.Artifact
