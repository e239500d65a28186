/-
DataVault.Proofs.Generate.WrittenHeaders — a file tells its header from its body.

In the format of blocks this holds of every artifact, since a block is read back
(`Proofs.Artifact.Blocks`). In the format of comment lines it does not: a line
shows most texts of a header as they are, and one of them that had a line break
in it would go on outside of the comment. Descriptions are brought onto one line
(`unbroken_oneLine`). The other texts that a generator puts into a header are
names, or names between constants, whatever the settings and the entity are
(`unbroken_of_dispatch`), so each comment line of a generated artifact stays one
(`written_apart`).
-/
import DataVault.Proofs.Artifact.Blocks
import DataVault.Proofs.Generate.ColumnNames
import DataVault.Proofs.Text.Cutting

namespace DataVault.Artifact

open DataVault.Sql DataVault.Text

/-! ## 1. Texts without line breaks -/

/-- The blanks of the text are spaces, so none of them begins another line. -/
def Unbroken (text : String) : Prop := ∀ c ∈ text.toList, isBlank c = true → c = ' '

instance : DecidablePred Unbroken :=
  fun text => List.decidableBAll (fun c => isBlank c = true → c = ' ') text.toList

theorem Unbroken.append {a b : String} (ha : Unbroken a) (hb : Unbroken b) : Unbroken (a ++ b) := by
  unfold Unbroken
  rw [String.toList_append]
  exact List.forall_mem_append.mpr ⟨ha, hb⟩

theorem Unbroken.intercalate {glue : String} (hglue : Unbroken glue) {texts : List String}
    (h : ∀ text ∈ texts, Unbroken text) : Unbroken (String.intercalate glue texts) :=
  forall_mem_intercalate hglue h

theorem unbroken_ident (name : Ident) : Unbroken name.text := by
  intro c hc hblank
  rw [isBlank_ident name c hc] at hblank
  cases hblank

theorem unbroken_oneLine (s : String) : Unbroken (oneLine s) := by
  have hwords : ∀ word ∈ wordsFrom [] s.toList, ∀ c ∈ word, isBlank c = false :=
    forall_mem_wordsFrom (List.forall_mem_nil _)
  refine .intercalate (by decide) (List.forall_mem_map.mpr fun word hword c hc hblank => ?_)
  rw [String.toList_ofList] at hc
  rw [hwords word hword c hc] at hblank
  cases hblank

/-! ## 2. Comment lines -/

/-- The line is a comment: two dashes, and a text without line breaks. -/
def CommentLine (line : String) : Prop := ∃ text, line = "--" ++ text ∧ Unbroken text

theorem CommentLine.append {line text : String} (hline : CommentLine line) (h : Unbroken text) :
    CommentLine (line ++ text) := by
  obtain ⟨start, rfl, hstart⟩ := hline
  exact ⟨start ++ text, String.append_assoc, hstart.append h⟩

/-- What a header shows as it is has no line breaks. -/
structure Header.Unbroken (h : Header) : Prop where
  schema : Artifact.Unbroken h.schema
  tags : ∀ tag ∈ h.tags, Artifact.Unbroken tag
  partitionBy : ∀ text ∈ h.partitionBy, Artifact.Unbroken text
  clusterBy : ∀ text ∈ h.clusterBy, Artifact.Unbroken text
  columns : h.NamesColumns

theorem unbroken_buildType (a : Artifact) : Unbroken a.buildType := by
  unfold Artifact.buildType
  split <;> decide

/-- The descriptions may hold anything. -/
theorem commentLine_of_mem {a : Artifact} (h : a.header.Unbroken) :
    ∀ line ∈ a.commentLines, CommentLine line := by
  have hcomma : Unbroken ", " := by decide
  have htitle : CommentLine
      ("-- " ++ a.header.schema ++ "." ++ a.targetName.text ++ " (" ++ a.buildType ++ ")") := by
    have hstart : CommentLine "-- " := ⟨" ", rfl, by decide⟩
    exact (((((hstart.append h.schema).append (by decide)).append (unbroken_ident _)).append
      (by decide)).append (unbroken_buildType a)).append (by decide)
  unfold Artifact.commentLines
  simp only [unlessEmpty_eq, List.forall_mem_append]
  refine ⟨⟨⟨⟨⟨List.forall_mem_singleton.mpr htitle, ?_⟩, ?_⟩, ?_⟩, ?_⟩, ?_⟩
  · refine forall_mem_memberUnlessEmpty fun _ => ?_
    exact CommentLine.append ⟨" ", rfl, by decide⟩ (unbroken_oneLine _)
  · refine forall_mem_memberUnlessEmpty fun _ => ?_
    exact CommentLine.append ⟨" tags: ", rfl, by decide⟩ (hcomma.intercalate h.tags)
  · intro line hline
    obtain ⟨text, htext, rfl⟩ := Option.map_eq_some_iff.mp (Option.mem_toList.mp hline)
    exact CommentLine.append ⟨" partition by: ", rfl, by decide⟩ (h.partitionBy text htext)
  · refine forall_mem_memberUnlessEmpty fun _ => ?_
    exact CommentLine.append ⟨" cluster by: ", rfl, by decide⟩ (hcomma.intercalate h.clusterBy)
  · refine List.forall_mem_map.mpr fun column hcolumn => ?_
    obtain ⟨name, hname⟩ := h.columns column hcolumn
    have hindent : CommentLine "--   " := ⟨"   ", rfl, by decide⟩
    exact ((hindent.append (hname ▸ unbroken_ident name)).append (by decide)).append
      (unbroken_oneLine _)

/-! ## 3. Documented columns -/

/-- The columns are documented under the names of the entries. -/
theorem forall_fst_ofList {P : String → Prop} {entries : List (String × String)}
    (h : ∀ entry ∈ entries, P entry.1) : ∀ column ∈ ColumnDocs.ofList entries, P column.1 := by
  have hput : ∀ (docs : ColumnDocs) (name doc : String), (∀ column ∈ docs, P column.1) → P name →
      ∀ column ∈ putColumn docs name doc, P column.1 := by
    intro docs name doc hdocs hname
    rw [← List.forall_mem_map (P := P)] at hdocs ⊢
    rw [map_fst_putColumn]
    split
    · exact hdocs
    · exact List.forall_mem_append.mpr ⟨hdocs, List.forall_mem_singleton.mpr hname⟩
  unfold ColumnDocs.ofList
  generalize hstart : ([] : ColumnDocs) = docs
  have hdocs : ∀ column ∈ docs, P column.1 := hstart ▸ List.forall_mem_nil _
  clear hstart
  induction entries generalizing docs with
  | nil => exact hdocs
  | cons entry entries ih =>
    obtain ⟨hentry, hrest⟩ := List.forall_mem_cons.mp h
    exact ih hrest _ (hput docs entry.1 entry.2 hdocs hentry)

end DataVault.Artifact

namespace DataVault.Generate

open DataVault.Artifact DataVault.Entity DataVault.Guard DataVault.Lists DataVault.Results
  DataVault.Sql

/-! ## 4. Generated headers -/

/-- The descriptions are those of identifiers. -/
def NamesIdents (docs : List (String × String)) : Prop :=
  ∀ doc ∈ docs, ∃ name : Ident, name.text = doc.1

section
variable {s : Settings} {spec : EntitySpec}

theorem NamesIdents.append {a b : List (String × String)} (ha : NamesIdents a)
    (hb : NamesIdents b) : NamesIdents (a ++ b) :=
  List.forall_mem_append.mpr ⟨ha, hb⟩

theorem NamesIdents.cons {docs : List (String × String)} (name : Ident) (doc : String)
    (h : NamesIdents docs) : NamesIdents ((name.text, doc) :: docs) :=
  List.forall_mem_cons.mpr ⟨⟨name, rfl⟩, h⟩

theorem namesIdents_zipWith (doc : Ident → Ident → String) : ∀ fields names : List Ident,
    NamesIdents (List.zipWith (fun field name => (name.text, doc field name)) fields names)
  | [], _ => List.forall_mem_nil _
  | _ :: _, [] => List.forall_mem_nil _
  | _ :: fields, name :: names => .cons name _ (namesIdents_zipWith doc fields names)

theorem namesIdents_loadDocs : NamesIdents s.loadDocs :=
  .cons _ _ (.cons _ _ (List.forall_mem_nil _))

theorem namesIdents_hubDocs (n : HubNames) : NamesIdents (hubDocs s spec n) :=
  .cons _ _ ((namesIdents_zipWith _ _ _).append namesIdents_loadDocs)

theorem namesIdents_linkDocs (n : LinkNames) : NamesIdents (linkDocs s spec n) :=
  .cons _ _ (((namesIdents_zipWith _ _ _).append (namesIdents_zipWith _ _ _)).append
    namesIdents_loadDocs)

theorem namesIdents_baseDocs (n : SatelliteNames) : NamesIdents (baseDocs s spec n) :=
  .cons _ _ (((namesIdents_zipWith _ _ _).append
    (List.forall_mem_map.mpr fun field _ => ⟨field, rfl⟩)).append
      (.cons _ _ namesIdents_loadDocs))

theorem unbroken_kindName (kind : EntityKind) : Unbroken kind.name := by
  cases kind <;> decide

theorem unbroken_partitionText : Unbroken s.partitionText := by
  unfold Settings.partitionText
  cases s.loadPrecision with
  | timestamp => exact (Unbroken.append (by decide) (unbroken_ident _)).append (by decide)
  | date => exact unbroken_ident _

theorem unbroken_header {extraTags : List String} (htags : ∀ tag ∈ extraTags, Unbroken tag)
    {docs : List (String × String)} (hdocs : NamesIdents docs) (kind : ArtifactKind)
    (cluster : List Ident) (description : String) :
    (s.header spec kind cluster extraTags description docs).Unbroken := by
  have hconstant : Unbroken "datavault" := by decide
  constructor
  · exact unbroken_ident s.schema
  · exact List.forall_mem_cons.mpr
      ⟨unbroken_kindName spec.kind, List.forall_mem_cons.mpr ⟨hconstant, htags⟩⟩
  · intro text htext
    simp only [Settings.header] at htext
    split at htext
    · exact Option.some.inj htext ▸ unbroken_partitionText
    · cases htext
  · simp only [Settings.header]
    split
    · exact List.forall_mem_map.mpr fun name _ => unbroken_ident name
    · exact List.forall_mem_nil _
  · exact forall_fst_ofList (P := fun column => ∃ name : Ident, name.text = column) hdocs

theorem Generated.unbroken {ls : List Layout} {artifacts : List Artifact}
    (h : Generated s spec ls artifacts) : ∀ a ∈ artifacts, a.header.Unbroken := by
  cases h with
  | hub _ _ _ hheader =>
    obtain ⟨description, hheader⟩ := hheader
    refine List.forall_mem_singleton.mpr (hheader ▸ ?_)
    exact unbroken_header (List.forall_mem_nil _) (namesIdents_hubDocs _) _ _ _
  | link _ _ _ hheader =>
    obtain ⟨description, hheader⟩ := hheader
    refine List.forall_mem_singleton.mpr (hheader ▸ ?_)
    exact unbroken_header (List.forall_mem_nil _) (namesIdents_linkDocs _) _ _ _
  | satellite _ _ _ hbase hmerges =>
    simp only [baseArtifact, bind_eq_ok_iff, pure_eq_ok_iff] at hbase
    obtain ⟨target, -, rfl⟩ := hbase
    refine List.forall_mem_cons.mpr ⟨?_, ?_⟩
    · exact unbroken_header (by decide) (namesIdents_baseDocs _) _ _ _
    · rcases hmerges with ⟨-, -, rfl⟩ | ⟨merge, hmerge, -, -, rfl⟩
      · exact List.forall_mem_nil _
      · simp only [mergeArtifact, bind_eq_ok_iff, pure_eq_ok_iff] at hmerge
        obtain ⟨target, -, rfl⟩ := hmerge
        exact List.forall_mem_singleton.mpr
          (unbroken_header (by decide) (List.forall_mem_nil _) _ _ _)

theorem unbroken_of_dispatch {specs : List EntitySpec} {a : Artifact}
    (ha : a ∈ (dispatch s specs).artifacts) : a.header.Unbroken := by
  obtain ⟨spec, -, hspec⟩ := List.mem_flatMap.mp ha
  unfold artifactsOf at hspec
  split at hspec
  · next artifacts hgenerated =>
    obtain ⟨ls, -, h⟩ := generated_of_generate hgenerated
    exact h.unbroken a hspec
  · cases hspec

end

/-! ## 5. Files -/

/-- A file with a block determines how the artifact is built and documented, and
its body. A file with comment lines, of an artifact that is generated, consists of
comments, an empty line and the body. -/
theorem written_apart :
    (∀ a b : Artifact, a.header.NamesColumns → b.header.NamesColumns →
      a.written .sqlx = b.written .sqlx → SameBlock a b ∧ a.body = b.body) ∧
    ∀ (s : Settings) (specs : List EntitySpec), ∀ a ∈ (dispatch s specs).artifacts,
      ∃ lines : List String, (∀ line ∈ lines, CommentLine line) ∧
        a.written .sql = String.join (lines.map (· ++ "\n")) ++ "\n" ++ a.body := by
  refine ⟨fun a b ha hb hsame => ?_, fun s specs a ha => ?_⟩
  · obtain ⟨hblock, hbody⟩ := sqlxText_inj ha hb hsame
    exact ⟨sameBlock_of_blockOf_eq hblock, hbody⟩
  · exact ⟨a.commentLines, commentLine_of_mem (unbroken_of_dispatch ha), rfl⟩

/-- A snapshot, and the same with another role, which is not written anywhere. -/
theorem written_apart_snapshot :
    ∃ a ∈ (dispatch .standard [sampleSpec]).artifacts, ∃ b, b ≠ a ∧
      a.header.NamesColumns ∧ b.header.NamesColumns ∧ a.written .sqlx = b.written .sqlx ∧
      (SameBlock a b ∧ a.body = b.body) ∧
      ∃ lines : List String, (∀ line ∈ lines, CommentLine line) ∧
        a.written .sql = String.join (lines.map (· ++ "\n")) ++ "\n" ++ a.body := by
  obtain ⟨artifacts, hgenerated⟩ : ∃ artifacts, generate .standard sampleSpec = .ok artifacts :=
    exists_of_isOk (by decide +kernel)
  obtain ⟨a, hmem, hbase⟩ := exists_of_mem_left (artifacts_of_generate hgenerated)
    (show .satelliteBase ∈ artifactRoles .standard sampleSpec.kind by decide)
  have ha : a ∈ (dispatch .standard [sampleSpec]).artifacts := by
    simpa [dispatch, artifactsOf, hgenerated] using hmem
  have hnames := (unbroken_of_dispatch ha).columns
  have hother : { a with role := .primary } ≠ a := fun heq =>
    nomatch (congrArg Artifact.role heq).trans hbase.role_eq
  exact ⟨a, ha, { a with role := .primary }, hother, hnames, hnames, rfl,
    written_apart.1 _ _ hnames hnames rfl, written_apart.2 _ _ a ha⟩

end DataVault.Generate
