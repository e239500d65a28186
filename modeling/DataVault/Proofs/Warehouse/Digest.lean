/-
DataVault.Proofs.Warehouse.Digest — the digest that a warehouse computes.

`digestExpr` is built as a tree and `encode` as a text. The two meet in the
parts of the tree: `encodedParts_values` gives the parts the texts that
`joinedText` puts together, so their concatenation is the text that is
hashed. A separator adds a part between each two values, length prefixes
add two parts before each one, and a single part is left without a
concatenation; the induction is on the values, and `joined_texts` covers
any number of parts.
-/
import DataVault.Proofs.Digest.Encoding
import DataVault.Proofs.Warehouse.Expression

namespace DataVault.Warehouse

open DataVault.Digest DataVault.Digest.KeyEncoding DataVault.Results DataVault.Sql

variable {session : Session} {read : Reader}

/-- The expressions have the texts as their values. -/
def Computes (session : Session) (read : Reader) (es : List Expr) (texts : List String) : Prop :=
  List.Forall₂ (fun e text => eval session read e = some (.text text)) es texts

/-! ## 1. Operators on texts -/

theorem evalAll_of_computes {es : List Expr} {texts : List String}
    (h : Computes session read es texts) :
    evalAll session read es = some (texts.map .text) := by
  rw [evalAll_eq_mapM, mapM_eq_some_iff, List.forall₂_map_right_iff]
  exact h

/-- Texts are concatenated in both dialects, however many they are. -/
theorem joined_texts (d : Dialect) {texts : List String} (hne : texts ≠ []) :
    Datum.joined d (texts.map .text) = some (.text (String.join texts)) := by
  have hmap : (texts.map Datum.text).mapM Datum.asText? = some (texts.map some) := by
    rw [List.mapM_map]
    exact mapM_eq_some_map fun _ _ => rfl
  match texts with
  | [] => exact absurd rfl hne
  | [text] => simp [Datum.joined]
  | a :: b :: rest =>
    rw [List.map_cons, List.map_cons] at hmap ⊢
    simp only [Datum.joined, hmap]
    cases d <;> simp

/-- A missing value is read as the empty text. -/
theorem eval_textOrEmpty {e : Expr} {value : Option String}
    (h : eval session read e = some (.ofText? value)) :
    eval session read e.textOrEmpty = some (.text (textOf value)) := by
  cases value <;> simp [Expr.textOrEmpty, eval, evalAll, h, Datum.ofText?, Datum.castText,
    Datum.coalesce, textOf]

/-! ## 2. Parts -/

/-- The texts whose concatenation is the text of a tuple. -/
def partTexts : KeyEncoding → List String → List String
  | .delimited separator, texts => texts.intersperse separator
  | .lengthPrefixed, texts => texts.flatMap fun text => [toString text.length, ":", text]

theorem partTexts_ne_nil (encoding : KeyEncoding) {texts : List String} (hne : texts ≠ []) :
    partTexts encoding texts ≠ [] := by
  match texts with
  | [] => exact absurd rfl hne
  | [_] => cases encoding <;> simp [partTexts]
  | _ :: _ :: _ => cases encoding <;> simp [partTexts]

theorem join_partTexts (encoding : KeyEncoding) (texts : List String) :
    String.join (partTexts encoding texts) = encoding.joinedText texts := by
  cases encoding with
  | delimited separator =>
    induction texts with
    | nil => simp [partTexts, joinedText]
    | cons a texts ih =>
      cases texts with
      | nil => simp [partTexts, joinedText]
      | cons b rest =>
        simp only [partTexts, joinedText, List.intersperse_cons_cons, String.join_cons,
          String.intercalate_cons_cons] at ih ⊢
        rw [ih, String.append_assoc]
  | lengthPrefixed =>
    induction texts with
    | nil => rfl
    | cons a texts ih =>
      simp only [partTexts, joinedText, List.flatMap_cons, List.map_cons, List.cons_append,
        List.nil_append, String.join_cons, prefixed] at ih ⊢
      rw [ih]
      simp only [String.append_assoc]

/-- The parts of the digest expression have these texts. -/
theorem encodedParts_values (encoding : KeyEncoding) : ∀ {es : List Expr} {texts : List String},
    Computes session read es texts →
    Computes session read (encoding.encodedParts es) (partTexts encoding texts) := by
  intro es texts h
  cases encoding with
  | delimited separator =>
    induction h with
    | nil => exact .nil
    | cons hvalue hrest ih =>
      cases hrest with
      | nil => exact .cons hvalue .nil
      | cons hnext hrest => exact .cons hvalue (.cons rfl ih)
  | lengthPrefixed =>
    induction h with
    | nil => exact .nil
    | cons hvalue hrest ih =>
      refine .cons ?_ (.cons rfl (.cons hvalue ih))
      simp [eval, hvalue, Datum.charLength, Datum.castText]

/-! ## 3. The digest -/

/-- The digest expression over columns with these values hashes their text. -/
theorem eval_digestExpr {encoding : KeyEncoding} {qualifier : Option Ident}
    {columns : List Ident} {values : List (Option String)} (hcolumns : columns ≠ [])
    (hread : List.Forall₂ (fun c v => read qualifier c = some (.ofText? v)) columns values) :
    eval session read (encoding.digestExpr qualifier columns) =
      some (.text (Sha256.hexDigest (encoding.joinedText (values.map textOf)))) := by
  have htexts : Computes session read
      (columns.map fun name => (Expr.column qualifier name).textOrEmpty) (values.map textOf) := by
    refine List.forall₂_map_left_iff.mpr (List.forall₂_map_right_iff.mpr (hread.imp ?_))
    intro name value h
    exact eval_textOrEmpty (by simpa [eval] using h)
  have hne : values.map textOf ≠ [] := by
    have := hread.length_eq
    rw [Ne, List.map_eq_nil_iff, ← List.length_eq_zero_iff, ← this, List.length_eq_zero_iff]
    exact hcolumns
  have hparts := evalAll_of_computes (encodedParts_values encoding htexts)
  have hjoined := joined_texts session.dialect (partTexts_ne_nil encoding hne)
  simp [KeyEncoding.digestExpr, eval, hparts, hjoined, join_partTexts, Datum.hexDigest]

/-- Where the values have a digest, the expression computes it. -/
theorem eval_digestExpr_of_digest {encoding : KeyEncoding} {qualifier : Option Ident}
    {columns : List Ident} {values : List (Option String)} {hash : String} (hcolumns : columns ≠ [])
    (hread : List.Forall₂ (fun c v => read qualifier c = some (.ofText? v)) columns values)
    (hdigest : encoding.digest values = .ok hash) :
    eval session read (encoding.digestExpr qualifier columns) = some (.text hash) := by
  obtain ⟨text, htext, rfl⟩ := digest_eq_ok_iff.mp hdigest
  rw [eval_digestExpr hcolumns hread, (encode_eq_ok_iff.mp htext).2]

/-- The digest expression computes the digest of the columns' values: over a
row that assigns an optional text to each column, it has a value whenever
the values can be encoded, and the value is their digest. -/
theorem digestExpr_computes_digest (session : Session) (read : Reader) (encoding : KeyEncoding)
    (qualifier : Option Ident) (columns : List Ident) (hcolumns : columns ≠ [])
    (row : Ident → Option String)
    (hrow : ∀ name ∈ columns, read qualifier name = some (.ofText? (row name)))
    (text : String) (htext : encoding.encode (columns.map row) = .ok text) :
    ∃ hash, encoding.digest (columns.map row) = .ok hash ∧
      eval session read (encoding.digestExpr qualifier columns) = some (.text hash) := by
  have hread : List.Forall₂ (fun c v => read qualifier c = some (.ofText? v)) columns
      (columns.map row) := by
    rw [List.forall₂_map_right_iff, List.forall₂_same]
    exact hrow
  have hdigest : encoding.digest (columns.map row) = .ok (Sha256.hexDigest text) :=
    digest_eq_ok_iff.mpr ⟨text, htext, rfl⟩
  exact ⟨Sha256.hexDigest text, hdigest, eval_digestExpr_of_digest hcolumns hread hdigest⟩

/-- Two columns of a row under an alias, one with a character of two octets
and one that is missing. -/
theorem digestExpr_computes_digest_pair :
    ∃ hash, lengthPrefixed.digest [some "né", none] = .ok hash ∧
      eval ⟨.postgres, 0, id⟩
          (fun _ name => some (.ofText? (if name.text = "a" then some "né" else none)))
          (lengthPrefixed.digestExpr (some ⟨"src", by decide, by decide⟩)
            [⟨"a", by decide, by decide⟩, ⟨"b", by decide, by decide⟩]) = some (.text hash) :=
  digestExpr_computes_digest ⟨.postgres, 0, id⟩
    (fun _ name => some (.ofText? (if name.text = "a" then some "né" else none)))
    lengthPrefixed (some ⟨"src", by decide, by decide⟩)
    [⟨"a", by decide, by decide⟩, ⟨"b", by decide, by decide⟩] (by simp)
    (fun name => if name.text = "a" then some "né" else none) (fun _ _ => rfl)
    "2:né0:" (by decide +kernel)

end DataVault.Warehouse
