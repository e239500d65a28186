/-
DataVault.Proofs.Sql.Reading — which texts are read as names and as
references.

`IsName` is the grammar of a name, said without the function that reads one.
A text is read as a name exactly if it is one (`exists_parse_iff`), and a
name with letters, digits or underscores behind it is a name again, as long
as it is short enough (`isName_append_iff`): derived names fail by their
length alone.

A reference is read from names with dots between them, with blanks allowed
around the whole and around each name (`TableRef.parse_eq_ok_iff`). No name
holds a dot, and a dot is no blank, so the dots of the text are those
between the names. Its own dotted text is one that it is read from
(`TableRef.parse_dotted`), and all others differ from that by blanks
(`TableRef.parse_eq_ok_iff_dotted`).
-/
import DataVault.Proofs.Results
import DataVault.Proofs.Sql.Names
import DataVault.Proofs.Text.Cutting
import DataVault.Sql.TableRef
import Mathlib.Data.Set.List

namespace DataVault.Sql

open DataVault.Results DataVault.Text

/-! ## 1. Names -/

/-- An ASCII letter or an underscore, then ASCII letters, digits and
underscores, in 128 bytes at most. -/
def IsName (text : String) : Prop :=
  (∃ first rest, text.toList = first :: rest ∧ (first.isAlpha = true ∨ first = '_') ∧
    ∀ c ∈ rest, c.isAlphanum = true ∨ c = '_') ∧ text.utf8ByteSize ≤ 128

theorem spelledBy_iff {cs : List Char} :
    Ident.spelledBy cs = true ↔
      ∃ first rest, cs = first :: rest ∧ (first.isAlpha = true ∨ first = '_') ∧
        ∀ c ∈ rest, c.isAlphanum = true ∨ c = '_' := by
  cases cs with
  | nil => simp [Ident.spelledBy]
  | cons first rest => simp [Ident.spelledBy, Ident.isStart, Ident.isPart]

theorem isName_iff {text : String} : IsName text ↔ ∃ name : Ident, name.text = text := by
  constructor
  · rintro ⟨hspelled, hshort⟩
    exact ⟨⟨text, spelledBy_iff.mpr hspelled, hshort⟩, rfl⟩
  · rintro ⟨name, rfl⟩
    exact ⟨spelledBy_iff.mp name.spelled, name.short⟩

theorem exists_parse_iff {text : String} :
    (∃ name, Ident.parse text = .ok name) ↔ IsName text := by
  simp only [parse_eq_ok_iff, isName_iff]

/-- Texts that are read one by one, each without its blanks, are read as the
names that have these texts. -/
theorem mapM_trimmed_eq_ok_iff {ε : Type} {read : String → Except ε Ident}
    (hread : ∀ {text name}, read text = .ok name ↔ name.text = trim text) {texts : List String}
    {names : List Ident} :
    texts.mapM read = .ok names ↔ names.map Ident.text = texts.map trim := by
  simp only [mapM_eq_ok_iff, hread]
  rw [← List.forall₂_eq_eq_eq, List.forall₂_map_left_iff, List.forall₂_map_right_iff]
  exact ⟨List.Forall₂.flip, List.Forall₂.flip⟩

/-- Texts are those of names exactly if each of them is a name. -/
theorem exists_names_iff {texts : List String} :
    (∃ names : List Ident, names.map Ident.text = texts) ↔ ∀ text ∈ texts, IsName text := by
  simp only [isName_iff]
  exact Set.ext_iff.mp (Set.range_list_map Ident.text) texts

/-! ## 2. Longer names -/

/-- More letters, digits and underscores make a name too long, and nothing
else. -/
theorem isName_append_iff {name : Ident} {more : String}
    (hmore : more.toList.all Ident.isPart = true) :
    IsName (name.text ++ more) ↔ (name.text ++ more).utf8ByteSize ≤ 128 := by
  refine and_iff_right (spelledBy_iff.mp ?_)
  have hspelled := name.spelled
  cases hchars : name.text.toList with
  | nil => rw [hchars] at hspelled; cases hspelled
  | cons first rest =>
    rw [hchars, Ident.spelledBy, Bool.and_eq_true] at hspelled
    rw [String.toList_append, hchars, List.cons_append, Ident.spelledBy, List.all_append,
      hspelled.1, hspelled.2, hmore]
    rfl

/-- Joined names start with the first of them, and go on with letters, digits
and underscores. -/
theorem exists_textsJoined_cons (name : Ident) (names : List Ident) :
    ∃ more : String, Ident.textsJoined "_" (name :: names) = name.text ++ more ∧
      more.toList.all Ident.isPart = true := by
  induction names generalizing name with
  | nil => exact ⟨"", by rw [textsJoined_singleton, String.append_empty], rfl⟩
  | cons next names ih =>
    obtain ⟨more, hmore, hparts⟩ := ih next
    refine ⟨"_" ++ (next.text ++ more), ?_, ?_⟩
    · rw [textsJoined_cons_cons, hmore, String.append_assoc]
    · rw [String.toList_append, String.toList_append, List.all_append, List.all_append, hparts,
        List.all_eq_true.mpr fun c hc => isPart_of_mem hc]
      rfl

/-! ## 3. References -/

/-- A part of a reference holds a dot if it does without its blanks. -/
theorem dot_notMem_of_trim {part : String} {name : Ident} (h : name.text = trim part) :
    '.' ∉ part.toList := by
  intro hdot
  have hmem : '.' ∈ name.text.toList := by
    rw [h, toList_trim]
    exact mem_trimChars hdot (by decide)
  exact notMem_of_isPart_eq_false (by decide) hmem

namespace TableRef

theorem length_parts (t : TableRef) : 1 ≤ t.parts.length ∧ t.parts.length ≤ 3 := by
  cases t <;> simp [parts]

/-- One to three names make a reference. -/
theorem exists_of_parts {names : List Ident} (h : 1 ≤ names.length ∧ names.length ≤ 3) :
    ∃ t : TableRef, t.parts = names := by
  match names, h with
  | [name], _ => exact ⟨.bare name, rfl⟩
  | [schema, name], _ => exact ⟨.inSchema schema name, rfl⟩
  | [database, schema, name], _ => exact ⟨.inDatabase database schema name, rfl⟩
  | [], h => exact absurd h.1 (by decide)
  | _ :: _ :: _ :: _ :: rest, h => exact absurd h.2 (by simp)

/-- The parts of the text are read one by one. -/
theorem parse_eq_ok_iff_mapM {text : String} {t : TableRef} :
    parse text = .ok t ↔ trim text ≠ "" ∧
      (splitOn '.' (trim text)).mapM (fun part => Ident.parse (trim part)) = .ok t.parts := by
  unfold parse
  by_cases hempty : trim text = ""
  · simp [hempty, bind, Except.bind, throw, throwThe, MonadExceptOf.throw]
  · have hne : ¬ (trim text).isEmpty = true := fun h => hempty (String.isEmpty_iff.mp h)
    simp only [if_neg hne, bind_eq_ok_iff]
    constructor
    · rintro ⟨names, hnames, hparts⟩
      suffices h : t.parts = names from ⟨hempty, h ▸ hnames⟩
      split at hparts <;> cases hparts <;> rfl
    · rintro ⟨-, hnames⟩
      refine ⟨t.parts, hnames, ?_⟩
      cases t <;> rfl

/-- A reference is read from the texts of its parts. -/
theorem parse_eq_ok_iff {text : String} {t : TableRef} :
    parse text = .ok t ↔
      ∃ parts, String.intercalate "." parts = trim text ∧
        t.parts.map Ident.text = parts.map trim := by
  rw [parse_eq_ok_iff_mapM, mapM_trimmed_eq_ok_iff Sql.parse_eq_ok_iff]
  constructor
  · rintro ⟨-, hparts⟩
    exact ⟨splitOn '.' (trim text), intercalate_splitOn rfl (trim text), hparts⟩
  · rintro ⟨parts, htext, hparts⟩
    have hfree : ∀ part ∈ parts, '.' ∉ part.toList := by
      intro part hpart
      have hmem : trim part ∈ t.parts.map Ident.text := hparts ▸ List.mem_map_of_mem hpart
      obtain ⟨name, -, hname⟩ := List.mem_map.mp hmem
      exact dot_notMem_of_trim hname
    have hne : parts ≠ [] := by
      rintro rfl
      rw [List.map_nil, List.map_eq_nil_iff] at hparts
      exact absurd t.length_parts.1 (by simp [hparts])
    have hsplit : splitOn '.' (trim text) = parts := by
      rw [← htext]
      exact splitOn_intercalate rfl hfree hne
    refine ⟨?_, hsplit.symm ▸ hparts⟩
    intro hempty
    -- The only part of the empty text is empty, and no name is.
    obtain rfl : [""] = parts := by rw [← hsplit, hempty]; rfl
    have hmem : trim "" ∈ t.parts.map Ident.text := hparts ▸ List.mem_singleton.mpr rfl
    obtain ⟨name, -, hname⟩ := List.mem_map.mp hmem
    exact ident_ne_empty name hname

/-! ## 4. Dotted texts -/

/-- The text without the blanks around it and around each of its parts. -/
def trimParts (text : String) : String :=
  String.intercalate "." ((splitOn '.' (trim text)).map trim)

theorem trim_dotted (t : TableRef) : trim t.dotted = t.dotted := by
  have hdot : ∀ c ∈ ".".toList, isBlank c = false :=
    List.forall_mem_singleton.mpr (show isBlank '.' = false by decide)
  exact trim_eq_self (forall_mem_intercalate hdot
    (List.forall_mem_map.mpr fun name _ => isBlank_ident name))

/-- The dotted text of a reference is read as it. -/
theorem parse_dotted (t : TableRef) : parse t.dotted = .ok t := by
  refine parse_eq_ok_iff.mpr ⟨t.parts.map Ident.text, (trim_dotted t).symm, ?_⟩
  rw [List.map_map]
  exact List.map_congr_left fun name _ => (trim_eq_self (isBlank_ident name)).symm

/-- A text is read as a reference exactly if it is dotted like it, but for blanks. -/
theorem parse_eq_ok_iff_dotted {text : String} {t : TableRef} :
    parse text = .ok t ↔ t.dotted = trimParts text := by
  constructor
  · intro h
    have hnames := (mapM_trimmed_eq_ok_iff Sql.parse_eq_ok_iff).mp (parse_eq_ok_iff_mapM.mp h).2
    rw [dotted, Ident.textsJoined, hnames, trimParts]
  · intro h
    have hnames : ∀ name ∈ t.parts.map Ident.text, '.' ∉ name.toList :=
      List.forall_mem_map.mpr fun name _ => notMem_of_isPart_eq_false (by decide)
    have hpieces : ∀ piece ∈ (splitOn '.' (trim text)).map trim, '.' ∉ piece.toList := by
      refine List.forall_mem_map.mpr fun piece hpiece hdot => ?_
      rw [toList_trim] at hdot
      exact notMem_of_mem_splitOn hpiece (mem_of_mem_trimChars hdot)
    have hne : t.parts.map Ident.text ≠ [] := by cases t <;> exact List.cons_ne_nil _ _
    have hne' : (splitOn '.' (trim text)).map trim ≠ [] :=
      fun hempty => splitOn_ne_nil '.' (trim text) (List.map_eq_nil_iff.mp hempty)
    -- Neither side has dots in its pieces, so the two are cut at the same places.
    have hcut := congrArg (splitOn '.') h
    rw [dotted, Ident.textsJoined, trimParts, splitOn_intercalate rfl hnames hne,
      splitOn_intercalate rfl hpieces hne'] at hcut
    exact parse_eq_ok_iff.mpr ⟨_, intercalate_splitOn rfl (trim text), hcut⟩

example : trimParts " stg .\tcustomer" = "stg.customer" := by decide

end TableRef

end DataVault.Sql
