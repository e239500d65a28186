/-
DataVault.Proofs.Sql.References — which relation a statement names.

A reference is written into a statement with other text behind it, and the
text gives it back as long as it goes on with a sign that no reference holds
(`resolve_append_inj`). Names end at the first sign that is not part of one.
What follows a name inside a reference is a quote, a dot or the end, which
tells how many names there are. So the text of a reference stands for it alone
in either dialect, as its dotted text does where it is read
(`texts_identify_reference`).
-/
import DataVault.Proofs.Lists
import DataVault.Proofs.Sql.Reading
import DataVault.Sql.Dialect

namespace DataVault.Sql

open DataVault.Lists DataVault.Text

/-- The text does not go on with a name, nor with a dot. -/
def EndsReference (text : List Char) : Prop :=
  ∀ c ∈ text.head?, Ident.isPart c = false ∧ c ≠ '.'

theorem endsReference_nil : EndsReference [] := by
  rintro _ ⟨⟩

theorem ident_append_inj {a b : Ident} {r t : List Char}
    (hr : ∀ c ∈ r.head?, Ident.isPart c = false) (ht : ∀ c ∈ t.head?, Ident.isPart c = false)
    (h : a.text.toList ++ r = b.text.toList ++ t) : a = b ∧ r = t := by
  obtain ⟨htext, hrest⟩ := append_inj_of_all (fun _ => isPart_of_mem) (fun _ => isPart_of_mem)
    hr ht h
  exact ⟨Ident.ext_text (String.toList_inj.mp htext), hrest⟩

/-! ## 1. Dotted references -/

theorem endsReference_isPart {r : List Char} (h : EndsReference r) :
    ∀ c ∈ r.head?, Ident.isPart c = false :=
  fun c hc => (h c hc).1

theorem isPart_dot {r : List Char} : ∀ c ∈ ('.' :: r).head?, Ident.isPart c = false := by
  rintro _ ⟨⟩
  decide

theorem toList_textsJoined_cons (name next : Ident) (names : List Ident) :
    (Ident.textsJoined "." (name :: next :: names)).toList =
      name.text.toList ++ '.' :: (Ident.textsJoined "." (next :: names)).toList := by
  rw [textsJoined_cons_cons, String.toList_append, String.toList_append, List.append_assoc]
  rfl

/-- Names with dots between them are told apart. -/
theorem textsJoined_append_inj {a b : Ident} {as bs : List Ident} {r t : List Char}
    (hr : EndsReference r) (ht : EndsReference t)
    (h : (Ident.textsJoined "." (a :: as)).toList ++ r =
      (Ident.textsJoined "." (b :: bs)).toList ++ t) : a :: as = b :: bs ∧ r = t := by
  induction as generalizing a b bs with
  | nil =>
    cases bs with
    | nil =>
      rw [textsJoined_singleton, textsJoined_singleton] at h
      obtain ⟨rfl, hrest⟩ := ident_append_inj (endsReference_isPart hr) (endsReference_isPart ht) h
      exact ⟨rfl, hrest⟩
    | cons next bs =>
      rw [textsJoined_singleton, toList_textsJoined_cons, List.append_assoc] at h
      obtain ⟨-, hrest⟩ := ident_append_inj (endsReference_isPart hr) isPart_dot h
      exact absurd rfl (hr '.' (hrest ▸ rfl)).2
  | cons next as ih =>
    cases bs with
    | nil =>
      rw [textsJoined_singleton, toList_textsJoined_cons, List.append_assoc] at h
      obtain ⟨-, hrest⟩ := ident_append_inj isPart_dot (endsReference_isPart ht) h
      exact absurd rfl (ht '.' (hrest ▸ rfl)).2
    | cons next' bs =>
      rw [toList_textsJoined_cons, toList_textsJoined_cons, List.append_assoc,
        List.append_assoc] at h
      obtain ⟨rfl, hrest⟩ := ident_append_inj isPart_dot isPart_dot h
      obtain ⟨hnames, hend⟩ := ih (List.cons.inj hrest).2
      exact ⟨congrArg (a :: ·) hnames, hend⟩

theorem parts_inj {t u : TableRef} (h : t.parts = u.parts) : t = u := by
  cases t <;> cases u <;> simp_all [TableRef.parts]

theorem dotted_append_inj {t u : TableRef} {r v : List Char} (hr : EndsReference r)
    (hv : EndsReference v) (h : t.dotted.toList ++ r = u.dotted.toList ++ v) : t = u ∧ r = v := by
  have hparts : t.parts = u.parts ∧ r = v := by
    unfold TableRef.dotted at h
    cases t <;> cases u <;> exact textsJoined_append_inj hr hv h
  exact ⟨parts_inj hparts.1, hparts.2⟩

/-! ## 2. Placeholders -/

/-- A name in quotes is told from what follows. -/
theorem quotedName_append_inj {a b : Ident} {r t : List Char}
    (h : (Dialect.quotedName a).toList ++ r = (Dialect.quotedName b).toList ++ t) :
    a = b ∧ r = t := by
  have hquote (rest : List Char) : ∀ c ∈ ('"' :: rest).head?, Ident.isPart c = false := by
    rintro _ ⟨⟩
    decide
  have hchars (i : Ident) (rest : List Char) :
      (Dialect.quotedName i).toList ++ rest = '"' :: (i.text.toList ++ '"' :: rest) := by
    unfold Dialect.quotedName
    rw [String.toList_append, String.toList_append, List.append_assoc, List.append_assoc]
    rfl
  rw [hchars, hchars] at h
  obtain ⟨hname, hrest⟩ := ident_append_inj (hquote r) (hquote t) (List.cons.inj h).2
  exact ⟨hname, (List.cons.inj hrest).2⟩

theorem append_ne_append {x y : List Char} (hx : x ≠ []) (hy : y ≠ []) (hne : x.head? ≠ y.head?)
    (r t : List Char) : x ++ r ≠ y ++ t := by
  intro h
  have hhead := congrArg List.head? h
  rw [List.head?_append_of_ne_nil x hx, List.head?_append_of_ne_nil y hy] at hhead
  exact hne hhead

theorem toList_concat (a b : String) (r : List Char) :
    (a ++ b).toList ++ r = a.toList ++ (b.toList ++ r) := by
  rw [String.toList_append, List.append_assoc]

section
variable (a b c : Ident) (r v : List Char)

theorem toList_bare :
    (Dialect.resolve .bigQuery (.bare a)).toList ++ r =
      "$\x7bref(".toList ++ ((Dialect.quotedName a).toList ++ (")\x7d".toList ++ r)) :=
  (toList_concat _ _ _).trans (toList_concat _ _ _)

theorem toList_inSchema :
    (Dialect.resolve .bigQuery (.inSchema a b)).toList ++ r =
      "$\x7bref(".toList ++ ((Dialect.quotedName a).toList ++ (", ".toList ++
        ((Dialect.quotedName b).toList ++ (")\x7d".toList ++ r)))) :=
  (toList_concat _ _ _).trans <| (toList_concat _ _ _).trans <| (toList_concat _ _ _).trans
    (toList_concat _ _ _)

/-- A database is named in a record, which does not begin like a name. -/
theorem toList_inDatabase :
    (Dialect.resolve .bigQuery (.inDatabase a b c)).toList ++ r =
      "$\x7bref(".toList ++ ("\x7bdatabase: ".toList ++ ((Dialect.quotedName a).toList ++
        (", schema: ".toList ++ ((Dialect.quotedName b).toList ++ (", name: ".toList ++
          ((Dialect.quotedName c).toList ++ ("\x7d)\x7d".toList ++ r))))))) := by
  have hopen : "$\x7bref(\x7bdatabase: ".toList =
      "$\x7bref(".toList ++ "\x7bdatabase: ".toList := by decide
  refine Eq.trans ?_ (List.append_assoc _ _ _)
  rw [← hopen]
  exact (toList_concat _ _ _).trans <| (toList_concat _ _ _).trans <| (toList_concat _ _ _).trans <|
    (toList_concat _ _ _).trans <| (toList_concat _ _ _).trans (toList_concat _ _ _)

theorem quotedName_ne_record :
    (Dialect.quotedName a).toList ++ r ≠ "\x7bdatabase: ".toList ++ v := by
  have hname : (Dialect.quotedName a).toList ++ r =
      "\"".toList ++ ((a.text ++ "\"").toList ++ r) := by
    unfold Dialect.quotedName
    rw [String.append_assoc]
    exact toList_concat _ _ _
  rw [hname]
  exact append_ne_append (by decide) (by decide) (by decide) _ _

/-- After the first name there is a comma where a second one follows. -/
theorem bare_ne_inSchema :
    (Dialect.resolve .bigQuery (.bare a)).toList ++ r ≠
      (Dialect.resolve .bigQuery (.inSchema b c)).toList ++ v := by
  intro h
  rw [toList_bare, toList_inSchema] at h
  obtain ⟨-, hclose⟩ := quotedName_append_inj (List.append_cancel_left h)
  exact append_ne_append (by decide) (by decide) (by decide) _ _ hclose

theorem bare_ne_inDatabase (name : Ident) :
    (Dialect.resolve .bigQuery (.bare name)).toList ++ r ≠
      (Dialect.resolve .bigQuery (.inDatabase a b c)).toList ++ v := by
  intro h
  rw [toList_bare, toList_inDatabase] at h
  exact quotedName_ne_record _ _ _ (List.append_cancel_left h)

theorem inSchema_ne_inDatabase (schema name : Ident) :
    (Dialect.resolve .bigQuery (.inSchema schema name)).toList ++ r ≠
      (Dialect.resolve .bigQuery (.inDatabase a b c)).toList ++ v := by
  intro h
  rw [toList_inSchema, toList_inDatabase] at h
  exact quotedName_ne_record _ _ _ (List.append_cancel_left h)

end

/-- The text of a placeholder gives its reference back. -/
theorem placeholder_append_inj {t u : TableRef} {r v : List Char}
    (h : (Dialect.resolve .bigQuery t).toList ++ r = (Dialect.resolve .bigQuery u).toList ++ v) :
    t = u ∧ r = v := by
  cases t with
  | bare name =>
    cases u with
    | bare name' =>
      rw [toList_bare, toList_bare] at h
      obtain ⟨rfl, hclose⟩ := quotedName_append_inj (List.append_cancel_left h)
      exact ⟨rfl, List.append_cancel_left hclose⟩
    | inSchema schema' name' => exact absurd h (bare_ne_inSchema _ _ _ _ _)
    | inDatabase database' schema' name' => exact absurd h (bare_ne_inDatabase _ _ _ _ _ _)
  | inSchema schema name =>
    cases u with
    | bare name' => exact absurd h.symm (bare_ne_inSchema _ _ _ _ _)
    | inSchema schema' name' =>
      rw [toList_inSchema, toList_inSchema] at h
      obtain ⟨rfl, hname⟩ := quotedName_append_inj (List.append_cancel_left h)
      obtain ⟨rfl, hclose⟩ := quotedName_append_inj (List.append_cancel_left hname)
      exact ⟨rfl, List.append_cancel_left hclose⟩
    | inDatabase database' schema' name' => exact absurd h (inSchema_ne_inDatabase _ _ _ _ _ _ _)
  | inDatabase database schema name =>
    cases u with
    | bare name' => exact absurd h.symm (bare_ne_inDatabase _ _ _ _ _ _)
    | inSchema schema' name' => exact absurd h.symm (inSchema_ne_inDatabase _ _ _ _ _ _ _)
    | inDatabase database' schema' name' =>
      rw [toList_inDatabase, toList_inDatabase] at h
      have hrecord := List.append_cancel_left h
      obtain ⟨rfl, hschema⟩ := quotedName_append_inj (List.append_cancel_left hrecord)
      obtain ⟨rfl, hname⟩ := quotedName_append_inj (List.append_cancel_left hschema)
      obtain ⟨rfl, hclose⟩ := quotedName_append_inj (List.append_cancel_left hname)
      exact ⟨rfl, List.append_cancel_left hclose⟩

/-! ## 3. Both dialects -/

/-- The text of a reference gives it back, with the text that follows. -/
theorem resolve_append_inj {d : Dialect} {t u : TableRef} {r v : List Char}
    (hr : EndsReference r) (hv : EndsReference v)
    (h : (d.resolve t).toList ++ r = (d.resolve u).toList ++ v) : t = u ∧ r = v := by
  cases d with
  | bigQuery => exact placeholder_append_inj h
  | postgres => exact dotted_append_inj hr hv h

theorem resolve_injective (d : Dialect) : Function.Injective d.resolve :=
  fun _ _ h => (resolve_append_inj endsReference_nil endsReference_nil
    (congrArg (·.toList ++ []) h)).1

/-- The dotted text of a reference is read as it, and no other text is, but for blanks around the
whole and around the parts; and no two references are the same text in a statement. -/
theorem texts_identify_reference (d : Dialect) :
    (∀ t : TableRef, TableRef.parse t.dotted = .ok t) ∧
      (∀ (text : String) (t : TableRef),
        TableRef.parse text = .ok t ↔ t.dotted = TableRef.trimParts text) ∧
      ∀ t u : TableRef, d.resolve t = d.resolve u ↔ t = u :=
  ⟨TableRef.parse_dotted, fun _ _ => TableRef.parse_eq_ok_iff_dotted,
    fun _ _ => (resolve_injective d).eq_iff⟩

end DataVault.Sql
