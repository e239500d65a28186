/-
DataVault.Proofs.Entity.Naming — derived names are told apart.

A column that is derived from a field has the name of the field and a suffix.
Columns with one suffix differ as their fields do (`Suffixed.distinct`), and
columns with suffixes of one length that differ are different
(`Suffixed.apart`). The hash key has the suffix of the hub keys, but more than
one field before it wherever there are hub keys, so it is longer than each of
them (`hashKey_ne_hubKey`).
-/
import DataVault.Entity.Naming
import DataVault.Proofs.Lists
import DataVault.Proofs.Results
import DataVault.Proofs.Sql.Names

namespace DataVault.Entity

open DataVault.Lists DataVault.Results DataVault.Sql DataVault.Text

/-! ## 1. Suffixed names -/

/-- The names are those of the fields with one suffix. -/
def Suffixed (suffix : String) (fields names : List Ident) : Prop :=
  List.Forall₂ (fun field name => Ident.text name = field.text ++ "_" ++ suffix) fields names

namespace Suffixed

variable {u v : String} {fields names : List Ident}

theorem exists_label (h : Suffixed u fields names) {name : Ident} (hname : name ∈ names) :
    ∃ label : String, name.text = label ++ u := by
  obtain ⟨field, -, htext⟩ := exists_of_mem_right h hname
  exact ⟨field.text ++ "_", htext⟩

/-- The names follow the fields, so they differ as the fields do. -/
theorem distinct : ∀ {fields names : List Ident}, Suffixed u fields names →
    DistinctFields fields → DistinctFields names
  | [], [], _, _ => .nil
  | field :: fields, name :: names, h, hdistinct => by
      obtain ⟨hname, hnames⟩ := List.forall₂_cons.mp h
      obtain ⟨hfield, hfields⟩ := List.pairwise_cons.mp hdistinct
      refine List.pairwise_cons.mpr ⟨?_, distinct hnames hfields⟩
      intro other hother
      obtain ⟨g, hg, htext⟩ := exists_of_mem_right hnames hother
      rw [String.append_assoc] at hname htext
      exact sameName_eq_false_of_append hname htext (hfield g hg)

/-- No name with the suffix is one that ends otherwise. -/
theorem ne_of_suffix (h : Suffixed u fields names) {label : String} {other : Ident}
    (hother : other.text = label ++ v) (hlength : u.length = v.length) (hne : lower u ≠ lower v) :
    ∀ name ∈ names, other.sameName name = false := by
  intro name hname
  obtain ⟨start, hstart⟩ := h.exists_label hname
  exact sameName_eq_false_of_suffix hother hstart hlength.symm hne.symm

end Suffixed

/-! ## 2. Derived columns -/

section
variable {spec : EntitySpec} {names : List Ident} {hashKey : Ident}

theorem suffixed_businessKeyNames (h : spec.businessKeyNames = .ok names) :
    Suffixed "bk" spec.businessKey names :=
  (mapM_eq_ok_iff.mp h).imp fun _ _ => parse_eq_ok

theorem suffixed_hubKeyNames (h : spec.hubKeyNames = .ok names) :
    Suffixed "hk" spec.businessKey names :=
  (mapM_eq_ok_iff.mp h).imp fun _ _ => parse_eq_ok

theorem hashKeyName_text (h : spec.hashKeyName = .ok hashKey) :
    hashKey.text = Ident.textsJoined "_" spec.businessKey ++ "_" ++ "hk" := by
  obtain ⟨label, hlabel, hparsed⟩ := bind_eq_ok_iff.mp h
  rw [parse_eq_ok hparsed, parse_eq_ok hlabel]

theorem businessKey_distinct (spec : EntitySpec) : DistinctFields spec.businessKey :=
  (List.pairwise_append.mp spec.distinct).1

/-- The hash key and the business key columns end in different ways. -/
theorem hashKey_ne_businessKeys (hhash : spec.hashKeyName = .ok hashKey)
    (hnames : spec.businessKeyNames = .ok names) :
    ∀ name ∈ names, hashKey.sameName name = false :=
  (suffixed_businessKeyNames hnames).ne_of_suffix (hashKeyName_text hhash) (by decide) (by decide)

theorem hubKeys_ne_businessKeys {hubKeys : List Ident} (hhub : spec.hubKeyNames = .ok hubKeys)
    (hnames : spec.businessKeyNames = .ok names) :
    ∀ hubKey ∈ hubKeys, ∀ name ∈ names, hubKey.sameName name = false := by
  intro hubKey hmem
  obtain ⟨label, hlabel⟩ := (suffixed_hubKeyNames hhub).exists_label hmem
  exact (suffixed_businessKeyNames hnames).ne_of_suffix hlabel (by decide) (by decide)

/-- Joined names hold the text of each of them. -/
theorem exists_textsJoined_eq (glue : String) {field : Ident} : ∀ {fields : List Ident},
    field ∈ fields → ∃ before after, Ident.textsJoined glue fields = before ++ field.text ++ after
  | [], h => absurd h List.not_mem_nil
  | [a], h => by
      rw [List.mem_singleton.mp h]
      exact ⟨"", "", by rw [textsJoined_singleton, String.empty_append, String.append_empty]⟩
  | a :: b :: rest, h => by
      rw [textsJoined_cons_cons]
      rcases List.mem_cons.mp h with rfl | hrest
      · exact ⟨"", glue ++ Ident.textsJoined glue (b :: rest), by
          rw [String.empty_append, String.append_assoc]⟩
      · obtain ⟨before, after, hjoined⟩ := exists_textsJoined_eq glue hrest
        exact ⟨a.text ++ glue ++ before, after, by rw [hjoined]; simp only [String.append_assoc]⟩

/-- Joined names are no shorter than each of them. -/
theorem length_le_textsJoined (glue : String) {field : Ident} {fields : List Ident}
    (h : field ∈ fields) : field.text.length ≤ (Ident.textsJoined glue fields).length := by
  obtain ⟨before, after, hjoined⟩ := exists_textsJoined_eq glue h
  rw [hjoined, String.length_append, String.length_append]
  omega

/-- Several joined names are longer than each of them. -/
theorem length_lt_textsJoined {field a b : Ident} {rest : List Ident}
    (h : field ∈ a :: b :: rest) :
    field.text.length < (Ident.textsJoined "_" (a :: b :: rest)).length := by
  have hglue : "_".length = 1 := rfl
  rw [textsJoined_cons_cons, String.length_append, String.length_append, hglue]
  rcases List.mem_cons.mp h with rfl | hrest
  · omega
  · have hle := length_le_textsJoined "_" hrest
    omega

theorem length_eq_of_sameName {a b : Ident} (h : a.sameName b = true) :
    a.text.length = b.text.length := by
  have hlength := congrArg (fun text => text.toList.length) (sameName_iff.mp h)
  simpa only [toList_lower, List.length_map, String.length_toList] using hlength

/-- The hash key of several fields is none of the hub keys. -/
theorem hashKey_ne_hubKeys (hkeys : 2 ≤ spec.businessKey.length)
    (hhash : spec.hashKeyName = .ok hashKey) (hhub : spec.hubKeyNames = .ok names) :
    ∀ hubKey ∈ names, hashKey.sameName hubKey = false := by
  intro hubKey hmem
  obtain ⟨field, hfield, htext⟩ := exists_of_mem_right (suffixed_hubKeyNames hhub) hmem
  rw [Bool.eq_false_iff]
  intro hsame
  have hlength := length_eq_of_sameName hsame
  rw [htext, hashKeyName_text hhash] at hlength
  simp only [String.length_append] at hlength
  have hlonger : field.text.length < (Ident.textsJoined "_" spec.businessKey).length := by
    match hlist : spec.businessKey, hkeys with
    | a :: b :: rest, _ => exact length_lt_textsJoined (hlist ▸ hfield)
  omega

end

end DataVault.Entity
