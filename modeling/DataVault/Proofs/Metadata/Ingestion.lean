/-
DataVault.Proofs.Metadata.Ingestion — what becomes of the rows.

`reads_add` lists what one more row can do: its entity is accepted under the
row's number, or the row is refused, because it describes no entity or
because an accepted entity has its name. `Covers` is what holds after all
rows: the numbers of the rows are those of the rejections and those of the
accepted entities, each once; the accepted entities are in the order of
their rows, are what their rows describe, and have different names.

An accepted entity can be rejected later on. Its row then goes over to the
rejections, and all else stays (`Covers.reject`).
-/
import DataVault.Metadata.Ingest
import DataVault.Proofs.Lists
import DataVault.Proofs.Sql.Names
import Mathlib.Data.List.Induction
import Mathlib.Data.List.Nodup
import Mathlib.Data.List.Perm.Basic

namespace DataVault.Metadata

open DataVault.Entity DataVault.Lists DataVault.Sql DataVault.Text

/-! ## 1. One more row -/

theorem ingestFrom_concat (separator : Char) (g : Ingested) (number : Nat) (rows : List Row)
    (row : Row) :
    ingestFrom separator g number (rows ++ [row]) =
      (ingestFrom separator g number rows).add separator (number + rows.length) row := by
  induction rows generalizing g number with
  | nil => rfl
  | cons first rows ih =>
    rw [List.cons_append, ingestFrom, ih, List.length_cons, ingestFrom]
    congr 1
    omega

theorem ingest_concat (separator : Char) (rows : List Row) (row : Row) :
    ingest separator (rows ++ [row]) =
      (ingest separator rows).add separator (rows.length + 1) row := by
  unfold ingest
  rw [ingestFrom_concat, Nat.add_comm]

/-- What a row does to the outcome of those before it. -/
inductive Reads (separator : Char) (g : Ingested) (number : Nat) (row : Row) : Ingested → Prop where
  | accepted {spec : EntitySpec} (hspec : row.toSpec separator = .ok spec)
      (hnew : ∀ a ∈ g.accepted, a.spec.name.sameName spec.name = false) :
      Reads separator g number row ⟨g.accepted ++ [⟨number, spec⟩], g.rejections⟩
  | invalid {e : CompileError} (hspec : row.toSpec separator = .error e) :
      Reads separator g number row
        ⟨g.accepted, g.rejections ++ [.ofError (some number) (trim row.name) e]⟩
  | repeated {spec : EntitySpec} (hspec : row.toSpec separator = .ok spec) {a : Accepted}
      (ha : a ∈ g.accepted) (hsame : a.spec.name.sameName spec.name = true) :
      Reads separator g number row
        ⟨g.accepted, g.rejections ++
          [.ofError (some number) (trim row.name) (spec.reject (.duplicateEntity a.row))]⟩

theorem reads_add (separator : Char) (g : Ingested) (number : Nat) (row : Row) :
    Reads separator g number row (g.add separator number row) := by
  unfold Ingested.add
  cases hspec : row.toSpec separator with
  | error e => exact .invalid hspec
  | ok spec =>
    cases hfind : g.find? spec.name.text with
    | none =>
      have hrow : g.rowOf? spec.name.text = none := by rw [Ingested.rowOf?, hfind]; rfl
      simp only [hrow]
      refine .accepted hspec fun a ha => ?_
      exact Bool.eq_false_iff.mpr (List.find?_eq_none.mp hfind a ha)
    | some a =>
      have hrow : g.rowOf? spec.name.text = some a.row := by rw [Ingested.rowOf?, hfind]; rfl
      simp only [hrow]
      obtain ⟨hsame, -⟩ := List.find?_eq_some_iff_append.mp hfind
      exact .repeated hspec (List.mem_of_find?_eq_some hfind) hsame

/-! ## 2. All rows -/

/-- The rows of the rejections and of the accepted entities. -/
def Ingested.rows (g : Ingested) : List (Option Nat) :=
  g.rejections.map Rejection.row ++ g.accepted.map fun a => some a.row

/-- The numbers of some rows, counted from one. -/
def rowNumbers (count : Nat) : List (Option Nat) := (List.range' 1 count).map some

theorem rowNumbers_succ (count : Nat) :
    rowNumbers (count + 1) = rowNumbers count ++ [some (count + 1)] := by
  unfold rowNumbers
  rw [List.range'_1_concat, List.map_append, Nat.add_comm 1 count]
  rfl

theorem mem_rowNumbers {count number : Nat} :
    some number ∈ rowNumbers count ↔ 1 ≤ number ∧ number ≤ count := by
  simp [rowNumbers]
  omega

theorem nodup_rowNumbers (count : Nat) : (rowNumbers count).Nodup :=
  List.Nodup.map (fun _ _ => Option.some.inj) List.nodup_range'

/-- What the outcome has to do with the rows. -/
structure Ingested.Covers (g : Ingested) (separator : Char) (rows : List Row) : Prop where
  /-- Each row is that of one rejection or of one accepted entity. -/
  rows_perm : g.rows.Perm (rowNumbers rows.length)
  increasing : g.accepted.Pairwise fun a b => a.row < b.row
  distinct : g.accepted.Pairwise fun a b => a.spec.name.sameName b.spec.name = false
  described : ∀ a ∈ g.accepted, ∃ row, rows[a.row - 1]? = some row ∧
    row.toSpec separator = .ok a.spec

section
variable {separator : Char} {g : Ingested} {rows : List Row} (h : g.Covers separator rows)
include h

theorem Ingested.Covers.row_bounds {a : Accepted} (ha : a ∈ g.accepted) :
    1 ≤ a.row ∧ a.row ≤ rows.length := by
  have hmem : some a.row ∈ g.rows :=
    List.mem_append_right _ (List.mem_map.mpr ⟨a, ha, rfl⟩)
  exact mem_rowNumbers.mp (h.rows_perm.mem_iff.mp hmem)

/-- The rows so far describe an accepted entity also when more follow. -/
theorem Ingested.Covers.described_concat (row : Row) {a : Accepted} (ha : a ∈ g.accepted) :
    ∃ own, (rows ++ [row])[a.row - 1]? = some own ∧ own.toSpec separator = .ok a.spec := by
  obtain ⟨own, hown, hspec⟩ := h.described a ha
  have hlt := (List.getElem?_eq_some_iff.mp hown).1
  exact ⟨own, by rw [List.getElem?_append_left hlt, hown], hspec⟩

/-- One more row is covered by what it does. -/
theorem Ingested.Covers.concat {row : Row} {next : Ingested}
    (hread : Reads separator g (rows.length + 1) row next) :
    next.Covers separator (rows ++ [row]) := by
  have hlength : (rows ++ [row]).length = rows.length + 1 := by simp
  have refused (e : CompileError) : Ingested.Covers ⟨g.accepted, g.rejections ++
      [.ofError (some (rows.length + 1)) (trim row.name) e]⟩ separator (rows ++ [row]) := by
    refine ⟨?_, h.increasing, h.distinct, fun a ha => h.described_concat row ha⟩
    rw [hlength, rowNumbers_succ]
    have hrows : (g.rows ++ [some (rows.length + 1)]).Perm
        (rowNumbers rows.length ++ [some (rows.length + 1)]) := h.rows_perm.append_right _
    refine List.Perm.trans ?_ hrows
    unfold Ingested.rows
    rw [List.map_append, List.append_assoc, List.append_assoc]
    exact List.perm_append_comm.append_left _
  cases hread with
  | invalid hspec => exact refused _
  | repeated hspec ha hsame => exact refused _
  | @accepted spec hspec hnew =>
    refine ⟨?_, ?_, ?_, ?_⟩
    · rw [hlength, rowNumbers_succ]
      unfold Ingested.rows
      rw [List.map_append, ← List.append_assoc]
      exact h.rows_perm.append_right _
    · refine List.pairwise_append.mpr ⟨h.increasing, List.pairwise_singleton _ _, ?_⟩
      intro a ha b hb
      have := (h.row_bounds ha).2
      rw [List.mem_singleton.mp hb]
      exact Nat.lt_succ_of_le this
    · refine List.pairwise_append.mpr ⟨h.distinct, List.pairwise_singleton _ _, ?_⟩
      intro a ha b hb
      rw [List.mem_singleton.mp hb]
      exact hnew a ha
    · refine List.forall_mem_append.mpr ⟨fun a ha => h.described_concat row ha, ?_⟩
      rw [List.forall_mem_singleton]
      exact ⟨row, by simp, hspec⟩

end

theorem covers_ingest (separator : Char) (rows : List Row) :
    (ingest separator rows).Covers separator rows := by
  induction rows using List.reverseRecOn with
  | nil =>
    refine ⟨List.Perm.refl _, List.Pairwise.nil, List.Pairwise.nil, ?_⟩
    intro a ha
    cases ha
  | append_singleton rows row ih =>
    rw [ingest_concat]
    exact ih.concat (reads_add ..)

/-- Why a row is refused: it describes no entity, or one whose name is
taken. -/
def Refused (separator : Char) (row : Row) (e : CompileError) : Prop :=
  row.toSpec separator = .error e ∨
    ∃ spec first, row.toSpec separator = .ok spec ∧ e = spec.reject (.duplicateEntity first)

/-- Why the row with a number is rejected, in view of the entities that were
accepted. -/
inductive RefusedAt (separator : Char) (g : Ingested) (number : Nat) (row : Row) :
    CompileError → Prop where
  | invalid {e : CompileError} (hspec : row.toSpec separator = .error e) :
      RefusedAt separator g number row e
  | repeated {spec : EntitySpec} (hspec : row.toSpec separator = .ok spec) {first : Accepted}
      (hfirst : first ∈ g.accepted) (hearlier : first.row < number)
      (hsame : first.spec.name.sameName spec.name = true) :
      RefusedAt separator g number row (spec.reject (.duplicateEntity first.row))

theorem RefusedAt.refused {separator : Char} {g : Ingested} {number : Nat} {row : Row}
    {e : CompileError} (h : RefusedAt separator g number row e) : Refused separator row e := by
  cases h with
  | invalid hspec => exact .inl hspec
  | repeated hspec hfirst hearlier hsame => exact .inr ⟨_, _, hspec, rfl⟩

/-- A cause stays one when more entities are accepted. -/
theorem RefusedAt.mono {separator : Char} {g next : Ingested} {number : Nat} {row : Row}
    {e : CompileError} (h : RefusedAt separator g number row e)
    (hsub : g.accepted ⊆ next.accepted) : RefusedAt separator next number row e := by
  cases h with
  | invalid hspec => exact .invalid hspec
  | repeated hspec hfirst hearlier hsame => exact .repeated hspec (hsub hfirst) hearlier hsame

theorem Reads.accepted_subset {separator : Char} {g next : Ingested} {number : Nat} {row : Row}
    (h : Reads separator g number row next) : g.accepted ⊆ next.accepted := by
  cases h with
  | accepted hspec hnew => exact List.subset_append_left _ _
  | invalid hspec => exact List.Subset.refl _
  | repeated hspec ha hsame => exact List.Subset.refl _

/-- Each rejection has a cause. -/
theorem exists_refusedAt {separator : Char} {rows : List Row} {r : Rejection}
    (hr : r ∈ (ingest separator rows).rejections) :
    ∃ number row e, rows[number - 1]? = some row ∧
      RefusedAt separator (ingest separator rows) number row e ∧
      r = .ofError (some number) (trim row.name) e := by
  induction rows using List.reverseRecOn with
  | nil => cases hr
  | append_singleton rows row ih =>
    have hcovers := covers_ingest separator rows
    rw [ingest_concat] at hr ⊢
    have hread := reads_add separator (ingest separator rows) (rows.length + 1) row
    have hlast : (rows ++ [row])[rows.length + 1 - 1]? = some row := by simp
    generalize (ingest separator rows).add separator (rows.length + 1) row = g at hr hread ⊢
    have earlier (hr : r ∈ (ingest separator rows).rejections) :
        ∃ number own e, (rows ++ [row])[number - 1]? = some own ∧
          RefusedAt separator g number own e ∧ r = .ofError (some number) (trim own.name) e := by
      obtain ⟨number, own, e, hown, hcause, hr⟩ := ih hr
      have hlt := (List.getElem?_eq_some_iff.mp hown).1
      exact ⟨number, own, e, by rw [List.getElem?_append_left hlt, hown],
        hcause.mono hread.accepted_subset, hr⟩
    cases hread with
    | accepted hspec hnew => exact earlier hr
    | invalid hspec =>
      rcases List.mem_append.mp hr with hold | hnew
      · exact earlier hold
      · exact ⟨_, row, _, hlast, .invalid hspec, List.mem_singleton.mp hnew⟩
    | repeated hspec ha hsame =>
      rcases List.mem_append.mp hr with hold | hnew
      · exact earlier hold
      · have hearlier := Nat.lt_succ_of_le (hcovers.row_bounds ha).2
        exact ⟨_, row, _, hlast, .repeated hspec ha hearlier hsame, List.mem_singleton.mp hnew⟩

theorem exists_refused {separator : Char} {rows : List Row} {r : Rejection}
    (hr : r ∈ (ingest separator rows).rejections) :
    ∃ number, ∃ row ∈ rows, ∃ e, Refused separator row e ∧
      r = .ofError (some number) (trim row.name) e := by
  obtain ⟨number, row, e, hrow, hcause, hr⟩ := exists_refusedAt hr
  exact ⟨number, row, List.mem_of_getElem? hrow, e, hcause.refused, hr⟩

/-! ## 3. Finding entities -/

/-- An accepted entity is found by its name. -/
theorem Ingested.find?_name {g : Ingested}
    (h : g.accepted.Pairwise fun a b => a.spec.name.sameName b.spec.name = false) {a : Accepted}
    (ha : a ∈ g.accepted) : g.find? a.spec.name.text = some a := by
  have hpair : g.accepted.Pairwise fun x y =>
      x.spec.name.sameName a.spec.name = true → ¬ y.spec.name.sameName a.spec.name = true := by
    refine h.imp fun {x y} hxy hx hy => ?_
    rw [sameName_trans hx (sameName_symm hy)] at hxy
    cases hxy
  have hfilter := filter_eq_singleton hpair ha (sameName_refl _)
  unfold Ingested.find?
  rw [← List.head?_filter]
  exact congrArg List.head? hfilter

/-- Of the entities with different names, a name finds the one that has it. -/
theorem Ingested.Covers.find?_eq_some_iff {separator : Char} {g : Ingested} {rows : List Row}
    (h : g.Covers separator rows) {name : String} {a : Accepted} :
    g.find? name = some a ↔ a ∈ g.accepted ∧ eqIgnoreCase a.spec.name.text name = true := by
  constructor
  · intro hfind
    obtain ⟨hsame, -⟩ := List.find?_eq_some_iff_append.mp hfind
    exact ⟨List.mem_of_find?_eq_some hfind, hsame⟩
  · rintro ⟨ha, hsame⟩
    have hcongr : g.find? name = g.find? a.spec.name.text := by
      refine congrArg (fun p => g.accepted.find? p) (funext fun b => ?_)
      rw [Bool.eq_iff_iff]
      exact ⟨fun hb => eqIgnoreCase_trans hb (eqIgnoreCase_symm hsame),
        fun hb => eqIgnoreCase_trans hb hsame⟩
    rw [hcongr]
    exact find?_name h.distinct ha

/-- Accepted entities with one name, in any case, are one entity. -/
theorem Ingested.Covers.eq_of_sameName {separator : Char} {g : Ingested} {rows : List Row}
    (h : g.Covers separator rows) {a b : Accepted} (ha : a ∈ g.accepted) (hb : b ∈ g.accepted)
    (hsame : a.spec.name.sameName b.spec.name = true) : a = b := by
  have hfound := h.find?_eq_some_iff.mpr ⟨ha, hsame⟩
  rw [find?_name h.distinct hb] at hfound
  exact (Option.some.inj hfound).symm

theorem Ingested.Covers.eq_of_name {separator : Char} {g : Ingested} {rows : List Row}
    (h : g.Covers separator rows) {a b : Accepted} (ha : a ∈ g.accepted) (hb : b ∈ g.accepted)
    (hname : a.spec.name = b.spec.name) : a = b :=
  h.eq_of_sameName ha hb (hname ▸ sameName_refl _)

/-- Entities have different names, so what has the name of one of them is its
own. -/
theorem Ingested.Covers.filter_flatMap {separator : Char} {g : Ingested} {rows : List Row}
    (h : g.Covers separator rows) {entities : List Accepted} (hsub : entities.Sublist g.accepted)
    {α : Type} {f : Accepted → List α} {owner : α → Ident}
    (howner : ∀ b ∈ entities, ∀ x ∈ f b, owner x = b.spec.name) {a : Accepted}
    (ha : a ∈ entities) :
    ((entities.flatMap f).filter fun x => owner x = a.spec.name) = f a := by
  have hnames : ∀ b ∈ entities, ((f b).filter fun x => owner x = a.spec.name) =
      if decide (b.spec.name = a.spec.name) then f b else [] := by
    intro b hb
    split
    · next hname =>
      refine List.filter_eq_self.mpr fun x hx => decide_eq_true ?_
      exact (howner b hb x hx).trans (of_decide_eq_true hname)
    · next hname =>
      refine List.filter_eq_nil_iff.mpr fun x hx hsame => hname ?_
      exact decide_eq_true ((howner b hb x hx).symm.trans (of_decide_eq_true hsame))
  have hdistinct : entities.Pairwise fun b c =>
      decide (b.spec.name = a.spec.name) = true → ¬ decide (c.spec.name = a.spec.name) = true := by
    refine (h.distinct.sublist hsub).imp fun {b c} hne hb hc => ?_
    rw [of_decide_eq_true hb, of_decide_eq_true hc, sameName_refl] at hne
    cases hne
  rw [filter_flatMap_of_ite hnames, filter_eq_singleton hdistinct ha (decide_eq_true rfl),
    List.flatMap_singleton]

/-! ## 4. Later rejections -/

theorem insertByRow_perm (r : Rejection) (rejections : List Rejection) :
    (Ingested.insertByRow r rejections).Perm (r :: rejections) := by
  induction rejections with
  | nil => exact List.Perm.refl _
  | cons other rest ih =>
    unfold Ingested.insertByRow
    split
    · exact List.Perm.refl _
    · exact (ih.cons other).trans (List.Perm.swap r other rest)

theorem accepted_reject_sublist (g : Ingested) (index : Nat) (e : CompileError) :
    (g.reject index e).accepted.Sublist g.accepted := by
  unfold Ingested.reject
  split
  · exact List.Sublist.refl _
  · exact List.eraseIdx_sublist _ _

/-- A later rejection takes over the row of its entity. -/
theorem rows_reject_perm (g : Ingested) (index : Nat) (e : CompileError) :
    (g.reject index e).rows.Perm g.rows := by
  unfold Ingested.reject
  cases hentry : g.accepted[index]? with
  | none => exact List.Perm.refl _
  | some a =>
    obtain ⟨hlt, rfl⟩ := List.getElem?_eq_some_iff.mp hentry
    have haccepted : (g.accepted[index] :: g.accepted.eraseIdx index).Perm g.accepted :=
      List.getElem_cons_eraseIdx_perm hlt
    unfold Ingested.rows
    have hrejected := (insertByRow_perm (.ofError (some g.accepted[index].row)
      g.accepted[index].spec.name.text e) g.rejections).map Rejection.row
    refine (hrejected.append_right _).trans ?_
    rw [List.map_cons, List.cons_append]
    refine List.perm_middle.symm.trans ?_
    exact (haccepted.map fun a => some a.row).append_left _

theorem Ingested.Covers.reject {separator : Char} {g : Ingested} {rows : List Row}
    (h : g.Covers separator rows) (index : Nat) (e : CompileError) :
    (g.reject index e).Covers separator rows := by
  have hsub := accepted_reject_sublist g index e
  exact ⟨(rows_reject_perm g index e).trans h.rows_perm, h.increasing.sublist hsub,
    h.distinct.sublist hsub, fun a ha => h.described a (hsub.subset ha)⟩

end DataVault.Metadata
