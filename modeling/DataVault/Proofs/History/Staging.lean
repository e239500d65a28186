/-
DataVault.Proofs.History.Staging — which rows are staged.

Staging goes through the rows once and keeps one row for each hash key.
`addStaged_perm` says what one more row does to the staged ones: it takes
the place of a row with its key and a greater digest, and it is left out
when some row with its key has a digest as small as its own. From this step
`stagedFrom_stagedOf` follows for all rows: the staged rows are among the
rows, no two of them share a key, and each row has its key staged with a
digest that is not greater.
-/
import DataVault.History.Table
import Mathlib.Data.List.Induction
import Mathlib.Data.String.Basic

namespace DataVault.History

/-! ## 1. One more row -/

/-- No two staged rows have the same hash key. -/
def DistinctKeys (staged : List Staged) : Prop :=
  staged.Pairwise fun a b => a.hashKey ≠ b.hashKey

/-- The row is staged in the place of another one. -/
def Staged.Beats (new old : Staged) : Prop :=
  old.hashKey = new.hashKey ∧ new.hashDiff < old.hashDiff

instance (new old : Staged) : Decidable (new.Beats old) := inferInstanceAs (Decidable (_ ∧ _))

/-- The row beats all rows with its key. -/
def Staged.Leads (new : Staged) (rows : List Staged) : Prop :=
  ∀ old ∈ rows, old.hashKey = new.hashKey → new.hashDiff < old.hashDiff

instance (new : Staged) (rows : List Staged) : Decidable (new.Leads rows) :=
  inferInstanceAs (Decidable (∀ old ∈ rows, _))

/-- One more row drops the rows that it beats, and is staged if it leads. -/
theorem addStaged_perm {new : Staged} : ∀ {staged : List Staged}, DistinctKeys staged →
    (addStaged new staged).Perm
      (staged.filter (fun old => ¬ new.Beats old) ++ if new.Leads staged then [new] else [])
  | [], _ => by simp [addStaged, Staged.Leads]
  | old :: rest, h => by
      obtain ⟨hold, hrest⟩ := List.pairwise_cons.mp h
      by_cases hkey : old.hashKey = new.hashKey
      · have hother : ∀ s ∈ rest, ¬ s.hashKey = new.hashKey :=
          fun s hs heq => hold s hs (hkey.trans heq.symm)
        have hkept : rest.filter (fun s => decide ¬ new.Beats s) = rest :=
          List.filter_eq_self.mpr fun s hs => decide_eq_true fun hb => hother s hs hb.1
        by_cases hlt : new.hashDiff < old.hashDiff
        · have hleads : new.Leads (old :: rest) :=
            List.forall_mem_cons.mpr ⟨fun _ => hlt, fun s hs heq => absurd heq (hother s hs)⟩
          have hbeats : new.Beats old := ⟨hkey, hlt⟩
          rw [addStaged, if_pos hkey, if_pos hlt, if_pos hleads,
            List.filter_cons_of_neg (by simpa using hbeats), hkept]
          exact (List.perm_append_singleton new rest).symm
        · have hleads : ¬ new.Leads (old :: rest) := fun hl => hlt (hl old (by simp) hkey)
          have hbeats : ¬ new.Beats old := fun hb => hlt hb.2
          rw [addStaged, if_pos hkey, if_neg hlt, if_neg hleads,
            List.filter_cons_of_pos (by simpa using hbeats), hkept, List.append_nil]
      · have hbeats : ¬ new.Beats old := fun hb => hkey hb.1
        have hleads : new.Leads (old :: rest) ↔ new.Leads rest := by
          simp [Staged.Leads, hkey]
        rw [addStaged, if_neg hkey, List.filter_cons_of_pos (by simpa using hbeats)]
        simp only [hleads, List.cons_append]
        exact (addStaged_perm hrest).cons old

theorem mem_addStaged {new s : Staged} {staged : List Staged} (h : DistinctKeys staged) :
    s ∈ addStaged new staged ↔
      (s ∈ staged ∧ ¬ new.Beats s) ∨ (s = new ∧ new.Leads staged) := by
  rw [(addStaged_perm h).mem_iff, List.mem_append, List.mem_filter]
  by_cases hleads : new.Leads staged <;> simp [hleads]

theorem DistinctKeys.addStaged {new : Staged} {staged : List Staged} (h : DistinctKeys staged) :
    DistinctKeys (addStaged new staged) := by
  refine ((addStaged_perm h).pairwise_iff fun hab => Ne.symm hab).mpr ?_
  refine List.pairwise_append.mpr ⟨h.sublist List.filter_sublist, ?_, ?_⟩
  · split <;> simp
  · intro old hold s hs
    obtain ⟨hmem, hbeats⟩ := List.mem_filter.mp hold
    split at hs
    · next hleads =>
      obtain rfl := List.mem_singleton.mp hs
      intro hkey
      exact of_decide_eq_true hbeats ⟨hkey, hleads old hmem hkey⟩
    · cases hs

/-! ## 2. All rows -/

/-- What the staged rows have to do with the rows that they come from. -/
structure StagedFrom (rows staged : List Staged) : Prop where
  mem : ∀ s ∈ staged, s ∈ rows
  distinct : DistinctKeys staged
  least : ∀ r ∈ rows, ∃ s ∈ staged, s.hashKey = r.hashKey ∧ s.hashDiff ≤ r.hashDiff

/-- Whether a row leads can be told from the staged rows alone. -/
theorem StagedFrom.leads_iff {rows staged : List Staged} (h : StagedFrom rows staged)
    (new : Staged) : new.Leads staged ↔ new.Leads rows := by
  constructor
  · intro hleads r hr hkey
    obtain ⟨s, hs, hsame, hle⟩ := h.least r hr
    exact lt_of_lt_of_le (hleads s hs (hsame.trans hkey)) hle
  · exact fun hleads s hs => hleads s (h.mem s hs)

theorem StagedFrom.add {rows staged : List Staged} (h : StagedFrom rows staged) (new : Staged) :
    StagedFrom (rows ++ [new]) (addStaged new staged) where
  mem := by
    intro s hs
    rcases (mem_addStaged h.distinct).mp hs with ⟨hold, -⟩ | ⟨rfl, -⟩
    · exact List.mem_append_left _ (h.mem s hold)
    · exact List.mem_append_right _ (List.mem_singleton.mpr rfl)
  distinct := h.distinct.addStaged
  least := by
    -- Either the new row is staged itself, or a row that it does not beat is.
    have hnew : ∃ s ∈ addStaged new staged,
        s.hashKey = new.hashKey ∧ s.hashDiff ≤ new.hashDiff := by
      by_cases hleads : new.Leads staged
      · exact ⟨new, (mem_addStaged h.distinct).mpr (.inr ⟨rfl, hleads⟩), rfl, le_refl _⟩
      · obtain ⟨s, hs, hkey, hle⟩ : ∃ s ∈ staged, s.hashKey = new.hashKey ∧
            ¬ new.hashDiff < s.hashDiff := by
          simpa only [Staged.Leads, not_forall, exists_prop] using hleads
        exact ⟨s, (mem_addStaged h.distinct).mpr (.inl ⟨hs, fun hb => hle hb.2⟩), hkey,
          not_lt.mp hle⟩
    intro r hr
    rcases List.mem_append.mp hr with hr | hr
    · obtain ⟨s, hs, hkey, hle⟩ := h.least r hr
      by_cases hbeats : new.Beats s
      · obtain ⟨u, hu, hukey, hule⟩ := hnew
        exact ⟨u, hu, hukey.trans (hbeats.1.symm.trans hkey),
          hule.trans (hbeats.2.le.trans hle)⟩
      · exact ⟨s, (mem_addStaged h.distinct).mpr (.inl ⟨hs, hbeats⟩), hkey, hle⟩
    · obtain rfl := List.mem_singleton.mp hr
      exact hnew

theorem stagedOf_concat (rows : List Staged) (new : Staged) :
    stagedOf (rows ++ [new]) = addStaged new (stagedOf rows) := by
  simp [stagedOf]

/-- Staging keeps for each key a row with the least digest. -/
theorem stagedFrom_stagedOf (rows : List Staged) : StagedFrom rows (stagedOf rows) := by
  induction rows using List.reverseRecOn with
  | nil => exact ⟨by simp [stagedOf], .nil, by simp⟩
  | append_singleton rows new ih =>
    rw [stagedOf_concat]
    exact ih.add new

/-- Of rows with equally small digests the first one is staged. -/
theorem head_mem_stagedOf {first : Staged} {rows : List Staged}
    (hleast : ∀ r ∈ rows, r.hashKey = first.hashKey → first.hashDiff ≤ r.hashDiff) :
    first ∈ stagedOf (first :: rows) := by
  induction rows using List.reverseRecOn with
  | nil => simp [stagedOf, addStaged]
  | append_singleton rows new ih =>
    obtain ⟨hrows, hnew⟩ := List.forall_mem_append.mp hleast
    rw [← List.cons_append, stagedOf_concat, mem_addStaged (stagedFrom_stagedOf _).distinct]
    refine .inl ⟨ih hrows, fun hbeats => ?_⟩
    exact absurd hbeats.2 (not_lt.mpr (hnew new (by simp) hbeats.1.symm))

end DataVault.History
