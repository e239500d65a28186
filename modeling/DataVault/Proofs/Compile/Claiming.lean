/-
DataVault.Proofs.Compile.Claiming — which entities keep their artifact names.

A run first lets all entities claim their names, which gives the positions
of those that lose one, and then takes the losers out of the list, the last
one first. `settle` goes over the entities once and says which are kept and
which are lost, each of them with the name and the owner it lost to.
`rejectOverlaps_eq` is that both come to the same; the positions are gone
from there on.

What is known of the kept ones is `Settled.Sound`: no two of them share an
artifact name, and every name that was lost is a name of a kept entity.
-/
import DataVault.Compile.Run
import DataVault.Proofs.Entity.Refusal
import DataVault.Proofs.Metadata.RowNumbers

namespace DataVault.Compile

open DataVault.Entity DataVault.Generate DataVault.Guard DataVault.Metadata DataVault.Sql

/-! ## 1. One entity after the other -/

/-- The entities that kept their names, and those that lost one. -/
structure Settled where
  kept : List Accepted
  lost : List (Accepted × Claim)

/-- The names of entities with their owners. -/
def claimsOf (s : Settings) (kept : List Accepted) : List Claim :=
  kept.flatMap fun a => (artifactNames s a.spec).map fun name => ⟨name, a.spec.name⟩

/-- One more entity claims its names. -/
def Settled.add (s : Settings) (c : Settled) (a : Accepted) : Settled :=
  match Claims.taken? ⟨claimsOf s c.kept, []⟩ (artifactNames s a.spec) with
  | some claim => { c with lost := c.lost ++ [(a, claim)] }
  | none => { c with kept := c.kept ++ [a] }

/-- Entities claim their names in order. -/
def settle (s : Settings) (entities : List Accepted) : Settled :=
  entities.foldl (Settled.add s) ⟨[], []⟩

theorem settle_concat (s : Settings) (entities : List Accepted) (a : Accepted) :
    settle s (entities ++ [a]) = (settle s entities).add s a := by
  unfold settle
  rw [List.foldl_append, List.foldl_cons, List.foldl_nil]

/-- The name that an entity loses to the entities before it, with its
owner. -/
def taken? (s : Settings) (before : List Accepted) (a : Accepted) : Option Claim :=
  Claims.taken? ⟨claimsOf s (settle s before).kept, []⟩ (artifactNames s a.spec)

section
variable {s : Settings} {entities : List Accepted} {a : Accepted}

theorem settle_taken {claim : Claim} (h : taken? s entities a = some claim) :
    settle s (entities ++ [a]) =
      ⟨(settle s entities).kept, (settle s entities).lost ++ [(a, claim)]⟩ := by
  unfold taken? at h
  simp only [settle_concat, Settled.add, h]

theorem settle_free (h : taken? s entities a = none) :
    settle s (entities ++ [a]) = ⟨(settle s entities).kept ++ [a], (settle s entities).lost⟩ := by
  unfold taken? at h
  simp only [settle_concat, Settled.add, h]

end

theorem addFrom_concat (s : Settings) (c : Claims) (index : Nat) (specs : List EntitySpec)
    (spec : EntitySpec) :
    c.addFrom s index (specs ++ [spec]) = (c.addFrom s index specs).add s (index + specs.length)
      spec := by
  induction specs generalizing c index with
  | nil => rfl
  | cons first specs ih =>
    rw [List.cons_append, Claims.addFrom, ih, List.length_cons, Claims.addFrom]
    congr 1
    omega

theorem claims_concat (s : Settings) (specs : List EntitySpec) (spec : EntitySpec) :
    Claims.of s (specs ++ [spec]) = (Claims.of s specs).add s specs.length spec := by
  unfold Claims.of
  rw [addFrom_concat, Nat.zero_add]

theorem taken?_of_claimed {s : Settings} {entities : List Accepted} (a : Accepted)
    (h : (Claims.of s (entities.map Accepted.spec)).claimed = claimsOf s (settle s entities).kept) :
    (Claims.of s (entities.map Accepted.spec)).taken? (artifactNames s a.spec) =
      taken? s entities a := by
  rw [taken?, ← h]
  rfl

/-- The names that are claimed are those of the kept entities. -/
theorem claimed_eq (s : Settings) (entities : List Accepted) :
    (Claims.of s (entities.map Accepted.spec)).claimed = claimsOf s (settle s entities).kept := by
  induction entities using List.reverseRecOn with
  | nil => rfl
  | append_singleton entities a ih =>
    rw [List.map_append, List.map_singleton, claims_concat, Claims.add, taken?_of_claimed a ih]
    cases htaken : taken? s entities a with
    | some claim =>
      rw [settle_taken htaken]
      exact ih
    | none =>
      rw [settle_free htaken]
      simp [claimsOf, ih]

section
variable {s : Settings} {entities : List Accepted} {a : Accepted}

theorem overlaps_taken {claim : Claim} (h : taken? s entities a = some claim) :
    (Claims.of s ((entities ++ [a]).map Accepted.spec)).overlaps =
      (Claims.of s (entities.map Accepted.spec)).overlaps ++
        [⟨entities.length, claim.name, claim.owner⟩] := by
  rw [List.map_append, List.map_singleton, claims_concat, Claims.add,
    taken?_of_claimed a (claimed_eq s entities), h, List.length_map]

theorem overlaps_free (h : taken? s entities a = none) :
    (Claims.of s ((entities ++ [a]).map Accepted.spec)).overlaps =
      (Claims.of s (entities.map Accepted.spec)).overlaps := by
  rw [List.map_append, List.map_singleton, claims_concat, Claims.add,
    taken?_of_claimed a (claimed_eq s entities), h]

end

/-! ## 2. Rejecting the losers -/

/-- The rejection of an entity that lost a name. -/
def lostRejection (l : Accepted × Claim) : Rejection :=
  .ofError (some l.1.row) l.1.spec.name.text
    (takenError l.1.spec.name.text l.2.name.text l.2.owner.text)

/-- The losers are put among rejections. -/
def rejectLost (lost : List (Accepted × Claim)) (rejections : List Rejection) : List Rejection :=
  lost.foldr (fun l => Ingested.insertByRow (lostRejection l)) rejections

/-- The entity at the position is taken out of the list. -/
theorem rejectOverlap_length (before after : List Accepted) (a : Accepted)
    (rejections : List Rejection) (claim : Claim) :
    rejectOverlap ⟨before ++ a :: after, rejections⟩ ⟨before.length, claim.name, claim.owner⟩ =
      ⟨before ++ after, Ingested.insertByRow (lostRejection (a, claim)) rejections⟩ := by
  have hentry : (before ++ a :: after)[before.length]? = some a := by simp
  have herase : (before ++ a :: after).eraseIdx before.length = before ++ after := by
    rw [List.eraseIdx_append_of_length_le (Nat.le_refl _), Nat.sub_self]
    rfl
  simp only [rejectOverlap, Ingested.reject, hentry, herase]
  rfl

/-- Entities behind those that claim stay where they are. -/
theorem foldl_rejectOverlap (s : Settings) (entities behind : List Accepted)
    (rejections : List Rejection) :
    (Claims.of s (entities.map Accepted.spec)).overlaps.reverse.foldl rejectOverlap
        ⟨entities ++ behind, rejections⟩ =
      ⟨(settle s entities).kept ++ behind, rejectLost (settle s entities).lost rejections⟩ := by
  induction entities using List.reverseRecOn generalizing behind rejections with
  | nil => rfl
  | append_singleton entities a ih =>
    rw [List.append_assoc, List.singleton_append]
    cases htaken : taken? s entities a with
    | some claim =>
      rw [overlaps_taken htaken, settle_taken htaken, List.reverse_append, List.reverse_singleton,
        List.singleton_append, List.foldl_cons, rejectOverlap_length, ih]
      simp [rejectLost]
    | none =>
      rw [overlaps_free htaken, settle_free htaken, ih, List.append_assoc, List.singleton_append]

theorem rejectOverlaps_eq (s : Settings) (g : Ingested) :
    rejectOverlaps s g =
      ⟨(settle s g.accepted).kept, rejectLost (settle s g.accepted).lost g.rejections⟩ := by
  have h := foldl_rejectOverlap s g.accepted [] g.rejections
  rw [List.append_nil, List.append_nil] at h
  exact h

theorem rejectLost_perm (lost : List (Accepted × Claim)) (rejections : List Rejection) :
    (rejectLost lost rejections).Perm (lost.map lostRejection ++ rejections) := by
  induction lost with
  | nil => exact List.Perm.refl _
  | cons l lost ih => exact (insertByRow_perm _ _).trans (ih.cons _)

theorem mem_rejectLost {lost : List (Accepted × Claim)} {rejections : List Rejection}
    {r : Rejection} (hr : r ∈ rejectLost lost rejections) :
    r ∈ rejections ∨ ∃ l ∈ lost, r = lostRejection l := by
  rcases List.mem_append.mp ((rejectLost_perm lost rejections).mem_iff.mp hr) with hlost | hold
  · obtain ⟨l, hl, hr⟩ := List.mem_map.mp hlost
    exact .inr ⟨l, hl, hr.symm⟩
  · exact .inl hold

/-! ## 3. What is kept -/

/-- The names of two entities are all different. -/
def NamesApart (s : Settings) (a b : Accepted) : Prop :=
  ∀ m ∈ artifactNames s a.spec, ∀ n ∈ artifactNames s b.spec, m.sameName n = false

/-- A kept entity has the name that was lost. -/
def Owned (s : Settings) (kept : List Accepted) (claim : Claim) : Prop :=
  ∃ b ∈ kept, b.spec.name = claim.owner ∧
    ∃ m ∈ artifactNames s b.spec, m.sameName claim.name = true

/-- What is known of the kept and of the lost ones. -/
structure Settled.Sound (c : Settled) (s : Settings) (entities : List Accepted) : Prop where
  sublist : c.kept.Sublist entities
  apart : c.kept.Pairwise (NamesApart s)
  owned : ∀ l ∈ c.lost, Owned s c.kept l.2

/-- A name that is taken is that of a kept entity. -/
theorem owned_of_taken? {s : Settings} {kept : List Accepted} {names : List Ident} {claim : Claim}
    (h : Claims.taken? ⟨claimsOf s kept, []⟩ names = some claim) : Owned s kept claim := by
  obtain ⟨name, -, hclaim⟩ := List.exists_of_findSome?_eq_some h
  obtain ⟨owner, howner, rfl⟩ := Option.map_eq_some_iff.mp hclaim
  obtain ⟨found, hfound, rfl⟩ := Option.map_eq_some_iff.mp howner
  obtain ⟨b, hb, hnames⟩ := List.mem_flatMap.mp (List.mem_of_find?_eq_some hfound)
  obtain ⟨m, hm, rfl⟩ := List.mem_map.mp hnames
  have hsame := List.find?_some hfound
  exact ⟨b, hb, rfl, m, hm, hsame⟩

/-- Names are not taken exactly if they are apart from those of the kept
entities. -/
theorem taken?_eq_none_iff {s : Settings} {kept : List Accepted} {a : Accepted} :
    Claims.taken? ⟨claimsOf s kept, []⟩ (artifactNames s a.spec) = none ↔
      ∀ b ∈ kept, NamesApart s b a := by
  unfold Claims.taken? Claims.owner?
  simp only [List.findSome?_eq_none_iff, Option.map_eq_none_iff, List.find?_eq_none]
  constructor
  · intro h b hb m hm n hn
    have hclaim : (⟨m, b.spec.name⟩ : Claim) ∈ claimsOf s kept :=
      List.mem_flatMap.mpr ⟨b, hb, List.mem_map.mpr ⟨m, hm, rfl⟩⟩
    exact Bool.eq_false_iff.mpr (h n hn ⟨m, b.spec.name⟩ hclaim)
  · intro h n hn claim hclaim
    obtain ⟨b, hb, hnames⟩ := List.mem_flatMap.mp hclaim
    obtain ⟨m, hm, rfl⟩ := List.mem_map.mp hnames
    exact Bool.eq_false_iff.mp (h b hb m hm n hn)

theorem Owned.mono {s : Settings} {kept more : List Accepted} {claim : Claim}
    (h : Owned s kept claim) (hsub : kept ⊆ more) : Owned s more claim := by
  obtain ⟨b, hb, howner⟩ := h
  exact ⟨b, hsub hb, howner⟩

theorem settle_sound (s : Settings) (entities : List Accepted) :
    (settle s entities).Sound s entities := by
  induction entities using List.reverseRecOn with
  | nil => exact ⟨List.Sublist.refl _, .nil, nofun⟩
  | append_singleton entities a ih =>
    cases htaken : taken? s entities a with
    | some claim =>
      rw [settle_taken htaken]
      refine ⟨ih.sublist.trans (List.sublist_append_left _ _), ih.apart, ?_⟩
      refine List.forall_mem_append.mpr ⟨ih.owned, ?_⟩
      rw [List.forall_mem_singleton]
      exact owned_of_taken? htaken
    | none =>
      rw [settle_free htaken]
      refine ⟨ih.sublist.append (List.Sublist.refl _), ?_, ?_⟩
      · refine List.pairwise_append.mpr ⟨ih.apart, List.pairwise_singleton _ _, ?_⟩
        intro b hb other hother
        rw [List.mem_singleton.mp hother]
        exact taken?_eq_none_iff.mp htaken b hb
      · exact fun l hl => (ih.owned l hl).mono (List.subset_append_left _ _)

/-- Each entity is kept or lost. -/
theorem length_settle (s : Settings) (entities : List Accepted) :
    (settle s entities).kept.length + (settle s entities).lost.length = entities.length := by
  induction entities using List.reverseRecOn with
  | nil => rfl
  | append_singleton entities a ih =>
    cases htaken : taken? s entities a with
    | some claim =>
      simp only [settle_taken htaken, List.length_append, List.length_singleton]
      omega
    | none =>
      simp only [settle_free htaken, List.length_append, List.length_singleton]
      omega

/-- Rejecting keeps the rows covered and in order, and so does rejecting the
losers. -/
theorem sorted_rejectOverlaps {separator : Char} {rows : List Row} {g : Ingested} (s : Settings)
    (h : g.Sorted separator rows) : (rejectOverlaps s g).Sorted separator rows := by
  unfold rejectOverlaps
  induction (Claims.of s g.specs).overlaps.reverse generalizing g with
  | nil => exact h
  | cons o overlaps ih =>
    rw [List.foldl_cons]
    refine ih ?_
    unfold rejectOverlap
    split
    · exact h.reject _ _
    · exact h

end DataVault.Compile
