/-
DataVault.Proofs.Lists — laws of lists that the proofs share.

`filter_eq_singleton` is how a member is found by its name or key in a list
where no other member has it.
-/
import Mathlib.Data.List.Forall2

namespace DataVault.Lists

variable {α β : Type}

/-- In related lists, each member on the left has one on the right. -/
theorem exists_of_mem_left {R : α → β → Prop} {as : List α} {bs : List β}
    (h : List.Forall₂ R as bs) {a : α} (ha : a ∈ as) : ∃ b ∈ bs, R a b := by
  induction h with
  | nil => cases ha
  | @cons a' b as bs hab _ ih =>
    rcases List.mem_cons.mp ha with rfl | hrest
    · exact ⟨b, List.mem_cons_self, hab⟩
    · obtain ⟨b', hb', hR⟩ := ih hrest
      exact ⟨b', List.mem_cons_of_mem b hb', hR⟩

/-- In related lists, each member on the right has one on the left. -/
theorem exists_of_mem_right {R : α → β → Prop} {as : List α} {bs : List β}
    (h : List.Forall₂ R as bs) {b : β} (hb : b ∈ bs) : ∃ a ∈ as, R a b :=
  exists_of_mem_left h.flip hb

/-- Lists with the same images are equally long. -/
theorem length_eq_of_map_eq {γ : Type} {f : α → γ} {g : β → γ} {as : List α} {bs : List β}
    (h : as.map f = bs.map g) : as.length = bs.length := by
  simpa only [List.length_map] using congrArg List.length h

/-- Lists that are each related to a third one are related to each other. -/
theorem forall₂_of_common {γ : Type} {R : α → β → Prop} {S : α → γ → Prop} {T : β → γ → Prop}
    (hcommon : ∀ a b c, R a b → S a c → T b c) : ∀ {as : List α} {bs : List β} {cs : List γ},
      List.Forall₂ R as bs → List.Forall₂ S as cs → List.Forall₂ T bs cs
  | _, _, _, .nil, .nil => .nil
  | _, _, _, .cons hR hRs, .cons hS hSs =>
      .cons (hcommon _ _ _ hR hS) (forall₂_of_common hcommon hRs hSs)

/-- Members that each give their partner's image give the images. -/
theorem filterMap_of_forall₂ {γ : Type} {f : α → Option γ} {g : β → γ} {as : List α} {bs : List β}
    (h : List.Forall₂ (fun a b => f a = some (g b)) as bs) : as.filterMap f = bs.map g := by
  induction h with
  | nil => rfl
  | cons hab _ ih => rw [List.filterMap_cons_some hab, ih, List.map_cons]

/-- Where each member has an image, the images stand beside the members. -/
theorem forall₂_filterMap {R : β → α → Prop} {f : α → Option β} {as : List α}
    (h : ∀ a ∈ as, ∃ b, f a = some b ∧ R b a) : List.Forall₂ R (as.filterMap f) as := by
  induction as with
  | nil => exact .nil
  | cons a as ih =>
    obtain ⟨⟨b, hb, hR⟩, hrest⟩ := List.forall_mem_cons.mp h
    rw [List.filterMap_cons_some hb]
    exact .cons hR (ih hrest)

/-- Members that are each the image of something good are together the images
of a list of such. -/
theorem exists_map_eq {f : β → α} {P : β → Prop} : ∀ {as : List α},
    (∀ a ∈ as, ∃ b, f b = a ∧ P b) → ∃ bs : List β, bs.map f = as ∧ ∀ b ∈ bs, P b
  | [], _ => ⟨[], rfl, nofun⟩
  | a :: as, h => by
      obtain ⟨⟨b, rfl, hb⟩, hrest⟩ := List.forall_mem_cons.mp h
      obtain ⟨bs, rfl, hbs⟩ := exists_map_eq hrest
      exact ⟨b :: bs, rfl, List.forall_mem_cons.mpr ⟨hb, hbs⟩⟩

/-- A test that no two members pass keeps the one that passes it. -/
theorem filter_eq_singleton {p : α → Bool} {a : α} : ∀ {as : List α},
    as.Pairwise (fun x y => p x = true → ¬ p y = true) → a ∈ as → p a = true → as.filter p = [a]
  | [], _, hmem, _ => absurd hmem List.not_mem_nil
  | x :: rest, hpair, hmem, hp => by
      obtain ⟨hx, hrest⟩ := List.pairwise_cons.mp hpair
      rcases List.mem_cons.mp hmem with rfl | hin
      · rw [List.filter_cons_of_pos hp, List.filter_eq_nil_iff.mpr fun y hy => hx y hy hp]
      · have hnot : ¬ p x = true := fun hpx => hx a hin hpx hp
        rw [List.filter_cons_of_neg hnot, filter_eq_singleton hrest hin hp]

/-- A test that passes all images of some members and none of the others. -/
theorem filter_flatMap_of_ite {f : α → List β} {p : β → Bool} {q : α → Bool} {as : List α}
    (h : ∀ a ∈ as, (f a).filter p = if q a then f a else []) :
    (as.flatMap f).filter p = (as.filter q).flatMap f := by
  induction as with
  | nil => rfl
  | cons a as ih =>
    obtain ⟨ha, hrest⟩ := List.forall_mem_cons.mp h
    rw [List.flatMap_cons, List.filter_append, ha, ih hrest, List.filter_cons]
    cases q a <;> rfl

/-- A list of members that pass a test ends before the first one that does
not. -/
theorem append_inj_of_all {p : α → Bool} {as bs r t : List α} (has : ∀ a ∈ as, p a = true)
    (hbs : ∀ b ∈ bs, p b = true) (hr : ∀ a ∈ r.head?, p a = false)
    (ht : ∀ a ∈ t.head?, p a = false) (h : as ++ r = bs ++ t) : as = bs ∧ r = t := by
  have hstop : ∀ {rest : List α}, (∀ a ∈ rest.head?, p a = false) → rest.takeWhile p = [] := by
    intro rest hrest
    cases rest with
    | nil => rfl
    | cons a rest => rw [List.takeWhile_cons, hrest a rfl]; rfl
  have htake := congrArg (List.takeWhile p) h
  rw [List.takeWhile_append_of_pos has, List.takeWhile_append_of_pos hbs, hstop hr, hstop ht,
    List.append_nil, List.append_nil] at htake
  rw [htake] at h
  exact ⟨htake, List.append_cancel_left h⟩

/-- Members that give one image or none are filtered and mapped. -/
theorem flatMap_ite (p : α → Prop) [DecidablePred p] (f : α → β) (as : List α) :
    (as.flatMap fun a => if p a then [f a] else []) = (as.filter p).map f := by
  induction as with
  | nil => rfl
  | cons a as ih =>
    rw [List.flatMap_cons, ih, List.filter_cons]
    by_cases ha : p a <;> simp [ha]

theorem nodup_eraseDups [BEq α] [LawfulBEq α] : ∀ as : List α, as.eraseDups.Nodup
  | [] => List.nodup_nil
  | a :: as => by
      rw [List.eraseDups_cons]
      refine List.nodup_cons.mpr ⟨fun ha => ?_, nodup_eraseDups _⟩
      have hkept := (List.mem_filter.mp (List.mem_eraseDups.mp ha)).2
      rw [beq_self_eq_true] at hkept
      cases hkept
termination_by as => as.length
decreasing_by exact Nat.lt_succ_of_le (List.length_filter_le _ _)

/-- Images repeat where the members do, if no two of these have one image. -/
theorem eraseDups_map [BEq α] [LawfulBEq α] [BEq β] [LawfulBEq β] {f : α → β} : ∀ {as : List α},
    (∀ a ∈ as, ∀ b ∈ as, f a = f b → a = b) → (as.map f).eraseDups = as.eraseDups.map f
  | [], _ => rfl
  | a :: as, hinj => by
      have hothers : (as.map f).filter (fun b => !b == f a) =
          (as.filter fun b => !b == a).map f := by
        rw [List.filter_map]
        refine congrArg (List.map f) (List.filter_congr fun b hb => ?_)
        rw [Function.comp_apply, Bool.not_inj_iff, Bool.eq_iff_iff, beq_iff_eq, beq_iff_eq]
        exact ⟨hinj b (List.mem_cons_of_mem a hb) a List.mem_cons_self, congrArg f⟩
      have hrest : ∀ b ∈ as.filter (fun b => !b == a), b ∈ a :: as :=
        fun b hb => List.mem_cons_of_mem a (List.mem_of_mem_filter hb)
      rw [List.map_cons, List.eraseDups_cons, List.eraseDups_cons, List.map_cons, hothers,
        eraseDups_map fun b hb c hc => hinj b (hrest b hb) c (hrest c hc)]
termination_by as => as.length
decreasing_by exact Nat.lt_succ_of_le (List.length_filter_le _ _)

/-- Erasing repetitions leaves a list as it is exactly if it has none. -/
theorem eraseDups_eq_self_iff [BEq α] [LawfulBEq α] {as : List α} :
    as.eraseDups = as ↔ as.Nodup := by
  constructor
  · intro h
    exact h ▸ nodup_eraseDups as
  · intro h
    induction as with
    | nil => rfl
    | cons a as ih =>
      obtain ⟨ha, has⟩ := List.nodup_cons.mp h
      have hothers : as.filter (fun b => !b == a) = as := by
        refine List.filter_eq_self.mpr fun b hb => ?_
        have hne : b ≠ a := by
          rintro rfl
          exact ha hb
        rw [beq_false_of_ne hne]
        rfl
      rw [List.eraseDups_cons, hothers, ih has]

end DataVault.Lists
