/-
DataVault.Proofs.Compile.Receipts — what a receipt's id says.

The id is the hash of one text: the two hashes and the entries, a line each.
A text gives its lines back as long as none of them was broken in two, and an
entry its name and its hash, because neither holds an equals sign
(`idText_inj`). So whatever the text records cannot be changed under the same
id, unless lines are joined (`verify_eq_false_iff`). An entry's kind is not
part of the text.

The hashes in turn are taken over the canonical forms of the specifications
and of the settings, and those tell their inputs apart. Two runs with the
same id therefore had the same entities and settings, and the artifacts are a
function of these (`receipt_id_identifies`).
-/
import DataVault.Compile.Receipt
import DataVault.Proofs.Compile.Canonical
import DataVault.Proofs.Compile.Planning
import DataVault.Proofs.History.AsOf

namespace DataVault.Compile

open DataVault.Artifact DataVault.Digest DataVault.Entity DataVault.Generate DataVault.History
  DataVault.Metadata DataVault.Output DataVault.Sql DataVault.Text

/-! ## 1. Digits -/

theorem hexDigit_mem : ∀ n < 16, hexDigit n ∈ "0123456789abcdef".toList := by decide

/-- A digest is written in digits. -/
theorem mem_digits_of_hexDigest {text : String} {c : Char}
    (h : c ∈ (Sha256.hexDigest text).toList) : c ∈ "0123456789abcdef".toList := by
  unfold Sha256.hexDigest at h
  rw [String.toList_ofList] at h
  obtain ⟨b, -, hc⟩ := List.mem_flatMap.mp h
  have hb : b.toNat < 256 := b.toNat_lt
  rcases List.mem_pair.mp hc with rfl | rfl
  · exact hexDigit_mem _ (by omega)
  · exact hexDigit_mem _ (by omega)

theorem notMem_hexDigest {c : Char} (hc : c ∉ "0123456789abcdef".toList) (text : String) :
    c ∉ (Sha256.hexDigest text).toList :=
  fun h => hc (mem_digits_of_hexDigest h)

/-! ## 2. Lines -/

/-- What the line of an entry says: its name and its hash. -/
def ArtifactDigest.line (d : ArtifactDigest) : String × String := (d.name, d.bodyHash)

/-- What the id is taken over: all that is recorded, except for the kinds. -/
def Receipt.recorded (r : Receipt) : String × String × List (String × String) :=
  (r.inputHash, r.configHash, r.artifacts.map ArtifactDigest.line)

/-- The lines of the text that the id is the hash of. -/
def recordedLines (inputHash configHash : String) (artifacts : List ArtifactDigest) :
    List (List Char) :=
  inputHash.toList :: configHash.toList ::
    artifacts.map fun d => d.name.toList ++ '=' :: d.bodyHash.toList

/-- No recorded text holds a line break. -/
def Receipt.SingleLines (r : Receipt) : Prop :=
  ∀ line ∈ recordedLines r.inputHash r.configHash r.artifacts, '\n' ∉ line

instance (r : Receipt) : Decidable r.SingleLines :=
  inferInstanceAs (Decidable (∀ line ∈ recordedLines _ _ _, _))

section
variable {inputHash configHash inputHash' configHash' : String}
  {artifacts artifacts' : List ArtifactDigest}

theorem toList_idText : (Receipt.idText inputHash configHash artifacts).toList ++ ['\n'] =
    (recordedLines inputHash configHash artifacts).flatMap (· ++ ['\n']) := by
  have hentries : (String.join (artifacts.map fun d => "\n" ++ d.name ++ "=" ++ d.bodyHash)).toList
      ++ ['\n'] = '\n' :: (artifacts.map fun d =>
        d.name.toList ++ '=' :: d.bodyHash.toList).flatMap (· ++ ['\n']) := by
    induction artifacts with
    | nil => rfl
    | cons d artifacts ih =>
      rw [List.map_cons, String.join_cons, String.toList_append, List.append_assoc, ih]
      simp [String.toList_append]
  unfold Receipt.idText recordedLines
  rw [String.toList_append, List.append_assoc, hentries]
  simp [String.toList_append]

/-- Lines are told apart, where only fewer of them might be broken. -/
theorem lines_inj {left right : List (List Char)} (hleft : ∀ line ∈ left, '\n' ∉ line)
    (hright : right.length < left.length → ∀ line ∈ right, '\n' ∉ line)
    (h : left.flatMap (· ++ ['\n']) = right.flatMap (· ++ ['\n'])) : left = right := by
  by_cases hfewer : right.length < left.length
  · have hsplit := congrArg (splitChars '\n') h
    rw [splitChars_pieces hleft, splitChars_pieces (hright hfewer)] at hsplit
    exact List.append_cancel_right hsplit
  · have hcount := congrArg (List.count '\n') h
    rw [count_pieces, count_pieces, count_flatten_eq_zero_iff.mpr hleft] at hcount
    exact pieces_inj hleft (by omega) h

/-- A line gives back a name and a hash without an equals sign. -/
theorem line_inj {d d' : ArtifactDigest} (hname : '=' ∉ d.name.toList)
    (hhash : '=' ∉ d.bodyHash.toList)
    (h : d.name.toList ++ '=' :: d.bodyHash.toList =
      d'.name.toList ++ '=' :: d'.bodyHash.toList) : d.line = d'.line := by
  have hfree : ∀ piece ∈ [d.name.toList, d.bodyHash.toList], '=' ∉ piece :=
    List.forall_mem_cons.mpr ⟨hname, List.forall_mem_singleton.mpr hhash⟩
  have hpieces : [d.name.toList, d.bodyHash.toList] = [d'.name.toList, d'.bodyHash.toList] := by
    refine pieces_inj hfree rfl ?_
    simpa using congrArg (· ++ ['=']) h
  simp only [List.cons.injEq, and_true, String.toList_inj] at hpieces
  exact Prod.ext hpieces.1 hpieces.2

theorem lines_of_map_eq (hname : ∀ d ∈ artifacts, '=' ∉ d.name.toList)
    (hhash : ∀ d ∈ artifacts, '=' ∉ d.bodyHash.toList)
    (h : (artifacts.map fun d => d.name.toList ++ '=' :: d.bodyHash.toList) =
      artifacts'.map fun d => d.name.toList ++ '=' :: d.bodyHash.toList) :
    artifacts.map ArtifactDigest.line = artifacts'.map ArtifactDigest.line := by
  induction artifacts generalizing artifacts' with
  | nil => rw [List.map_eq_nil_iff.mp h.symm]
  | cons d artifacts ih =>
    obtain ⟨d', rest, rfl, hd, hrest⟩ := List.map_eq_cons_iff.mp h.symm
    obtain ⟨hnamed, hnames⟩ := List.forall_mem_cons.mp hname
    obtain ⟨hhashed, hhashes⟩ := List.forall_mem_cons.mp hhash
    rw [List.map_cons, List.map_cons, line_inj hnamed hhashed hd.symm,
      ih hnames hhashes hrest.symm]

end

/-! ## 3. Receipts that are made -/

theorem name_eq_of_mem {artifacts : List Artifact} {d : ArtifactDigest}
    (h : d ∈ artifacts.map ArtifactDigest.of) :
    ∃ a ∈ artifacts, d.name = a.targetName.text ∧ d.bodyHash = Sha256.hexDigest a.body := by
  obtain ⟨a, ha, rfl⟩ := List.mem_map.mp h
  exact ⟨a, ha, rfl, rfl⟩

section
variable {inputHash configHash : String} {artifacts : List Artifact}
  (hinput : '\n' ∉ inputHash.toList) (hconfig : '\n' ∉ configHash.toList)
include hinput hconfig

theorem singleLines_make (now : String) :
    (Receipt.make inputHash configHash artifacts now).SingleLines := by
  refine List.forall_mem_cons.mpr ⟨hinput, List.forall_mem_cons.mpr ⟨hconfig, ?_⟩⟩
  rintro _ hline hbreak
  obtain ⟨d, hd, rfl⟩ := List.mem_map.mp hline
  obtain ⟨a, -, hname, hhash⟩ := name_eq_of_mem hd
  rcases List.mem_append.mp hbreak with hbreak | hbreak
  · rw [hname] at hbreak
    exact notMem_of_isPart_eq_false (by decide) hbreak
  · rw [hhash] at hbreak
    exact notMem_hexDigest (by decide) _ ((List.mem_cons.mp hbreak).resolve_left (by decide))

/-- The text that the id is the hash of tells what is recorded. -/
theorem idText_inj {inputHash' configHash' : String} {artifacts' : List ArtifactDigest}
    (hlines : artifacts'.length < artifacts.length →
      ∀ line ∈ recordedLines inputHash' configHash' artifacts', '\n' ∉ line)
    (h : Receipt.idText inputHash configHash (artifacts.map .of) =
      Receipt.idText inputHash' configHash' artifacts') :
    inputHash = inputHash' ∧ configHash = configHash' ∧
      (artifacts.map ArtifactDigest.of).map ArtifactDigest.line =
        artifacts'.map ArtifactDigest.line := by
  have htext := congrArg (·.toList ++ ['\n']) h
  simp only [toList_idText] at htext
  have heq := lines_inj (singleLines_make hinput hconfig "")
    (fun hfewer => hlines (by simpa [recordedLines, Receipt.make] using hfewer)) htext
  simp only [recordedLines, Receipt.make, List.cons.injEq, String.toList_inj] at heq
  obtain ⟨rfl, rfl, hentries⟩ := heq
  refine ⟨rfl, rfl, lines_of_map_eq (fun d hd => ?_) (fun d hd => ?_) hentries⟩
  · obtain ⟨a, -, hname, -⟩ := name_eq_of_mem hd
    rw [hname]
    exact notMem_of_isPart_eq_false (by decide)
  · obtain ⟨a, -, -, hhash⟩ := name_eq_of_mem hd
    rw [hhash]
    exact notMem_hexDigest (by decide) _

end

/-- The receipt of a run is that of its entities, its settings and its artifacts. -/
theorem receipt_of_compile {σ : Type} {s : Settings} {separator : Char} {sink : Sink σ}
    {now : String} {rows : List Row} {st st' : σ} {summary : Summary}
    (h : compile s separator sink now rows st = (.ok summary, st')) :
    summary.receipt = .make (inputHash (keptOf s separator rows).specs) s.fingerprint
      summary.artifacts now := by
  obtain ⟨p, hplan, hcarry⟩ := compile_eq_ok_iff.mp h
  obtain ⟨r, -, -, hsummary⟩ := carryOut_eq_ok hcarry
  obtain ⟨-, rfl⟩ := plan_eq_ok_iff.mp hplan
  rw [hsummary]

/-! ## 4. Altered receipts -/

section
variable {a b : String}

theorem collisionFree_pair (h : Sha256.hexDigest a = Sha256.hexDigest b → a = b) :
    CollisionFree [a, b] := by
  intro x hx y hy hsame
  rcases List.mem_pair.mp hx with rfl | rfl <;> rcases List.mem_pair.mp hy with rfl | rfl
  · rfl
  · exact h hsame
  · exact (h hsame.symm).symm
  · rfl

theorem eq_of_collisionFree (h : CollisionFree [a, b])
    (hsame : Sha256.hexDigest a = Sha256.hexDigest b) : a = b :=
  h a List.mem_cons_self b (List.mem_cons_of_mem _ List.mem_cons_self) hsame

end

theorem idText_eq_of_lines {artifacts artifacts' : List ArtifactDigest}
    (h : artifacts.map ArtifactDigest.line = artifacts'.map ArtifactDigest.line)
    (inputHash configHash : String) :
    Receipt.idText inputHash configHash artifacts =
      Receipt.idText inputHash configHash artifacts' := by
  have hentries := congrArg (List.map fun l : String × String => "\n" ++ l.1 ++ "=" ++ l.2) h
  rw [List.map_map, List.map_map] at hentries
  unfold Receipt.idText
  exact congrArg (fun entries => inputHash ++ "\n" ++ configHash ++ String.join entries) hentries

theorem verify_eq_true_iff {r : Receipt} :
    r.verify = true ↔ r.id = Receipt.idOf r.inputHash r.configHash r.artifacts := beq_iff_eq

/-- A receipt that keeps the id of one that was made fails to verify exactly
if something was changed in it other than the kinds, where entries are not
joined by line breaks. -/
theorem verify_eq_false_iff (inputHash configHash now : String) (artifacts : List Artifact)
    (r : Receipt) (hid : r.id = (Receipt.make inputHash configHash artifacts now).id)
    (hinput : '\n' ∉ inputHash.toList) (hconfig : '\n' ∉ configHash.toList)
    (hlines : r.artifacts.length < artifacts.length → r.SingleLines)
    (hfree : CollisionFree [Receipt.idText inputHash configHash (artifacts.map .of),
      Receipt.idText r.inputHash r.configHash r.artifacts]) :
    r.verify = false ↔
      r.recorded ≠ (Receipt.make inputHash configHash artifacts now).recorded := by
  rw [← Bool.not_eq_true, verify_eq_true_iff, not_iff_not, hid]
  constructor
  · intro hverify
    obtain ⟨rfl, rfl, hentries⟩ :=
      idText_inj hinput hconfig hlines (eq_of_collisionFree hfree hverify)
    exact Prod.ext rfl (Prod.ext rfl hentries.symm)
  · intro hrecorded
    obtain ⟨rfl, hrest⟩ := Prod.mk.inj hrecorded
    obtain ⟨rfl, hentries⟩ := Prod.mk.inj hrest
    exact congrArg Sha256.hexDigest (idText_eq_of_lines hentries.symm _ _)

def twoTables : List Artifact := [customerTable, ordersTable]

def twoReceipt : Receipt := .make "0" "1" twoTables ""

/-- The receipt without its first entry. -/
def shortenedReceipt : Receipt := { twoReceipt with artifacts := twoReceipt.artifacts.drop 1 }

theorem verify_eq_false_iff_shortened :
    shortenedReceipt.verify = false ↔ shortenedReceipt.recorded ≠ twoReceipt.recorded := by
  have hlines : shortenedReceipt.SingleLines := by decide +kernel
  refine verify_eq_false_iff "0" "1" "" twoTables shortenedReceipt rfl (by decide) (by decide)
    (fun _ => hlines) (collisionFree_pair fun h => absurd h ?_)
  decide +kernel

/-! ## 5. What verification lets pass -/

/-- The receipt has other entries than the one that was made, and verifies under
the same id without any collision. -/
structure Receipt.PassesFor (r made : Receipt) : Prop where
  id_eq : r.id = made.id
  altered : r.artifacts ≠ made.artifacts
  free : CollisionFree [Receipt.idText made.inputHash made.configHash made.artifacts,
    Receipt.idText r.inputHash r.configHash r.artifacts]
  verifies : r.verify = true

theorem verify_make (inputHash configHash now : String) (artifacts : List Artifact) :
    (Receipt.make inputHash configHash artifacts now).verify = true :=
  verify_eq_true_iff.mpr rfl

/-- Another receipt with the same text passes. -/
theorem passesFor_of_idText_eq {r made : Receipt} (hmade : made.verify = true)
    (hid : r.id = made.id) (hne : r.artifacts ≠ made.artifacts)
    (h : Receipt.idText r.inputHash r.configHash r.artifacts =
      Receipt.idText made.inputHash made.configHash made.artifacts) : r.PassesFor made where
  id_eq := hid
  altered := hne
  free := collisionFree_pair fun _ => h.symm
  verifies := by
    rw [verify_eq_true_iff, hid, verify_eq_true_iff.mp hmade, Receipt.idOf, Receipt.idOf, h]

/-- The entry of something else. -/
def ArtifactDigest.exchanged (d : ArtifactDigest) : ArtifactDigest :=
  { d with kind := if d.kind = .table then .operation else .table }

/-- Two entries as one, with a line break in its hash. -/
def ArtifactDigest.joined (d e : ArtifactDigest) : ArtifactDigest :=
  { d with bodyHash := d.bodyHash ++ "\n" ++ e.name ++ "=" ++ e.bodyHash }

theorem exchanged_ne (d : ArtifactDigest) : d.exchanged ≠ d := by
  intro h
  have hkind := congrArg ArtifactDigest.kind h
  unfold ArtifactDigest.exchanged at hkind
  cases hd : d.kind <;> simp [hd] at hkind

theorem idText_joined (inputHash configHash : String) (d e : ArtifactDigest) :
    Receipt.idText inputHash configHash [d.joined e] =
      Receipt.idText inputHash configHash [d, e] := by
  simp [Receipt.idText, ArtifactDigest.joined, String.append_assoc]

/-- Two hubs. -/
def twoHubs : List Row :=
  [⟨"customer", "hub", .joined "customer_id", .joined "", "stg.customer"⟩,
    ⟨"orders", "hub", .joined "order_id", .joined "", "stg.orders"⟩]

/-- The receipt of a run over two hubs passes with other kinds in it, and with
its two entries joined. One whose input hash was broken in two lines passes
with an entry more. -/
theorem receipt_passes_altered :
    (∃ summary kept, compile .standard ',' memorySink "" twoHubs [] = (.ok summary, kept) ∧
      (∃ r : Receipt, r.PassesFor summary.receipt ∧ r.recorded = summary.receipt.recorded) ∧
      ∃ r : Receipt, r.PassesFor summary.receipt ∧
        r.artifacts.length < summary.receipt.artifacts.length) ∧
    ∃ r : Receipt, r.PassesFor (.make "0\n1" "2=3" [] "") ∧ r.SingleLines := by
  constructor
  · obtain ⟨summary, kept, h⟩ := exists_compile_memorySink (s := .standard) (by decide) ',' ""
      twoHubs []
    have hreceipt := receipt_of_compile h
    have hverify : summary.receipt.verify = true := by
      rw [hreceipt]
      exact verify_make _ _ _ _
    have hlength : summary.receipt.artifacts.length = 2 := by
      rw [hreceipt, Receipt.make, List.length_map, (ran_of_compile h).artifacts_eq]
      decide +kernel
    obtain ⟨d, e, hentries⟩ := List.length_eq_two.mp hlength
    refine ⟨summary, kept, h,
      ⟨{ summary.receipt with artifacts := [d.exchanged, e.exchanged] }, ?_, ?_⟩,
      ⟨{ summary.receipt with artifacts := [d.joined e] }, ?_, ?_⟩⟩
    · refine passesFor_of_idText_eq hverify rfl ?_ ?_
      · rw [hentries]
        exact fun hsame => exchanged_ne d (List.cons.inj hsame).1
      · rw [hentries]
        rfl
    · unfold Receipt.recorded
      rw [hentries]
      rfl
    · refine passesFor_of_idText_eq hverify rfl ?_ ?_
      · rw [hentries]
        exact fun hsame => nomatch (List.cons.inj hsame).2
      · rw [hentries]
        exact idText_joined _ _ d e
    · rw [hlength]
      exact Nat.one_lt_two
  · refine ⟨{ Receipt.make "0\n1" "2=3" [] "" with
        inputHash := "0", configHash := "1", artifacts := [⟨"2", .table, "3"⟩] },
      passesFor_of_idText_eq (verify_make _ _ _ _) rfl ?_ ?_, ?_⟩
    · decide
    · decide
    · decide

/-! ## 6. Receipts of two runs -/

/-- The texts behind the id of a run's receipt. The statements are hashed as
well, but need not be told apart. -/
def idTexts (s : Settings) (specs : List EntitySpec) (artifacts : List Artifact) : List String :=
  [specsText specs, s.toJson.compact,
    Receipt.idText (inputHash specs) s.fingerprint (artifacts.map .of)]

/-- Without collisions two runs have the same receipt id only if they had the
same entities and settings, and then they have the same artifacts. The same
entities and settings always have the same id. -/
theorem receipt_id_identifies {σ τ : Type} (s t : Settings) (separator separator' : Char)
    (sink : Sink σ) (sink' : Sink τ) (now now' : String) (rows rows' : List Row) (st₀ st : σ)
    (su₀ su : τ) (summary summary' : Summary)
    (h : compile s separator sink now rows st₀ = (.ok summary, st))
    (h' : compile t separator' sink' now' rows' su₀ = (.ok summary', su)) :
    (List.Forall₂ (fun a b => CollisionFree [a, b])
        (idTexts s (keptOf s separator rows).specs summary.artifacts)
        (idTexts t (keptOf t separator' rows').specs summary'.artifacts) →
      summary.receipt.id = summary'.receipt.id →
        (keptOf s separator rows).specs = (keptOf t separator' rows').specs ∧ s = t ∧
          summary.artifacts = summary'.artifacts) ∧
    ((keptOf s separator rows).specs = (keptOf t separator' rows').specs → s = t →
      summary.receipt.id = summary'.receipt.id) := by
  have hartifacts := (ran_of_compile h).artifacts_of_specs
  have hartifacts' := (ran_of_compile h').artifacts_of_specs
  rw [receipt_of_compile h, receipt_of_compile h']
  constructor
  · intro hfree hid
    obtain _ | ⟨hspecs, _ | ⟨hsettings, _ | ⟨hids, -⟩⟩⟩ := hfree
    have hbreak : ∀ text, '\n' ∉ (Sha256.hexDigest text).toList := notMem_hexDigest (by decide)
    obtain ⟨hinput, hconfig, -⟩ := idText_inj (hbreak _) (hbreak _)
      (fun _ => singleLines_make (hbreak _) (hbreak _) now) (eq_of_collisionFree hids hid)
    have hsame := specsText_inj (eq_of_collisionFree hspecs hinput)
    cases settingsText_inj (eq_of_collisionFree hsettings hconfig)
    refine ⟨hsame, rfl, ?_⟩
    rw [hartifacts, hartifacts', hsame]
  · rintro hsame rfl
    rw [hartifacts, hartifacts', hsame]
    rfl

/-- The two hubs, with a row between them that is rejected. -/
def interruptedHubs : List Row :=
  twoHubs.take 1 ++ ⟨"", "hub", .joined "id", .joined "", "stg.unnamed"⟩ :: twoHubs.drop 1

theorem receipt_id_identifies_interrupted :
    ∃ summary summary' kept kept',
      compile .standard ',' memorySink "" twoHubs [] = (.ok summary, kept) ∧
      compile .standard ',' memorySink "later" interruptedHubs [] = (.ok summary', kept') ∧
      summary.receipt.id = summary'.receipt.id ∧ summary.artifacts = summary'.artifacts := by
  obtain ⟨summary, kept, h⟩ := exists_compile_memorySink (s := .standard) (by decide) ',' ""
    twoHubs []
  obtain ⟨summary', kept', h'⟩ := exists_compile_memorySink (s := .standard) (by decide) ','
    "later" interruptedHubs []
  have hsame : (keptOf .standard ',' twoHubs).specs =
      (keptOf .standard ',' interruptedHubs).specs := by decide +kernel
  have hartifacts : summary.artifacts = summary'.artifacts := by
    rw [(ran_of_compile h).artifacts_of_specs, (ran_of_compile h').artifacts_of_specs, hsame]
  have hsound := receipt_id_identifies .standard .standard ',' ',' memorySink memorySink ""
    "later" twoHubs interruptedHubs [] kept [] kept' summary summary' h h'
  have hid := hsound.2 hsame rfl
  refine ⟨summary, summary', kept, kept', h, h', hid, (hsound.1 ?_ hid).2.2⟩
  -- Both ids are over the same texts, so nothing can collide.
  rw [hsame, hartifacts]
  exact List.forall₂_same.mpr fun _ _ => collisionFree_pair fun _ => rfl

end DataVault.Compile
