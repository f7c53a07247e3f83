import FragmentMerge.Proofs.Document.Declarations
import FragmentMerge.Proofs.Document.Remapped
import FragmentMerge.Proofs.Session.Keys
import Mathlib.Data.List.Perm.Basic

/-! Columns that name a model out of use. The document sends some columns of a model to other models and
adds columns that are copied; the others stay as they are. As long as a replaced model is named in its
own fragment only, a column that stays never names it, so it depends on the columns sent and copied
alone whether the document names a model that is not in it. -/

namespace FragmentMerge.Document

/-- The columns among new ones whose names are not there yet. -/
def additions (cs : List Column) : List Column → List Column
  | [] => []
  | c :: new => if hasColumn cs c.name then additions cs new else c :: additions (c :: cs) new

/-- The copied columns that the document adds to those of a model. -/
def added (r : Replay) (m : Model) : List Column :=
  additions (m.columns.map (redirect r m.key)) (copied r m.key)

theorem hasColumn_perm {cs ds : List Column} (h : cs.Perm ds) (name : String) :
    hasColumn cs name = hasColumn ds name := by
  rw [Bool.eq_iff_iff, hasColumn, hasColumn, List.any_eq_true, List.any_eq_true]
  simp only [h.mem_iff]

theorem additions_perm {cs ds : List Column} (h : cs.Perm ds) (new : List Column) :
    additions cs new = additions ds new := by
  induction new generalizing cs ds with
  | nil => rfl
  | cons c new ih => rw [additions, additions, hasColumn_perm h, ih h, ih (h.cons c)]

theorem insertField_perm (c : Column) (cs : List Column) : (insertField c cs).Perm (c :: cs) := by
  induction cs with
  | nil => exact .refl _
  | cons d cs ih =>
    rw [insertField]
    split
    · exact .refl _
    · exact (ih.cons d).trans (.swap c d cs)

theorem foldl_insertNew_perm (cs new : List Column) :
    (new.foldl insertNew cs).Perm (cs ++ additions cs new) := by
  induction new generalizing cs with
  | nil => rw [additions, List.append_nil, List.foldl_nil]
  | cons c new ih =>
    rw [List.foldl_cons, insertNew, additions]
    split
    · exact ih cs
    · refine (ih (insertField c cs)).trans ?_
      rw [additions_perm (insertField_perm c cs)]
      exact ((insertField_perm c cs).append_right _).trans List.perm_middle.symm

theorem mem_columnsOf {r : Replay} {m : Model} {c : Column} :
    c ∈ columnsOf r m ↔ (∃ d ∈ m.columns, redirect r m.key d = c) ∨ c ∈ added r m := by
  rw [columnsOf, (foldl_insertNew_perm _ _).mem_iff, List.mem_append, List.mem_map]
  rfl

theorem additions_subset (cs new : List Column) : additions cs new ⊆ new := by
  induction new generalizing cs with
  | nil => exact List.Subset.refl _
  | cons c new ih =>
    rw [additions]
    split
    · exact List.subset_cons_of_subset c (ih cs)
    · exact List.cons_subset_cons c (ih (c :: cs))

theorem mem_flatMap_model? {catalog : Catalog} {es : List (ItemKey × ItemKey)}
    {side : ItemKey × ItemKey → ItemKey} {ok : Column → Bool} {c : Column} :
    c ∈ (es.filterMap fun e => catalog.model? (side e)).flatMap (fun m => m.columns.filter ok) ↔
      ∃ e ∈ es, ∃ m ∈ catalog.model? (side e), c ∈ m.columns ∧ ok c = true := by
  simp only [List.mem_flatMap, List.mem_filterMap, List.mem_filter, Option.mem_def]
  constructor
  · rintro ⟨m, ⟨e, he, hm⟩, hc⟩
    exact ⟨e, he, m, hm, hc⟩
  · rintro ⟨e, he, m, hm, hc⟩
    exact ⟨m, ⟨e, he, hm⟩, hc⟩

/-- Columns are copied from the models that a model replaces, for the far sides of relations, and from its
parents. -/
theorem mem_copied {r : Replay} {k : ItemKey} {c : Column} : c ∈ copied r k ↔
    (∃ e ∈ r.shadows, e.2 = k ∧ ∃ m ∈ r.catalog.model? e.1, c ∈ m.columns ∧ isInverse r.catalog c = true) ∨
    ∃ e ∈ r.extended, e.1 = k ∧ ∃ m ∈ r.catalog.model? e.2, c ∈ m.columns ∧ isDonated r.catalog c = true := by
  rw [copied, List.mem_append, mem_flatMap_model?, mem_flatMap_model?]
  simp only [List.mem_filter, beq_iff_eq, and_assoc]

theorem isRaw_of_copied {r : Replay} {k : ItemKey} {c : Column} (h : c ∈ copied r k) : c.isRaw = false := by
  rcases mem_copied.1 h with ⟨-, -, -, -, -, -, hc⟩ | ⟨-, -, -, -, -, -, hc⟩
  · simp only [isInverse, Bool.and_eq_true, Bool.not_eq_true'] at hc
    exact hc.1.1.1
  · simp only [isDonated, Bool.and_eq_true, Bool.not_eq_true'] at hc
    exact hc.1.1.1

/-- The model that a column is sent to: the target of its remap, or else the replacement of the model
that it names in its own fragment. -/
def sentTo? (r : Replay) (k : ItemKey) (c : Column) : Option ItemKey :=
  match r.remaps.find? fun e => e.1.item == k && e.1.column == c.name with
  | some e => some e.2
  | none => (r.shadows.find? fun e => e.1.file == k.file && e.1.name == c.baseType).map (·.2)

/-- The name that a column has for its type when it is sent to an item. It is the name of the item, unless
that ends in a mark of a type itself. -/
def sentName (c : Column) (t : ItemKey) : String := (c.retype t.name).baseType

theorem redirect_of_sent {r : Replay} {k t : ItemKey} {c : Column} (hc : c.isRaw = false)
    (h : sentTo? r k c = some t) : redirect r k c = c.retype t.name := by
  rw [redirect, hc, if_neg Bool.false_ne_true]
  cases he : r.remaps.find? fun e => e.1.item == k && e.1.column == c.name with
  | some e =>
    simp only [sentTo?, he, Option.some.injEq] at h
    simp only [h]
  | none =>
    simp only [sentTo?, he, Option.map_eq_some_iff] at h
    obtain ⟨e, hs, rfl⟩ := h
    simp only [hs]

theorem redirect_of_unsent {r : Replay} {k : ItemKey} {c : Column}
    (h : c.isRaw = false → sentTo? r k c = none) : redirect r k c = c := by
  cases hc : c.isRaw with
  | true => rw [redirect, hc, if_pos rfl]
  | false =>
    have h := h hc
    rw [redirect, hc, if_neg Bool.false_ne_true]
    cases he : r.remaps.find? fun e => e.1.item == k && e.1.column == c.name with
    | some e => simp [sentTo?, he] at h
    | none =>
      simp only [sentTo?, he, Option.map_eq_none_iff] at h
      simp only [h]

/-- A column that names a replaced model, by a name that nothing in the document bears. -/
def Stray (r : Replay) (c : Column) : Prop :=
  c.isRaw = false ∧ (∃ e ∈ r.shadows, e.1.name = c.baseType) ∧
    c.baseType ∉ (declarations r).map Declaration.name

instance (r : Replay) (c : Column) : Decidable (Stray r c) := inferInstanceAs (Decidable (_ ∧ _ ∧ _))

/-- Replaced models are named in their own fragments only. -/
def Confined (r : Replay) : Prop :=
  ∀ e ∈ r.shadows, ∀ m ∈ r.catalog.models, ∀ c ∈ m.columns,
    c.isRaw = false → c.baseType = e.1.name → m.key.file = e.1.file

instance (r : Replay) : Decidable (Confined r) := by
  unfold Confined
  infer_instance

/-- The replaced models whose names nothing in the document bears. -/
def lost (r : Replay) : List ItemKey :=
  (r.shadows.map Prod.fst).filter fun k => k.name ∉ (declarations r).map Declaration.name

theorem stray_iff {r : Replay} {c : Column} :
    Stray r c ↔ c.isRaw = false ∧ ∃ k ∈ lost r, c.baseType = k.name := by
  simp only [Stray, lost, List.mem_filter, List.mem_map, decide_eq_true_eq]
  grind

/-- What is sent or copied leads to models in use: no column is sent to the name of a lost model, none that
comes from a replaced model names a lost one of its fragment, and none that comes from a parent names a
lost one of its fragment that is not loaded any more. -/
structure Straight (r : Replay) : Prop where
  sent : ∀ k ∈ lost r, ∀ m ∈ visibleModels r, ∀ c ∈ m.columns, c.isRaw = false →
    ∀ t ∈ sentTo? r m.key c, t.name ++ c.typeSuffix ≠ "" → sentName c t ≠ k.name
  inverse : ∀ k ∈ lost r, ∀ e ∈ r.shadows, e.1.file = k.file → ∀ m ∈ visibleModels r, m.key = e.2 →
    ∀ n ∈ r.catalog.model? e.1, ∀ c ∈ n.columns, c ∈ added r m → c.baseType ≠ k.name
  donated : ∀ k ∈ lost r, r.catalog.isModelName k.name = false →
    ∀ e ∈ r.extended, e.2.file = k.file → ∀ m ∈ visibleModels r, m.key = e.1 →
    ∀ n ∈ r.catalog.model? e.2, ∀ c ∈ n.columns, c ∈ added r m → c.baseType ≠ k.name

theorem Confined.file_eq {r : Replay} (h : Confined r) {k : ItemKey} (hk : k ∈ lost r) {m : Model}
    (hm : m ∈ r.catalog.models) {c : Column} (hc : c ∈ m.columns) (hraw : c.isRaw = false)
    (hname : c.baseType = k.name) : m.key.file = k.file := by
  obtain ⟨e, he, rfl⟩ := List.mem_map.1 (List.mem_filter.1 hk).1
  exact h e he m hm c hc hraw hname

theorem Confined.file_of_model? {r : Replay} (h : Confined r) {k k' : ItemKey} (hk : k ∈ lost r) {n : Model}
    (hn : n ∈ r.catalog.model? k') {c : Column} (hc : c ∈ n.columns) (hraw : c.isRaw = false)
    (hname : c.baseType = k.name) : k'.file = k.file := by
  have hkey : n.key = k' := by simpa using List.find?_some hn
  exact hkey ▸ h.file_eq hk (List.mem_of_find?_eq_some hn) hc hraw hname

theorem not_stray_of_unsent {r : Replay} (h : Confined r) {m : Model} (hm : m ∈ r.catalog.models)
    {c : Column} (hc : c ∈ m.columns) (hs : c.isRaw = false → sentTo? r m.key c = none) :
    ¬ Stray r c := by
  intro hstray
  obtain ⟨hraw, k, hk, hname⟩ := stray_iff.1 hstray
  have hfile := h.file_eq hk hm hc hraw hname
  obtain ⟨e, he, rfl⟩ := List.mem_map.1 (List.mem_filter.1 hk).1
  have hs := hs hraw
  rw [sentTo?] at hs
  split at hs
  · cases hs
  · have hnone := List.find?_eq_none.1 (Option.map_eq_none_iff.1 hs) e he
    simp [hfile, hname] at hnone

/-- Parents hand down columns with the name of a model only when it is no longer loaded. -/
theorem isModelName_of_donated {catalog : Catalog} {c : Column} (hc : isDonated catalog c = true) :
    catalog.isModelName c.baseType = false := by
  simp only [isDonated, Bool.and_eq_true, Bool.not_eq_true'] at hc
  exact hc.2

theorem Straight.not_stray_of_added {r : Replay} (hs : Straight r) (h : Confined r) {m : Model}
    (hm : m ∈ visibleModels r) {c : Column} (hadd : c ∈ added r m) : ¬ Stray r c := by
  intro hstray
  obtain ⟨hraw, k, hk, hname⟩ := stray_iff.1 hstray
  rcases mem_copied.1 (additions_subset _ _ hadd) with
    ⟨e, he, hkey, n, hn, hc, -⟩ | ⟨e, he, hkey, n, hn, hc, hdonated⟩
  · exact hs.inverse k hk e he (h.file_of_model? hk hn hc hraw hname) m hm hkey.symm n hn c hc hadd hname
  · have hunloaded := hname ▸ isModelName_of_donated hdonated
    exact hs.donated k hk hunloaded e he (h.file_of_model? hk hn hc hraw hname) m hm hkey.symm n hn c hc hadd
      hname

/-- The document names no replaced model, other than by the name of an item that is in it, exactly when
what it sends and what it copies leads to models in use. -/
theorem redirected_iff {s : Session} (h : Confined s.current) :
    (∀ m ∈ visibleModels s.current, ∀ c ∈ columnsOf s.current m, ¬ Stray s.current c) ↔
      Straight s.current := by
  constructor
  · intro hall
    have hadded : ∀ k ∈ lost s.current, ∀ m ∈ visibleModels s.current, ∀ c ∈ added s.current m,
        c.baseType ≠ k.name := fun k hk m hm c hadd hname =>
      hall m hm c (mem_columnsOf.2 (.inr hadd))
        (stray_iff.2 ⟨isRaw_of_copied (additions_subset _ _ hadd), k, hk, hname⟩)
    refine ⟨fun k hk m hm c hc hraw t ht htyped hname => ?_, fun k hk _ _ _ m hm _ _ _ c _ => hadded k hk m hm c,
      fun k hk _ _ _ _ m hm _ _ _ c _ => hadded k hk m hm c⟩
    refine hall m hm _ (mem_columnsOf.2 (.inl ⟨c, hc, redirect_of_sent hraw ht⟩)) (stray_iff.2 ⟨?_, k, hk, hname⟩)
    rw [Column.isRaw, ← Bool.not_eq_true, String.isEmpty_iff]
    exact htyped
  · intro hs m hm c hc
    rcases mem_columnsOf.1 hc with ⟨d, hd, rfl⟩ | hadd
    · by_cases hsent : d.isRaw = false → sentTo? s.current m.key d = none
      · rw [redirect_of_unsent hsent]
        exact not_stray_of_unsent h (List.mem_filter.1 hm).1 hd hsent
      · obtain ⟨hraw, hsent⟩ := Classical.not_imp.1 hsent
        obtain ⟨t, ht⟩ := Option.ne_none_iff_exists'.1 hsent
        rw [redirect_of_sent hraw ht]
        intro hstray
        obtain ⟨htyped, k, hk, hname⟩ := stray_iff.1 hstray
        rw [Column.isRaw, ← Bool.not_eq_true, String.isEmpty_iff] at htyped
        exact hs.sent k hk m hm d hd hraw t ht htyped hname
    · exact hs.not_stray_of_added h hm hadd

/-- A model that is replaced, and with it a relation of another one that names it. -/
def replacing : List Fragment :=
  [⟨"base", "generator g \x7b\n\x7d\ndatasource d \x7b\n\x7d"⟩,
    ⟨"f", "model S \x7b\n  ps P[]\n\x7d\nmodel P \x7b\n  s S? @relation(fields: [a])\n  t S[]\n\x7d"⟩,
    ⟨"g", "model U \x7b\n  id Int\n\x7d"⟩]

def replacingCatalog : Catalog :=
  { base := "base", generator := "generator g \x7b\n\x7d", datasource := "datasource d \x7b\n\x7d",
    files := ["base", "f", "g"],
    models := [
      ⟨⟨"f", "S"⟩, [⟨"ps", "P[]", []⟩], 1⟩,
      ⟨⟨"f", "P"⟩, [⟨"s", "S?", ["@relation(fields: [a])"]⟩, ⟨"t", "S[]", []⟩], 4⟩,
      ⟨⟨"g", "U"⟩, [⟨"id", "Int", []⟩], 1⟩],
    enums := [] }

def replaceWith (c : Catalog) : Session :=
  ((Session.new c).suggest ⟨"g", "U"⟩ (.remap ⟨⟨"f", "P"⟩, "s"⟩ ⟨"g", "U"⟩ .model)).replay

theorem redirected_replacing :
    Catalog.ofFragments (fun _ => false) replacing = .ok replacingCatalog ∧
      Confined (replaceWith replacingCatalog).current ∧
      ∀ m ∈ visibleModels (replaceWith replacingCatalog).current,
        ∀ c ∈ columnsOf (replaceWith replacingCatalog).current m,
          ¬ Stray (replaceWith replacingCatalog).current c := by
  have hconf : Confined (replaceWith replacingCatalog).current := by decide
  exact ⟨rfl, hconf, (redirected_iff hconf).2 ⟨by decide, by decide, by decide⟩⟩

/-- A replaced model with a column for its own relation to itself. -/
def mirrored : List Fragment :=
  [⟨"base", "generator g \x7b\n\x7d\ndatasource d \x7b\n\x7d"⟩,
    ⟨"f", "model S \x7b\n  ss S[]\n\x7d\nmodel P \x7b\n  s S? @relation(fields: [a])\n\x7d"⟩,
    ⟨"g", "model U \x7b\n  id Int\n\x7d"⟩]

def mirroredCatalog : Catalog :=
  { base := "base", generator := "generator g \x7b\n\x7d", datasource := "datasource d \x7b\n\x7d",
    files := ["base", "f", "g"],
    models := [
      ⟨⟨"f", "S"⟩, [⟨"ss", "S[]", []⟩], 1⟩,
      ⟨⟨"f", "P"⟩, [⟨"s", "S?", ["@relation(fields: [a])"]⟩], 4⟩,
      ⟨⟨"g", "U"⟩, [⟨"id", "Int", []⟩], 1⟩],
    enums := [] }

/-- The column is copied to the replacement as it is, and still names the replaced model. -/
theorem copied_astray :
    Catalog.ofFragments (fun _ => false) mirrored = .ok mirroredCatalog ∧
      Session.Over mirroredCatalog (replaceWith mirroredCatalog) ∧
      Confined (replaceWith mirroredCatalog).current ∧
      ∃ m ∈ visibleModels (replaceWith mirroredCatalog).current,
        ∃ c ∈ columnsOf (replaceWith mirroredCatalog).current m,
          Stray (replaceWith mirroredCatalog).current c :=
  ⟨rfl, .replay (.suggest _ _ .new), by decide, by decide⟩

end FragmentMerge.Document
