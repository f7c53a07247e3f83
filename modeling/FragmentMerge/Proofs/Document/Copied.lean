import FragmentMerge.Proofs.Data.Firsts
import FragmentMerge.Proofs.Document.Redirect
import FragmentMerge.Proofs.Text.Find
import Mathlib.Data.List.TakeWhile

/-! Where copied columns go. The document keeps the columns of a model in their order, and only the bases
of their types may change. Before the first attribute of the whole model, or at the end if there is none,
stands one run of copied columns: in the order in which they come, without those whose name the model
has, and of those with one name the first.

A column without a type is a raw line, and raw lines give no names. A type can get lost in one way only,
when a column is sent to an item with an empty name; as long as no column is, the names that the model
has are those of its columns as they were loaded. -/

namespace FragmentMerge.Document

variable {r : Replay} {m : Model}

/-- The columns before the first attribute of the whole model. -/
def leading (cs : List Column) : List Column := cs.takeWhile fun c => !isBlockAttribute c

def trailing (cs : List Column) : List Column := cs.dropWhile fun c => !isBlockAttribute c

theorem leading_append_trailing (cs : List Column) : leading cs ++ trailing cs = cs :=
  List.takeWhile_append_dropWhile

theorem isBlockAttribute_of_leading (cs : List Column) : ∀ c ∈ leading cs, isBlockAttribute c = false := by
  intro c hc
  simpa using List.mem_takeWhile_imp hc

theorem isBlockAttribute_of_typed {c : Column} (h : c.isRaw = false) : isBlockAttribute c = false := by
  rw [isBlockAttribute, h, Bool.false_and]

theorem insertField_append {before : List Column} (h : ∀ c ∈ before, isBlockAttribute c = false)
    (c : Column) (cs : List Column) : insertField c (before ++ cs) = before ++ insertField c cs := by
  induction before with
  | nil => rfl
  | cons d before ih =>
    obtain ⟨hd, hbefore⟩ := List.forall_mem_cons.1 h
    rw [List.cons_append, insertField, hd, if_neg Bool.false_ne_true, ih hbefore, List.cons_append]

theorem insertField_trailing (c : Column) (cs : List Column) :
    insertField c (trailing cs) = c :: trailing cs := by
  induction cs with
  | nil => rfl
  | cons d cs ih =>
    rw [trailing, List.dropWhile_cons]
    cases hd : isBlockAttribute d with
    | false => exact ih
    | true => rw [Bool.not_true, if_neg Bool.false_ne_true, insertField, if_pos hd]

/-- Columns that are added one by one form one run, for what is before them grows by each. -/
theorem foldl_insertNew_between (cs : List Column) {before new : List Column}
    (hbefore : ∀ c ∈ before, isBlockAttribute c = false) (hnew : ∀ c ∈ new, c.isRaw = false) :
    new.foldl insertNew (before ++ trailing cs) =
      before ++ additions (before ++ trailing cs) new ++ trailing cs := by
  induction new generalizing before with
  | nil => rw [List.foldl_nil, additions, List.append_nil]
  | cons c new ih =>
    obtain ⟨hc, hnew⟩ := List.forall_mem_cons.1 hnew
    rw [List.foldl_cons, insertNew, additions]
    split
    · exact ih hbefore hnew
    · have hgrown : ∀ d ∈ before ++ [c], isBlockAttribute d = false :=
        List.forall_mem_append.2 ⟨hbefore, by simpa using isBlockAttribute_of_typed hc⟩
      have hinsert : insertField c (before ++ trailing cs) = before ++ [c] ++ trailing cs := by
        rw [insertField_append hbefore, insertField_trailing, List.append_assoc, List.singleton_append]
      have hperm : (before ++ [c] ++ trailing cs).Perm (c :: (before ++ trailing cs)) :=
        hinsert ▸ insertField_perm c (before ++ trailing cs)
      rw [hinsert, ih hgrown hnew, additions_perm hperm]
      simp only [List.append_assoc, List.singleton_append]

theorem foldl_insertNew (cs : List Column) {new : List Column} (h : ∀ c ∈ new, c.isRaw = false) :
    new.foldl insertNew cs = leading cs ++ additions cs new ++ trailing cs := by
  have hrun := foldl_insertNew_between cs (isBlockAttribute_of_leading cs) h
  rwa [leading_append_trailing] at hrun

theorem additions_eq (cs : List Column) {new : List Column} (h : ∀ c ∈ new, c.isRaw = false) :
    additions cs new = firstsBy Column.name (new.filter fun c => !hasColumn cs c.name) := by
  induction new generalizing cs with
  | nil => rfl
  | cons c new ih =>
    obtain ⟨hc, hnew⟩ := List.forall_mem_cons.1 h
    rw [additions, List.filter_cons]
    cases hasColumn cs c.name with
    | true => exact ih cs hnew
    | false =>
      rw [if_neg Bool.false_ne_true, Bool.not_false, if_pos rfl, firstsBy_cons, ih (c :: cs) hnew,
        List.filter_filter]
      refine congrArg (c :: firstsBy Column.name ·) (List.filter_congr fun d _ => ?_)
      rw [hasColumn, List.any_cons, hc, ← hasColumn, Bool.not_or, Bool.not_false, Bool.true_and,
        beq_eq_decide, ← decide_not]
      simp only [eq_comm, ne_eq]

/-- A column for the far side of a relation. It names a loaded model, and no relation of it says which
columns hold it. -/
structure Inverse (catalog : Catalog) (c : Column) : Prop where
  typed : c.type ≠ ""
  id : .id ∉ c.directives
  model : ∃ m ∈ catalog.models, m.key.name = c.baseType
  free : ∀ args, .relation args ∈ c.directives → ¬ "fields:".toList <:+: args.toList

/-- A column that a parent hands down. It has no relation and names no loaded model. -/
structure Donated (catalog : Catalog) (c : Column) : Prop where
  typed : c.type ≠ ""
  id : .id ∉ c.directives
  plain : ∀ args, .relation args ∉ c.directives
  model : ∀ m ∈ catalog.models, m.key.name ≠ c.baseType

theorem isModelName_iff {catalog : Catalog} {name : String} :
    catalog.isModelName name = true ↔ ∃ m ∈ catalog.models, m.key.name = name := by
  simp [Catalog.isModelName]

theorem isRaw_eq_false_iff {c : Column} : c.isRaw = false ↔ c.type ≠ "" := by
  rw [Column.isRaw, ← Bool.not_eq_true, String.isEmpty_iff]

theorem isId_eq_false_iff {c : Column} (h : c.isRaw = false) : c.isId = false ↔ .id ∉ c.directives := by
  rw [Column.isId, h, if_neg Bool.false_ne_true, ← Bool.not_eq_true, List.contains_iff_mem]

theorem holdsRelation_eq_false_iff {c : Column} : c.holdsRelation = false ↔
    ∀ args, .relation args ∈ c.directives → ¬ "fields:".toList <:+: args.toList := by
  rw [Column.holdsRelation, List.any_eq_false]
  constructor
  · intro h args hd
    rw [← Text.contains_iff]
    exact h _ hd
  · intro h d hd
    cases d with
    | relation args =>
      change ¬ Text.contains args.toList "fields:".toList = true
      rw [Text.contains_iff]
      exact h args hd
    | _ => exact Bool.false_ne_true

theorem isRelation_eq_false_iff {c : Column} :
    c.isRelation = false ↔ ∀ args, .relation args ∉ c.directives := by
  rw [Column.isRelation, List.any_eq_false]
  constructor
  · exact fun h args hd => h _ hd rfl
  · intro h d hd
    cases d with
    | relation args => exact absurd hd (h args)
    | _ => exact Bool.false_ne_true

theorem isInverse_iff {catalog : Catalog} {c : Column} :
    isInverse catalog c = true ↔ Inverse catalog c := by
  simp only [isInverse, Bool.and_eq_true, Bool.not_eq_true', isModelName_iff, holdsRelation_eq_false_iff]
  constructor
  · rintro ⟨⟨⟨hraw, hid⟩, hmodel⟩, hfree⟩
    exact ⟨isRaw_eq_false_iff.1 hraw, (isId_eq_false_iff hraw).1 hid, hmodel, hfree⟩
  · rintro ⟨htyped, hid, hmodel, hfree⟩
    have hraw := isRaw_eq_false_iff.2 htyped
    exact ⟨⟨⟨hraw, (isId_eq_false_iff hraw).2 hid⟩, hmodel⟩, hfree⟩

theorem isDonated_iff {catalog : Catalog} {c : Column} :
    isDonated catalog c = true ↔ Donated catalog c := by
  have hmodel : catalog.isModelName c.baseType = false ↔
      ∀ m ∈ catalog.models, m.key.name ≠ c.baseType := by
    rw [← Bool.not_eq_true, isModelName_iff]
    simp only [not_exists, not_and, ne_eq]
  simp only [isDonated, Bool.and_eq_true, Bool.not_eq_true', hmodel, isRelation_eq_false_iff]
  constructor
  · rintro ⟨⟨⟨hraw, hid⟩, hplain⟩, hmodel⟩
    exact ⟨isRaw_eq_false_iff.1 hraw, (isId_eq_false_iff hraw).1 hid, hplain, hmodel⟩
  · rintro ⟨htyped, hid, hplain, hmodel⟩
    have hraw := isRaw_eq_false_iff.2 htyped
    exact ⟨⟨⟨hraw, (isId_eq_false_iff hraw).2 hid⟩, hplain⟩, hmodel⟩

instance (catalog : Catalog) (c : Column) : Decidable (Inverse catalog c) :=
  decidable_of_iff _ isInverse_iff

instance (catalog : Catalog) (c : Column) : Decidable (Donated catalog c) :=
  decidable_of_iff _ isDonated_iff

/-- The columns for the far sides of relations, from the loaded models that a model replaces. -/
def inverses (r : Replay) (k : ItemKey) : List Column :=
  r.shadows.flatMap fun e =>
    if e.2 = k then (r.catalog.model? e.1).elim [] fun m => m.columns.filter (Inverse r.catalog) else []

def donations (r : Replay) (k : ItemKey) : List Column :=
  r.extended.flatMap fun e =>
    if e.1 = k then (r.catalog.model? e.2).elim [] fun m => m.columns.filter (Donated r.catalog) else []

theorem flatMap_filterMap_filter {α β γ : Type} (p : α → Bool) (f : α → Option β) (g : β → List γ)
    (l : List α) : ((l.filter p).filterMap f).flatMap g =
      l.flatMap fun a => if p a then (f a).elim [] g else [] := by
  induction l with
  | nil => rfl
  | cons a l ih =>
    cases hp : p a with
    | false => simp [hp, ih]
    | true => cases hf : f a <;> simp [hp, hf, ih]

theorem copied_eq (r : Replay) (k : ItemKey) : copied r k = inverses r k ++ donations r k := by
  have hinverse : (fun m : Model => m.columns.filter (isInverse r.catalog)) =
      fun m => m.columns.filter (Inverse r.catalog) :=
    funext fun m => List.filter_congr fun c _ => by rw [Bool.eq_iff_iff, isInverse_iff, decide_eq_true_iff]
  have hdonated : (fun m : Model => m.columns.filter (isDonated r.catalog)) =
      fun m => m.columns.filter (Donated r.catalog) :=
    funext fun m => List.filter_congr fun c _ => by rw [Bool.eq_iff_iff, isDonated_iff, decide_eq_true_iff]
  rw [copied, hinverse, hdonated, flatMap_filterMap_filter, flatMap_filterMap_filter]
  simp only [beq_iff_eq, inverses, donations]

/-- What becomes of a column of a model itself: it may be sent to another model, and that changes the
base of its type and nothing else. -/
structure Kept (r : Replay) (k : ItemKey) (c d : Column) : Prop where
  name : d.name = c.name
  constraints : d.constraints = c.constraints
  raw : c.isRaw = true → d = c
  type : d.type = c.type ∨ ∃ t, sentTo? r k c = some t ∧ d.type = t.name ++ c.typeSuffix

theorem kept_redirect (r : Replay) (k : ItemKey) (c : Column) : Kept r k c (redirect r k c) := by
  by_cases h : c.isRaw = false → sentTo? r k c = none
  · rw [redirect_of_unsent h]
    exact ⟨rfl, rfl, fun _ => rfl, .inl rfl⟩
  · obtain ⟨hc, hs⟩ := Classical.not_imp.1 h
    obtain ⟨t, ht⟩ := Option.ne_none_iff_exists'.1 hs
    rw [redirect_of_sent hc ht]
    exact ⟨rfl, rfl, fun hraw => absurd hraw (by rw [hc]; exact Bool.false_ne_true), .inr ⟨t, ht, rfl⟩⟩

theorem Kept.isRaw {k : ItemKey} {c d : Column} (h : Kept r k c d)
    (hsent : ∀ t, sentTo? r k c = some t → t.name ≠ "") : d.isRaw = c.isRaw := by
  rcases h.type with ht | ⟨t, hs, ht⟩
  · rw [Column.isRaw, Column.isRaw, ht]
  · cases hc : c.isRaw with
    | true => rw [h.raw hc, hc]
    | false =>
      have := hsent t hs
      rw [Column.isRaw, ht, ← Bool.not_eq_true, String.isEmpty_iff, String.append_eq_empty_iff]
      exact fun h => this h.1

def ownColumns (r : Replay) (m : Model) : List Column := m.columns.map (redirect r m.key)

/-- No column is sent to an item with an empty name. -/
def KeepsTypes (r : Replay) (m : Model) : Prop :=
  ∀ c ∈ m.columns, ∀ t, sentTo? r m.key c = some t → t.name ≠ ""

instance (r : Replay) (m : Model) : Decidable (KeepsTypes r m) := by
  unfold KeepsTypes
  infer_instance

theorem hasColumn_own (h : KeepsTypes r m) (name : String) :
    hasColumn (ownColumns r m) name = hasColumn m.columns name := by
  rw [Bool.eq_iff_iff, hasColumn, hasColumn, ownColumns, List.any_map, List.any_eq_true, List.any_eq_true]
  refine exists_congr fun c => and_congr_right fun hc => ?_
  have hkept := kept_redirect r m.key c
  rw [Function.comp_apply, hkept.isRaw (h c hc), hkept.name]

theorem leading_map {f : Column → Column} {cs : List Column}
    (h : ∀ c ∈ cs, isBlockAttribute (f c) = isBlockAttribute c) :
    leading (cs.map f) = (leading cs).map f := by
  induction cs with
  | nil => rfl
  | cons c cs ih =>
    obtain ⟨hc, hcs⟩ := List.forall_mem_cons.1 h
    rw [List.map_cons, leading, leading, List.takeWhile_cons, List.takeWhile_cons, hc]
    cases isBlockAttribute c with
    | false => exact congrArg (f c :: ·) (ih hcs)
    | true => rfl

theorem leading_own (h : KeepsTypes r m) :
    leading (ownColumns r m) = (leading m.columns).map (redirect r m.key) := by
  refine leading_map fun c hc => ?_
  have hkept := kept_redirect r m.key c
  rw [isBlockAttribute, isBlockAttribute, hkept.isRaw (h c hc), hkept.name]

/-- How the columns of a model stand in the document: its own ones in their order, and among them one run
of copied ones, the first of each name among those whose name the model does not have. -/
structure Arranged (r : Replay) (m : Model) (cs : List Column) : Prop where
  kept : ∀ c ∈ m.columns, Kept r m.key c (redirect r m.key c)
  order : cs = leading (ownColumns r m) ++ added r m ++ trailing (ownColumns r m)
  firsts : added r m = firstsBy Column.name
    ((inverses r m.key ++ donations r m.key).filter fun c => !hasColumn (ownColumns r m) c.name)
  once : ((added r m).map Column.name).Nodup
  fresh : ∀ c ∈ added r m, c.isRaw = false ∧ hasColumn (ownColumns r m) c.name = false
  names : KeepsTypes r m → ∀ name, hasColumn (ownColumns r m) name = hasColumn m.columns name
  place : KeepsTypes r m → leading (ownColumns r m) = (leading m.columns).map (redirect r m.key)

theorem columnsOf_arranged (r : Replay) (m : Model) : Arranged r m (columnsOf r m) := by
  have hfirsts : added r m = firstsBy Column.name
      ((inverses r m.key ++ donations r m.key).filter fun c => !hasColumn (ownColumns r m) c.name) := by
    rw [← copied_eq]
    exact additions_eq (ownColumns r m) fun _ => isRaw_of_copied
  refine ⟨fun c _ => kept_redirect r m.key c, foldl_insertNew _ fun _ => isRaw_of_copied, hfirsts, ?_, ?_,
    hasColumn_own, leading_own⟩
  · rw [hfirsts]
    exact nodup_map_firstsBy _ _
  · intro c hc
    refine ⟨isRaw_of_copied (additions_subset _ _ hc), ?_⟩
    have hname := List.mem_map_of_mem (f := Column.name) hc
    rw [hfirsts, mem_map_firstsBy] at hname
    obtain ⟨d, hd, he⟩ := List.mem_map.1 hname
    simpa [he] using (List.mem_filter.1 hd).2

/-- A model with attributes that replaces another one and has a parent. -/
def adopting : List Fragment :=
  [⟨"base", "generator g \x7b\n\x7d\ndatasource d \x7b\n\x7d"⟩,
    ⟨"f", "model S \x7b\n  ps P[]\n  us U[]\n\x7d\nmodel P \x7b\n  s S? @relation(fields: [a])\n\x7d"⟩,
    ⟨"g", "model U \x7b\n  us S[]\n  @@map(u)\n\x7d\nmodel T \x7b\n  ps Int\n  at Int\n\x7d"⟩]

def adoptingCatalog : Catalog :=
  { base := "base", generator := "generator g \x7b\n\x7d", datasource := "datasource d \x7b\n\x7d",
    files := ["base", "f", "g"],
    models := [
      ⟨⟨"f", "S"⟩, [⟨"ps", "P[]", []⟩, ⟨"us", "U[]", []⟩], 1⟩,
      ⟨⟨"f", "P"⟩, [⟨"s", "S?", ["@relation(fields: [a])"]⟩], 5⟩,
      ⟨⟨"g", "U"⟩, [⟨"us", "S[]", []⟩, ⟨"@@map(u)", "", []⟩], 1⟩,
      ⟨⟨"g", "T"⟩, [⟨"ps", "Int", []⟩, ⟨"at", "Int", []⟩], 5⟩],
    enums := [] }

def adopter : Model := ⟨⟨"g", "U"⟩, [⟨"us", "S[]", []⟩, ⟨"@@map(u)", "", []⟩], 1⟩

def adoptingSession : Session :=
  ((Session.new adoptingCatalog).suggest ⟨"g", "U"⟩ (.remap ⟨⟨"f", "P"⟩, "s"⟩ ⟨"g", "U"⟩ .model)
    |>.withExtended ⟨"g", "U"⟩ ⟨"g", "T"⟩).replay

theorem columnsOf_arranged_adopting :
    Catalog.ofFragments (fun _ => false) adopting = .ok adoptingCatalog ∧
      adopter ∈ visibleModels adoptingSession.current ∧
      KeepsTypes adoptingSession.current adopter ∧
      Arranged adoptingSession.current adopter
        [⟨"us", "S[]", []⟩, ⟨"ps", "P[]", []⟩, ⟨"at", "Int", []⟩, ⟨"@@map(u)", "", []⟩] := by
  have hcolumns : columnsOf adoptingSession.current adopter =
      [⟨"us", "S[]", []⟩, ⟨"ps", "P[]", []⟩, ⟨"at", "Int", []⟩, ⟨"@@map(u)", "", []⟩] := rfl
  exact ⟨rfl, by decide, by decide, hcolumns ▸ columnsOf_arranged adoptingSession.current adopter⟩

end FragmentMerge.Document
