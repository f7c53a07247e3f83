import FragmentMerge.Proofs.Replay.References
import FragmentMerge.Proofs.Session.Keys
import FragmentMerge.Proofs.Session.Passes

/-! The configured relations when a model gets another name. The active remaps follow the model, and the
configured ones keep its old key; so a relation that has not been mapped yet is no longer found. -/

namespace FragmentMerge.Session

theorem mappingsTo_eq (s : Session) (x : ItemKey) :
    s.mappingsTo x = ((s.referring x).filter fun col => (col, x) ∈ s.mapper).map fun col => (col, x) := by
  rw [mappingsTo]
  induction s.referring x with
  | nil => rfl
  | cons col cols ih =>
    rw [List.filterMap_cons, List.filter_cons, ih]
    cases hf : s.mapper.find? fun e => e.1 == col && e.2 == x with
    | none =>
      have hmem : (col, x) ∉ s.mapper := fun hm => absurd (List.find?_eq_none.1 hf _ hm) (by simp)
      simp [hmem]
    | some e =>
      have he := List.find?_some hf
      simp only [Bool.and_eq_true, beq_iff_eq] at he
      obtain ⟨rfl, rfl⟩ := he
      simp [List.mem_of_find?_eq_some hf]

theorem map_filter_inj {α β : Type} {f : α → β} {l : List α} {p q : α → Bool}
    (hf : ∀ a ∈ l, ∀ b ∈ l, f a = f b → a = b) :
    (l.filter p).map f = (l.filter q).map f ↔ ∀ a ∈ l, p a = q a := by
  have hmem : ∀ (p : α → Bool), ∀ a ∈ l, f a ∈ (l.filter p).map f ↔ p a = true := fun p a ha => by
    constructor
    · intro h
      obtain ⟨b, hb, hba⟩ := List.mem_map.1 h
      obtain ⟨hb, hp⟩ := List.mem_filter.1 hb
      exact hf b hb a ha hba ▸ hp
    · exact fun h => List.mem_map_of_mem (List.mem_filter.2 ⟨ha, h⟩)
  constructor
  · intro h a ha
    rw [Bool.eq_iff_iff, ← hmem p a ha, ← hmem q a ha, h]
  · intro h
    rw [List.filter_congr h]

/-- An action that gives a visible model a name that is free in its fragment. -/
structure RenamesModel (s : Session) (t : ItemKey) (a : Action) (name : String) : Prop where
  present : t ∈ s.catalog.models.map Model.key
  visible : t ∉ s.hidden
  asks : a.newName? = some name
  kind : a.kind = .model
  identifier : IsIdentifier name
  free : s.catalog.isTaken t name = false

section Renamed

variable {s : Session} {t x : ItemKey} {a : Action} {name : String}

theorem RenamesModel.bare (h : s.RenamesModel t a name) (hr : s.Replayed) :
    ∃ c all m, s.bare.catalog.rename? t .model name = some c ∧
      (s.suggest t a).bare = (s.bare.renamed c t name all).note m := by
  have hfree := h.free
  rw [Catalog.isTaken_eq_false, hr.keys, ← Catalog.isTaken_eq_false] at hfree
  have hmem : (.model, t) ∈ s.bare.catalog.items :=
    hr.items ▸ Catalog.mem_items_model.2 (List.mem_map.1 h.present)
  rw [bare_suggest]
  rcases hc : s.bare.catalog.rename? t .model name with _ | c
  · exact absurd hmem ((Catalog.rename?_eq_none hfree).1 hc)
  · have hall : ∃ all, s.bare.act (t, a) = s.bare.rename t a name all := by
      have hasks := h.asks
      cases a with
      | rename n kind => exact ⟨false, by cases hasks; rfl⟩
      | renameAll n kind => exact ⟨true, by cases hasks; rfl⟩
      | skip kind => cases hasks
      | remap source target kind => cases hasks
    obtain ⟨all, hact⟩ := hall
    obtain ⟨m, hm⟩ := Replay.rename_of_some (h.kind ▸ hc) all
    exact ⟨c, all, m, rfl, hact.trans hm⟩

theorem Replayed.referring (hr : s.Replayed)
    (hattr : ∀ e ∈ s.attributes, (Column.parse e.2).relatesTo x.name = false) :
    s.referring x = s.bare.referring x.name := by
  rw [Session.referring, hr.current_eq]
  exact Replay.referring_foldl hattr s.bare

theorem RenamesModel.referring (h : s.RenamesModel t a name) (hw : s.pristine.WellKeyed)
    (hr : s.Replayed) (hold : t.name ≠ x.name) (hnew : name ≠ x.name)
    (hattr : ∀ e ∈ s.attributes, (Column.parse e.2).relatesTo x.name = false) :
    (s.suggest t a).replay.referring x =
      ((s.referring x).filter fun col => col.item != t || decide (t.renamed name ∉ s.hidden)).map
        (Replay.followColumn t (t.renamed name)) := by
  obtain ⟨c, all, m, hc, hbare⟩ := h.bare hr
  have hreplayed : (s.suggest t a).replay.referring x = (s.suggest t a).bare.referring x.name :=
    (replayed_replay _).referring hattr
  have hvis := hr.hidden ▸ h.visible
  rw [hreplayed, hbare, hr.referring hattr, hr.hidden]
  refine (Replay.referring_renamed (wellKeyed_bare hw).distinct hc hvis h.identifier hold hnew all).trans ?_
  simp [Replay.isVisible]

/-- Columns of visible models keep apart when a model gets a free name. -/
theorem followColumn_inj (hfree : s.catalog.isTaken t name = false) {col col' : ColumnKey}
    (h : col ∈ s.referring x) (h' : col' ∈ s.referring x)
    (he : Replay.followColumn t (t.renamed name) col = Replay.followColumn t (t.renamed name) col') :
    col = col' := by
  have hitem : ∀ col ∈ s.referring x, col.item = t ∨ col.item ≠ t.renamed name := by
    intro col hcol
    obtain ⟨m, hm, hcol⟩ := List.mem_flatMap.1 hcol
    rw [Replay.item_of_mem_relationsTo hcol]
    have hkey : m.key ∈ s.catalog.keys :=
      List.mem_append_left _ (List.mem_map_of_mem (List.mem_filter.1 hm).1)
    rcases Catalog.isTaken_eq_false.1 hfree with rfl | hn
    · exact eq_or_ne m.key t
    · exact .inr fun he => hn (he ▸ hkey)
  obtain ⟨i, n⟩ := col
  obtain ⟨i', n'⟩ := col'
  obtain ⟨hi, rfl⟩ := ColumnKey.mk.inj he
  obtain rfl : i = i' := Replay.follow_inj (hitem _ h) (hitem _ h') hi
  rfl

end Renamed

/-- When a model gets another name, the configured relations of its columns are found under the new
name exactly if the model is still visible and the configuration has them under both names. -/
theorem rename_keeps_mappings_iff {c : Catalog} {s : Session} {t x : ItemKey} {a : Action} {name : String}
    (hc : c.Kept) (hs : Over c s) (hr : s.Replayed) (h : s.RenamesModel t a name)
    (hold : t.name ≠ x.name) (hnew : name ≠ x.name)
    (hattr : ∀ e ∈ s.attributes, (Column.parse e.2).relatesTo x.name = false) :
    (s.suggest t a).replay.mappingsTo x =
        (s.mappingsTo x).map (fun e => (Replay.followColumn t (t.renamed name) e.1, e.2)) ↔
      ∀ col ∈ s.referring x, col.item = t →
        ((col, x) ∈ s.mapper ↔ t.renamed name ∉ s.hidden ∧ (⟨t.renamed name, col.column⟩, x) ∈ s.mapper) := by
  have hw : s.pristine.WellKeyed := (hs.sound hc.wellKeyed).pristine ▸ hc.wellKeyed
  have hmapper : (s.suggest t a).replay.mapper = s.mapper := rfl
  rw [mappingsTo_eq, mappingsTo_eq, h.referring hw hr hold hnew hattr, hmapper, List.filter_map,
    List.filter_filter, List.map_map, List.map_map]
  refine (map_filter_inj (f := fun col => (Replay.followColumn t (t.renamed name) col, x)) ?_).trans ?_
  · exact fun col hcol col' hcol' he => followColumn_inj h.free hcol hcol' (Prod.mk.inj he).1
  · refine forall_congr' fun col => forall_congr' fun _ => ?_
    by_cases hitem : col.item = t
    · have hcol : Replay.followColumn t (t.renamed name) col = ⟨t.renamed name, col.column⟩ := by
        rw [Replay.followColumn, hitem, Replay.follow_old]
      rw [Bool.eq_iff_iff]
      simp only [Function.comp, hcol, hitem, bne_self_eq_false, Bool.false_or, forall_const,
        Bool.and_eq_true, decide_eq_true_eq]
      rw [and_comm]
      exact Iff.comm
    · have hcol : Replay.followColumn t (t.renamed name) col = col := by
        rw [Replay.followColumn, Replay.follow_of_ne hitem]
      simp [hcol, hitem]

/-- A post whose author is configured to be the user of another fragment. -/
def authored : List Fragment :=
  [⟨"base", "generator g {
}
datasource d {
}"⟩,
    ⟨"f", "model User {
  id Int
}
model Post {
  author User @relation(fields: [a])
}"⟩,
    ⟨"g", "model User {
  id Int
}"⟩]

def authoredCatalog : Catalog :=
  { base := "base", generator := "generator g {
}", datasource := "datasource d {
}",
    files := ["base", "f", "g"],
    models := [
      ⟨⟨"f", "User"⟩, [⟨"id", "Int", []⟩], 1⟩,
      ⟨⟨"f", "Post"⟩, [⟨"author", "User", ["@relation(fields: [a])"]⟩], 4⟩,
      ⟨⟨"g", "User"⟩, [⟨"id", "Int", []⟩], 1⟩],
    enums := [] }

theorem load_authored : Catalog.ofFragments (fun _ => false) authored = .ok authoredCatalog := by
  decide +kernel

def authoredSession : Session :=
  ((Session.new authoredCatalog).withCrossFile true).withMapping ⟨⟨"f", "Post"⟩, "author"⟩ ⟨"g", "User"⟩

/-- The same with the name that the post is to have. -/
def foreseenSession : Session := authoredSession.withMapping ⟨⟨"f", "Article"⟩, "author"⟩ ⟨"g", "User"⟩

theorem isIdentifier_article : IsIdentifier "Article" := by
  have hrest : "rticle".toList.all Char.isAlphanum = true := by decide
  exact ⟨'A', "rticle".toList, by decide, .inl (by decide), fun d hd => .inl (List.all_eq_true.1 hrest d hd)⟩

theorem rename_keeps_mappings_foreseen :
    Catalog.ofFragments (fun _ => false) authored = .ok authoredCatalog ∧ foreseenSession.Replayed ∧
      foreseenSession.RenamesModel ⟨"f", "Post"⟩ (.rename "Article" .model) "Article" ∧
      (foreseenSession.suggest ⟨"f", "Post"⟩ (.rename "Article" .model)).replay.mappingsTo ⟨"g", "User"⟩ =
        [(⟨⟨"f", "Article"⟩, "author"⟩, ⟨"g", "User"⟩)] := by
  have hs : Over authoredCatalog foreseenSession := .mapping _ _ (.mapping _ _ (.crossFile _ .new))
  have h : foreseenSession.RenamesModel ⟨"f", "Post"⟩ (.rename "Article" .model) "Article" :=
    ⟨by decide, by decide, rfl, rfl, isIdentifier_article, by decide⟩
  refine ⟨load_authored, rfl, h, ?_⟩
  refine (rename_keeps_mappings_iff (.loaded load_authored) hs rfl h (by decide) (by decide) ?_).2 ?_
  · intro e he
    cases he
  · decide

/-- Renamed first, the post no longer counts as mapped, and the conflict that the configured relation
would have settled is put to the resolver. -/
theorem mapping_lost :
    Catalog.ofFragments (fun _ => false) authored = .ok authoredCatalog ∧
      Over authoredCatalog authoredSession ∧ authoredSession.Replayed ∧
      authoredSession.RenamesModel ⟨"f", "Post"⟩ (.rename "Article" .model) "Article" ∧
      authoredSession.mappingsTo ⟨"g", "User"⟩ = [(⟨⟨"f", "Post"⟩, "author"⟩, ⟨"g", "User"⟩)] ∧
      (authoredSession.suggest ⟨"f", "Post"⟩ (.rename "Article" .model)).replay.mappingsTo ⟨"g", "User"⟩ =
        [] ∧
      authoredSession.nextStep.1 = .ok .done ∧
      (authoredSession.suggest ⟨"f", "Post"⟩ (.rename "Article" .model)).nextStep.1 ≠ .ok .done := by
  have h : authoredSession.RenamesModel ⟨"f", "Post"⟩ (.rename "Article" .model) "Article" :=
    ⟨by decide, by decide, rfl, rfl, isIdentifier_article, by decide⟩
  exact ⟨load_authored, .mapping _ _ (.crossFile _ .new), rfl, h, rfl, rfl, rfl, by decide⟩

end FragmentMerge.Session
