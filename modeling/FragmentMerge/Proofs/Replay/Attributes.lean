import FragmentMerge.Proofs.Catalog.Distinct
import FragmentMerge.Proofs.Data.Aligned
import FragmentMerge.Proofs.Replay.Fate

/-! The attributes at the end of a replay. They add lines after those that a model has, none that it
carries already, and the log names the model of every line. -/

namespace FragmentMerge

namespace Replay

/-- The lines that a log adds to the model of a key. -/
def linesFor (log : List Mutation) (k : ItemKey) : List Column :=
  log.filterMap fun
    | .attributeAdded key line => if key = k then some (Column.parse line) else none
    | _ => none

/-- The entries of an attribute that every model of the name lacks. -/
def entriesOf (keys : List ItemKey) (a : String × String) : List Mutation :=
  (keys.filter fun k => k.name == a.1).map fun k => .attributeAdded k a.2

theorem linesFor_append (l l' : List Mutation) (k : ItemKey) :
    linesFor (l ++ l') k = linesFor l k ++ linesFor l' k := List.filterMap_append

theorem linesFor_of_records {queue : List (ItemKey × Action)} {log : List Mutation}
    (h : List.Forall₂ Records queue log) (k : ItemKey) : linesFor log k = [] := by
  induction h with
  | nil => rfl
  | cons hm _ ih =>
    rw [linesFor, List.filterMap_cons]
    cases hm <;> exact ih

theorem linesFor_map_cons (k : ItemKey) (line : String) (m : Model) (ms : List Model) :
    linesFor ((m :: ms).map fun m => .attributeAdded m.key line) k =
      (if m.key = k then [Column.parse line] else []) ++
        linesFor (ms.map fun m => .attributeAdded m.key line) k := by
  rw [linesFor, List.map_cons, List.filterMap_cons]
  split
  · next h => split at h <;> simp_all [linesFor]
  · next h => split at h <;> simp_all [linesFor]

theorem linesFor_map_of_not_mem {k : ItemKey} {ms : List Model} (h : k ∉ ms.map Model.key)
    (line : String) : linesFor (ms.map fun m => .attributeAdded m.key line) k = [] := by
  induction ms with
  | nil => rfl
  | cons m ms ih =>
    rw [List.map_cons, List.mem_cons, not_or] at h
    rw [linesFor_map_cons, if_neg fun he => h.1 he.symm, ih h.2, List.append_nil]

theorem linesFor_lacking {ms : List Model} (hn : (ms.map Model.key).Nodup) (lacks : Model → Bool)
    (line : String) {m : Model} (hm : m ∈ ms) :
    linesFor ((ms.filter lacks).map fun m => .attributeAdded m.key line) m.key =
      if lacks m then [Column.parse line] else [] := by
  induction ms with
  | nil => cases hm
  | cons d ms ih =>
    rw [List.map_cons, List.nodup_cons] at hn
    have hrest : d.key ∉ (ms.filter lacks).map Model.key := fun h =>
      hn.1 (List.Sublist.subset (List.filter_sublist.map _) h)
    rcases List.mem_cons.1 hm with rfl | hm
    · rw [List.filter_cons]
      split
      · rw [linesFor_map_cons, if_pos rfl, linesFor_map_of_not_mem hrest, List.append_nil]
      · exact linesFor_map_of_not_mem hrest line
    · have hne : d.key ≠ m.key := fun h => hn.1 (h ▸ List.mem_map_of_mem hm)
      rw [← ih hn.2 hm, List.filter_cons]
      split
      · rw [linesFor_map_cons, if_neg hne, List.nil_append]
      · rfl

end Replay

/-- A model that comes from another by the lines of a log. -/
structure Model.Gains (log : List Mutation) (m m' : Model) : Prop where
  key : m'.key = m.key
  line : m'.line = m.line
  columns : m'.columns = m.columns ++ Replay.linesFor log m.key
  fresh : ∀ c ∈ m.columns, ∀ d ∈ Replay.linesFor log m.key, d.format ≠ c.format
  once : ((Replay.linesFor log m.key).map Column.format).Nodup

namespace Model

theorem Gains.refl (m : Model) : Gains [] m m :=
  ⟨rfl, rfl, (List.append_nil _).symm, fun _ _ _ h => absurd h List.not_mem_nil, List.nodup_nil⟩

theorem Gains.trans {l l' : List Mutation} {a b c : Model} (h : Gains l a b) (g : Gains l' b c) :
    Gains (l ++ l') a c := by
  have hb : ∀ d, d ∈ a.columns ∨ d ∈ Replay.linesFor l a.key → d ∈ b.columns := fun d hd => by
    rw [h.columns]
    exact List.mem_append.2 hd
  refine ⟨g.key.trans h.key, g.line.trans h.line, ?_, fun d hd e he => ?_, ?_⟩
  · rw [g.columns, h.columns, h.key, Replay.linesFor_append, List.append_assoc]
  · rw [Replay.linesFor_append] at he
    rcases List.mem_append.1 he with he | he
    · exact h.fresh d hd e he
    · exact g.fresh d (hb d (.inl hd)) e (h.key ▸ he)
  · rw [Replay.linesFor_append, List.map_append]
    refine List.nodup_append.2 ⟨h.once, h.key ▸ g.once, ?_⟩
    rintro _ hx _ hy rfl
    obtain ⟨d, hd, hdx⟩ := List.mem_map.1 hx
    obtain ⟨e, he, hex⟩ := List.mem_map.1 hy
    exact g.fresh d (hb d (.inr hd)) e (h.key.symm ▸ he) (hex.trans hdx.symm)

theorem hasLine_iff {m : Model} {c : Column} :
    m.hasLine c = true ↔ ∃ d ∈ m.columns, d.format = c.format := by
  simp [hasLine]

theorem Gains.hasLine {log : List Mutation} {m m' : Model} (h : Gains log m m') {c : Column}
    (hc : m.hasLine c = true) : m'.hasLine c = true := by
  obtain ⟨d, hd, he⟩ := hasLine_iff.1 hc
  exact hasLine_iff.2 ⟨d, by rw [h.columns]; exact List.mem_append_left _ hd, he⟩

end Model

structure Catalog.Gains (log : List Mutation) (c c' : Catalog) : Prop where
  base : c'.base = c.base
  generator : c'.generator = c.generator
  datasource : c'.datasource = c.datasource
  files : c'.files = c.files
  enums : c'.enums = c.enums
  models : List.Forall₂ (Model.Gains log) c.models c'.models

namespace Catalog

theorem Gains.refl (c : Catalog) : Gains [] c c :=
  ⟨rfl, rfl, rfl, rfl, rfl, List.forall₂_same.2 fun m _ => .refl m⟩

theorem Gains.trans {l l' : List Mutation} {a b c : Catalog} (h : Gains l a b) (g : Gains l' b c) :
    Gains (l ++ l') a c :=
  ⟨g.base.trans h.base, g.generator.trans h.generator, g.datasource.trans h.datasource,
    g.files.trans h.files, g.enums.trans h.enums,
    forall₂_trans (fun _ _ _ hm hm' => hm.trans hm') h.models g.models⟩

theorem Gains.keys {log : List Mutation} {c c' : Catalog} (h : Gains log c c') :
    c'.models.map Model.key = c.models.map Model.key := by
  have hkeys : List.Forall₂ (· = ·) (c'.models.map Model.key) (c.models.map Model.key) :=
    List.forall₂_map_left_iff.2 (List.forall₂_map_right_iff.2
      (h.models.flip.imp fun _ _ hm => hm.key))
  exact List.forall₂_eq_eq_eq ▸ hkeys

end Catalog

namespace Replay

/-- What one attribute does: its entries, and in every model of the name its line. -/
theorem gains_addAttribute {r : Replay} (hn : (r.catalog.models.map Model.key).Nodup)
    (a : String × String) : ∃ log, (r.addAttribute a).log = r.log ++ log ∧
      log.Sublist (entriesOf (r.catalog.models.map Model.key) a) ∧
      Catalog.Gains log r.catalog (r.addAttribute a).catalog ∧
      ∀ m ∈ (r.addAttribute a).catalog.models, m.key.name = a.1 →
        m.hasLine (Column.parse a.2) = true := by
  refine ⟨_, rfl, ?_, ⟨rfl, rfl, rfl, rfl, rfl, ?_⟩, ?_⟩
  · rw [entriesOf, List.filter_map, List.map_map]
    refine List.Sublist.map _ (List.monotone_filter_right _ fun m hm => ?_)
    exact (Bool.and_eq_true _ _ ▸ hm).1
  · refine List.forall₂_map_right_iff.2 (List.forall₂_same.2 fun m hm => ?_)
    have hlines := linesFor_lacking hn
      (fun m => m.key.name == a.1 && !m.hasLine (Column.parse a.2)) a.2 hm
    split
    · next h =>
      rw [if_pos h] at hlines
      have hlacks : m.hasLine (Column.parse a.2) = false := by
        simp only [Bool.and_eq_true, Bool.not_eq_true'] at h
        exact h.2
      refine ⟨rfl, rfl, by rw [hlines]; rfl, fun d hd e he => ?_, by rw [hlines]; simp⟩
      rw [hlines, List.mem_singleton] at he
      rintro hf
      have := Model.hasLine_iff.2 ⟨d, hd, (he ▸ hf).symm⟩
      exact absurd (this.symm.trans hlacks) (by decide)
    · next h =>
      rw [if_neg h] at hlines
      exact ⟨rfl, rfl, by rw [hlines, List.append_nil], fun d hd e he => by simp [hlines] at he,
        by rw [hlines]; exact List.nodup_nil⟩
  · intro m hm hname
    obtain ⟨d, -, rfl⟩ := List.mem_map.1 hm
    split at hname
    · next h =>
      rw [if_pos h]
      exact Model.hasLine_iff.2 ⟨_, List.mem_append_right _ List.mem_cons_self, rfl⟩
    · next h =>
      rw [if_neg h]
      simpa [hname] using h

theorem gains_foldl {r : Replay} (hn : (r.catalog.models.map Model.key).Nodup)
    (as : List (String × String)) :
    ∃ log, (as.foldl addAttribute r).log = r.log ++ log ∧
      log.Sublist (as.flatMap (entriesOf (r.catalog.models.map Model.key))) ∧
      Catalog.Gains log r.catalog (as.foldl addAttribute r).catalog ∧
      ∀ a ∈ as, ∀ m ∈ (as.foldl addAttribute r).catalog.models, m.key.name = a.1 →
        m.hasLine (Column.parse a.2) = true := by
  induction as generalizing r with
  | nil => exact ⟨[], (List.append_nil _).symm, .slnil, .refl r.catalog, by simp⟩
  | cons a as ih =>
    obtain ⟨l, hlog, hsub, hgain, hcarried⟩ := gains_addAttribute hn a
    obtain ⟨l', hlog', hsub', hgain', hcarried'⟩ := ih (hgain.keys.symm ▸ hn)
    rw [hgain.keys] at hsub'
    refine ⟨l ++ l', by rw [List.foldl_cons, hlog', hlog, List.append_assoc], hsub.append hsub',
      hgain.trans hgain', ?_⟩
    intro b hb m hm hname
    rcases List.mem_cons.1 hb with rfl | hb
    · obtain ⟨d, hd, hg⟩ := exists_of_forall₂ hgain'.models hm
      exact hg.hasLine (hcarried d hd (hg.key ▸ hname))
    · exact hcarried' b hb m hm hname

end Replay

end FragmentMerge
