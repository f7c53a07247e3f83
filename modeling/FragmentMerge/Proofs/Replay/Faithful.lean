import FragmentMerge.Proofs.Replay.Attributes
import FragmentMerge.Proofs.Replay.Descent

/-! Replay loses and damages nothing. What is missing from a replayed catalog was taken out by an action
that says so, and what differs in an item is its name, the bases of column types and the lines of
attributes. -/

namespace FragmentMerge

/-- A model of the pristine catalog and what a whole replay makes of it. -/
structure Model.Survives (log : List Mutation) (m m' : Model) : Prop where
  key : Replay.fate log m.key = some m'.key
  file : m'.key.file = m.key.file
  line : m'.line = m.line
  columns : ∃ cs, List.Forall₂ Column.Retypes m.columns cs ∧
    m'.columns = cs ++ Replay.linesFor log m'.key ∧
    (∀ c ∈ cs, ∀ d ∈ Replay.linesFor log m'.key, d.format ≠ c.format) ∧
    ((Replay.linesFor log m'.key).map Column.format).Nodup

namespace Replay

/-- A replay that accounts for every item and every column of the pristine catalog. -/
structure Faithful (c : Catalog) (queue : List (ItemKey × Action)) (attributes : List (String × String))
    (r : Replay) : Prop where
  base : r.catalog.base = c.base
  generator : r.catalog.generator = c.generator
  datasource : r.catalog.datasource = c.datasource
  files : r.catalog.files = c.files
  models : List.Forall₂ (Model.Survives r.log)
    (c.models.filter fun m => (fate r.log m.key).isSome) r.catalog.models
  enums : List.Forall₂ (EnumItem.Descends r.log)
    (c.enums.filter fun e => (fate r.log e.key).isSome) r.catalog.enums
  log : ∃ entries notes, r.log = entries ++ notes ∧ List.Forall₂ Records queue entries ∧
    notes.Sublist (attributes.flatMap (entriesOf (r.catalog.models.map Model.key)))
  carried : ∀ a ∈ attributes, ∀ m ∈ r.catalog.models, m.key.name = a.1 →
    m.hasLine (Column.parse a.2) = true
  lost : r.log.countP Mutation.isRemoval + r.catalog.keys.length = c.keys.length

theorem mem_entriesOf {keys : List ItemKey} {as : List (String × String)} {m : Mutation}
    (h : m ∈ as.flatMap (entriesOf keys)) : ∃ k line, m = .attributeAdded k line := by
  obtain ⟨a, -, hm⟩ := List.mem_flatMap.1 h
  obtain ⟨k, -, rfl⟩ := List.mem_map.1 hm
  exact ⟨k, a.2, rfl⟩

theorem run_faithful {c : Catalog} (hn : c.keys.Nodup) (links : Links)
    {queue : List (ItemKey × Action)}
    (hnames : ∀ e ∈ queue, ∀ name, e.2.newName? = some name → IsIdentifier name)
    (attributes : List (String × String)) :
    Faithful c queue attributes (run c links queue attributes) := by
  obtain ⟨entries, hlog, hrec, hdesc⟩ := carries_foldl (r := start c links) hn hnames
  obtain ⟨notes, hlog', hsub, hgain, hcarried⟩ :=
    gains_foldl (Catalog.nodup_keys (nodup_foldl (r := start c links) hn queue)).1 attributes
  have hrun : (run c links queue attributes).log = entries ++ notes := by
    rw [run, hlog', hlog]
    rfl
  have hnote : ∀ m ∈ notes, ∃ k line, m = .attributeAdded k line := fun m hm =>
    mem_entriesOf (hsub.subset hm)
  have hfate : ∀ k, fate (run c links queue attributes).log k = fate entries k := by
    intro k
    have hstay : ∀ m ∈ notes, ∀ x, m.move x = some x := fun m hm x => by
      obtain ⟨k, line, rfl⟩ := hnote m hm
      rfl
    rw [hrun, fate_append, funext (fate_of_stays hstay)]
    exact Option.bind_fun_some _
  have hlines : ∀ k, linesFor (run c links queue attributes).log k = linesFor notes k := fun k => by
    rw [hrun, linesFor_append, linesFor_of_records hrec, List.nil_append]
  have hremovals : (run c links queue attributes).log.countP Mutation.isRemoval =
      entries.countP Mutation.isRemoval := by
    have hnone : notes.countP Mutation.isRemoval = 0 := List.countP_eq_zero.2 fun m hm => by
      obtain ⟨k, line, rfl⟩ := hnote m hm
      exact Bool.false_ne_true
    rw [hrun, List.countP_append, hnone, Nat.add_zero]
  refine ⟨hgain.base.trans hdesc.base, hgain.generator.trans hdesc.generator,
    hgain.datasource.trans hdesc.datasource, hgain.files.trans hdesc.files, ?_, ?_,
    ⟨entries, notes, hrun, hrec, ?_⟩, hcarried, ?_⟩
  · simp only [hfate]
    refine forall₂_trans (fun m d m' hd hg => ?_) hdesc.models hgain.models
    refine ⟨?_, hg.key ▸ hd.file, hg.line.trans hd.line, d.columns, hd.columns, ?_⟩
    · rw [hfate, hd.key, hg.key]
    · rw [hlines, hg.key]
      exact ⟨hg.columns, hg.fresh, hg.once⟩
  · simp only [hfate]
    have henums := hdesc.enums
    rw [← hgain.enums] at henums
    exact henums.imp fun e e' he => ⟨(hfate e.key).trans he.key, he.file, he.line, he.values, he.named⟩
  · rw [run, hgain.keys]
    exact hsub
  · have hkeys : (run c links queue attributes).catalog.keys =
        (queue.foldl act (start c links)).catalog.keys := by
      rw [run, Catalog.keys, hgain.keys, hgain.enums, Catalog.keys]
    rw [hremovals, hkeys]
    exact hdesc.lost

def turned : Catalog :=
  { base := "f", generator := "", datasource := "", files := ["f", "g"],
    models := [
      ⟨⟨"f", "A"⟩, [⟨"id", "Int", ["@id"]⟩, ⟨"b", "B?", []⟩], 1⟩,
      ⟨⟨"f", "B"⟩, [⟨"as", "A[]", []⟩, ⟨"// old", "", []⟩], 5⟩,
      ⟨⟨"g", "A"⟩, [⟨"id", "Int", ["@id"]⟩], 1⟩],
    enums := [] }

/-- `A` becomes `C`, then `B` becomes `A`; a third model is taken out, twice. -/
def turning : List (ItemKey × Action) :=
  [(⟨"f", "A"⟩, .rename "C" .model), (⟨"f", "B"⟩, .renameAll "A" .model), (⟨"g", "A"⟩, .skip .model),
    (⟨"g", "A"⟩, .skip .model)]

theorem run_faithful_turn :
    Faithful turned turning [("A", "// old"), ("C", "@@map(x)")]
        (run turned [] turning [("A", "// old"), ("C", "@@map(x)")]) ∧
      (run turned [] turning [("A", "// old"), ("C", "@@map(x)")]).catalog.models = [
        ⟨⟨"f", "C"⟩, [⟨"id", "Int", ["@id"]⟩, ⟨"b", "A?", []⟩, ⟨"@@map(x)", "", []⟩], 1⟩,
        ⟨⟨"f", "A"⟩, [⟨"as", "C[]", []⟩, ⟨"// old", "", []⟩], 5⟩] := by
  have hn : turned.keys.Nodup := by decide
  have hnames : ∀ e ∈ turning, ∀ name, e.2.newName? = some name → IsIdentifier name := by
    simp only [turning, List.forall_mem_cons, Action.newName?, Option.some.injEq, forall_eq']
    exact ⟨⟨'C', [], rfl, by decide, by simp⟩, ⟨'A', [], rfl, by decide, by simp⟩, by simp⟩
  exact ⟨run_faithful hn [] hnames _, rfl⟩

end Replay

end FragmentMerge
