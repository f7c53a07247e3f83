import FragmentMerge.Document
import FragmentMerge.Proofs.Replay.Links

/-! Remapped columns in the document. Whatever the renamings before and after a remap, the column is
written with the name that the target of its latest remap has in the end. -/

namespace FragmentMerge

namespace Document

theorem mem_insertField {c d : Column} {cs : List Column} (h : d ∈ cs) : d ∈ insertField c cs := by
  induction cs with
  | nil => cases h
  | cons x cs ih =>
    rw [insertField]
    split
    · exact List.mem_cons_of_mem _ h
    · rcases List.mem_cons.1 h with rfl | h
      · exact List.mem_cons_self
      · exact List.mem_cons_of_mem _ (ih h)

theorem mem_foldl_insertNew {d : Column} (new : List Column) {cs : List Column} (h : d ∈ cs) :
    d ∈ new.foldl insertNew cs := by
  induction new generalizing cs with
  | nil => exact h
  | cons c new ih =>
    refine ih ?_
    rw [insertNew]
    split
    · exact h
    · exact mem_insertField h

/-- A column of the model, with the type that remaps and replacements give it, is one of the columns
that are written. -/
theorem redirect_mem_columnsOf (r : Replay) {m : Model} {col : Column} (h : col ∈ m.columns) :
    redirect r m.key col ∈ columnsOf r m :=
  mem_foldl_insertNew _ (List.mem_map_of_mem h)

theorem redirect_of_mem {r : Replay} (hn : (r.remaps.map Prod.fst).Nodup) {k target : ItemKey}
    {col : Column} (hcol : col.isRaw = false) (h : (k.column col.name, target) ∈ r.remaps) :
    redirect r k col = col.retype target.name := by
  have hfound : (r.remaps.find? fun e => e.1.item == k && e.1.column == col.name).isSome = true :=
    List.find?_isSome.2 ⟨_, h, by simp [ItemKey.column]⟩
  obtain ⟨e, he⟩ := Option.isSome_iff_exists.1 hfound
  have hkey := List.find?_some he
  simp only [Bool.and_eq_true, beq_iff_eq] at hkey
  obtain ⟨⟨i, c⟩, t⟩ := e
  obtain ⟨rfl, rfl⟩ := hkey
  have hsame := List.inj_on_of_nodup_map hn (List.mem_of_find?_eq_some he) h rfl
  rw [redirect, hcol, if_neg Bool.false_ne_true, he, (Prod.mk.inj hsame).2]

end Document

namespace Replay

/-- The links of a replay name the items that they named when they were installed, and the document
shows it: a remapped column has the present name of the target of the latest remap on it. -/
theorem links_follow {c : Catalog} (hn : c.keys.Nodup) {links : Links}
    (hl : ∀ e ∈ links, e.1 ∈ c.models.map Model.key ∧ e.2 ∈ c.models.map Model.key)
    {queue : List (ItemKey × Action)} (hskip : ∀ e ∈ queue, ∀ kind, e.2 ≠ .skip kind)
    (hpresent : ∀ done k source target kind rest, queue = done ++ (k, .remap source target kind) :: rest →
      source.item ∈ (run c links done []).catalog.models.map Model.key ∧
        target ∈ (run c links done []).catalog.models.map Model.key)
    (as : List (String × String)) :
    Tied c links queue (run c links queue as) ∧
      ∀ m ∈ Document.visibleModels (run c links queue as), ∀ col ∈ m.columns, col.isRaw = false →
        ∀ p q, Names c (run c links queue as) p m.key → Installed c links queue ⟨p, col.name⟩ q →
          ∃ k, Names c (run c links queue as) q k ∧
            { col with type := k.name ++ col.typeSuffix } ∈
              Document.columnsOf (run c links queue as) m := by
  have h : Tied c links queue (run c links queue as) := (tied_queue hn hl hskip hpresent).attributes as
  refine ⟨h, fun m _ col hcol hraw p q hp hi => ?_⟩
  obtain ⟨k, hk⟩ : ∃ k, Names c (run c links queue as) q k :=
    exists_right_of_mem (by simp [h.places]) hi.mem
  have hmem : (m.key.column col.name, k) ∈ (run c links queue as).remaps :=
    (h.remaps _ _).2 ⟨p, q, hi, hp, hk⟩
  refine ⟨k, hk, ?_⟩
  have hred := Document.redirect_mem_columnsOf (run c links queue as) hcol
  rw [Document.redirect_of_mem h.once hraw hmem] at hred
  exact hred

def relayed : Catalog :=
  { base := "f", generator := "", datasource := "", files := ["f", "g"],
    models := [
      ⟨⟨"f", "M"⟩, [⟨"c", "N?", []⟩], 1⟩, ⟨⟨"f", "P"⟩, [], 4⟩, ⟨⟨"g", "N"⟩, [], 1⟩,
      ⟨⟨"g", "O"⟩, [], 3⟩],
    enums := [] }

/-- A remap between two renamings of its target. The second one takes the name that another model has left. -/
def relay : List (ItemKey × Action) :=
  [(⟨"g", "N"⟩, .rename "X" .model), (⟨"g", "X"⟩, .remap ⟨⟨"f", "M"⟩, "c"⟩ ⟨"g", "X"⟩ .model),
    (⟨"g", "O"⟩, .rename "Q" .model), (⟨"g", "X"⟩, .rename "O" .model)]

theorem links_follow_relay :
    Installed relayed [(⟨"f", "P"⟩, ⟨"g", "O"⟩)] relay ⟨⟨"f", "M"⟩, "c"⟩ ⟨"g", "N"⟩ ∧
      Tied relayed [(⟨"f", "P"⟩, ⟨"g", "O"⟩)] relay (run relayed [(⟨"f", "P"⟩, ⟨"g", "O"⟩)] relay []) ∧
      (run relayed [(⟨"f", "P"⟩, ⟨"g", "O"⟩)] relay []).extended = [(⟨"f", "P"⟩, ⟨"g", "Q"⟩)] ∧
      ∃ m ∈ Document.visibleModels (run relayed [(⟨"f", "P"⟩, ⟨"g", "O"⟩)] relay []),
        ⟨"c", "O?", []⟩ ∈ Document.columnsOf (run relayed [(⟨"f", "P"⟩, ⟨"g", "O"⟩)] relay []) m := by
  have hn : relayed.keys.Nodup := by decide
  have hl : ∀ e ∈ [((⟨"f", "P"⟩ : ItemKey), (⟨"g", "O"⟩ : ItemKey))],
      e.1 ∈ relayed.models.map Model.key ∧ e.2 ∈ relayed.models.map Model.key := by decide
  have hskip : ∀ e ∈ relay, ∀ kind, e.2 ≠ .skip kind := by simp [relay]
  have hpresent : ∀ done k source target kind rest,
      relay = done ++ (k, .remap source target kind) :: rest →
        source.item ∈ (run relayed [(⟨"f", "P"⟩, ⟨"g", "O"⟩)] done []).catalog.models.map Model.key ∧
          target ∈ (run relayed [(⟨"f", "P"⟩, ⟨"g", "O"⟩)] done []).catalog.models.map Model.key := by
    intro done k source target kind rest h
    rcases done with _ | ⟨a, _ | ⟨b, _ | ⟨c, _ | ⟨d, done⟩⟩⟩⟩ <;> simp [relay] at h
    obtain ⟨rfl, ⟨-, rfl, rfl, -⟩, -⟩ := h
    decide
  have hinst : Installed relayed [(⟨"f", "P"⟩, ⟨"g", "O"⟩)] (relay.take 1 ++
      [(⟨"g", "X"⟩, .remap ⟨⟨"f", "M"⟩, "c"⟩ ⟨"g", "X"⟩ .model)] ++ [(⟨"g", "O"⟩, .rename "Q" .model)] ++
      [(⟨"g", "X"⟩, .rename "O" .model)]) ⟨⟨"f", "M"⟩, "c"⟩ ⟨"g", "N"⟩ :=
    .later (.later (.here _ _ _ _ (by decide) (by decide)) (by simp)) (by simp)
  obtain ⟨htied, hemit⟩ := links_follow hn hl hskip hpresent []
  obtain ⟨k, hk, hmem⟩ := hemit ⟨⟨"f", "M"⟩, [⟨"c", "N?", []⟩], 1⟩ (by decide) ⟨"c", "N?", []⟩
    (by decide) rfl ⟨"f", "M"⟩ ⟨"g", "N"⟩ (by decide) hinst
  obtain rfl : k = ⟨"g", "O"⟩ := Names.key_eq hn hk (by decide)
  exact ⟨hinst, htied, rfl, _, by decide, hmem⟩

end Replay

end FragmentMerge
