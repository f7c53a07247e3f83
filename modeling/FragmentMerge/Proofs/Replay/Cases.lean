import FragmentMerge.Proofs.Catalog.Keys

/-! What one action of a replay can do. An action that finds nothing to do adds a note to the log; the
others take an item out, rename one, or install a remap. The attributes come last and touch nothing
but the lines of models. -/

namespace FragmentMerge.Replay

/-- The state of a replay after a renaming that took place, but for the log. -/
def renamed (r : Replay) (c : Catalog) (k : ItemKey) (name : String) (all : Bool) : Replay :=
  { r with catalog := c.retypeReferences k name all }.followAll k (k.renamed name)

theorem rename_of_some {r : Replay} {k : ItemKey} {a : Action} {name : String} {c : Catalog}
    (h : r.catalog.rename? k a.kind name = some c) (all : Bool) :
    ∃ m, r.rename k a name all = (r.renamed c k name all).note m := by
  rw [rename, Catalog.rename?_not_taken h, h]
  exact ⟨_, rfl⟩

theorem rename_of_none {r : Replay} {k : ItemKey} {a : Action} {name : String}
    (h : r.catalog.rename? k a.kind name = none) (all : Bool) : ∃ m, r.rename k a name all = r.note m := by
  rw [rename, h]
  split
  · exact ⟨_, rfl⟩
  · exact ⟨_, rfl⟩

theorem act_cases (r : Replay) (k : ItemKey) (a : Action) :
    (∃ m, r.act (k, a) = r.note m) ∨
    (∃ kind c, a = .skip kind ∧ r.catalog.remove? k kind = some c ∧
      r.act (k, a) = { r with catalog := c }.note (.removed k kind)) ∨
    (∃ name all c m, a.newName? = some name ∧ r.catalog.rename? k a.kind name = some c ∧
      r.act (k, a) = (r.renamed c k name all).note m) ∨
    (∃ source target kind, a = .remap source target kind ∧ r.act (k, a) = r.remap source target) := by
  have hrename : ∀ name all, a.newName? = some name → r.act (k, a) = r.rename k a name all →
      (∃ m, r.act (k, a) = r.note m) ∨ (∃ c m, r.catalog.rename? k a.kind name = some c ∧
        r.act (k, a) = (r.renamed c k name all).note m) := by
    intro name all hn ha
    rw [ha]
    cases hc : r.catalog.rename? k a.kind name with
    | none => exact .inl (rename_of_none hc all)
    | some c =>
      obtain ⟨m, hm⟩ := rename_of_some hc all
      exact .inr ⟨c, m, rfl, hm⟩
  cases a with
  | skip kind =>
    cases h : r.catalog.remove? k kind with
    | none => exact .inl ⟨.absent k (.skip kind), by simp [act, skip, h]⟩
    | some c => exact .inr (.inl ⟨kind, c, rfl, h, by simp [act, skip, h]⟩)
  | rename name kind =>
    rcases hrename name false rfl rfl with h | ⟨c, m, hc, h⟩
    · exact .inl h
    · exact .inr (.inr (.inl ⟨name, false, c, m, rfl, hc, h⟩))
  | renameAll name kind =>
    rcases hrename name true rfl rfl with h | ⟨c, m, hc, h⟩
    · exact .inl h
    · exact .inr (.inr (.inl ⟨name, true, c, m, rfl, hc, h⟩))
  | remap source target kind => exact .inr (.inr (.inr ⟨source, target, kind, rfl, rfl⟩))

@[simp] theorem catalog_note (r : Replay) (m : Mutation) : (r.note m).catalog = r.catalog := rfl

@[simp] theorem catalog_remap (r : Replay) (source : ColumnKey) (target : ItemKey) :
    (r.remap source target).catalog = r.catalog := rfl

@[simp] theorem catalog_renamed (r : Replay) (c : Catalog) (k : ItemKey) (name : String) (all : Bool) :
    (r.renamed c k name all).catalog = c.retypeReferences k name all := rfl

/-- What holds of a catalog and is kept by removing, by renaming to the names of a queue, by retyping
and by adding a line, holds after every replay of the queue. -/
theorem catalog_act {P : Catalog → Prop} {r : Replay} {e : ItemKey × Action} (h : P r.catalog)
    (hremove : ∀ c k kind c', P c → c.remove? k kind = some c' → P c')
    (hrename : ∀ c k kind name c', e.2.newName? = some name → P c →
      c.rename? k kind name = some c' → P c')
    (hretype : ∀ c k name all, P c → P (c.retypeReferences k name all)) : P (r.act e).catalog := by
  obtain ⟨k, a⟩ := e
  rcases act_cases r k a with ⟨m, he⟩ | ⟨kind, c, -, hc, he⟩ | ⟨name, all, c, m, hn, hc, he⟩ |
    ⟨source, target, kind, -, he⟩
  · rw [he, catalog_note]
    exact h
  · rw [he, catalog_note]
    exact hremove _ k kind c h hc
  · rw [he, catalog_note, catalog_renamed]
    exact hretype c k name all (hrename _ k a.kind name c hn h hc)
  · rw [he, catalog_remap]
    exact h

theorem nodup_act {r : Replay} (h : r.catalog.keys.Nodup) (e : ItemKey × Action) :
    (r.act e).catalog.keys.Nodup := by
  refine catalog_act h (fun _ _ _ _ h hr => h.sublist (Catalog.keys_remove? hr))
    (fun _ _ _ _ _ _ h hr => Catalog.nodup_rename? h hr) fun c k name all h => ?_
  rw [Catalog.keys_retypeReferences]
  exact h

theorem nodup_foldl {r : Replay} (h : r.catalog.keys.Nodup) (queue : List (ItemKey × Action)) :
    (queue.foldl act r).catalog.keys.Nodup := by
  induction queue generalizing r with
  | nil => exact h
  | cons e queue ih => exact ih (nodup_act h e)

theorem wellKeyed_act {r : Replay} (h : r.catalog.WellKeyed) (e : ItemKey × Action) :
    (r.act e).catalog.WellKeyed :=
  catalog_act h (fun _ _ _ _ h hr => h.remove hr) (fun _ _ _ _ _ _ h hr => h.rename hr)
    fun _ k name all h => h.retype k name all

end FragmentMerge.Replay

namespace FragmentMerge.Catalog

def addLine (c : Catalog) (a : String × String) : Catalog :=
  { c with models := c.models.map fun m =>
      if m.key.name == a.1 && !m.hasLine (Column.parse a.2) then m.push (Column.parse a.2) else m }

theorem items_addLine (c : Catalog) (a : String × String) : (c.addLine a).items = c.items := by
  have h : ∀ m : Model, (if m.key.name == a.1 && !m.hasLine (Column.parse a.2)
      then m.push (Column.parse a.2) else m).key = m.key := fun m => by split <;> rfl
  rw [items, items, addLine, map_key_of_keeps h]

theorem WellKeyed.addLine {c : Catalog} (h : c.WellKeyed) (a : String × String) :
    (c.addLine a).WellKeyed :=
  h.of_items (items_addLine c a) rfl rfl

end FragmentMerge.Catalog

namespace FragmentMerge.Replay

theorem foldl_addAttribute (as : List (String × String)) (r : Replay) :
    (as.foldl addAttribute r).catalog = as.foldl Catalog.addLine r.catalog ∧
      (as.foldl addAttribute r).remaps = r.remaps ∧ (as.foldl addAttribute r).shadows = r.shadows ∧
      (as.foldl addAttribute r).extended = r.extended := by
  induction as generalizing r with
  | nil => exact ⟨rfl, rfl, rfl, rfl⟩
  | cons a as ih => exact ih (r.addAttribute a)

theorem items_foldl_addLine (as : List (String × String)) (c : Catalog) :
    (as.foldl Catalog.addLine c).items = c.items := by
  induction as generalizing c with
  | nil => rfl
  | cons a as ih => rw [List.foldl_cons, ih, Catalog.items_addLine]

theorem modelKeys_foldl_addLine (as : List (String × String)) (c : Catalog) :
    (as.foldl Catalog.addLine c).models.map Model.key = c.models.map Model.key := by
  induction as generalizing c with
  | nil => rfl
  | cons a as ih =>
    rw [List.foldl_cons, ih, Catalog.addLine, List.map_map]
    refine List.map_congr_left fun m _ => ?_
    simp only [Function.comp]
    split <;> rfl

theorem items_run (c : Catalog) (links : Links) (queue : List (ItemKey × Action))
    (as : List (String × String)) :
    (run c links queue as).catalog.items = (queue.foldl act (start c links)).catalog.items := by
  rw [run, (foldl_addAttribute as _).1, items_foldl_addLine]

theorem catalog_run {P : Catalog → Prop} {c : Catalog} {queue : List (ItemKey × Action)} (h : P c)
    (hremove : ∀ c k kind c', P c → c.remove? k kind = some c' → P c')
    (hrename : ∀ e ∈ queue, ∀ c k kind name c', e.2.newName? = some name → P c →
      c.rename? k kind name = some c' → P c')
    (hretype : ∀ c k name all, P c → P (c.retypeReferences k name all))
    (hline : ∀ c a, P c → P (c.addLine a)) (links : Links) (as : List (String × String)) :
    P (run c links queue as).catalog := by
  have hqueue : ∀ r : Replay, P r.catalog → P (queue.foldl act r).catalog := by
    induction queue with
    | nil => exact fun r hr => hr
    | cons e queue ih =>
      exact fun r hr => ih (fun x hx => hrename x (List.mem_cons_of_mem _ hx)) _
        (catalog_act hr hremove (hrename e List.mem_cons_self) hretype)
  have hlines : ∀ c, P c → P (as.foldl Catalog.addLine c) := by
    induction as with
    | nil => exact fun c hc => hc
    | cons a as ih => exact fun c hc => ih _ (hline c a hc)
  rw [run, (foldl_addAttribute as _).1]
  exact hlines _ (hqueue _ h)

theorem wellKeyed_run {c : Catalog} (h : c.WellKeyed) (links : Links)
    (queue : List (ItemKey × Action)) (as : List (String × String)) :
    (run c links queue as).catalog.WellKeyed :=
  catalog_run h (fun _ _ _ _ h hr => h.remove hr) (fun _ _ _ _ _ _ _ _ h hr => h.rename hr)
    (fun _ k name all h => h.retype k name all) (fun _ a h => h.addLine a) links as

end FragmentMerge.Replay
