import FragmentMerge.Proofs.Replay.Remaps
import FragmentMerge.Proofs.Schema.Column
import Mathlib.Data.List.Nodup

/-! What an action does to a visible item. Unless it is a remap, it leaves the replay as it was but for
the log, or the key of the item is gone from the catalog. A renaming to the name that the item has
already counts among those that change nothing. A renaming to a free name changes one key among the items
and hides nothing new; a queue of renamings, each in a fragment of its own, carries out all of them. -/

namespace FragmentMerge.Catalog

theorem rename?_own_name {c c' : Catalog} {k : ItemKey} {kind : ItemKind} (hw : c.WellKeyed)
    (h : c.rename? k kind k.name = some c') : c' = c := by
  have ht := rename?_not_taken h
  cases kind with
  | model =>
    simp only [rename?, ht, Bool.false_eq_true, if_false, changeModel?, Option.map_eq_some_iff] at h
    obtain ⟨l, hl, rfl⟩ := h
    obtain ⟨pre, m, post, hm, hpre, rfl⟩ := changeFirst?_eq_some hl
    obtain rfl : m.key = k := by simpa using hm
    rw [show ({ m with key := m.key.renamed m.key.name } : Model) = m from rfl, ← hpre]
  | enum =>
    simp only [rename?, ht, Bool.false_eq_true, if_false, changeEnum?, Option.map_eq_some_iff] at h
    obtain ⟨l, hl, rfl⟩ := h
    obtain ⟨pre, e, post, he, hpre, rfl⟩ := changeFirst?_eq_some hl
    obtain rfl : e.key = k := by simpa using he
    have hn : e.name = e.key.name := hw.named e (hpre ▸ List.mem_append_right _ List.mem_cons_self)
    have hself : ({ e with key := e.key.renamed e.key.name, name := e.key.name } : EnumItem) = e :=
      congrArg (fun n => ({ e with name := n } : EnumItem)) hn.symm
    rw [hself, ← hpre]

/-- Where an item stands among those of a catalog with distinct keys, no other has its key. -/
theorem WellKeyed.not_mem_of_items {c c' : Catalog} {k : ItemKey} {kind : ItemKind}
    {pre post l : List (ItemKind × ItemKey)} (hw : c.WellKeyed)
    (h : c.items = pre ++ (kind, k) :: post) (h' : c'.items = pre ++ l ++ post)
    (hl : k ∉ l.map Prod.snd) : k ∉ c'.keys := by
  have hk := hw.distinct
  rw [keys_eq_map_items, h, List.map_append, List.map_cons, List.perm_middle.nodup_iff,
    List.nodup_cons, List.mem_append, not_or] at hk
  rw [keys_eq_map_items, h', List.map_append, List.map_append]
  simp only [List.mem_append, not_or]
  exact ⟨⟨hk.1.1, hl⟩, hk.1.2⟩

end FragmentMerge.Catalog

namespace FragmentMerge.Replay

theorem wellKeyed_foldl_act {c : Catalog} (h : c.WellKeyed) (links : Links)
    (queue : List (ItemKey × Action)) : (queue.foldl act (start c links)).catalog.WellKeyed :=
  wellKeyed_run h links queue []

theorem follow_self (k x : ItemKey) : follow k k x = x := by
  unfold follow
  split
  · next h => exact h.symm
  · rfl

theorem renamed_own_name {r : Replay} {c : Catalog} {k : ItemKey} {kind : ItemKind}
    (hw : r.catalog.WellKeyed) (hk : k ∉ r.hidden) (h : r.catalog.rename? k kind k.name = some c)
    (all : Bool) : r.renamed c k k.name all = r := by
  have hshadows : r.shadows.filter (fun e => e.1 != k) = r.shadows := by
    refine List.filter_eq_self.2 fun e he => ?_
    simpa using fun heq => hk (List.mem_append_left _ (List.mem_map.2 ⟨e, he, heq⟩))
  obtain rfl := Catalog.rename?_own_name hw h
  simp [renamed, followAll, Catalog.retypeReferences_self, ItemKey.renamed, followColumn, follow_self,
    hshadows]

/-- The cases of an action on a visible item. -/
inductive Effect (r : Replay) (k : ItemKey) (a : Action) : Prop
  | noted (m : Mutation) : r.act (k, a) = r.note m → Effect r k a
  | removed (kind : ItemKind) (pre post : List (ItemKind × ItemKey)) : a = .skip kind →
      r.catalog.items = pre ++ (kind, k) :: post → (r.act (k, a)).catalog.items = pre ++ post →
      Effect r k a
  | renamed (name : String) (pre post : List (ItemKind × ItemKey)) : a.newName? = some name →
      name ≠ k.name → r.catalog.items = pre ++ (a.kind, k) :: post →
      (r.act (k, a)).catalog.items = pre ++ (a.kind, k.renamed name) :: post → Effect r k a
  | remapped (source : ColumnKey) (target : ItemKey) (kind : ItemKind) : a = .remap source target kind →
      r.act (k, a) = r.remap source target → Effect r k a

theorem effect {r : Replay} {k : ItemKey} (hw : r.catalog.WellKeyed) (hk : k ∉ r.hidden)
    (a : Action) : Effect r k a := by
  rcases act_cases r k a with ⟨m, he⟩ | ⟨kind, c, ha, hc, he⟩ | ⟨name, all, c, m, hn, hc, he⟩ |
    ⟨source, target, kind, ha, he⟩
  · exact .noted m he
  · obtain ⟨pre, post, hi, hi'⟩ := Catalog.items_remove? hc
    exact .removed kind pre post ha hi (by rw [he, catalog_note]; exact hi')
  · by_cases hname : name = k.name
    · subst hname
      rw [renamed_own_name hw hk hc all] at he
      exact .noted m he
    · obtain ⟨pre, post, hi, hi'⟩ := Catalog.items_rename? hc
      refine .renamed name pre post hn hname hi ?_
      rw [he, catalog_note, catalog_renamed, Catalog.items_retypeReferences]
      exact hi'
  · exact .remapped source target kind ha he

theorem Effect.cases {r : Replay} {k : ItemKey} {a : Action} (hw : r.catalog.WellKeyed)
    (h : Effect r k a) :
    k ∉ (r.act (k, a)).catalog.keys ∨
      (Shades r (r.act (k, a)) ∧ (r.act (k, a)).remaps = r.remaps) ∨
      ∃ source target kind, a = .remap source target kind ∧ Shades r (r.act (k, a)) ∧
        (r.act (k, a)).remaps = upsert source target r.remaps := by
  cases h with
  | noted m he => exact .inr (.inl (by rw [he]; exact ⟨shades_note r m, rfl⟩))
  | removed kind pre post _ hi hi' =>
    exact .inl (hw.not_mem_of_items hi (l := []) (by simpa using hi') (by simp))
  | renamed name pre post _ hname hi hi' =>
    refine .inl (hw.not_mem_of_items hi (l := [(a.kind, k.renamed name)]) (by simpa using hi') ?_)
    simpa using fun h => hname (congrArg ItemKey.name h).symm
  | remapped source target kind ha he =>
    exact .inr (.inr ⟨source, target, kind, ha, by rw [he]; exact ⟨shades_remap r source target, rfl⟩⟩)

end FragmentMerge.Replay

namespace FragmentMerge

theorem Catalog.isTaken_of_file {c : Catalog} {k : ItemKey} {name : String}
    (h : ∀ x ∈ c.keys, x.file = k.file → x = k) : c.isTaken k name = false := by
  refine isTaken_eq_false.2 (Classical.or_iff_not_imp_left.2 fun hne hmem => hne ?_)
  exact congrArg ItemKey.name (h _ hmem rfl)

namespace Replay

theorem act_of_rename? {r : Replay} {k : ItemKey} {a : Action} {name : String} {c : Catalog}
    (hn : a.newName? = some name) (hc : r.catalog.rename? k a.kind name = some c) :
    ∃ all m, r.act (k, a) = (r.renamed c k name all).note m := by
  cases a with
  | skip kind => cases hn
  | rename name' kind =>
    obtain rfl := Option.some.inj hn
    exact ⟨false, rename_of_some hc false⟩
  | renameAll name' kind =>
    obtain rfl := Option.some.inj hn
    exact ⟨true, rename_of_some hc true⟩
  | remap source target kind => cases hn

theorem hidden_renamed {r : Replay} (h : r.hidden = []) (c : Catalog) (k : ItemKey) (name : String)
    (all : Bool) : (r.renamed c k name all).hidden = [] := by
  simp only [hidden, List.append_eq_nil_iff, List.map_eq_nil_iff] at h ⊢
  simp [renamed, followAll, h.1, h.2]

theorem items_act_rename {r : Replay} {k : ItemKey} {a : Action} {name : String}
    {pre post : List (ItemKind × ItemKey)} (hw : r.catalog.WellKeyed) (hn : a.newName? = some name)
    (hi : r.catalog.items = pre ++ (a.kind, k) :: post) (ht : r.catalog.isTaken k name = false) :
    (r.act (k, a)).catalog.items = pre ++ (a.kind, k.renamed name) :: post ∧
      (r.hidden = [] → (r.act (k, a)).hidden = []) := by
  cases hc : r.catalog.rename? k a.kind name with
  | none =>
    refine absurd ?_ ((Catalog.rename?_eq_none ht).1 hc)
    rw [hi]
    exact List.mem_append_right _ List.mem_cons_self
  | some c =>
    obtain ⟨all, m, he⟩ := act_of_rename? hn hc
    obtain ⟨pre', post', hi₁, hi₂⟩ := Catalog.items_rename? hc
    have hnodup : r.catalog.items.Nodup := by
      have hkeys := hw.distinct
      rw [Catalog.keys_eq_map_items] at hkeys
      exact hkeys.of_map
    rw [hi, List.perm_middle.nodup_iff, List.nodup_cons, List.mem_append, not_or] at hnodup
    obtain ⟨rfl, -, rfl⟩ := (List.append_cons_inj_of_notMem hnodup.1.1 hnodup.1.2).1 (hi.symm.trans hi₁)
    refine ⟨?_, fun hh => ?_⟩
    · rw [he, catalog_note, catalog_renamed, Catalog.items_retypeReferences]
      exact hi₂
    · rw [he]
      exact hidden_renamed hh c k name all

/-- Renames models or enums, each the only item of its fragment. -/
theorem foldl_renames {kind : ItemKind} {es : List (ItemKey × String)} {r : Replay}
    {d : List (ItemKind × ItemKey)} (hw : r.catalog.WellKeyed) (hh : r.hidden = [])
    (hi : r.catalog.items = d ++ es.map fun e => (kind, e.1))
    (hf : (r.catalog.keys.map ItemKey.file).Nodup) :
    ((es.map fun e => (e.1, Action.rename e.2 kind)).foldl act r).catalog.items =
        d ++ es.map (fun e => (kind, e.1.renamed e.2)) ∧
      ((es.map fun e => (e.1, Action.rename e.2 kind)).foldl act r).hidden = [] := by
  induction es generalizing r d with
  | nil => exact ⟨hi, hh⟩
  | cons e es ih =>
    have hmem : e.1 ∈ r.catalog.keys := by
      rw [Catalog.keys_eq_map_items, hi]
      simp
    have ht : r.catalog.isTaken e.1 e.2 = false :=
      Catalog.isTaken_of_file fun x hx hxf => List.inj_on_of_nodup_map hf hx hmem hxf
    obtain ⟨hi', hh'⟩ := items_act_rename (a := .rename e.2 kind) hw rfl hi ht
    have hfiles : (r.act (e.1, .rename e.2 kind)).catalog.keys.map ItemKey.file =
        r.catalog.keys.map ItemKey.file := by
      rw [Catalog.keys_eq_map_items, Catalog.keys_eq_map_items, hi, hi']
      simp [Action.kind, ItemKey.renamed]
    have h := ih (d := d ++ [(kind, e.1.renamed e.2)]) (wellKeyed_act hw _) (hh' hh)
      (by rw [hi']; simp [Action.kind]) (hfiles ▸ hf)
    simpa using h

end Replay

end FragmentMerge
