import FragmentMerge.Proofs.Catalog.Keys

/-! Changes of a catalog with distinct keys. Removals and renamings take the first item with a key; when
it is the only one, they are a filter and a map. -/

namespace FragmentMerge.Catalog

section Keyed

variable {α : Type} {key : α → ItemKey} {k : ItemKey}

theorem filter_key_of_not_mem {l : List α} (h : k ∉ l.map key) :
    l.filter (fun x => key x != k) = l := by
  refine List.filter_eq_self.2 fun x hx => bne_iff_ne.2 fun he => h ?_
  exact he ▸ List.mem_map_of_mem hx

theorem map_key_of_not_mem {f : α → α} {l : List α} (h : k ∉ l.map key) :
    l.map (fun x => if key x = k then f x else x) = l := by
  refine (List.map_congr_left fun x hx => if_neg fun he => h ?_).trans (List.map_id l)
  exact he ▸ List.mem_map_of_mem hx

theorem takeOut?_eq_filter {l l' : List α} {a : α} (hn : (l.map key).Nodup)
    (h : takeOut? (fun x => key x == k) l = some (a, l')) :
    k ∈ l.map key ∧ l' = l.filter fun x => key x != k := by
  obtain ⟨ha, pre, post, rfl, rfl⟩ := takeOut?_eq_some h
  have ha : key a = k := beq_iff_eq.1 ha
  rw [List.map_append, List.map_cons, List.perm_middle.nodup_iff, List.nodup_cons, ha,
    List.mem_append, not_or] at hn
  refine ⟨by simp [ha], ?_⟩
  rw [List.filter_append, List.filter_cons_of_neg (by simp [ha]), filter_key_of_not_mem hn.1.1,
    filter_key_of_not_mem hn.1.2]

theorem changeFirst?_eq_map {f : α → α} {l l' : List α} (hn : (l.map key).Nodup)
    (h : changeFirst? (fun x => key x == k) f l = some l') :
    k ∈ l.map key ∧ l' = l.map fun x => if key x = k then f x else x := by
  obtain ⟨pre, a, post, ha, rfl, rfl⟩ := changeFirst?_eq_some h
  have ha : key a = k := beq_iff_eq.1 ha
  rw [List.map_append, List.map_cons, List.perm_middle.nodup_iff, List.nodup_cons, ha,
    List.mem_append, not_or] at hn
  refine ⟨by simp [ha], ?_⟩
  rw [List.map_append, List.map_cons, if_pos ha, map_key_of_not_mem hn.1.1,
    map_key_of_not_mem hn.1.2]

end Keyed

theorem nodup_keys {c : Catalog} (h : c.keys.Nodup) :
    (c.models.map Model.key).Nodup ∧ (c.enums.map EnumItem.key).Nodup ∧
      ∀ k ∈ c.models.map Model.key, k ∉ c.enums.map EnumItem.key := by
  obtain ⟨hm, he, hd⟩ := List.nodup_append.1 h
  exact ⟨hm, he, fun k hk hk' => hd k hk k hk' rfl⟩

theorem remove?_eq_filter {c c' : Catalog} {k : ItemKey} {kind : ItemKind} (hn : c.keys.Nodup)
    (h : c.remove? k kind = some c') :
    c' = { c with models := c.models.filter (·.key != k), enums := c.enums.filter (·.key != k) } := by
  obtain ⟨hm, he, hd⟩ := nodup_keys hn
  cases kind with
  | model =>
    simp only [remove?, removeModel?, Option.map_map, Option.map_eq_some_iff, Function.comp] at h
    obtain ⟨⟨m, l⟩, hl, rfl⟩ := h
    obtain ⟨hk, rfl⟩ := takeOut?_eq_filter hm hl
    rw [filter_key_of_not_mem (hd k hk)]
  | enum =>
    simp only [remove?, removeEnum?, Option.map_map, Option.map_eq_some_iff, Function.comp] at h
    obtain ⟨⟨e, l⟩, hl, rfl⟩ := h
    obtain ⟨hk, rfl⟩ := takeOut?_eq_filter he hl
    rw [filter_key_of_not_mem fun hk' => hd k hk' hk]

theorem rename?_eq_map {c c' : Catalog} {k : ItemKey} {kind : ItemKind} {name : String}
    (hn : c.keys.Nodup) (h : c.rename? k kind name = some c') :
    c' = { c with
      models := c.models.map fun m => if m.key = k then { m with key := k.renamed name } else m
      enums := c.enums.map fun e => if e.key = k then { e with key := k.renamed name, name } else e } := by
  obtain ⟨hm, he, hd⟩ := nodup_keys hn
  have ht := rename?_not_taken h
  cases kind with
  | model =>
    simp only [rename?, ht, Bool.false_eq_true, if_false, changeModel?, Option.map_eq_some_iff] at h
    obtain ⟨l, hl, rfl⟩ := h
    obtain ⟨hk, rfl⟩ := changeFirst?_eq_map hm hl
    rw [map_key_of_not_mem (hd k hk)]
  | enum =>
    simp only [rename?, ht, Bool.false_eq_true, if_false, changeEnum?, Option.map_eq_some_iff] at h
    obtain ⟨l, hl, rfl⟩ := h
    obtain ⟨hk, rfl⟩ := changeFirst?_eq_map he hl
    rw [map_key_of_not_mem fun hk' => hd k hk' hk]

end FragmentMerge.Catalog
