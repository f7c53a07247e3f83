import FragmentMerge.Catalog.FullText
import FragmentMerge.Proofs.Catalog.Items
import FragmentMerge.Proofs.Catalog.Load

/-! Key uniqueness of catalogs. Look-ups, removals and renamings take the first item with a key, so they
are right only if no other item has it. Loading keeps out a second declaration of a key, and a renaming
onto a key in use is refused. -/

namespace FragmentMerge.Catalog

structure WellKeyed (c : Catalog) : Prop where
  distinct : c.keys.Nodup
  named : ∀ e ∈ c.enums, e.name = e.key.name
  filed : ∀ k ∈ c.keys, k.file ∈ c.files

theorem wellKeyed_empty (base : String) : (empty base).WellKeyed :=
  ⟨by simp [keys, empty], by simp [empty], by simp [keys, empty]⟩

theorem WellKeyed.of_items {c c' : Catalog} (h : c.WellKeyed) (hi : c'.items = c.items)
    (he : c'.enums = c.enums) (hf : c'.files = c.files) : c'.WellKeyed := by
  have hk : c'.keys = c.keys := by rw [keys_eq_map_items, hi, ← keys_eq_map_items]
  exact ⟨hk ▸ h.distinct, he ▸ h.named, fun k hm => hf ▸ h.filed k (hk ▸ hm)⟩

theorem keys_remove? {c c' : Catalog} {k : ItemKey} {kind : ItemKind}
    (hr : c.remove? k kind = some c') : c'.keys.Sublist c.keys := by
  obtain ⟨pre, post, hi, hi'⟩ := items_remove? hr
  rw [keys_eq_map_items, keys_eq_map_items, hi, hi']
  exact ((List.Sublist.refl pre).append (List.sublist_cons_self _ post)).map _

theorem WellKeyed.remove {c c' : Catalog} {k : ItemKey} {kind : ItemKind} (h : c.WellKeyed)
    (hr : c.remove? k kind = some c') : c'.WellKeyed := by
  obtain ⟨-, -, -, hf, he⟩ := remove?_frame hr
  have hsub := keys_remove? hr
  exact ⟨h.distinct.sublist hsub, fun e hm => h.named e (he e hm),
    fun k hm => hf ▸ h.filed k (hsub.subset hm)⟩

theorem nodup_replace {α : Type} {pre post : List α} {a b : α} (h : (pre ++ a :: post).Nodup)
    (hb : b = a ∨ b ∉ pre ++ a :: post) : (pre ++ b :: post).Nodup := by
  rcases hb with rfl | hb
  · exact h
  · have hperm : ∀ x : α, (pre ++ x :: post).Perm (x :: (pre ++ post)) := fun x => List.perm_middle
    rw [(hperm b).nodup_iff]
    rw [(hperm a).nodup_iff] at h
    refine List.nodup_cons.2 ⟨fun hm => hb ?_, (List.nodup_cons.1 h).2⟩
    exact (hperm a).mem_iff.2 (List.mem_cons_of_mem _ hm)

theorem keys_rename? {c c' : Catalog} {k : ItemKey} {kind : ItemKind} {name : String}
    (hr : c.rename? k kind name = some c') :
    ∃ pre post, c.keys = pre ++ k :: post ∧ c'.keys = pre ++ k.renamed name :: post := by
  obtain ⟨pre, post, hi, hi'⟩ := items_rename? hr
  exact ⟨pre.map Prod.snd, post.map Prod.snd, by simp [keys_eq_map_items, hi],
    by simp [keys_eq_map_items, hi']⟩

theorem free_of_rename? {c c' : Catalog} {k : ItemKey} {kind : ItemKind} {name : String}
    (hr : c.rename? k kind name = some c') : k.renamed name = k ∨ k.renamed name ∉ c.keys := by
  rcases isTaken_eq_false.1 (rename?_not_taken hr) with rfl | hn
  · exact .inl rfl
  · exact .inr hn

theorem nodup_rename? {c c' : Catalog} {k : ItemKey} {kind : ItemKind} {name : String}
    (h : c.keys.Nodup) (hr : c.rename? k kind name = some c') : c'.keys.Nodup := by
  obtain ⟨pre, post, hk, hk'⟩ := keys_rename? hr
  rw [hk']
  exact nodup_replace (hk ▸ h) (hk ▸ free_of_rename? hr)

theorem WellKeyed.rename {c c' : Catalog} {k : ItemKey} {kind : ItemKind} {name : String}
    (h : c.WellKeyed) (hr : c.rename? k kind name = some c') : c'.WellKeyed := by
  obtain ⟨pre, post, hk, hk'⟩ := keys_rename? hr
  obtain ⟨-, -, -, hf, he⟩ := rename?_frame hr
  refine ⟨nodup_rename? h.distinct hr, fun e hm => ?_, fun x hx => ?_⟩
  · rcases he e hm with hm | ⟨hn, -⟩
    · exact h.named e hm
    · exact hn
  · rw [hf]
    rw [hk', List.mem_append, List.mem_cons] at hx
    rcases hx with hx | rfl | hx
    · exact h.filed x (by rw [hk]; exact List.mem_append_left _ hx)
    · exact h.filed k (by simp [hk])
    · exact h.filed x (by rw [hk]; exact List.mem_append_right _ (List.mem_cons_of_mem _ hx))

theorem WellKeyed.retype {c : Catalog} (h : c.WellKeyed) (k : ItemKey) (name : String) (all : Bool) :
    (c.retypeReferences k name all).WellKeyed :=
  h.of_items (items_retypeReferences c k name all) rfl rfl

theorem WellKeyed.addFile {c : Catalog} (h : c.WellKeyed) (file : String) :
    (c.addFile file).WellKeyed := by
  unfold Catalog.addFile
  split
  · exact h
  · exact ⟨h.distinct, h.named, fun k hk => List.mem_append_left _ (h.filed k hk)⟩

theorem WellKeyed.addModel {c : Catalog} (h : c.WellKeyed) {k : ItemKey} (hk : k ∉ c.keys)
    (hf : k.file ∈ c.files) (b : Block) : (c.addModel k b).WellKeyed := by
  refine ⟨(keys_addModel c k b).nodup_iff.2 (List.nodup_cons.2 ⟨hk, h.distinct⟩), h.named, fun x hx => ?_⟩
  rcases mem_keys_addModel.1 hx with rfl | hx
  · exact hf
  · exact h.filed x hx

theorem WellKeyed.addEnum {c : Catalog} (h : c.WellKeyed) {k : ItemKey} (hk : k ∉ c.keys)
    (hf : k.file ∈ c.files) {b : Block} (hn : b.name = k.name) : (c.addEnum k b).WellKeyed := by
  refine ⟨(keys_addEnum c k b).nodup_iff.2 (List.nodup_cons.2 ⟨hk, h.distinct⟩), fun e he => ?_,
    fun x hx => ?_⟩
  · rcases List.mem_append.1 he with he | he
    · exact h.named e he
    · rw [List.mem_singleton.1 he]
      exact hn
  · rcases mem_keys_addEnum.1 hx with rfl | hx
    · exact hf
    · exact h.filed x hx

theorem WellKeyed.addBlock {c : Catalog} (h : c.WellKeyed) (excluded : ItemKey → Bool) {file : String}
    (hf : file ∈ c.files) (isBase : Bool) (b : Block) :
    (c.addBlock excluded file isBase b).WellKeyed := by
  rcases addBlock_cases excluded file isBase c b with he | ⟨-, he⟩ | ⟨-, he⟩ | ⟨hn, he⟩ | ⟨hn, he⟩
  · rw [he]
    exact h
  · rw [he]
    exact ⟨h.distinct, h.named, h.filed⟩
  · rw [he]
    exact ⟨h.distinct, h.named, h.filed⟩
  · rw [he]
    exact h.addModel hn hf b
  · rw [he]
    exact h.addEnum hn hf rfl

theorem wellKeyed_ofSources {excluded : ItemKey → Bool} {ss : List Source} {c : Catalog}
    (h : ofSources excluded ss = .ok c) : c.WellKeyed := by
  refine (ofSources_induction (fun c file hc => hc.addFile file) ?_ wellKeyed_empty h).1
  intro c file isBase b hc hf _
  exact hc.addBlock excluded hf isBase b

theorem key_addSearch (t : FullText) (fields : List IndexField) (m : Model) :
    (m.addSearch t fields).key = m.key := by
  unfold Model.addSearch
  split <;> rfl

theorem changeModel?_frame {c c' : Catalog} {k : ItemKey} {f : Model → Model}
    (h : c.changeModel? k f = some c') : c'.enums = c.enums ∧ c'.files = c.files := by
  simp only [changeModel?, Option.map_eq_some_iff] at h
  obtain ⟨l, -, rfl⟩ := h
  exact ⟨rfl, rfl⟩

theorem WellKeyed.addIndex {c c' : Catalog} (h : c.WellKeyed) {t : FullText} {excluded : ItemKey → Bool}
    {i : String × List IndexField} (hi : c.addIndex t excluded i = .ok c') : c'.WellKeyed := by
  unfold Catalog.addIndex at hi
  split at hi
  · cases hi
  · split at hi
    · exact Except.ok.inj hi ▸ h
    · split at hi
      · cases hi
      · next d hd =>
        obtain rfl := Except.ok.inj hi
        exact h.of_items (items_changeModel? (key_addSearch t i.2) hd) (changeModel?_frame hd).1
          (changeModel?_frame hd).2

theorem WellKeyed.addFullText {c : Catalog} (h : c.WellKeyed) (t : FullText)
    (excluded : ItemKey → Bool) : (c.addFullText t excluded).2.WellKeyed := by
  unfold Catalog.addFullText
  generalize t.indexes.entries = is
  induction is generalizing c with
  | nil => exact h
  | cons i is ih =>
    unfold addIndexes
    split
    · exact h
    · next d hd => exact ih (h.addIndex hd)

/-- The catalogs that loading gives, and what the changes of single items and the search columns make
of them; a refused index leaves those before it in place. -/
inductive Kept : Catalog → Prop
  | loaded {excluded : ItemKey → Bool} {ss : List Source} {c : Catalog} :
      ofSources excluded ss = .ok c → Kept c
  | rename {c c' : Catalog} {k : ItemKey} {kind : ItemKind} {name : String} :
      Kept c → c.rename? k kind name = some c' → Kept c'
  | remove {c c' : Catalog} {k : ItemKey} {kind : ItemKind} :
      Kept c → c.remove? k kind = some c' → Kept c'
  | fullText {c : Catalog} (t : FullText) (excluded : ItemKey → Bool) :
      Kept c → Kept (c.addFullText t excluded).2

theorem Kept.wellKeyed {c : Catalog} (h : Kept c) : c.WellKeyed := by
  induction h with
  | loaded hs => exact wellKeyed_ofSources hs
  | rename _ hr ih => exact ih.rename hr
  | remove _ hr ih => exact ih.remove hr
  | fullText t excluded _ ih => exact ih.addFullText t excluded

end FragmentMerge.Catalog
