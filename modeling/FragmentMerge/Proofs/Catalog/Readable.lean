import FragmentMerge.Proofs.Replay.Cases
import FragmentMerge.Proofs.Schema.Extract

/-! What a catalog holds can be written and read again: names that a header takes, values that are
trimmed, and heads that are the texts of blocks. Loading gives such a catalog, and a replay keeps it one
as long as the new names are identifiers. -/

namespace FragmentMerge

def IsIdentifier (s : String) : Prop :=
  ∃ c cs, s.toList = c :: cs ∧ (c.isAlpha = true ∨ c = '_') ∧
    ∀ d ∈ cs, d.isAlphanum = true ∨ d = '_'

theorem IsIdentifier.isName {s : String} (h : IsIdentifier s) : Block.IsName s.toList := by
  obtain ⟨c, cs, hs, hc, hcs⟩ := h
  have hstart : Block.isNameStart c = true := by
    rcases hc with hc | rfl
    · simp [Block.isNameStart, Block.isKeywordChar, hc]
    · decide
  rw [hs]
  refine ⟨⟨c, cs, rfl, hstart⟩, fun d hd => ?_⟩
  rcases List.mem_cons.1 hd with rfl | hd
  · exact Block.name_of_start hstart
  · rcases hcs d hd with hd | rfl
    · rw [Char.isAlphanum, Bool.or_eq_true] at hd
      rcases hd with hd | hd
      · simp [Block.isNameChar, Block.isNameStart, Block.isKeywordChar, hd]
      · simp [Block.isNameChar, hd]
    · decide

theorem IsIdentifier.last {s : String} (h : IsIdentifier s) {c : Char} (hc : c ∈ s.toList.getLast?) :
    c.isAlphanum = true ∨ c = '_' := by
  obtain ⟨d, ds, hs, hd, hds⟩ := h
  have hmem : c ∈ s.toList := List.mem_of_getLast? hc
  rw [hs] at hmem
  rcases List.mem_cons.1 hmem with rfl | hmem
  · exact hd.imp (fun h => by simp [Char.isAlphanum, h]) id
  · exact hds c hmem

theorem IsIdentifier.ne_empty {s : String} (h : IsIdentifier s) : s ≠ "" := by
  obtain ⟨d, ds, hs, -⟩ := h
  rintro rfl
  simp at hs

namespace Catalog

/-- The text of a block with this keyword. -/
def Head (keyword text : String) : Prop := ∃ b : Block, b.Found ∧ b.keyword = keyword ∧ b.text = text

structure Readable (c : Catalog) : Prop where
  names : ∀ k ∈ c.keys, Block.IsName k.name.toList
  values : ∀ e ∈ c.enums, ∀ v ∈ e.values, Text.trim v.toList = v.toList
  generator : c.generator.isEmpty = true ∨ Head "generator" c.generator
  datasource : c.datasource.isEmpty = true ∨ Head "datasource" c.datasource

theorem readable_empty (base : String) : (empty base).Readable :=
  ⟨by simp [keys, empty], by simp [empty], .inl (by simp [empty]), .inl (by simp [empty])⟩

theorem Readable.addBlock {c : Catalog} (h : c.Readable) (excluded : ItemKey → Bool) (file : String)
    (isBase : Bool) {b : Block} (hb : b.Found) : (c.addBlock excluded file isBase b).Readable := by
  rcases addBlock_cases excluded file isBase c b with he | ⟨hk, he⟩ | ⟨hk, he⟩ | ⟨-, he⟩ | ⟨-, he⟩
  · rw [he]
    exact h
  · rw [he]
    exact ⟨h.names, h.values, .inr ⟨b, hb, hk, rfl⟩, h.datasource⟩
  · rw [he]
    exact ⟨h.names, h.values, h.generator, .inr ⟨b, hb, hk, rfl⟩⟩
  · rw [he]
    refine ⟨fun k hk => ?_, h.values, h.generator, h.datasource⟩
    rcases mem_keys_addModel.1 hk with rfl | hk
    · exact hb.isName
    · exact h.names k hk
  · rw [he]
    refine ⟨fun k hk => ?_, fun e he => ?_, h.generator, h.datasource⟩
    · rcases mem_keys_addEnum.1 hk with rfl | hk
      · exact hb.isName
      · exact h.names k hk
    · rcases List.mem_append.1 he with he | he
      · exact h.values e he
      · rw [List.mem_singleton.1 he]
        exact fun v hv => Block.trim_of_mem_bodyLines hv

theorem Readable.addFile {c : Catalog} (h : c.Readable) (file : String) : (c.addFile file).Readable := by
  unfold Catalog.addFile
  split
  · exact h
  · exact ⟨h.names, h.values, h.generator, h.datasource⟩

theorem readable_ofSources {excluded : ItemKey → Bool} {ss : List Source} {c : Catalog}
    (h : ofSources excluded ss = .ok c) :
    c.Readable ∧ Head "generator" c.generator ∧ Head "datasource" c.datasource := by
  obtain ⟨hc, hg, hd⟩ : c.Readable ∧ c.generator.isEmpty = false ∧ c.datasource.isEmpty = false := by
    refine ofSources_induction (fun c file hc => hc.addFile file) ?_ readable_empty h
    intro c file isBase b hc _ hb
    exact hc.addBlock excluded file isBase hb
  exact ⟨hc, hc.generator.resolve_left (by simp [hg]), hc.datasource.resolve_left (by simp [hd])⟩

theorem Readable.of_items {c c' : Catalog} (h : c.Readable) (hi : c'.items = c.items)
    (he : c'.enums = c.enums) (hg : c'.generator = c.generator) (hd : c'.datasource = c.datasource) :
    c'.Readable := by
  refine ⟨fun k hk => h.names k ?_, he ▸ h.values, hg ▸ h.generator, hd ▸ h.datasource⟩
  rw [keys_eq_map_items, hi, ← keys_eq_map_items] at hk
  exact hk

theorem Readable.remove {c c' : Catalog} {k : ItemKey} {kind : ItemKind} (h : c.Readable)
    (hr : c.remove? k kind = some c') : c'.Readable := by
  obtain ⟨pre, post, hi, hi'⟩ := items_remove? hr
  obtain ⟨-, hg, hd, -, he⟩ := remove?_frame hr
  refine ⟨fun x hx => h.names x ?_, fun e hm => h.values e (he e hm), hg ▸ h.generator, hd ▸ h.datasource⟩
  rw [keys_eq_map_items, hi'] at hx
  rw [keys_eq_map_items, hi]
  rw [List.map_append, List.mem_append] at hx ⊢
  exact hx.imp_right (List.mem_cons_of_mem _)

theorem Readable.rename {c c' : Catalog} {k : ItemKey} {kind : ItemKind} {name : String}
    (h : c.Readable) (hn : Block.IsName name.toList) (hr : c.rename? k kind name = some c') :
    c'.Readable := by
  obtain ⟨pre, post, hi, hi'⟩ := items_rename? hr
  obtain ⟨-, hg, hd, -, he⟩ := rename?_frame hr
  refine ⟨fun x hx => ?_, fun e hm => ?_, hg ▸ h.generator, hd ▸ h.datasource⟩
  · rw [keys_eq_map_items, hi', List.map_append, List.map_cons, List.mem_append, List.mem_cons] at hx
    have hold : ∀ y ∈ c.keys, Block.IsName y.name.toList := h.names
    rw [keys_eq_map_items, hi] at hold
    rcases hx with hx | rfl | hx
    · exact hold x (by simp only [List.map_append, List.mem_append]; exact .inl hx)
    · exact hn
    · exact hold x (by simp only [List.map_append, List.map_cons, List.mem_append, List.mem_cons]
                       exact .inr (.inr hx))
  · rcases he e hm with hm | ⟨-, d, hd, hv⟩
    · exact h.values e hm
    · exact hv ▸ h.values d hd

end Catalog

namespace Replay

/-- A replay keeps a catalog readable, with the heads and the files that it has. -/
theorem readable_run {c : Catalog} {queue : List (ItemKey × Action)} (h : c.Readable)
    (hq : ∀ e ∈ queue, ∀ name, e.2.newName? = some name → IsIdentifier name) (links : Links)
    (as : List (String × String)) :
    (run c links queue as).catalog.Readable ∧
      (run c links queue as).catalog.generator = c.generator ∧
      (run c links queue as).catalog.datasource = c.datasource ∧
      (run c links queue as).catalog.files = c.files := by
  refine catalog_run (P := fun d => d.Readable ∧ d.generator = c.generator ∧
    d.datasource = c.datasource ∧ d.files = c.files) ⟨h, rfl, rfl, rfl⟩ ?_ ?_ ?_ ?_ links as
  · rintro d k kind d' ⟨hd, hg, hs, hf⟩ hr
    obtain ⟨-, hg', hs', hf', -⟩ := Catalog.remove?_frame hr
    exact ⟨hd.remove hr, hg'.trans hg, hs'.trans hs, hf'.trans hf⟩
  · rintro e he d k kind name d' hn ⟨hd, hg, hs, hf⟩ hr
    obtain ⟨-, hg', hs', hf', -⟩ := Catalog.rename?_frame hr
    exact ⟨hd.rename (hq e he name hn).isName hr, hg'.trans hg, hs'.trans hs, hf'.trans hf⟩
  · rintro d k name all ⟨hd, hg, hs, hf⟩
    exact ⟨hd.of_items (Catalog.items_retypeReferences d k name all) rfl rfl rfl, hg, hs, hf⟩
  · rintro d a ⟨hd, hg, hs, hf⟩
    exact ⟨hd.of_items (Catalog.items_addLine d a) rfl rfl rfl, hg, hs, hf⟩

end Replay

end FragmentMerge
