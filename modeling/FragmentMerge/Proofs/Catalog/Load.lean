import FragmentMerge.Catalog.Load
import FragmentMerge.Proofs.Catalog.Items
import FragmentMerge.Proofs.Schema.Extract

/-! Loading, step by step. What holds of empty catalogs and stays when files and blocks are added holds of
every loaded catalog, so an invariant of loading is proved for one block. -/

namespace FragmentMerge.Catalog

theorem mem_files_addFile (c : Catalog) (file : String) : file ∈ (c.addFile file).files := by
  unfold addFile
  split
  · next h => simpa using h
  · simp

theorem addBlock_cases (excluded : ItemKey → Bool) (file : String) (isBase : Bool) (c : Catalog)
    (b : Block) :
    c.addBlock excluded file isBase b = c ∨
    (b.keyword = "generator" ∧ c.addBlock excluded file isBase b = { c with generator := b.text }) ∨
    (b.keyword = "datasource" ∧ c.addBlock excluded file isBase b = { c with datasource := b.text }) ∨
    (⟨file, b.name⟩ ∉ c.keys ∧ c.addBlock excluded file isBase b = c.addModel ⟨file, b.name⟩ b) ∨
    (⟨file, b.name⟩ ∉ c.keys ∧ c.addBlock excluded file isBase b = c.addEnum ⟨file, b.name⟩ b) := by
  have hfree : ∀ k, ¬(excluded k || c.contains k) = true → k ∉ c.keys := by
    intro k hn hm
    simp [contains_iff.2 hm] at hn
  simp only [addBlock]
  split
  · next hk =>
    split
    · exact .inr (.inl ⟨hk, rfl⟩)
    · exact .inl rfl
  · split
    · next hk =>
      split
      · exact .inr (.inr (.inl ⟨hk, rfl⟩))
      · exact .inl rfl
    · split
      · split
        · exact .inl rfl
        · next hn => exact .inr (.inr (.inr (.inl ⟨hfree _ hn, rfl⟩)))
      · split
        · split
          · exact .inl rfl
          · next hn => exact .inr (.inr (.inr (.inr ⟨hfree _ hn, rfl⟩)))
        · exact .inl rfl

theorem files_addBlock (excluded : ItemKey → Bool) (file : String) (isBase : Bool) (c : Catalog)
    (b : Block) : (c.addBlock excluded file isBase b).files = c.files := by
  rcases addBlock_cases excluded file isBase c b with h | ⟨-, h⟩ | ⟨-, h⟩ | ⟨-, h⟩ | ⟨-, h⟩ <;>
    rw [h] <;> rfl

theorem keys_addModel (c : Catalog) (k : ItemKey) (b : Block) :
    (c.addModel k b).keys.Perm (k :: c.keys) := by
  simp only [keys, addModel, List.map_append, List.map_cons, List.map_nil, List.append_assoc,
    List.singleton_append]
  exact List.perm_middle

theorem keys_addEnum (c : Catalog) (k : ItemKey) (b : Block) :
    (c.addEnum k b).keys.Perm (k :: c.keys) := by
  simp only [keys, addEnum, List.map_append, List.map_cons, List.map_nil, ← List.append_assoc]
  exact List.perm_append_singleton _ _

theorem mem_keys_addModel {c : Catalog} {k x : ItemKey} {b : Block} :
    x ∈ (c.addModel k b).keys ↔ x = k ∨ x ∈ c.keys := by
  rw [(keys_addModel c k b).mem_iff, List.mem_cons]

theorem mem_keys_addEnum {c : Catalog} {k x : ItemKey} {b : Block} :
    x ∈ (c.addEnum k b).keys ↔ x = k ∨ x ∈ c.keys := by
  rw [(keys_addEnum c k b).mem_iff, List.mem_cons]

theorem checkHeads_eq_ok {c c' : Catalog} (h : c.checkHeads = .ok c') :
    c' = c ∧ c.generator.isEmpty = false ∧ c.datasource.isEmpty = false := by
  unfold checkHeads at h
  split at h
  · cases h
  · next hg =>
    split at h
    · cases h
    · next hd => exact ⟨(Except.ok.inj h).symm, Bool.eq_false_iff.2 hg, Bool.eq_false_iff.2 hd⟩

section

variable {P : Catalog → Prop} {excluded : ItemKey → Bool}
  (hfile : ∀ c file, P c → P (c.addFile file))
  (hblock : ∀ c file isBase b, P c → file ∈ c.files → Block.Found b →
    P (c.addBlock excluded file isBase b))

include hblock in
theorem addBlocks_induction {file : String} {isBase : Bool} {bs : List Block}
    (hbs : ∀ b ∈ bs, b.Found) {c : Catalog} (hc : P c) (hf : file ∈ c.files) :
    P (bs.foldl (addBlock excluded file isBase) c) := by
  induction bs generalizing c with
  | nil => exact hc
  | cons b bs ih =>
    refine ih (fun x hx => hbs x (List.mem_cons_of_mem _ hx)) ?_ ?_
    · exact hblock c file isBase b hc hf (hbs b List.mem_cons_self)
    · rw [files_addBlock]
      exact hf

include hfile hblock in
theorem addSource_induction {isBase : Bool} {s : Source} {c c' : Catalog} (hc : P c)
    (h : c.addSource excluded isBase s = .ok c') : P c' := by
  unfold addSource at h
  cases ht : s.text with
  | error e => simp [ht, Except.bind] at h
  | ok text =>
    simp only [ht, Except.bind, addFragment] at h
    split at h
    · cases h
    · next bs hbs =>
      obtain rfl := Except.ok.inj h
      exact addBlocks_induction hblock (Block.found_of_extract hbs) (hfile c s.id hc)
        (mem_files_addFile c s.id)

include hfile hblock in
theorem addSources_induction {ss : List Source} {c c' : Catalog} (hc : P c)
    (h : ss.foldlM (addSource excluded false) c = .ok c') : P c' := by
  induction ss generalizing c with
  | nil => exact Except.ok.inj h ▸ hc
  | cons s ss ih =>
    rw [List.foldlM_cons] at h
    cases hd : c.addSource excluded false s with
    | error e => simp [hd, bind, Except.bind] at h
    | ok d =>
      simp only [hd, bind, Except.bind] at h
      exact ih (addSource_induction hfile hblock hc hd) h

include hfile hblock in
/-- Loaded catalogs keep what loading keeps, and they have both heads. -/
theorem ofSources_induction {ss : List Source} {c : Catalog} (hempty : ∀ base, P (empty base))
    (h : ofSources excluded ss = .ok c) :
    P c ∧ c.generator.isEmpty = false ∧ c.datasource.isEmpty = false := by
  cases ss with
  | nil => cases h
  | cons base rest =>
    simp only [ofSources, bind, Except.bind] at h
    split at h
    · cases h
    · next d hd =>
      split at h
      · cases h
      · next e he =>
        obtain ⟨rfl, hheads⟩ := checkHeads_eq_ok h
        have hbase := addSource_induction hfile hblock (hempty base.id) hd
        exact ⟨addSources_induction hfile hblock hbase he, hheads⟩

end

end FragmentMerge.Catalog
