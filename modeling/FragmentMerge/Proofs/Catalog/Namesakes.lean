import FragmentMerge.Proofs.Catalog.Keys

/-! Catalogs of namesakes: fragments that all declare one model or enum of the same name, which is the
only item of its fragment. -/

namespace FragmentMerge.Catalog

def namesakeText (kind : ItemKind) : String := kind.text ++ " A \x7b\n\x7d\n"

/-- The base with its heads, and one more fragment for each file. -/
def namesakes (kind : ItemKind) (base : String) (files : List String) : List Fragment :=
  ⟨base, "generator g \x7b\n\x7d\ndatasource d \x7b\n\x7d\n" ++ namesakeText kind⟩ ::
    files.map fun f => ⟨f, namesakeText kind⟩

def namesake (kind : ItemKind) (file : String) : ItemKind × ItemKey := (kind, ⟨file, "A"⟩)

theorem extract_namesakeText (kind : ItemKind) :
    Block.extract (namesakeText kind) =
      .ok [⟨kind.text, "A", "\n", kind.text ++ " A \x7b\n\x7d", 1⟩] := by
  cases kind <;> rfl

theorem extract_baseText (kind : ItemKind) :
    Block.extract ("generator g \x7b\n\x7d\ndatasource d \x7b\n\x7d\n" ++ namesakeText kind) =
      .ok [⟨"generator", "g", "\n", "generator g \x7b\n\x7d", 1⟩,
        ⟨"datasource", "d", "\n", "datasource d \x7b\n\x7d", 3⟩,
        ⟨kind.text, "A", "\n", kind.text ++ " A \x7b\n\x7d", 5⟩] := by
  cases kind <;> rfl

theorem items_addBlock_namesake {c : Catalog} (kind : ItemKind) (file : String) (isBase : Bool)
    (hkind : ∀ i ∈ c.items, i.1 = kind) (hfile : ∀ k ∈ c.keys, k.file ≠ file) {b : Block}
    (hb : b.keyword = kind.text) (hn : b.name = "A") :
    (c.addBlock (fun _ => false) file isBase b).items = c.items ++ [namesake kind file] ∧
      (c.addBlock (fun _ => false) file isBase b).generator = c.generator ∧
      (c.addBlock (fun _ => false) file isBase b).datasource = c.datasource := by
  have hfree : c.contains ⟨file, "A"⟩ = false := by
    rw [← Bool.not_eq_true, contains_iff]
    exact fun hk => hfile _ hk rfl
  cases kind with
  | model =>
    have henums : c.enums = [] := by
      refine List.eq_nil_iff_forall_not_mem.2 fun e he => ?_
      cases hkind (.enum, e.key) (mem_items_enum.2 ⟨e, he, rfl⟩)
    simp [addBlock, hb, hn, ItemKind.text, hfree, addModel, items, henums, namesake]
  | enum => simp [addBlock, hb, hn, ItemKind.text, hfree, addEnum, items, namesake]

theorem addSource_base (kind : ItemKind) (base : String) :
    ∃ c, (empty base).addSource (fun _ => false) true
        ⟨base, .ok ("generator g \x7b\n\x7d\ndatasource d \x7b\n\x7d\n" ++ namesakeText kind)⟩ = .ok c ∧
      c.items = [namesake kind base] ∧ c.generator.isEmpty = false ∧ c.datasource.isEmpty = false := by
  obtain ⟨hi, hg, hd⟩ := items_addBlock_namesake kind base (c := ⟨base, "generator g \x7b\n\x7d",
    "datasource d \x7b\n\x7d", [base], [], []⟩) true (by simp [items]) (by simp [keys])
    (b := ⟨kind.text, "A", "\n", kind.text ++ " A \x7b\n\x7d", 5⟩) rfl rfl
  refine ⟨_, ?_, hi, by rw [hg]; simp, by rw [hd]; simp⟩
  simp only [addSource, Except.bind, addFragment, extract_baseText]
  rfl

theorem addSource_namesake {c : Catalog} {kind : ItemKind} {file : String}
    (hkind : ∀ i ∈ c.items, i.1 = kind) (hfile : ∀ k ∈ c.keys, k.file ≠ file) :
    ∃ c', c.addSource (fun _ => false) false ⟨file, .ok (namesakeText kind)⟩ = .ok c' ∧
      c'.items = c.items ++ [namesake kind file] ∧ c'.generator = c.generator ∧
      c'.datasource = c.datasource := by
  obtain ⟨files, hf⟩ : ∃ files, c.addFile file = { c with files } := by
    unfold addFile
    split
    · exact ⟨c.files, rfl⟩
    · exact ⟨_, rfl⟩
  refine ⟨_, ?_, items_addBlock_namesake kind file (c := { c with files }) false hkind hfile
    (b := ⟨kind.text, "A", "\n", kind.text ++ " A \x7b\n\x7d", 1⟩) rfl rfl⟩
  simp only [addSource, Except.bind, addFragment, extract_namesakeText, hf]
  rfl

theorem addSources_namesakes (kind : ItemKind) (files : List String) {c : Catalog}
    (hkind : ∀ i ∈ c.items, i.1 = kind) (hfiles : ((c.items.map (·.2.file)) ++ files).Nodup) :
    ∃ c', (files.map fun f => (⟨f, .ok (namesakeText kind)⟩ : Source)).foldlM
        (addSource (fun _ => false) false) c = .ok c' ∧
      c'.items = c.items ++ files.map (namesake kind) ∧ c'.generator = c.generator ∧
      c'.datasource = c.datasource := by
  induction files generalizing c with
  | nil => exact ⟨c, rfl, by simp, rfl, rfl⟩
  | cons file files ih =>
    have hfile : ∀ k ∈ c.keys, k.file ≠ file := by
      rw [keys_eq_map_items]
      intro k hk hkf
      obtain ⟨i, hi, rfl⟩ := List.mem_map.1 hk
      exact (List.nodup_append.1 hfiles).2.2 _ (List.mem_map.2 ⟨i, hi, rfl⟩) _ List.mem_cons_self hkf
    obtain ⟨d, hd, hitems, hg, hs⟩ := addSource_namesake hkind hfile
    have hkind' : ∀ i ∈ d.items, i.1 = kind := by
      rw [hitems]
      intro i hi
      rcases List.mem_append.1 hi with hi | hi
      · exact hkind i hi
      · rw [List.mem_singleton.1 hi]
        rfl
    obtain ⟨c', hc', hitems', hg', hs'⟩ := ih hkind' (by
      rw [hitems, List.map_append, List.append_assoc]
      exact hfiles)
    refine ⟨c', ?_, by rw [hitems', hitems]; simp, hg'.trans hg, hs'.trans hs⟩
    rw [List.map_cons, List.foldlM_cons, hd]
    exact hc'

theorem load_namesakes (kind : ItemKind) {base : String} {files : List String}
    (h : (base :: files).Nodup) :
    ∃ c, ofFragments (fun _ => false) (namesakes kind base files) = .ok c ∧
      c.items = (base :: files).map (namesake kind) := by
  obtain ⟨d, hd, hitems, hg, hs⟩ := addSource_base kind base
  obtain ⟨c, hc, hitems', hg', hs'⟩ := addSources_namesakes kind files (c := d)
    (by rw [hitems]; simp [namesake]) (by rw [hitems]; exact h)
  refine ⟨c, ?_, by rw [hitems', hitems]; rfl⟩
  have hload : ofFragments (fun _ => false) (namesakes kind base files) = c.checkHeads := by
    simp only [ofFragments, namesakes, List.map_cons, ofSources, List.map_map, bind, Except.bind,
      Fragment.source, Function.comp_def, hd, hc]
  rw [hload, checkHeads, hg', hg, hs', hs]
  rfl

end FragmentMerge.Catalog
