import FragmentMerge.Proofs.Command.Ending
import FragmentMerge.Proofs.Features.Calls

/-! The index of the full-text feature against the names in the merged document. The feature knows the
models by the names in their configured keys. -/

namespace FragmentMerge.Plan

variable {c : Config} {w w' : Work} {d : Disk} {p : Plan} {keys : List ItemKey}

/-- A model with a configured index that counts. -/
def Indexed (c : Config) (k : ItemKey) : Prop :=
  ∃ key ∈ c.fullText.indexes.keys, ItemKey.parse key = .ok k ∧ c.isExcluded k = false

def searchEntry (c : Config) (schema name : String) : Tree :=
  .table [("language", .text c.fullText.language), ("schema", .text schema), ("table", .text name)]

def searchCode (c : Config) (index : Table Tree) : String :=
  fill "__INDEXES__" (.table index.entries)
    (if c.output.extensionMode then Code.fullTextExtension else Code.fullTextMiddleware)

theorem mem_of_mapM {α β ε : Type} {f : α → Except ε β} {xs : List α} {ys : List β}
    (h : xs.mapM f = .ok ys) {y : β} : y ∈ ys ↔ ∃ x ∈ xs, f x = .ok y := by
  induction xs generalizing ys with
  | nil =>
    cases h
    simp
  | cons x xs ih =>
    rw [List.mapM_cons] at h
    obtain ⟨z, hz, h⟩ := exists_of_bind h
    obtain ⟨zs, hzs, h⟩ := exists_of_bind h
    cases h
    rw [List.mem_cons, ih hzs, List.exists_mem_cons_iff, hz, Except.ok.injEq, eq_comm]

theorem mem_indexedKeys (h : c.indexedKeys = .ok keys) {k : ItemKey} :
    k ∈ keys.filter (!c.isExcluded ·) ↔ Indexed c k := by
  rw [List.mem_filter, mem_of_mapM h, Indexed, Table.keys]
  constructor
  · rintro ⟨⟨x, hx, hk⟩, hexcluded⟩
    exact ⟨x.1, List.mem_map_of_mem hx, eq_ok_of_mapError hk, by simpa using hexcluded⟩
  · rintro ⟨key, hkey, hk, hexcluded⟩
    obtain ⟨x, hx, rfl⟩ := List.mem_map.1 hkey
    exact ⟨⟨x, hx, congrArg liftKey hk⟩, by simpa using hexcluded⟩

/-- The index has an entry for each name in an indexed key, and no other one. -/
theorem find?_searchIndex (h : c.indexedKeys = .ok keys) (schema name : String) :
    ((searchIndex c schema keys).find? name = some (searchEntry c schema name) ∧
      ∃ k, Indexed c k ∧ k.name = name) ∨
    ((searchIndex c schema keys).find? name = none ∧ ¬∃ k, Indexed c k ∧ k.name = name) := by
  have hmem : name ∈ (keys.filter (!c.isExcluded ·)).map ItemKey.name ↔ ∃ k, Indexed c k ∧ k.name = name := by
    rw [List.mem_map]
    exact exists_congr fun k => and_congr_left' (mem_indexedKeys h)
  have hfind := Table.find?_ofList_map ItemKey.name (searchEntry c schema) (keys.filter (!c.isExcluded ·)) name
  rw [searchIndex]
  by_cases hname : name ∈ (keys.filter (!c.isExcluded ·)).map ItemKey.name
  · exact .inl ⟨hfind.trans (if_pos hname), hmem.1 hname⟩
  · exact .inr ⟨hfind.trans (if_neg hname), mt hmem.2 hname⟩

/-- A plan registers the search feature, filled with the index of the configured keys. -/
theorem code?_of_build (h : build c d = .ok p) (hon : c.fullText.isEnabled = true) :
    ∃ schema keys, c.fullText.schema = some schema ∧ c.indexedKeys = .ok keys ∧
      p.registry.code? (package c) "fullTextSearch" = some (searchCode c (searchIndex c schema keys)) := by
  obtain ⟨edits, -, h⟩ := exists_of_bind h
  obtain ⟨r₁, -, h⟩ := exists_of_bind h
  obtain ⟨r, hsearch, h⟩ := exists_of_bind h
  rw [registerSearch, hon] at hsearch
  obtain ⟨schema, hschema, hsearch⟩ := exists_of_bind hsearch
  obtain ⟨keys, hkeys, hsearch⟩ := exists_of_bind hsearch
  have hregistered := eq_ok_of_mapError hsearch
  have hsome : c.fullText.schema = some schema := by
    have hok := eq_ok_of_mapError hschema
    rw [searchSchema] at hok
    split at hok
    · next hs => rw [hs, Except.ok.inj hok]
    · cases hok
  refine ⟨schema, keys, hsome, eq_ok_of_mapError hkeys, ?_⟩
  cases h
  rw [Registry.code?_register hregistered, if_pos ⟨rfl, rfl⟩]
  rfl

/-- The search feature knows an emitted model by its name in the document exactly if some configured key
has this name. Models of the document never share an entry. -/
theorem search_knows_emitted_iff [PatternEngine] (hrun : Merge.run c w = .ok true w') (hbuild : build c d = .ok p)
    (hon : c.fullText.isEnabled = true) :
    ∃ s schema keys, Merge.Merged c w.disk w'.disk s ∧ c.fullText.schema = some schema ∧
      c.indexedKeys = .ok keys ∧
      p.registry.code? (package c) "fullTextSearch" = some (searchCode c (searchIndex c schema keys)) ∧
      (∀ k k', Indexed c k → s.Emits k k' →
        (∃ m ∈ Document.visibleModels s.current, m.key = k') ∧
        ((searchIndex c schema keys).find? k'.name = some (searchEntry c schema k'.name) ↔
          ∃ k₁, Indexed c k₁ ∧ k₁.name = k'.name)) ∧
      (∀ k₁ k₁' k₂ k₂', s.Emits k₁ k₁' → s.Emits k₂ k₂' → k₁ ≠ k₂ → k₁'.name ≠ k₂'.name) := by
  obtain ⟨s, hs⟩ := Merge.merged_of_run hrun
  obtain ⟨hw, hr, hnone⟩ := hs.settled
  obtain ⟨schema, keys, hschema, hkeys, hcode⟩ := code?_of_build hbuild hon
  refine ⟨s, schema, keys, hs, hschema, hkeys, hcode, fun k k' _ hk => ⟨hk.mem_visible hr hw, ?_⟩,
    fun k₁ k₁' k₂ k₂' h₁ h₂ hne => h₁.name_ne h₂ hr hw hnone hne⟩
  obtain ⟨hfind, hindexed⟩ | ⟨hfind, hindexed⟩ := find?_searchIndex hkeys schema k'.name
  · exact iff_of_true hfind hindexed
  · refine iff_of_false (fun h => ?_) hindexed
    rw [hfind] at h
    cases h

/-- Two user models, one of which has a search index; one of them is renamed. -/
def searched (renamed : String) : Config :=
  { Config.initial with
    base := some "base"
    fragments := ["a", "b"]
    resolve := [⟨renamed, .rename, some "Member", .model⟩]
    fullText := ⟨some "public", "english", Table.ofList [("b:User", [⟨"bio", "A"⟩])]⟩
    output := { Outputs.initial with schema := "out", features := "features" } }

def searchedWork : Work :=
  ⟨⟨[], [(["base"], .file (.text "generator g {
}
datasource d {
}")),
    (["a"], .file (.text "model User {
  id Int
}")),
    (["b"], .file (.text "model User {
  bio String
}"))]⟩, Report.start "", []⟩

theorem indexed_searched (renamed : String) : Indexed (searched renamed) ⟨"b", "User"⟩ :=
  ⟨"b:User", List.mem_singleton_self _, rfl, rfl⟩

def searchedCatalog : Catalog :=
  { base := "base", generator := "generator g {
}", datasource := "datasource d {
}",
    files := ["base", "a", "b"]
    models := [⟨⟨"a", "User"⟩, [⟨"id", "Int", []⟩], 1⟩,
      ⟨⟨"b", "User"⟩, [⟨"bio", "String", []⟩,
        ⟨"textSearch", "Unsupported(\"tsvector\")?",
          ["@default(dbgenerated(\"setweight(to_tsvector('english', coalesce(bio, '')), 'A')\"))"]⟩,
        ⟨"@@index([textSearch], type: Gin)", "", []⟩], 1⟩]
    enums := [] }

theorem merged_searched {renamed : String} {k' : ItemKey} {start s : Session} {r : Resolution}
    {answers : List (ItemKey × Action)}
    (hload : (searched renamed).load searchedWork.disk [] = .ok searchedCatalog)
    (hstart : Session.ofConfig searchedCatalog (searched renamed) = .ok start)
    (hanswers : (searched renamed).answers = .ok answers)
    (hres : start.resolve? (ruleResolver answers) () = some ⟨.ok r, s, ()⟩)
    (hpristine : s.pristine = searchedCatalog)
    (hmoved : Replay.fate s.current.log ⟨"b", "User"⟩ = some k') (hvisible : k' ∉ s.hidden)
    (hwritten : Merge.writeDocument ((searched renamed).path (searched renamed).output.schema)
      (Document.ofReplay s.current (Merge.extraBlocks (searched renamed))) searchedWork.disk = (.ok (), d)) :
    Merge.Merged (searched renamed) searchedWork.disk d s ∧ s.Emits ⟨"b", "User"⟩ k' := by
  refine ⟨⟨?_, ⟨start, answers, r, ?_, hanswers, hres⟩, hwritten⟩, ?_, hmoved, hvisible⟩
  · rw [hpristine]
    exact hload
  · rw [hpristine]
    exact hstart
  · rw [hpristine]
    decide

theorem search_knows_emitted_namesake : ∃ w' p schema keys,
    Merge.run (searched "a:User") searchedWork = .ok true w' ∧
    build (searched "a:User") searchedWork.disk = .ok p ∧
    p.registry.code? "middleware" "fullTextSearch" =
      some (searchCode (searched "a:User") (searchIndex (searched "a:User") schema keys)) ∧
    (searchIndex (searched "a:User") schema keys).find? "User" =
      some (searchEntry (searched "a:User") schema "User") := by
  obtain ⟨w', hrun⟩ : ∃ w', Merge.run (searched "a:User") searchedWork = .ok true w' := ⟨_, rfl⟩
  obtain ⟨p, hbuild⟩ : ∃ p, build (searched "a:User") searchedWork.disk = .ok p := ⟨_, rfl⟩
  obtain ⟨s, d, hs, hemits⟩ : ∃ s d, Merge.Merged (searched "a:User") searchedWork.disk d s ∧
      s.Emits ⟨"b", "User"⟩ ⟨"b", "User"⟩ :=
    ⟨_, _, merged_searched rfl rfl rfl rfl rfl rfl (by decide) rfl⟩
  obtain ⟨s', schema, keys, hs', -, -, hcode, hiff, -⟩ := search_knows_emitted_iff hrun hbuild rfl
  obtain rfl := hs'.session_eq hs
  have hindexed := indexed_searched "a:User"
  exact ⟨w', p, schema, keys, hrun, hbuild, hcode, (hiff _ _ hindexed hemits).2.2 ⟨_, hindexed, rfl⟩⟩

/-- The feature has no entry for the model under the name that the merge has given it. -/
theorem search_misses_renamed : ∃ w' p s schema keys,
    Merge.run (searched "b:User") searchedWork = .ok true w' ∧
    build (searched "b:User") searchedWork.disk = .ok p ∧
    Merge.Merged (searched "b:User") searchedWork.disk w'.disk s ∧
    Indexed (searched "b:User") ⟨"b", "User"⟩ ∧ s.Emits ⟨"b", "User"⟩ ⟨"b", "Member"⟩ ∧
    p.registry.code? "middleware" "fullTextSearch" =
      some (searchCode (searched "b:User") (searchIndex (searched "b:User") schema keys)) ∧
    (searchIndex (searched "b:User") schema keys).find? "Member" = none := by
  obtain ⟨w', hrun⟩ : ∃ w', Merge.run (searched "b:User") searchedWork = .ok true w' := ⟨_, rfl⟩
  obtain ⟨p, hbuild⟩ : ∃ p, build (searched "b:User") searchedWork.disk = .ok p := ⟨_, rfl⟩
  obtain ⟨s, d, hs, hemits⟩ : ∃ s d, Merge.Merged (searched "b:User") searchedWork.disk d s ∧
      s.Emits ⟨"b", "User"⟩ ⟨"b", "Member"⟩ :=
    ⟨_, _, merged_searched rfl rfl rfl rfl rfl rfl (by decide) rfl⟩
  obtain ⟨s', hs'⟩ := Merge.merged_of_run hrun
  obtain rfl := hs'.session_eq hs
  obtain ⟨schema, keys, -, hkeys, hcode⟩ := code?_of_build hbuild rfl
  refine ⟨w', p, s', schema, keys, hrun, hbuild, hs', indexed_searched _, hemits, hcode, ?_⟩
  obtain ⟨-, k, ⟨key, hkey, hparse, -⟩, hname⟩ | ⟨hnone, -⟩ := find?_searchIndex hkeys schema "Member"
  · obtain rfl := List.mem_singleton.1 hkey
    cases hparse
    exact absurd hname (by decide)
  · exact hnone

end FragmentMerge.Plan
