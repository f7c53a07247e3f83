import FragmentMerge.Proofs.Catalog.Distinct
import FragmentMerge.Proofs.Data.Aligned
import FragmentMerge.Proofs.Data.Table
import FragmentMerge.Proofs.Schema.Key

/-! The search columns of a catalog. Each model gets the column of the index that is configured for its key,
once, and all else stays as it is. -/

namespace FragmentMerge

variable {t : FullText} {excluded : ItemKey → Bool} {i : String × List IndexField}
  {is : List (String × List IndexField)} {k : ItemKey} {fields fields' : List IndexField}

namespace FullText

/-- One of some indexes gives a model fields to search. The key of the model is not excluded. -/
def Gives (is : List (String × List IndexField)) (excluded : ItemKey → Bool) (k : ItemKey)
    (fields : List IndexField) : Prop :=
  ∃ key, (key, fields) ∈ is ∧ ItemKey.parse key = .ok k ∧ excluded k = false

theorem gives_singleton :
    Gives [i] excluded k fields ↔ i.2 = fields ∧ ItemKey.parse i.1 = .ok k ∧ excluded k = false := by
  constructor
  · rintro ⟨key, hmem, hgives⟩
    obtain rfl := List.mem_singleton.1 hmem
    exact ⟨rfl, hgives⟩
  · rintro ⟨rfl, hgives⟩
    exact ⟨i.1, List.mem_singleton_self i, hgives⟩

theorem gives_cons :
    Gives (i :: is) excluded k fields ↔ Gives [i] excluded k fields ∨ Gives is excluded k fields := by
  simp only [Gives, List.mem_cons, List.not_mem_nil, or_false, or_and_right, exists_or]

theorem not_gives_of_gives (hn : i.1 ∉ is.map Prod.fst) (h : Gives [i] excluded k fields) :
    ¬ Gives is excluded k fields' := by
  rintro ⟨key, hmem, hk, -⟩
  obtain ⟨-, hk', -⟩ := gives_singleton.1 h
  have hkey : key = i.1 := (ItemKey.parse_eq_ok_iff.1 hk).1.symm.trans (ItemKey.parse_eq_ok_iff.1 hk').1
  exact hn (hkey ▸ List.mem_map.2 ⟨_, hmem, rfl⟩)

end FullText

open FullText

namespace Model

variable {m m' m'' : Model} {ms ms' ms'' : List Model}

theorem isSome_column?_addSearch (t : FullText) (fields : List IndexField) (m : Model) :
    ((m.addSearch t fields).column? columnName).isSome = true := by
  rw [addSearch]
  split
  · assumption
  · simp [column?, FullText.column, Column.isRaw]

theorem addSearch_of_isSome (h : (m.column? columnName).isSome = true) : m.addSearch t fields = m :=
  if_pos h

theorem addSearch_of_none (h : m.column? columnName = none) :
    m.addSearch t fields = { m with columns := m.columns ++ [t.column fields, indexLine] } := by
  rw [addSearch, h]
  rfl

/-- A model before and after some indexes. -/
structure Searched (t : FullText) (excluded : ItemKey → Bool) (is : List (String × List IndexField))
    (m m' : Model) : Prop where
  given : ∀ fields, Gives is excluded m.key fields → m' = m.addSearch t fields
  other : (∀ fields, ¬ Gives is excluded m.key fields) → m' = m

theorem Searched.cases (h : m.Searched t excluded is m') :
    (∃ fields, Gives is excluded m.key fields ∧ m' = m.addSearch t fields) ∨
      (∀ fields, ¬ Gives is excluded m.key fields) ∧ m' = m := by
  by_cases hg : ∃ fields, Gives is excluded m.key fields
  · obtain ⟨fields, hg⟩ := hg
    exact .inl ⟨fields, hg, h.given fields hg⟩
  · exact .inr ⟨not_exists.1 hg, h.other (not_exists.1 hg)⟩

theorem Searched.key_eq (h : m.Searched t excluded is m') : m'.key = m.key := by
  rcases h.cases with ⟨fields, -, rfl⟩ | ⟨-, rfl⟩
  · exact Catalog.key_addSearch t fields m
  · rfl

theorem searched_nil (m : Model) : m.Searched t excluded [] m :=
  ⟨fun _ ⟨_, hm, _⟩ => absurd hm List.not_mem_nil, fun _ => rfl⟩

theorem searched_singleton (hk : ItemKey.parse i.1 = .ok k) (m : Model) :
    m.Searched t excluded [i] (if m.key = k ∧ excluded k = false then m.addSearch t i.2 else m) := by
  have hgives : ∀ fields, Gives [i] excluded m.key fields ↔
      i.2 = fields ∧ m.key = k ∧ excluded k = false := by
    intro fields
    rw [gives_singleton, hk]
    constructor
    · rintro ⟨hfields, he, hx⟩
      cases he
      exact ⟨hfields, rfl, hx⟩
    · rintro ⟨hfields, rfl, hx⟩
      exact ⟨hfields, rfl, hx⟩
  refine ⟨fun fields hg => ?_, fun hnone => if_neg fun hboth => ?_⟩
  · obtain ⟨rfl, hboth⟩ := (hgives fields).1 hg
    exact if_pos hboth
  · exact hnone i.2 ((hgives i.2).2 ⟨rfl, hboth⟩)

theorem Searched.cons (hn : i.1 ∉ is.map Prod.fst) (h : m.Searched t excluded [i] m')
    (h' : m'.Searched t excluded is m'') : m.Searched t excluded (i :: is) m'' := by
  have hkey := h.key_eq
  refine ⟨fun fields hg => ?_, fun hnone => ?_⟩
  · rcases gives_cons.1 hg with hg | hg
    · have hrest : ∀ fields', ¬ Gives is excluded m'.key fields' := fun fields' =>
        hkey ▸ not_gives_of_gives hn hg
      rw [h'.other hrest, h.given fields hg]
    · have hfirst : ∀ fields', ¬ Gives [i] excluded m.key fields' := fun fields' hg' =>
        not_gives_of_gives hn hg' hg
      obtain rfl := h.other hfirst
      exact h'.given fields hg
  · obtain rfl := h.other fun fields hg => hnone fields (gives_cons.2 (.inl hg))
    exact h'.other fun fields hg => hnone fields (gives_cons.2 (.inr hg))

/-- A model that has its search column does not get it again. -/
theorem Searched.again (h : m.Searched t excluded is m') (h' : m'.Searched t excluded is m'') :
    m'' = m' := by
  rcases h'.cases with ⟨fields, hg, rfl⟩ | ⟨-, rfl⟩
  · rw [h.key_eq] at hg
    rw [h.given fields hg]
    exact addSearch_of_isSome (isSome_column?_addSearch t fields m)
  · rfl

theorem keys_of_searched (h : List.Forall₂ (Searched t excluded is) ms ms') :
    ms'.map Model.key = ms.map Model.key := by
  induction h with
  | nil => rfl
  | cons hm _ ih => rw [List.map_cons, List.map_cons, ih, hm.key_eq]

theorem eq_of_searched_again (h : List.Forall₂ (Searched t excluded is) ms ms')
    (h' : List.Forall₂ (Searched t excluded is) ms' ms'') : ms'' = ms' := by
  induction h generalizing ms'' with
  | nil => exact List.forall₂_nil_left_iff.1 h'
  | cons hm _ ih =>
    obtain ⟨m'', ms'', hm', hms', rfl⟩ := List.forall₂_cons_left_iff.1 h'
    rw [hm.again hm', ih hms']

end Model

namespace Catalog

variable {c c' : Catalog}

/-- An index can be added: it has the key of a model, or one that is excluded. -/
def Fits (c : Catalog) (excluded : ItemKey → Bool) (key : String) : Prop :=
  ∃ k, ItemKey.parse key = .ok k ∧ (excluded k = true ∨ k ∈ c.models.map Model.key)

theorem addIndex_cases (hn : (c.models.map Model.key).Nodup) (t : FullText) (excluded : ItemKey → Bool)
    (i : String × List IndexField) :
    (¬ c.Fits excluded i.1 ∧ ∃ e, c.addIndex t excluded i = .error e) ∨
      c.Fits excluded i.1 ∧ ∃ models, c.addIndex t excluded i = .ok { c with models } ∧
        List.Forall₂ (Model.Searched t excluded [i]) c.models models := by
  rw [addIndex]
  cases hk : ItemKey.parse i.1 with
  | error e =>
    refine .inl ⟨?_, _, rfl⟩
    rintro ⟨k, hk', -⟩
    cases hk.symm.trans hk'
  | ok k =>
    have hfits : c.Fits excluded i.1 ↔ excluded k = true ∨ k ∈ c.models.map Model.key := by
      constructor
      · rintro ⟨k', hk', h⟩
        cases hk.symm.trans hk'
        exact h
      · exact fun h => ⟨k, hk, h⟩
    have hsearched : List.Forall₂ (Model.Searched t excluded [i]) c.models
        (c.models.map fun m => if m.key = k ∧ excluded k = false then m.addSearch t i.2 else m) :=
      List.forall₂_map_right_iff.2 (List.forall₂_same.2 fun m _ => Model.searched_singleton hk m)
    rw [hfits]
    dsimp only
    by_cases hx : excluded k = true
    · rw [if_pos hx]
      refine .inr ⟨.inl hx, c.models, rfl, ?_⟩
      simpa [hx] using hsearched
    · rw [if_neg hx]
      cases hc : changeFirst? (·.key == k) (Model.addSearch t i.2) c.models with
      | none =>
        rw [changeModel?, hc]
        refine .inl ⟨?_, _, rfl⟩
        rintro (hx' | hmem)
        · exact hx hx'
        · obtain ⟨m, hm, hkey⟩ := List.mem_map.1 hmem
          simpa [hkey] using changeFirst?_eq_none.1 hc m hm
      | some models =>
        rw [changeModel?, hc]
        obtain ⟨hmem, rfl⟩ := changeFirst?_eq_map hn hc
        refine .inr ⟨.inr hmem, _, rfl, ?_⟩
        simpa [hx] using hsearched

theorem addIndexes_cases (hn : (c.models.map Model.key).Nodup) (t : FullText) (excluded : ItemKey → Bool)
    (his : (is.map Prod.fst).Nodup) :
    (¬ (∀ i ∈ is, c.Fits excluded i.1) ∧ (c.addIndexes t excluded is).1 ≠ none) ∨
      (∀ i ∈ is, c.Fits excluded i.1) ∧ ∃ models, c.addIndexes t excluded is = (none, { c with models }) ∧
        List.Forall₂ (Model.Searched t excluded is) c.models models := by
  induction is generalizing c with
  | nil =>
    refine .inr ⟨by simp, c.models, rfl, ?_⟩
    exact List.forall₂_same.2 fun m _ => Model.searched_nil m
  | cons i is ih =>
    obtain ⟨hi, his⟩ := List.nodup_cons.1 his
    rw [List.forall_mem_cons, addIndexes]
    rcases addIndex_cases hn t excluded i with ⟨hno, e, he⟩ | ⟨hfits, models₁, hok, hsearched₁⟩
    · rw [he]
      exact .inl ⟨fun hboth => hno hboth.1, by simp⟩
    · -- the keys of the models are as before, so the other indexes fit as before
      have hkeys := Model.keys_of_searched hsearched₁
      have hrest : (∀ j ∈ is, Fits { c with models := models₁ } excluded j.1) ↔
          ∀ j ∈ is, c.Fits excluded j.1 := by
        simp only [Fits, hkeys]
      rw [hok]
      dsimp only
      rcases ih (c := { c with models := models₁ }) (hkeys ▸ hn) his with
        ⟨hno, hne⟩ | ⟨hfits', models, hall, hsearched⟩
      · exact .inl ⟨fun hboth => hno (hrest.2 hboth.2), hne⟩
      · refine .inr ⟨⟨hfits, hrest.1 hfits'⟩, models, hall, ?_⟩
        exact forall₂_trans (fun m m' m'' h h' => h.cons hi h') hsearched₁ hsearched

theorem addIndexes_eq_none_iff (hn : (c.models.map Model.key).Nodup) (his : (is.map Prod.fst).Nodup) :
    (c.addIndexes t excluded is).1 = none ↔ ∀ i ∈ is, c.Fits excluded i.1 := by
  rcases addIndexes_cases hn t excluded his with ⟨hno, hne⟩ | ⟨hfits, models, hall, -⟩
  · exact iff_of_false hne hno
  · exact iff_of_true (by rw [hall]) hfits

theorem searched_of_addIndexes (hn : (c.models.map Model.key).Nodup) (his : (is.map Prod.fst).Nodup)
    (h : c.addIndexes t excluded is = (none, c')) :
    c' = { c with models := c'.models } ∧
      List.Forall₂ (Model.Searched t excluded is) c.models c'.models := by
  rcases addIndexes_cases hn t excluded his with ⟨-, hne⟩ | ⟨-, models, hall, hsearched⟩
  · exact absurd (by rw [h]) hne
  · cases h.symm.trans hall
    exact ⟨rfl, hsearched⟩

theorem addIndexes_again (hn : (c.models.map Model.key).Nodup) (his : (is.map Prod.fst).Nodup)
    (h : c.addIndexes t excluded is = (none, c')) : c'.addIndexes t excluded is = (none, c') := by
  obtain ⟨hc', hsearched⟩ := searched_of_addIndexes hn his h
  have hkeys := Model.keys_of_searched hsearched
  have hfits : ∀ i ∈ is, c'.Fits excluded i.1 := by
    have hfits := (addIndexes_eq_none_iff hn his).1 (congrArg Prod.fst h)
    simpa only [Fits, hkeys] using hfits
  rcases addIndexes_cases (hkeys ▸ hn) t excluded his with ⟨hno, -⟩ | ⟨-, models, hall, hsearched'⟩
  · exact absurd hfits hno
  · rw [hall, Model.eq_of_searched_again hsearched hsearched']

/-- The search columns are added exactly if each configured key is that of a model or excluded. Then each
model for which an index counts has its search column and the line of the index behind its columns, unless
it had such a column before; all else is as it was. To add them again changes nothing. -/
theorem addFullText_once (hn : c.keys.Nodup) (t : FullText) (excluded : ItemKey → Bool) :
    ((c.addFullText t excluded).1 = none ↔ ∀ i ∈ t.indexes.entries, c.Fits excluded i.1) ∧
    ∀ c', c.addFullText t excluded = (none, c') →
      c' = { c with models := c'.models } ∧
      List.Forall₂ (fun m m' =>
        (∀ fields, Gives t.indexes.entries excluded m.key fields → m.column? columnName = none →
          m' = { m with columns := m.columns ++ [t.column fields, indexLine] }) ∧
        ((∀ fields, ¬ Gives t.indexes.entries excluded m.key fields) ∨ m.column? columnName ≠ none →
          m' = m)) c.models c'.models ∧
      c'.addFullText t excluded = (none, c') := by
  have hm := (nodup_keys hn).1
  have his : (t.indexes.entries.map Prod.fst).Nodup := List.pairwise_map.2 t.indexes.pairwise_ne
  refine ⟨addIndexes_eq_none_iff hm his, fun c' h => ?_⟩
  obtain ⟨hc', hsearched⟩ := searched_of_addIndexes hm his h
  refine ⟨hc', hsearched.imp fun m m' hs => ⟨fun fields hg hnone => ?_, fun hkept => ?_⟩,
    addIndexes_again hm his h⟩
  · rw [hs.given fields hg, Model.addSearch_of_none hnone]
  · rcases hs.cases with ⟨fields, hg, rfl⟩ | ⟨-, rfl⟩
    · have hsome := hkept.resolve_left fun hno => hno fields hg
      exact Model.addSearch_of_isSome (Option.isSome_iff_ne_none.2 hsome)
    · rfl

/-- Three users: one with an index, one that is excluded, and one that has a column for the search. -/
def users : Catalog :=
  { base := "base", generator := "g", datasource := "d", files := ["base", "a", "b", "c"]
    models := [
      ⟨⟨"a", "User"⟩, [⟨"bio", "String", []⟩], 1⟩,
      ⟨⟨"b", "User"⟩, [⟨"bio", "String", []⟩], 1⟩,
      ⟨⟨"c", "User"⟩, [⟨"textSearch", "String", []⟩], 1⟩]
    enums := [] }

def userIndexes : FullText :=
  ⟨some "public", "english", Table.ofList [("a:User", [⟨"bio", "A"⟩]), ("b:User", [⟨"bio", "A"⟩]),
    ("c:User", [⟨"bio", "B"⟩])]⟩

theorem addFullText_once_users : ∃ c', users.addFullText userIndexes (·.file == "b") = (none, c') ∧
    c'.models = [
      ⟨⟨"a", "User"⟩, [⟨"bio", "String", []⟩, ⟨"textSearch", "Unsupported(\"tsvector\")?",
        ["@default(dbgenerated(\"setweight(to_tsvector('english', coalesce(bio, '')), 'A')\"))"]⟩,
        ⟨"@@index([textSearch], type: Gin)", "", []⟩], 1⟩,
      ⟨⟨"b", "User"⟩, [⟨"bio", "String", []⟩], 1⟩,
      ⟨⟨"c", "User"⟩, [⟨"textSearch", "String", []⟩], 1⟩] ∧
    c'.addFullText userIndexes (·.file == "b") = (none, c') := by
  have hn : users.keys.Nodup := by decide
  refine ⟨_, rfl, rfl, ?_⟩
  exact ((addFullText_once hn userIndexes (·.file == "b")).2 _ rfl).2.2

end Catalog

end FragmentMerge
