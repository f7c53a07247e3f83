import FragmentMerge.Proofs.Catalog.Conflict
import FragmentMerge.Proofs.Replay.Cases

/-! Remaps in a replay. A remap leaves catalog and parents alone and can only hide more items, so after
it no new relation column is found and the first conflict is either gone or still the first. -/

namespace FragmentMerge

theorem mem_upsert {κ α : Type} [DecidableEq κ] (k : κ) (v : α) (es : List (κ × α)) :
    (k, v) ∈ upsert k v es := by
  induction es with
  | nil => simp [upsert]
  | cons e es ih =>
    rw [upsert]
    split
    · next he => exact he ▸ List.mem_cons_self
    · exact List.mem_cons_of_mem _ ih

theorem mem_upsert_of_ne {κ α : Type} [DecidableEq κ] {k : κ} {v : α} {es : List (κ × α)} {e : κ × α}
    (he : e ∈ es) (hk : e.1 ≠ k) : e ∈ upsert k v es := by
  induction es with
  | nil => cases he
  | cons d es ih =>
    rw [upsert]
    rcases List.mem_cons.1 he with rfl | he
    · rw [if_neg hk]
      exact List.mem_cons_self
    · split
      · exact List.mem_cons_of_mem _ he
      · exact List.mem_cons_of_mem _ (ih he)

theorem map_fst_upsert {κ α : Type} [DecidableEq κ] (k : κ) (v : α) (es : List (κ × α)) :
    (upsert k v es).map Prod.fst =
      if k ∈ es.map Prod.fst then es.map Prod.fst else es.map Prod.fst ++ [k] := by
  induction es with
  | nil => simp [upsert]
  | cons e es ih =>
    by_cases he : e.1 = k
    · simp [upsert, he]
    · have he' : ¬k = e.1 := fun h => he h.symm
      simp only [upsert, he, if_false, List.map_cons, ih, List.mem_cons, he', false_or]
      split <;> simp

theorem nodup_upsert {κ α : Type} [DecidableEq κ] {es : List (κ × α)} (k : κ) (v : α)
    (h : (es.map Prod.fst).Nodup) : ((upsert k v es).map Prod.fst).Nodup := by
  rw [map_fst_upsert]
  split
  · exact h
  · next hk => exact List.nodup_append.2 ⟨h, by simp, fun a ha b hb hab =>
      hk (List.mem_singleton.1 hb ▸ hab ▸ ha)⟩

theorem fst_subset_upsert {κ α : Type} [DecidableEq κ] (k : κ) (v : α) (es : List (κ × α)) :
    es.map Prod.fst ⊆ (upsert k v es).map Prod.fst := by
  rw [map_fst_upsert]
  split
  · exact List.Subset.refl _
  · exact List.subset_append_left _ _

theorem mem_fst_upsert {κ α : Type} [DecidableEq κ] {k x : κ} {v : α} {es : List (κ × α)} :
    x ∈ (upsert k v es).map Prod.fst ↔ x ∈ es.map Prod.fst ∨ x = k := by
  rw [map_fst_upsert]
  split
  · next hk => exact ⟨.inl, fun h => h.elim id fun hx => hx ▸ hk⟩
  · rw [List.mem_append, List.mem_singleton]

theorem mem_upsert_iff {κ α : Type} [DecidableEq κ] {k : κ} {v : α} {es : List (κ × α)}
    (hn : (es.map Prod.fst).Nodup) {e : κ × α} :
    e ∈ upsert k v es ↔ e = (k, v) ∨ e ∈ es ∧ e.1 ≠ k := by
  induction es with
  | nil => simp [upsert]
  | cons d es ih =>
    rw [List.map_cons, List.nodup_cons] at hn
    by_cases hd : d.1 = k
    · have hrest : ∀ e ∈ es, e.1 ≠ k := fun e he h => hn.1 (hd ▸ h ▸ List.mem_map_of_mem he)
      rw [upsert, if_pos hd, hd, List.mem_cons, List.mem_cons]
      refine or_congr_right ⟨fun he => ⟨.inr he, hrest e he⟩, fun ⟨he, hne⟩ => ?_⟩
      exact he.resolve_left fun h => hne (h ▸ hd)
    · rw [upsert, if_neg hd, List.mem_cons, ih hn.2, List.mem_cons]
      constructor
      · rintro (rfl | rfl | ⟨he, hne⟩)
        · exact .inr ⟨.inl rfl, hd⟩
        · exact .inl rfl
        · exact .inr ⟨.inr he, hne⟩
      · rintro (rfl | ⟨rfl | he, hne⟩)
        · exact .inr (.inl rfl)
        · exact .inl rfl
        · exact .inr (.inr ⟨he, hne⟩)

namespace Replay

/-- The same catalog with the same parents, and no item less hidden. -/
structure Shades (r r' : Replay) : Prop where
  catalog : r'.catalog = r.catalog
  extended : r'.extended = r.extended
  hidden : r.hidden ⊆ r'.hidden

theorem Shades.refl (r : Replay) : Shades r r := ⟨rfl, rfl, List.Subset.refl _⟩

theorem Shades.trans {a b c : Replay} (h : Shades a b) (g : Shades b c) : Shades a c :=
  ⟨g.catalog.trans h.catalog, g.extended.trans h.extended, fun _ hk => g.hidden (h.hidden hk)⟩

theorem shades_note (r : Replay) (m : Mutation) : Shades r (r.note m) := ⟨rfl, rfl, List.Subset.refl _⟩

theorem shades_remap (r : Replay) (source : ColumnKey) (target : ItemKey) :
    Shades r (r.remap source target) := by
  refine ⟨rfl, rfl, fun k hk => ?_⟩
  rcases List.mem_append.1 hk with hk | hk
  · refine List.mem_append_left _ ?_
    simp only [remap, note]
    cases r.shadowed? source target with
    | none => exact hk
    | some s => exact fst_subset_upsert s target r.shadows hk
  · exact List.mem_append_right _ hk

def remapEntry (e : ColumnKey × ItemKey) : ItemKey × Action := (e.2, .remap e.1 e.2 .model)

theorem shades_foldl_remaps (r : Replay) (es : Remaps) :
    Shades r ((es.map remapEntry).foldl act r) ∧
      ((es.map remapEntry).foldl act r).remaps = es.foldl (fun rs e => upsert e.1 e.2 rs) r.remaps := by
  induction es generalizing r with
  | nil => exact ⟨.refl r, rfl⟩
  | cons e es ih =>
    obtain ⟨hs, hr⟩ := ih (r.remap e.1 e.2)
    exact ⟨(shades_remap r e.1 e.2).trans hs, hr⟩

theorem shadowed?_eq_some {r : Replay} {source : ColumnKey} {target k : ItemKey}
    (h : r.shadowed? source target = some k) :
    k.file = source.item.file ∧ k ≠ target ∧ (r.catalog.model? k).isSome = true := by
  simp only [shadowed?, Option.filter_eq_some_iff, Option.map_eq_some_iff, Bool.and_eq_true,
    bne_iff_ne] at h
  obtain ⟨⟨col, -, rfl⟩, hne, hmodel⟩ := h
  exact ⟨rfl, hne, hmodel⟩

theorem mem_hidden_remap {r : Replay} {source : ColumnKey} {target k : ItemKey} :
    k ∈ (r.remap source target).hidden ↔ k ∈ r.hidden ∨ r.shadowed? source target = some k := by
  simp only [hidden, remap, note, List.mem_append]
  cases r.shadowed? source target with
  | none => simp
  | some s =>
    rw [mem_fst_upsert, Option.some.injEq, eq_comm (a := s)]
    exact or_right_comm

/-- Remaps hide what they put out of use, and nothing else. -/
theorem mem_hidden_foldl_remaps {r : Replay} {es : Remaps} {k : ItemKey} :
    k ∈ ((es.map remapEntry).foldl act r).hidden ↔
      k ∈ r.hidden ∨ ∃ e ∈ es, r.shadowed? e.1 e.2 = some k := by
  induction es generalizing r with
  | nil => simp
  | cons e es ih =>
    -- a remap leaves the catalog as it is, so later ones find the same models
    have hsame : (r.remap e.1 e.2).shadowed? = r.shadowed? := rfl
    rw [List.map_cons, List.foldl_cons, show act r (remapEntry e) = r.remap e.1 e.2 from rfl, ih,
      mem_hidden_remap, hsame]
    simp only [List.mem_cons, exists_eq_or_imp, or_assoc]

theorem Shades.attributes {r r' : Replay} (h : Shades r r') (as : List (String × String)) :
    Shades (as.foldl addAttribute r) (as.foldl addAttribute r') := by
  obtain ⟨hc, -, hs, he⟩ := foldl_addAttribute as r
  obtain ⟨hc', -, hs', he'⟩ := foldl_addAttribute as r'
  refine ⟨by rw [hc, hc', h.catalog], by rw [he, he', h.extended], ?_⟩
  rw [Replay.hidden, Replay.hidden, hs, hs', he, he']
  exact h.hidden

theorem Shades.referring_subset {r r' : Replay} (h : Shades r r') (name : String) :
    r'.referring name ⊆ r.referring name := by
  intro col hcol
  obtain ⟨m, hm, hcol⟩ := List.mem_flatMap.1 hcol
  obtain ⟨hm, hvis⟩ := List.mem_filter.1 hm
  refine List.mem_flatMap.2 ⟨m, List.mem_filter.2 ⟨h.catalog ▸ hm, ?_⟩, hcol⟩
  simp only [isVisible, Bool.not_eq_true', List.contains_eq_mem, decide_eq_false_iff_not] at hvis ⊢
  exact fun hk => hvis (h.hidden hk)

theorem Shades.head?_conflicts {r r' : Replay} (h : Shades r r') {x : Conflict}
    (hx : r.conflicts.head? = some x) (hx' : x ∈ r'.conflicts) : r'.conflicts.head? = some x := by
  rw [conflicts, h.catalog] at hx' ⊢
  exact Catalog.head?_conflicts_of_subset h.hidden hx hx'

theorem mem_foldl_upsert {es rs : Remaps} {e : ColumnKey × ItemKey} (he : e ∈ es ∨ e ∈ rs)
    (hes : ∀ d ∈ es, d.1 = e.1 → d = e) : e ∈ es.foldl (fun rs e => upsert e.1 e.2 rs) rs := by
  induction es generalizing rs with
  | nil => simpa using he
  | cons d es ih =>
    refine ih ?_ fun x hx => hes x (List.mem_cons_of_mem _ hx)
    by_cases hd : d.1 = e.1
    · rw [hes d List.mem_cons_self hd]
      exact .inr (mem_upsert e.1 e.2 rs)
    · rcases he with he | he
      · rcases List.mem_cons.1 he with rfl | he
        · exact absurd rfl hd
        · exact .inl he
      · exact .inr (mem_upsert_of_ne he fun h => hd h.symm)

end Replay

end FragmentMerge
