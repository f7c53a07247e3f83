import FragmentMerge.Proofs.Replay.Fate

/-! What renamings make visible. A model that is out of use because another one replaces it comes back
when it is renamed, and a parent does not. A key that is left behind by an item taken out still hides
whatever is renamed to it. -/

namespace FragmentMerge.Replay

/-- A key that is hidden although no item has it. -/
def IsLeftover (r : Replay) (k : ItemKey) : Prop := k ∈ r.hidden ∧ k ∉ r.catalog.keys

instance (r : Replay) (k : ItemKey) : Decidable (r.IsLeftover k) := inferInstanceAs (Decidable (_ ∧ _))

def parents (r : Replay) : List ItemKey := r.extended.map (·.2)

theorem mem_hidden {r : Replay} {k : ItemKey} :
    k ∈ r.hidden ↔ k ∈ r.shadows.map (·.1) ∨ k ∈ r.parents := List.mem_append

@[simp] theorem hidden_note (r : Replay) (m : Mutation) : (r.note m).hidden = r.hidden := rfl

@[simp] theorem parents_note (r : Replay) (m : Mutation) : (r.note m).parents = r.parents := rfl

@[simp] theorem isLeftover_note (r : Replay) (m : Mutation) (k : ItemKey) :
    (r.note m).IsLeftover k ↔ r.IsLeftover k := Iff.rfl

def renameEntry (e : ItemKey × String) : ItemKey × Action := (e.1, .renameAll e.2 .model)

theorem act_renameEntry_none {r : Replay} {e : ItemKey × String}
    (h : r.catalog.rename? e.1 .model e.2 = none) :
    ∃ m, r.act (renameEntry e) = r.note m ∧ ∀ x, m.move x = some x := by
  simp only [act, renameEntry, rename, Action.kind, h]
  split
  · exact ⟨_, rfl, fun _ => rfl⟩
  · exact ⟨_, rfl, fun _ => rfl⟩

theorem act_renameEntry_some {r : Replay} {e : ItemKey × String} {c : Catalog}
    (h : r.catalog.rename? e.1 .model e.2 = some c) :
    ∃ n, r.act (renameEntry e) = (r.renamed c e.1 e.2 true).note (.renamed e.1 (e.1.renamed e.2) n) := by
  simp only [act, renameEntry, rename, Action.kind, Catalog.rename?_not_taken h, h]
  exact ⟨_, rfl⟩

section Renamed

variable {r : Replay} {c : Catalog} {k x : ItemKey} {kind : ItemKind} {name : String} {all : Bool}

theorem mem_keys_renamed (hn : r.catalog.keys.Nodup) (h : r.catalog.rename? k kind name = some c)
    (all : Bool) :
    x ∈ (r.renamed c k name all).catalog.keys ↔ x = k.renamed name ∨ x ∈ r.catalog.keys ∧ x ≠ k := by
  obtain ⟨pre, post, hk, hk'⟩ := Catalog.keys_rename? h
  rw [hk, List.perm_middle.nodup_iff, List.nodup_cons, List.mem_append, not_or] at hn
  rw [catalog_renamed, Catalog.keys_retypeReferences, hk', hk]
  simp only [List.mem_append, List.mem_cons]
  constructor
  · rintro (hx | rfl | hx)
    · exact .inr ⟨.inl hx, fun he => hn.1.1 (he ▸ hx)⟩
    · exact .inl rfl
    · exact .inr ⟨.inr (.inr hx), fun he => hn.1.2 (he ▸ hx)⟩
  · rintro (rfl | ⟨hx | rfl | hx, hne⟩)
    · exact .inr (.inl rfl)
    · exact .inl hx
    · exact absurd rfl hne
    · exact .inr (.inr hx)

theorem mem_map_follow {old new : ItemKey} {ks : List ItemKey} :
    x ∈ ks.map (follow old new) ↔ x = new ∧ old ∈ ks ∨ x ∈ ks ∧ x ≠ old := by
  rw [List.mem_map]
  constructor
  · rintro ⟨y, hy, rfl⟩
    by_cases he : y = old
    · exact .inl ⟨by rw [he, follow_old], he ▸ hy⟩
    · rw [follow_of_ne he]
      exact .inr ⟨hy, he⟩
  · rintro (⟨rfl, hk⟩ | ⟨hx, hne⟩)
    · exact ⟨old, hk, follow_old old x⟩
    · exact ⟨x, hx, follow_of_ne hne⟩

theorem mem_parents_renamed : x ∈ (r.renamed c k name all).parents ↔
    x = k.renamed name ∧ k ∈ r.parents ∨ x ∈ r.parents ∧ x ≠ k := by
  have hmap : (r.renamed c k name all).parents = r.parents.map (follow k (k.renamed name)) := by
    rw [parents, parents, List.map_map]
    exact List.map_map
  rw [hmap, mem_map_follow]

/-- A renamed item is hidden under its new key as a parent, or because the key was hidden before. -/
theorem mem_hidden_renamed : x ∈ (r.renamed c k name all).hidden ↔
    x = k.renamed name ∧ k ∈ r.parents ∨ x ∈ r.hidden ∧ x ≠ k := by
  have hshadows : (r.renamed c k name all).shadows.map (·.1) =
      (r.shadows.map (·.1)).filter (· != k) := by
    rw [List.filter_map]
    exact List.map_map
  rw [mem_hidden, mem_hidden, hshadows, List.mem_filter, bne_iff_ne, mem_parents_renamed]
  constructor
  · rintro (⟨hx, hne⟩ | h | ⟨hx, hne⟩)
    · exact .inr ⟨.inl hx, hne⟩
    · exact .inl h
    · exact .inr ⟨.inr hx, hne⟩
  · rintro (h | ⟨hx | hx, hne⟩)
    · exact .inr (.inl h)
    · exact .inl ⟨hx, hne⟩
    · exact .inr (.inr ⟨hx, hne⟩)

/-- What a renaming leaves hidden is what was left hidden before, but for the new key. -/
theorem isLeftover_renamed (hn : r.catalog.keys.Nodup) (h : r.catalog.rename? k kind name = some c)
    (hk : k ∈ r.catalog.keys) :
    (r.renamed c k name all).IsLeftover x ↔ r.IsLeftover x ∧ x ≠ k.renamed name := by
  rw [IsLeftover, IsLeftover, mem_hidden_renamed, mem_keys_renamed hn h all]
  by_cases hxk : x = k
  · simp only [hxk, hk, ne_eq, not_true_eq_false, and_false, or_false, false_and, iff_false]
    exact fun hx => hx.2 hx.1.1
  · simp only [hxk, ne_eq, not_false_eq_true, and_true, not_or]
    constructor
    · rintro ⟨hx | hx, hnew, hfree⟩
      · exact absurd hx.1 hnew
      · exact ⟨⟨hx, hfree⟩, hnew⟩
    · rintro ⟨⟨hx, hfree⟩, hnew⟩
      exact ⟨.inr hx, hnew, hfree⟩

end Renamed

/-- Renamings of different items of the catalog, each to another name. -/
structure Renames (r : Replay) (es : List (ItemKey × String)) : Prop where
  distinct : (es.map Prod.fst).Nodup
  present : ∀ e ∈ es, e.1 ∈ r.catalog.keys
  other : ∀ e ∈ es, e.2 ≠ e.1.name

/-- What renamings come to. They take no item out and bring no two together; an item that keeps its key
is as visible as before, and one with a new key is hidden as a parent or by what the key had left. -/
structure Shifts (r : Replay) (es : List (ItemKey × String)) (log : List Mutation) (r' : Replay) :
    Prop where
  logged : r'.log = r.log ++ log
  still : ∀ x, x ∉ es.map Prod.fst → fate log x = some x
  apart : ∀ x ∈ r.catalog.keys, ∀ y ∈ r.catalog.keys, fate log x = fate log y → x = y
  hidden : ∀ x ∈ r.catalog.keys, ∀ x', fate log x = some x' →
    (x' ∈ r'.hidden ↔ if x' = x then x ∈ r.hidden else x ∈ r.parents ∨ r.IsLeftover x')

theorem shifts_note {r r' : Replay} {e : ItemKey × String} {es : List (ItemKey × String)} {m : Mutation}
    {log : List Mutation} (hm : ∀ x, m.move x = some x) (h : Shifts (r.note m) es log r') :
    Shifts r (e :: es) (m :: log) r' := by
  have hfate : fate (m :: log) = fate log := funext fun x => by rw [fate, hm x, Option.bind_some]
  refine ⟨by rw [h.logged]; exact List.append_assoc _ _ _, fun x hx => ?_, ?_, ?_⟩
  · rw [hfate]
    exact h.still x fun hmem => hx (List.mem_cons_of_mem _ hmem)
  · rw [hfate]
    exact h.apart
  · rw [hfate]
    exact h.hidden

theorem fate_renamed_old (k new : ItemKey) (n : Nat) (log : List Mutation) :
    fate (.renamed k new n :: log) k = fate log new := by
  rw [fate, Mutation.move, follow_old, Option.bind_some]

theorem fate_renamed_other {k x : ItemKey} (hx : x ≠ k) (new : ItemKey) (n : Nat) (log : List Mutation) :
    fate (.renamed k new n :: log) x = fate log x := by
  rw [fate, Mutation.move, follow_of_ne hx, Option.bind_some]

section Renamed

variable {r r' : Replay} {c : Catalog} {k : ItemKey} {name : String} {es : List (ItemKey × String)}
  {n : Nat} {log : List Mutation}

/-- The new key of a renamed item is of no item that the other renamings are about, and so none of them
takes an item to it or away from it. -/
theorem Shifts.new_key (hn : r.catalog.keys.Nodup) (he : Renames r ((k, name) :: es))
    (hc : r.catalog.rename? k .model name = some c)
    (h : Shifts ((r.renamed c k name true).note (.renamed k (k.renamed name) n)) es log r') :
    k.renamed name ∉ r.catalog.keys ∧ fate log (k.renamed name) = some (k.renamed name) ∧
      ∀ x ∈ r.catalog.keys, x ≠ k → fate log x ≠ some (k.renamed name) := by
  have hne : k.renamed name ≠ k := fun hk =>
    he.other (k, name) List.mem_cons_self (congrArg ItemKey.name hk)
  have hfree : k.renamed name ∉ r.catalog.keys := (Catalog.free_of_rename? hc).resolve_left hne
  have hlast : fate log (k.renamed name) = some (k.renamed name) := by
    refine h.still _ fun hmem => ?_
    obtain ⟨d, hd, hdk⟩ := List.mem_map.1 hmem
    exact hfree (hdk ▸ he.present d (List.mem_cons_of_mem _ hd))
  refine ⟨hfree, hlast, fun x hx hxk hf => hfree ?_⟩
  have hx' := (mem_keys_renamed hn hc true).2 (.inr ⟨hx, hxk⟩)
  have hnew := (mem_keys_renamed hn hc true).2 (.inl rfl)
  exact h.apart x hx' _ hnew (hf.trans hlast.symm) ▸ hx

theorem shifts_renamed (hn : r.catalog.keys.Nodup) (he : Renames r ((k, name) :: es))
    (hc : r.catalog.rename? k .model name = some c)
    (h : Shifts ((r.renamed c k name true).note (.renamed k (k.renamed name) n)) es log r') :
    Shifts r ((k, name) :: es) (.renamed k (k.renamed name) n :: log) r' := by
  obtain ⟨hfree, hlast, hmiss⟩ := h.new_key hn he hc
  have hk : k ∈ r.catalog.keys := he.present (k, name) List.mem_cons_self
  have hne : k.renamed name ≠ k := fun he => hfree (he ▸ hk)
  have hmem : ∀ x ∈ r.catalog.keys, x ≠ k → x ∈ (r.renamed c k name true).catalog.keys :=
    fun x hx hxk => (mem_keys_renamed hn hc true).2 (.inr ⟨hx, hxk⟩)
  refine ⟨by rw [h.logged]; exact List.append_assoc _ _ _, fun x hx => ?_, fun x hx y hy hxy => ?_,
    fun x hx x' hx' => ?_⟩
  · rw [List.map_cons, List.mem_cons, not_or] at hx
    rw [fate_renamed_other hx.1]
    exact h.still x hx.2
  · by_cases hxk : x = k <;> by_cases hyk : y = k
    · exact hxk.trans hyk.symm
    · rw [hxk, fate_renamed_old, hlast, fate_renamed_other hyk] at hxy
      exact absurd hxy.symm (hmiss y hy hyk)
    · rw [hyk, fate_renamed_old, hlast, fate_renamed_other hxk] at hxy
      exact absurd hxy (hmiss x hx hxk)
    · rw [fate_renamed_other hxk, fate_renamed_other hyk] at hxy
      exact h.apart x (hmem x hx hxk) y (hmem y hy hyk) hxy
  · by_cases hxk : x = k
    · rw [hxk, fate_renamed_old, hlast, Option.some.injEq] at hx'
      have hnew := (mem_keys_renamed hn hc true).2 (.inl rfl)
      have hhidden := h.hidden _ hnew _ hlast
      rw [if_pos rfl, hidden_note] at hhidden
      rw [← hx', hxk, hhidden, if_neg hne, IsLeftover]
      simp [mem_hidden_renamed, hne, hfree]
    · rw [fate_renamed_other hxk] at hx'
      have hxnew : x ≠ k.renamed name := fun hxn => hfree (hxn ▸ hx)
      have hx'new : x' ≠ k.renamed name := fun hxn => hmiss x hx hxk (hx'.trans (congrArg some hxn))
      have hhidden : x ∈ (r.renamed c k name true).hidden ↔ x ∈ r.hidden := by
        simp [mem_hidden_renamed, hxnew, hxk]
      have hparents : x ∈ (r.renamed c k name true).parents ↔ x ∈ r.parents := by
        simp [mem_parents_renamed, hxnew, hxk]
      have hleft : (r.renamed c k name true).IsLeftover x' ↔ r.IsLeftover x' := by
        simp [isLeftover_renamed hn hc hk, hx'new]
      rw [h.hidden x (hmem x hx hxk) x' hx', hidden_note, parents_note, isLeftover_note, hhidden,
        hparents, hleft]

end Renamed

theorem shifts_foldl {es : List (ItemKey × String)} {r : Replay} (hn : r.catalog.keys.Nodup)
    (he : Renames r es) : ∃ log, Shifts r es log ((es.map renameEntry).foldl act r) := by
  induction es generalizing r with
  | nil =>
    refine ⟨[], (List.append_nil _).symm, fun _ _ => rfl, fun x _ y _ h => Option.some.inj h,
      fun x _ x' hx => ?_⟩
    obtain rfl := Option.some.inj hx
    rw [if_pos rfl]
    rfl
  | cons e es ih =>
    have hd := List.nodup_cons.1 he.distinct
    have hn' := nodup_act hn (renameEntry e)
    rw [List.map_cons, List.foldl_cons]
    cases hc : r.catalog.rename? e.1 .model e.2 with
    | none =>
      obtain ⟨m, hact, hm⟩ := act_renameEntry_none hc
      rw [hact] at hn' ⊢
      obtain ⟨log, h⟩ := ih hn' ⟨hd.2, fun d hd => he.present d (List.mem_cons_of_mem _ hd),
        fun d hd => he.other d (List.mem_cons_of_mem _ hd)⟩
      exact ⟨m :: log, shifts_note hm h⟩
    | some c =>
      obtain ⟨n, hact⟩ := act_renameEntry_some hc
      rw [hact] at hn' ⊢
      obtain ⟨log, h⟩ := ih hn' ⟨hd.2, fun d hd' => (mem_keys_renamed hn hc true).2 (.inr
          ⟨he.present d (List.mem_cons_of_mem _ hd'), fun hk => hd.1 (hk ▸ List.mem_map_of_mem hd')⟩),
        fun d hd => he.other d (List.mem_cons_of_mem _ hd)⟩
      exact ⟨_, shifts_renamed hn he hc h⟩

end FragmentMerge.Replay
