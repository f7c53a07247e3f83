import FragmentMerge.Proofs.Catalog.Distinct
import FragmentMerge.Proofs.Replay.Effect

/-! Repeated actions. Carried out a second time, an action adds to the log and changes nothing else: what
the first one took out is not there any more, what it renamed has left its key or has the name already,
and what it remapped is remapped the same way, with the same model put out of use. -/

namespace FragmentMerge

theorem upsert_upsert {κ α : Type} [DecidableEq κ] (k : κ) (v : α) (es : List (κ × α)) :
    upsert k v (upsert k v es) = upsert k v es := by
  induction es with
  | nil => simp [upsert]
  | cons e es ih =>
    by_cases he : e.1 = k
    · simp [upsert, he]
    · simp [upsert, he, ih]

namespace Catalog

variable {c c' : Catalog} {k : ItemKey} {kind : ItemKind} {name : String}

theorem remove?_again (hn : c.keys.Nodup) (h : c.remove? k kind = some c') : c'.remove? k kind = none := by
  obtain rfl := remove?_eq_filter hn h
  rw [Option.eq_none_iff_forall_not_mem]
  intro d hd
  obtain ⟨pre, post, hi, -⟩ := items_remove? hd
  have hmem : (kind, k) ∈ pre ++ (kind, k) :: post := List.mem_append_right _ List.mem_cons_self
  rw [← hi] at hmem
  cases kind with
  | model =>
    obtain ⟨m, hm, hk⟩ := mem_items_model.1 hmem
    exact bne_iff_ne.1 (List.mem_filter.1 hm).2 hk
  | enum =>
    obtain ⟨e, he, hk⟩ := mem_items_enum.1 hmem
    exact bne_iff_ne.1 (List.mem_filter.1 he).2 hk

theorem isTaken_again (h : c.rename? k kind name = some c') (hname : name ≠ k.name) (all : Bool) :
    (c'.retypeReferences k name all).isTaken k name = true := by
  obtain ⟨pre, post, -, hk⟩ := keys_rename? h
  have hmem : k.renamed name ∈ (c'.retypeReferences k name all).keys := by
    rw [keys_retypeReferences, hk]
    exact List.mem_append_right _ List.mem_cons_self
  rw [isTaken, declares, Bool.and_eq_true]
  exact ⟨bne_iff_ne.2 hname, contains_iff.2 hmem⟩

theorem rename?_again (hn : c.keys.Nodup) (h : c.rename? k kind k.name = some c') :
    c'.rename? k kind k.name = some c' := by
  have hself : k.renamed k.name = k := rfl
  obtain ⟨pre, post, -, hi⟩ := items_rename? h
  have hfree : c'.isTaken k k.name = false := isTaken_eq_false.2 (.inl rfl)
  cases hd : c'.rename? k kind k.name with
  | none =>
    refine absurd ?_ ((rename?_eq_none hfree).1 hd)
    rw [hi, hself]
    exact List.mem_append_right _ List.mem_cons_self
  | some d =>
    obtain rfl := rename?_eq_map (nodup_rename? hn h) hd
    obtain rfl := rename?_eq_map hn h
    simp only [List.map_map, hself]
    refine congrArg some (congrArg₂ (fun ms es => { c with models := ms, enums := es }) ?_ ?_)
    · refine List.map_congr_left fun m _ => ?_
      by_cases hm : m.key = k <;> simp [hm]
    · refine List.map_congr_left fun e _ => ?_
      by_cases he : e.key = k <;> simp [he]

end Catalog

namespace Replay

/-- Nothing but the logs tells two replays apart. -/
structure Agree (r r' : Replay) : Prop where
  catalog : r'.catalog = r.catalog
  remaps : r'.remaps = r.remaps
  shadows : r'.shadows = r.shadows
  extended : r'.extended = r.extended

theorem agree_note (r : Replay) (m : Mutation) : Agree r (r.note m) := ⟨rfl, rfl, rfl, rfl⟩

theorem Agree.eq_log {r r' : Replay} (h : Agree r r') : r' = { r with log := r'.log } := by
  obtain ⟨catalog, remaps, shadows, extended, log⟩ := r'
  obtain ⟨rfl, rfl, rfl, rfl⟩ := h
  rfl

theorem Agree.rename {r r' : Replay} (h : Agree r r') (k : ItemKey) (a : Action) (name : String)
    (all : Bool) : Agree (r.rename k a name all) (r'.rename k a name all) := by
  rw [h.eq_log]
  unfold Replay.rename
  dsimp only
  split
  · exact ⟨rfl, rfl, rfl, rfl⟩
  · split
    · exact ⟨rfl, rfl, rfl, rfl⟩
    · exact ⟨rfl, rfl, rfl, rfl⟩

/-- What an action does does not depend on the log. -/
theorem Agree.act {r r' : Replay} (h : Agree r r') (e : ItemKey × Action) : Agree (r.act e) (r'.act e) := by
  obtain ⟨k, a⟩ := e
  cases a with
  | skip kind =>
    rw [h.eq_log]
    simp only [Replay.act, skip]
    split
    · exact ⟨rfl, rfl, rfl, rfl⟩
    · exact ⟨rfl, rfl, rfl, rfl⟩
  | rename name kind => exact h.rename k _ name false
  | renameAll name kind => exact h.rename k _ name true
  | remap source target kind =>
    rw [h.eq_log]
    exact ⟨rfl, rfl, rfl, rfl⟩

theorem Agree.foldl {r r' : Replay} (h : Agree r r') (queue : List (ItemKey × Action)) :
    Agree (queue.foldl Replay.act r) (queue.foldl Replay.act r') := by
  induction queue generalizing r r' with
  | nil => exact h
  | cons e queue ih => exact ih (h.act e)

theorem Agree.addAttributes {r r' : Replay} (h : Agree r r') (attributes : List (String × String)) :
    Agree (attributes.foldl addAttribute r) (attributes.foldl addAttribute r') := by
  obtain ⟨hc, hr, hs, he⟩ := foldl_addAttribute attributes r
  obtain ⟨hc', hr', hs', he'⟩ := foldl_addAttribute attributes r'
  refine ⟨?_, ?_, ?_, ?_⟩
  · rw [hc, hc', h.catalog]
  · rw [hr, hr', h.remaps]
  · rw [hs, hs', h.shadows]
  · rw [he, he', h.extended]

/-- A renaming to the name that the item has drops its shadows the first time, and nothing later. -/
theorem renamed_again (r : Replay) (c : Catalog) (k : ItemKey) (all : Bool) :
    Agree (r.renamed c k k.name all) ((r.renamed c k k.name all).renamed c k k.name all) := by
  have hself : k.renamed k.name = k := rfl
  refine ⟨rfl, ?_, ?_, ?_⟩
  · simp [renamed, followAll, hself, followColumn, follow_self]
  · simp [renamed, followAll, hself, follow_self]
  · simp [renamed, followAll, hself, follow_self]

theorem rename_again {r : Replay} (hn : r.catalog.keys.Nodup) (k : ItemKey) (a : Action) (name : String)
    (all : Bool) : Agree (r.rename k a name all) ((r.rename k a name all).rename k a name all) := by
  cases hc : r.catalog.rename? k a.kind name with
  | none =>
    obtain ⟨m, he⟩ := rename_of_none hc all
    have h : Agree r (r.rename k a name all) := he ▸ agree_note r m
    exact h.rename k a name all
  | some c =>
    obtain ⟨m, he⟩ := rename_of_some hc all
    rw [he]
    by_cases hname : name = k.name
    · subst hname
      have hc' : ((r.renamed c k k.name all).note m).catalog.rename? k a.kind k.name = some c := by
        rw [catalog_note, catalog_renamed, Catalog.retypeReferences_self]
        exact Catalog.rename?_again hn hc
      obtain ⟨m', he'⟩ := rename_of_some hc' all
      rw [he']
      have h := renamed_again r c k all
      exact ⟨h.catalog, h.remaps, h.shadows, h.extended⟩
    · have ht : ((r.renamed c k name all).note m).catalog.isTaken k name = true :=
        Catalog.isTaken_again hc hname all
      rw [Replay.rename, if_pos ht]
      exact agree_note _ _

theorem remap_again (r : Replay) (source : ColumnKey) (target : ItemKey) :
    Agree (r.remap source target) ((r.remap source target).remap source target) := by
  have hshadow : (r.remap source target).shadowed? source target = r.shadowed? source target := rfl
  refine ⟨rfl, upsert_upsert source target r.remaps, ?_, rfl⟩
  simp only [remap, note] at hshadow ⊢
  rw [hshadow]
  cases r.shadowed? source target with
  | none => rfl
  | some s => exact upsert_upsert s target r.shadows

theorem act_again {r : Replay} (hn : r.catalog.keys.Nodup) (e : ItemKey × Action) :
    Agree (r.act e) ((r.act e).act e) := by
  obtain ⟨k, a⟩ := e
  cases a with
  | skip kind =>
    simp only [act]
    cases hc : r.catalog.remove? k kind with
    | none =>
      have he : r.skip k kind = r.note (.absent k (.skip kind)) := by simp [skip, hc]
      have h : Agree r (r.skip k kind) := he ▸ agree_note r _
      exact h.act (k, .skip kind)
    | some c =>
      have he : r.skip k kind = { r with catalog := c }.note (.removed k kind) := by simp [skip, hc]
      rw [he, skip, catalog_note, Catalog.remove?_again hn hc]
      exact agree_note _ _
  | rename name kind => exact rename_again hn k _ name false
  | renameAll name kind => exact rename_again hn k _ name true
  | remap source target kind => exact remap_again r source target

/-- Repeating an action of a queue changes nothing but the log, whatever comes after it. -/
theorem run_repeated {c : Catalog} (hn : c.keys.Nodup) (links : Links)
    (queue : List (ItemKey × Action)) (x : ItemKey × Action) (rest : List (ItemKey × Action))
    (attributes : List (String × String)) :
    Agree (run c links (queue ++ x :: rest) attributes)
      (run c links (queue ++ x :: x :: rest) attributes) := by
  have hnodup : (queue.foldl act (start c links)).catalog.keys.Nodup := nodup_foldl hn queue
  have hagain := ((act_again hnodup x).foldl rest).addAttributes attributes
  simpa only [run, List.foldl_append, List.foldl_cons] using hagain

def remapped : Catalog :=
  { base := "base", generator := "", datasource := "", files := ["base", "f", "g"],
    models := [
      ⟨⟨"f", "User"⟩, [⟨"id", "Int", ["@id"]⟩], 1⟩,
      ⟨⟨"f", "Post"⟩, [⟨"author", "User?", ["@relation"]⟩], 4⟩,
      ⟨⟨"g", "User"⟩, [⟨"id", "Int", ["@id"]⟩], 1⟩],
    enums := [] }

def remapping : ItemKey × Action :=
  (⟨"f", "Post"⟩, .remap ⟨⟨"f", "Post"⟩, "author"⟩ ⟨"g", "User"⟩ .model)

/-- The model that the remap has put out of use gets the name it has, which brings it back. -/
def restoring : ItemKey × Action := (⟨"f", "User"⟩, .renameAll "User" .model)

theorem run_repeated_restoring :
    (run remapped [] [remapping] []).shadows = [(⟨"f", "User"⟩, ⟨"g", "User"⟩)] ∧
      (run remapped [] [remapping, restoring] []).shadows = [] ∧
      Agree (run remapped [] [remapping, restoring] [])
        (run remapped [] [remapping, restoring, restoring] []) := by
  have hn : remapped.keys.Nodup := by decide
  exact ⟨rfl, rfl, run_repeated hn [] [remapping] restoring [] []⟩

end Replay

end FragmentMerge
