import FragmentMerge.Proofs.Catalog.Distinct
import FragmentMerge.Proofs.Replay.Cases
import Mathlib.Data.List.Forall2

/-! The fate of an item. Keys name items only for a time: a renaming frees one name and takes another,
which can be the old name of a third item. The log tells how to follow an item through all of it. An
action writes one effect to the log, and afterwards the models have the keys that this effect takes them
to; so the log of a queue tells the keys of all models. -/

namespace FragmentMerge

namespace Mutation

/-- Where an effect takes an item; nowhere when it takes the item out. -/
def move : Mutation → ItemKey → Option ItemKey
  | removed key _, k => if k = key then none else some k
  | renamed old new _, k => some (Replay.follow old new k)
  | _, k => some k

def isRemoval : Mutation → Bool
  | removed _ _ => true
  | _ => false

end Mutation

namespace Replay

/-- The key of an item after the effects of a log, unless one of them takes it out. -/
def fate : List Mutation → ItemKey → Option ItemKey
  | [], k => some k
  | m :: log, k => (m.move k).bind (fate log)

@[simp] theorem fate_nil (k : ItemKey) : fate [] k = some k := rfl

@[simp] theorem fate_singleton (m : Mutation) (k : ItemKey) : fate [m] k = m.move k := by
  cases h : m.move k <;> simp [fate, h]

theorem fate_append (l l' : List Mutation) (k : ItemKey) :
    fate (l ++ l') k = (fate l k).bind (fate l') := by
  induction l generalizing k with
  | nil => rfl
  | cons m l ih =>
    rw [List.cons_append, fate, fate, Option.bind_assoc]
    exact congrArg _ (funext ih)

theorem fate_of_stays {log : List Mutation} (h : ∀ m ∈ log, ∀ k, m.move k = some k) (k : ItemKey) :
    fate log k = some k := by
  induction log with
  | nil => rfl
  | cons m log ih =>
    rw [fate, h m List.mem_cons_self, Option.bind_some]
    exact ih fun m hm => h m (List.mem_cons_of_mem _ hm)

theorem follow_of_ne {old new k : ItemKey} (h : k ≠ old) : follow old new k = k := if_neg h

theorem follow_old (old new : ItemKey) : follow old new old = new := if_pos rfl

theorem file_follow (k x : ItemKey) (name : String) : (follow k (k.renamed name) x).file = x.file := by
  rw [follow]
  split
  · next h => exact h ▸ rfl
  · rfl

/-- A new key that no other item has is taken by the renamed item alone. -/
theorem follow_inj {old new a b : ItemKey} (ha : a = old ∨ a ≠ new) (hb : b = old ∨ b ≠ new)
    (h : follow old new a = follow old new b) : a = b := by
  unfold follow at h
  split at h <;> split at h <;> simp_all

/-- How an entry of the queue is answered in the log. -/
inductive Records : ItemKey × Action → Mutation → Prop
  | removed (k : ItemKey) (kind : ItemKind) : Records (k, .skip kind) (.removed k kind)
  | nothing (k : ItemKey) (kind : ItemKind) : Records (k, .skip kind) (.absent k (.skip kind))
  | renamed {k : ItemKey} {a : Action} {name : String} (retyped : Nat) (h : a.newName? = some name) :
      Records (k, a) (.renamed k (k.renamed name) retyped)
  | taken {k : ItemKey} {a : Action} {name : String} (h : a.newName? = some name) :
      Records (k, a) (.nameTaken k name)
  | absent {k : ItemKey} {a : Action} {name : String} (h : a.newName? = some name) :
      Records (k, a) (.absent k a)
  | remapped (k : ItemKey) (source : ColumnKey) (target : ItemKey) (kind : ItemKind)
      (shadow : Option ItemKey) :
      Records (k, .remap source target kind) (.remapped source target shadow)

end Replay

end FragmentMerge

namespace FragmentMerge

theorem Catalog.models_rename? {c c' : Catalog} {k : ItemKey} {kind : ItemKind} {name : String}
    (hn : c.keys.Nodup) (h : c.rename? k kind name = some c') :
    c'.models = c.models.map fun m => { m with key := Replay.follow k (k.renamed name) m.key } := by
  refine (congrArg Catalog.models (rename?_eq_map hn h)).trans (List.map_congr_left fun m _ => ?_)
  rw [Replay.follow]
  split <;> rfl

namespace Replay

theorem modelKeys_renamed {r : Replay} {c : Catalog} {k : ItemKey} {kind : ItemKind} {name : String}
    (hn : r.catalog.keys.Nodup) (h : r.catalog.rename? k kind name = some c) (all : Bool) :
    (r.renamed c k name all).catalog.models.map Model.key =
      (r.catalog.models.map Model.key).map (follow k (k.renamed name)) := by
  rw [catalog_renamed, Catalog.retypeReferences, Catalog.models_rename? hn h, List.map_map, List.map_map,
    List.map_map]
  refine List.map_congr_left fun m _ => ?_
  simp only [Function.comp]
  split <;> rfl

/-- An action writes one effect to the log, and the models move as this effect says. -/
structure Moves (r : Replay) (e : ItemKey × Action) (m : Mutation) (r' : Replay) : Prop where
  log : r'.log = r.log ++ [m]
  records : Records e m
  keys : r'.catalog.models.map Model.key = (r.catalog.models.map Model.key).filterMap m.move

theorem moves_note {r : Replay} {e : ItemKey × Action} {m : Mutation} (h : Records e m)
    (hm : ∀ k, m.move k = some k) : Moves r e m (r.note m) :=
  ⟨rfl, h, by rw [funext hm, List.filterMap_some, catalog_note]⟩

theorem moves_rename {r : Replay} (hn : r.catalog.keys.Nodup) (k : ItemKey) {a : Action}
    {name : String} (ha : a.newName? = some name) (all : Bool) :
    ∃ m, Moves r (k, a) m (r.rename k a name all) := by
  rw [rename]
  split
  · exact ⟨_, moves_note (.taken ha) fun _ => rfl⟩
  · split
    · exact ⟨_, moves_note (.absent ha) fun _ => rfl⟩
    · next c hc =>
      refine ⟨_, rfl, .renamed _ ha, (modelKeys_renamed hn hc all).trans ?_⟩
      rw [← List.filterMap_eq_map]
      rfl

theorem moves_act {r : Replay} (hn : r.catalog.keys.Nodup) (e : ItemKey × Action) :
    ∃ m, Moves r e m (r.act e) := by
  obtain ⟨k, a⟩ := e
  cases a with
  | skip kind =>
    simp only [act, skip]
    split
    · next c hc =>
      refine ⟨_, rfl, .removed k kind, ?_⟩
      have hmove : (Mutation.removed k kind).move = Option.guard fun x => x != k := by
        funext x
        by_cases hx : x = k <;> simp [Mutation.move, Option.guard, hx]
      obtain rfl := Catalog.remove?_eq_filter hn hc
      rw [hmove, List.filterMap_eq_filter, List.filter_map]
      rfl
    · exact ⟨_, moves_note (.nothing k kind) fun _ => rfl⟩
  | rename name kind => exact moves_rename hn k rfl false
  | renameAll name kind => exact moves_rename hn k rfl true
  | remap source target kind =>
    exact ⟨_, rfl, .remapped k source target kind _, (List.filterMap_some).symm⟩

theorem moves_foldl (queue : List (ItemKey × Action)) {r : Replay} (hn : r.catalog.keys.Nodup) :
    ∃ log, (queue.foldl act r).log = r.log ++ log ∧ List.Forall₂ Records queue log ∧
      (queue.foldl act r).catalog.models.map Model.key =
        (r.catalog.models.map Model.key).filterMap (fate log) := by
  induction queue generalizing r with
  | nil => exact ⟨[], (List.append_nil _).symm, .nil, (List.filterMap_some).symm⟩
  | cons e queue ih =>
    obtain ⟨m, hm⟩ := moves_act hn e
    obtain ⟨log, hlog, hrec, hkeys⟩ := ih (nodup_act hn e)
    refine ⟨m :: log, ?_, .cons hm.records hrec, ?_⟩
    · rw [List.foldl_cons, hlog, hm.log, List.append_assoc, List.singleton_append]
    · rw [List.foldl_cons, hkeys, hm.keys, List.filterMap_filterMap]
      rfl

end Replay

end FragmentMerge
