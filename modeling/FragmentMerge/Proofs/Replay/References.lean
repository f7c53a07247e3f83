import FragmentMerge.Proofs.Replay.Descent
import FragmentMerge.Proofs.Replay.Visibility

/-! Relation columns that name an item. Attributes leave them alone as long as no attribute is such a
column, and the renaming of another item does no more than give their model its new key. -/

namespace FragmentMerge

/-- A relation column whose type names an item. -/
def Column.relatesTo (name : String) (c : Column) : Bool :=
  !c.isRaw && c.isRelation && c.baseType == name

namespace Replay

theorem relationsTo_eq (m : Model) (name : String) :
    relationsTo m name = (m.columns.filter (Column.relatesTo name)).map fun c => m.key.column c.name := rfl

theorem item_of_mem_relationsTo {m : Model} {name : String} {col : ColumnKey}
    (h : col ∈ relationsTo m name) : col.item = m.key := by
  obtain ⟨c, -, rfl⟩ := List.mem_map.1 h
  rfl

theorem relationsTo_moved (m : Model) (k : ItemKey) (name : String) :
    relationsTo { m with key := k } name = (relationsTo m name).map fun col => { col with item := k } := by
  rw [relationsTo_eq, relationsTo_eq, List.map_map]
  rfl

theorem referring_eq (r : Replay) (name : String) : r.referring name =
    r.catalog.models.flatMap fun m => if r.isVisible m.key then relationsTo m name else [] := by
  rw [referring]
  induction r.catalog.models with
  | nil => rfl
  | cons m ms ih =>
    rw [List.filter_cons, List.flatMap_cons, ← ih]
    split
    · rw [List.flatMap_cons]
    · rfl

theorem relationsTo_push {name : String} {c : Column} (h : c.relatesTo name = false) (m : Model) :
    relationsTo (m.push c) name = relationsTo m name := by
  simp [relationsTo_eq, Model.push, List.filter_append, h]

theorem referring_addAttribute {name : String} {a : String × String}
    (h : (Column.parse a.2).relatesTo name = false) (r : Replay) :
    (r.addAttribute a).referring name = r.referring name := by
  rw [referring_eq, referring_eq, addAttribute, List.flatMap_map]
  refine List.flatMap_congr fun m _ => ?_
  split
  · rw [relationsTo_push h]
    rfl
  · rfl

theorem referring_foldl {name : String} {as : List (String × String)}
    (h : ∀ a ∈ as, (Column.parse a.2).relatesTo name = false) (r : Replay) :
    (as.foldl addAttribute r).referring name = r.referring name := by
  induction as generalizing r with
  | nil => rfl
  | cons a as ih =>
    rw [List.foldl_cons, ih fun b hb => h b (List.mem_cons_of_mem _ hb),
      referring_addAttribute (h a List.mem_cons_self)]

section Retyped

variable {old new name : String}

theorem relatesTo_retypeColumn (hn : IsIdentifier new) (hold : old ≠ name) (hnew : new ≠ name)
    (c : Column) : (Catalog.retypeColumn old new c).relatesTo name = c.relatesTo name := by
  unfold Catalog.retypeColumn
  split
  · next h =>
    simp only [Catalog.refersTo, Bool.and_eq_true, beq_iff_eq] at h
    rw [Column.relatesTo, Column.relatesTo, (Column.retype_identifier c hn).1, h.2, beq_false_of_ne hold,
      beq_false_of_ne hnew, Bool.and_false, Bool.and_false]
  · rfl

theorem relationsTo_retypeModel (hn : IsIdentifier new) (hold : old ≠ name) (hnew : new ≠ name)
    (m : Model) : relationsTo (Catalog.retypeModel old new m) name = relationsTo m name := by
  have hsame : Column.relatesTo name ∘ Catalog.retypeColumn old new = Column.relatesTo name :=
    funext fun c => relatesTo_retypeColumn hn hold hnew c
  rw [relationsTo_eq, relationsTo_eq, Catalog.retypeModel, List.filter_map, hsame, List.map_map]
  refine List.map_congr_left fun c _ => ?_
  rw [Function.comp, Catalog.retypeColumn]
  split <;> rfl

end Retyped

section Renamed

variable {r : Replay} {c : Catalog} {k : ItemKey} {kind : ItemKind} {new name : String}

theorem isVisible_renamed (hk : k ∉ r.hidden) (all : Bool) (x : ItemKey) :
    (r.renamed c k new all).isVisible x = r.isVisible x := by
  have hpar : k ∉ r.parents := fun h => hk (mem_hidden.2 (.inr h))
  have hmem : x ∈ (r.renamed c k new all).hidden ↔ x ∈ r.hidden := by
    rw [mem_hidden_renamed]
    constructor
    · rintro (⟨-, h⟩ | ⟨h, -⟩)
      · exact absurd h hpar
      · exact h
    · exact fun h => .inr ⟨h, fun he => hk (he ▸ h)⟩
  simp [isVisible, hmem]

/-- Relation columns follow the model that has them, unless its new key hides them. -/
theorem referring_renamed (hn : r.catalog.keys.Nodup) (h : r.catalog.rename? k kind new = some c)
    (hk : k ∉ r.hidden) (hnew : IsIdentifier new) (hne : k.name ≠ name) (hne' : new ≠ name) (all : Bool) :
    (r.renamed c k new all).referring name =
      ((r.referring name).filter fun col => col.item != k || r.isVisible (k.renamed new)).map
        (followColumn k (k.renamed new)) := by
  obtain rfl := Catalog.rename?_eq_map hn h
  rw [referring_eq, referring_eq, catalog_renamed, Catalog.retypeReferences, List.flatMap_map,
    List.flatMap_map, List.filter_flatMap, List.map_flatMap]
  refine List.flatMap_congr fun m _ => ?_
  have hretyped : ∀ (b : Bool) (d : Model),
      (if b then Catalog.retypeModel k.name new d else d).key = d.key ∧
        relationsTo (if b then Catalog.retypeModel k.name new d else d) name = relationsTo d name := by
    intro b d
    cases b
    · exact ⟨rfl, rfl⟩
    · exact ⟨rfl, relationsTo_retypeModel hnew hne hne' d⟩
  rw [(hretyped _ _).1, (hretyped _ _).2, isVisible_renamed hk]
  have hitem : ∀ col ∈ relationsTo m name, col.item = m.key := fun _ => item_of_mem_relationsTo
  by_cases hm : m.key = k
  · have hvis : r.isVisible k = true := by simpa [isVisible] using hk
    rw [if_pos hm, hm, if_pos hvis]
    by_cases hnewvis : r.isVisible (k.renamed new) = true
    · have hall : (relationsTo m name).filter (fun col => col.item != k || r.isVisible (k.renamed new)) =
          relationsTo m name := List.filter_eq_self.2 fun _ _ => by simp [hnewvis]
      rw [if_pos hnewvis, hall, relationsTo_moved]
      refine List.map_congr_left fun col hcol => ?_
      rw [followColumn, hitem col hcol, hm, follow_old]
    · have hnone : (relationsTo m name).filter (fun col => col.item != k || r.isVisible (k.renamed new)) =
          [] := List.filter_eq_nil_iff.2 fun col hcol => by simp [hitem col hcol, hm, hnewvis]
      rw [if_neg hnewvis, hnone, List.map_nil]
  · rw [if_neg hm]
    split
    · have hall : (relationsTo m name).filter (fun col => col.item != k || r.isVisible (k.renamed new)) =
          relationsTo m name := List.filter_eq_self.2 fun col hcol => by simp [hitem col hcol, hm]
      have hsame : (relationsTo m name).map (followColumn k (k.renamed new)) =
          (relationsTo m name).map id := List.map_congr_left fun col hcol => by
        rw [followColumn, hitem col hcol, follow_of_ne hm, ← hitem col hcol]
        rfl
      rw [hall, hsame, List.map_id]
    · rfl

end Renamed

end Replay

end FragmentMerge
