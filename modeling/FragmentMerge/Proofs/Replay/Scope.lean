import FragmentMerge.Proofs.Replay.Descent
import FragmentMerge.Proofs.Replay.Fate

/-! The scope of a renaming. A column gets a new type exactly if it names the renamed item and stands in
the fragment of the item or, when the relations of all fragments follow, in one that declares no such name
any more. The type then has the new base and the suffix that it had. -/

namespace FragmentMerge

/-- Whether the relations of all fragments follow. -/
def Action.isForAll : Action → Bool
  | renameAll _ _ => true
  | _ => false

/-- The same column with another base and the suffix of its type. -/
structure Column.Rebased (old new : String) (c d : Column) : Prop where
  name : d.name = c.name
  constraints : d.constraints = c.constraints
  type : c.type = old ++ c.typeSuffix ∧ d.type = new ++ c.typeSuffix
  suffix : c.typeSuffix.toList ∈ suffixes ∧ d.typeSuffix = c.typeSuffix
  base : c.baseType = old ∧ d.baseType = new

/-- The fragments whose columns follow a renaming, by what is declared after it. -/
def Catalog.Concerns (c : Catalog) (k : ItemKey) (a : Action) (file : String) : Prop :=
  file = k.file ∨ a.isForAll = true ∧ ∀ x ∈ c.keys, x.file = file → x.name ≠ k.name

/-- A model before and after the renaming of an item. -/
structure Model.Repaired (k : ItemKey) (name : String) (concerned : Prop) (m m' : Model) : Prop where
  key : m'.key = Replay.follow k (k.renamed name) m.key
  line : m'.line = m.line
  columns : List.Forall₂ (fun col col' =>
    (concerned ∧ col.isRaw = false ∧ col.baseType = k.name → Column.Rebased k.name name col col') ∧
      (¬ (concerned ∧ col.isRaw = false ∧ col.baseType = k.name) → col' = col)) m.columns m'.columns

/-- A catalog before and after the renaming of an item, and the number of columns it has changed. -/
structure Catalog.Repaired (k : ItemKey) (a : Action) (name : String) (n : Nat) (c c' : Catalog) : Prop where
  models : List.Forall₂ (fun m m' => Model.Repaired k name (c'.Concerns k a m.key.file) m m')
    c.models c'.models
  number : n = ((c.models.zip c'.models).flatMap fun p => p.1.columns.zip p.2.columns).countP
    fun p => p.2 ≠ p.1
  unnamed : a.isForAll = true → (∀ x ∈ c.keys, x.name = k.name → x = k) →
    ∀ m ∈ c'.models, ∀ col ∈ m.columns, col.isRaw = false → col.baseType ≠ k.name

theorem Column.typeSuffix_mem (c : Column) : c.typeSuffix.toList ∈ suffixes := by
  obtain ⟨s, hs, h⟩ := eq_baseOf_append c.type.toList
  rw [typeSuffix_eq h, String.toList_ofList]
  exact hs

theorem Column.rebased_retype {old new : String} (hn : IsIdentifier new) {c : Column}
    (hbase : c.baseType = old) : Rebased old new c (c.retype new) := by
  obtain ⟨hnew, hsuffix⟩ := retype_identifier c hn
  have htype : c.type = old ++ c.typeSuffix := by
    rw [← hbase, baseType_append_typeSuffix]
  exact ⟨rfl, rfl, ⟨htype, rfl⟩, ⟨typeSuffix_mem c, hsuffix⟩, hbase, hnew⟩

namespace Catalog

variable {c c' : Catalog} {k : ItemKey} {a : Action} {name old new : String}

theorem refersTo_iff {col : Column} : refersTo old col = true ↔ col.isRaw = false ∧ col.baseType = old := by
  simp [refersTo]

theorem inScope_iff {all : Bool} {file : String} : c.inScope k all file = true ↔
    file = k.file ∨ all = true ∧ ∀ x ∈ c.keys, x.file = file → x.name ≠ k.name := by
  rw [inScope, Bool.or_eq_true, beq_iff_eq, Bool.and_eq_true, Bool.not_eq_true', List.any_eq_false]
  refine or_congr_right (and_congr_right fun _ => forall₂_congr fun x _ => ?_)
  rw [Bool.and_eq_true, beq_iff_eq, beq_iff_eq, not_and]
  exact ⟨fun h hf hn => h hn hf, fun h hn hf => h hf hn⟩

def concerns (c : Catalog) (k : ItemKey) (all : Bool) (file : String) (col : Column) : Bool :=
  c.inScope k all file && refersTo k.name col

def repairColumn (c : Catalog) (k : ItemKey) (name : String) (all : Bool) (file : String)
    (col : Column) : Column :=
  if c.concerns k all file col then col.retype name else col

def repairModel (c : Catalog) (k : ItemKey) (name : String) (all : Bool) (m : Model) : Model :=
  { m with
    key := Replay.follow k (k.renamed name) m.key
    columns := m.columns.map (c.repairColumn k name all m.key.file) }

/-- A column changes exactly if it follows the renaming. -/
theorem repairColumn_ne_iff (hid : IsIdentifier name) (hne : name ≠ k.name) {all : Bool} {file : String}
    {col : Column} : c.repairColumn k name all file col ≠ col ↔ c.concerns k all file col = true := by
  unfold repairColumn
  split
  · next h =>
    refine iff_of_true (fun he => hne ?_) h
    have hbase := (refersTo_iff.1 (Bool.and_eq_true _ _ ▸ h).2).2
    rw [← hbase, ← (Column.retype_identifier col hid).1, he]
  · next h => exact iff_of_false (fun he => he rfl) h

theorem models_retypeReferences (hn : c.keys.Nodup) {kind : ItemKind}
    (h : c.rename? k kind name = some c') (all : Bool) :
    (c'.retypeReferences k name all).models = c.models.map (c'.repairModel k name all) := by
  rw [retypeReferences, models_rename? hn h, List.map_map]
  refine List.map_congr_left fun m _ => ?_
  simp only [Function.comp, Replay.file_follow, repairModel]
  split
  · next hs =>
    have hcolumn : c'.repairColumn k name all m.key.file = retypeColumn k.name name := by
      funext col
      simp [repairColumn, concerns, retypeColumn, hs]
    rw [hcolumn, retypeModel]
  · next hs =>
    have hcolumn : c'.repairColumn k name all m.key.file = id := by
      funext col
      simp [repairColumn, concerns, hs]
    rw [hcolumn, List.map_id]

def following (c : Catalog) (k : ItemKey) (all : Bool) (ms : List Model) : List Column :=
  ms.flatMap fun m => m.columns.filter (c.concerns k all m.key.file)

theorem countReferences_eq (c : Catalog) (k : ItemKey) (all : Bool) :
    c.countReferences k all = (c.following k all c.models).length := by
  rw [countReferences]
  induction c.models with
  | nil => rfl
  | cons m ms ih =>
    rw [following, List.flatMap_cons, List.length_append, ← List.countP_eq_length_filter, ← following, ← ih,
      List.filter_cons]
    split
    · next hs =>
      have hall : c.concerns k all m.key.file = refersTo k.name := funext fun col => by simp [concerns, hs]
      rw [List.flatMap_cons, List.countP_append, hall]
    · next hs =>
      have hnone : c.concerns k all m.key.file = fun _ => false := funext fun col => by simp [concerns, hs]
      rw [hnone, List.countP_false]
      exact (Nat.zero_add _).symm

theorem countP_repaired (hid : IsIdentifier name) (hne : name ≠ k.name) (all : Bool) (ms : List Model) :
    ((ms.zip (ms.map (c.repairModel k name all))).flatMap fun p => p.1.columns.zip p.2.columns).countP
        (fun p => p.2 ≠ p.1) = (c.following k all ms).length := by
  induction ms with
  | nil => rfl
  | cons m ms ih =>
    have hm : (m.columns.zip (c.repairModel k name all m).columns).countP (fun p => p.2 ≠ p.1) =
        (m.columns.filter (c.concerns k all m.key.file)).length := by
      simp only [repairModel]
      rw [← List.map_prod_left_eq_zip, List.countP_map, ← List.countP_eq_length_filter]
      exact List.countP_congr fun col _ => decide_eq_true_iff.trans (repairColumn_ne_iff hid hne)
    rw [List.map_cons, List.zip_cons_cons, List.flatMap_cons, List.countP_append, hm, ih, following, following,
      List.flatMap_cons, List.length_append]

theorem repairModel_repaired (hid : IsIdentifier name) (m : Model) :
    Model.Repaired k name (c.Concerns k a m.key.file) m (c.repairModel k name a.isForAll m) := by
  refine ⟨rfl, rfl, List.forall₂_map_right_iff.2 (List.forall₂_same.2 fun col _ => ?_)⟩
  have hiff : c.concerns k a.isForAll m.key.file col = true ↔
      c.Concerns k a m.key.file ∧ col.isRaw = false ∧ col.baseType = k.name := by
    rw [concerns, Bool.and_eq_true, inScope_iff, refersTo_iff]
    exact Iff.rfl
  rw [← hiff, repairColumn]
  constructor
  · intro h
    rw [if_pos h]
    exact Column.rebased_retype hid (hiff.1 h).2.2
  · exact fun h => if_neg h

/-- When the only item of a name is renamed, no item of this name is left. -/
theorem name_of_only (hn : c.keys.Nodup) {kind : ItemKind} (h : c.rename? k kind name = some c')
    (hne : name ≠ k.name) (honly : ∀ x ∈ c.keys, x.name = k.name → x = k) :
    ∀ x ∈ c'.keys, x.name ≠ k.name := by
  obtain ⟨pre, post, hk, hk'⟩ := keys_rename? h
  have hnot : k ∉ pre ++ post := by
    rw [hk, List.perm_middle.nodup_iff] at hn
    exact (List.nodup_cons.1 hn).1
  intro x hx hname
  rw [hk', List.perm_middle.mem_iff, List.mem_cons] at hx
  rcases hx with rfl | hx
  · exact hne hname
  · have hmem : x ∈ c.keys := by
      rw [hk, List.perm_middle.mem_iff]
      exact List.mem_cons_of_mem _ hx
    exact hnot (honly x hmem hname ▸ hx)

/-- What a renaming that takes place does to the columns of a catalog. -/
theorem repaired_rename (hn : c.keys.Nodup) (h : c.rename? k a.kind name = some c')
    (hid : IsIdentifier name) (hne : name ≠ k.name) :
    Repaired k a name (c'.countReferences k a.isForAll) c (c'.retypeReferences k name a.isForAll) := by
  have hconcerns : (c'.retypeReferences k name a.isForAll).Concerns k a = c'.Concerns k a := by
    funext file
    rw [Concerns, Concerns, keys_retypeReferences]
  refine ⟨?_, ?_, ?_⟩
  · rw [models_retypeReferences hn h, hconcerns]
    exact List.forall₂_map_right_iff.2 (List.forall₂_same.2 fun m _ => repairModel_repaired hid m)
  · rw [models_retypeReferences hn h, countP_repaired hid hne, countReferences_eq, following,
      following, models_rename? hn h, List.flatMap_map]
    simp only [Replay.file_follow]
  · intro hall honly m' hm' col' hcol'
    rw [models_retypeReferences hn h, List.mem_map] at hm'
    obtain ⟨m, -, rfl⟩ := hm'
    obtain ⟨col, -, rfl⟩ := List.mem_map.1 hcol'
    have hscope : c'.inScope k a.isForAll m.key.file = true :=
      inScope_iff.2 (.inr ⟨hall, fun x hx _ => name_of_only hn h hne honly x hx⟩)
    rw [repairColumn]
    split
    · intro _ hbase
      exact hne ((Column.retype_identifier col hid).1.symm.trans hbase)
    · next hc =>
      intro hraw hbase
      exact hc (Bool.and_eq_true _ _ ▸ ⟨hscope, refersTo_iff.2 ⟨hraw, hbase⟩⟩)

end Catalog

namespace Replay

variable {r : Replay} {k old new : ItemKey} {a : Action} {name : String} {n : Nat}

/-- An action that is logged as a renaming has carried it out. -/
theorem act_of_renamed (ha : a.newName? = some name)
    (h : (r.act (k, a)).log = r.log ++ [.renamed old new n]) :
    ∃ c, r.catalog.rename? k a.kind name = some c ∧
      (r.act (k, a)).catalog = c.retypeReferences k name a.isForAll ∧
      n = c.countReferences k a.isForAll := by
  have hact : r.act (k, a) = r.rename k a name a.isForAll := by
    cases a <;> cases ha <;> rfl
  rw [hact]
  rw [hact, rename] at h
  split at h
  · exact absurd (List.append_cancel_left h) (by simp)
  · next ht =>
    cases hc : r.catalog.rename? k a.kind name with
    | none =>
      rw [hc] at h
      exact absurd (List.append_cancel_left h) (by simp)
    | some c =>
      rw [hc] at h
      have hm : Mutation.renamed k (k.renamed name) (c.countReferences k a.isForAll) = .renamed old new n :=
        List.singleton_inj.1 (List.append_cancel_left h)
      obtain ⟨-, -, rfl⟩ := Mutation.renamed.inj hm
      obtain ⟨m, he⟩ := rename_of_some hc a.isForAll
      exact ⟨c, rfl, by rw [he, catalog_note, catalog_renamed], rfl⟩

theorem repaired_act (hn : r.catalog.keys.Nodup) (ha : a.newName? = some name) (hid : IsIdentifier name)
    (hne : name ≠ k.name) (h : (r.act (k, a)).log = r.log ++ [.renamed old new n]) :
    Catalog.Repaired k a name n r.catalog (r.act (k, a)).catalog := by
  obtain ⟨c, hc, hcat, rfl⟩ := act_of_renamed ha h
  rw [hcat]
  exact Catalog.repaired_rename hn hc hid hne

end Replay

end FragmentMerge
