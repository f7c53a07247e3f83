import FragmentMerge.Proofs.Catalog.Distinct
import FragmentMerge.Proofs.Catalog.Readable
import FragmentMerge.Proofs.Data.Aligned
import FragmentMerge.Proofs.Replay.Fate
import FragmentMerge.Proofs.Schema.Column

/-! What a queue makes of a catalog. Its items stay in load order; those that are taken out are missing,
the others have the keys that the log says, and columns differ in nothing but the bases of their
types. -/

namespace FragmentMerge

/-- The same line but for the base of its type. -/
structure Column.Retypes (c d : Column) : Prop where
  name : d.name = c.name
  constraints : d.constraints = c.constraints
  suffix : d.typeSuffix = c.typeSuffix
  isRaw : d.isRaw = c.isRaw
  raw : c.isRaw = true → d = c

/-- A model that comes from another by the effects of a log. -/
structure Model.Descends (log : List Mutation) (m m' : Model) : Prop where
  key : Replay.fate log m.key = some m'.key
  file : m'.key.file = m.key.file
  line : m'.line = m.line
  columns : List.Forall₂ Column.Retypes m.columns m'.columns

structure EnumItem.Descends (log : List Mutation) (e e' : EnumItem) : Prop where
  key : Replay.fate log e.key = some e'.key
  file : e'.key.file = e.key.file
  line : e'.line = e.line
  values : e'.values = e.values
  named : e.name = e.key.name → e'.name = e'.key.name

structure Catalog.Descends (log : List Mutation) (c c' : Catalog) : Prop where
  base : c'.base = c.base
  generator : c'.generator = c.generator
  datasource : c'.datasource = c.datasource
  files : c'.files = c.files
  models : List.Forall₂ (Model.Descends log)
    (c.models.filter fun m => (Replay.fate log m.key).isSome) c'.models
  enums : List.Forall₂ (EnumItem.Descends log)
    (c.enums.filter fun e => (Replay.fate log e.key).isSome) c'.enums
  lost : log.countP Mutation.isRemoval + c'.keys.length = c.keys.length

namespace Column

theorem Retypes.refl (c : Column) : Retypes c c := ⟨rfl, rfl, rfl, rfl, fun _ => rfl⟩

theorem Retypes.trans {a b c : Column} (h : Retypes a b) (g : Retypes b c) : Retypes a c :=
  ⟨g.name.trans h.name, g.constraints.trans h.constraints, g.suffix.trans h.suffix,
    g.isRaw.trans h.isRaw, fun ha => (g.raw (h.isRaw.trans ha)).trans (h.raw ha)⟩

/-- An identifier ends in nothing that could be taken for what modifies a type. -/
theorem retype_identifier (c : Column) {name : String} (hn : IsIdentifier name) :
    (c.retype name).baseType = name ∧ (c.retype name).typeSuffix = c.typeSuffix := by
  have hlast : ∀ d, d ∈ name.toList.getLast? → d ≠ '?' ∧ d ≠ ']' := fun d hd => by
    rcases hn.last hd with h | rfl
    · exact ⟨fun he => absurd (he ▸ h) (by decide), fun he => absurd (he ▸ h) (by decide)⟩
    · decide
  exact retype_spec c (fun h => (hlast _ h).1 rfl) fun h => (hlast _ h).2 rfl

theorem retypes_retype {c : Column} {name : String} (hn : IsIdentifier name) (hc : c.isRaw = false) :
    Retypes c (c.retype name) := by
  have hraw : (c.retype name).isRaw = false := by
    simp [isRaw, retype, hn.ne_empty]
  exact ⟨rfl, rfl, (retype_identifier c hn).2, hraw.trans hc.symm,
    fun h => absurd (h.symm.trans hc) (by decide)⟩

theorem retypes_retypeColumn {old new : String} (hn : IsIdentifier new) (c : Column) :
    Retypes c (Catalog.retypeColumn old new c) := by
  unfold Catalog.retypeColumn
  split
  · next h =>
    simp only [Catalog.refersTo, Bool.and_eq_true, Bool.not_eq_true'] at h
    exact retypes_retype hn h.1
  · exact .refl c

theorem forall₂_retypes_refl (cs : List Column) : List.Forall₂ Retypes cs cs :=
  List.forall₂_same.2 fun c _ => .refl c

theorem forall₂_retypes_trans {as bs cs : List Column} (h : List.Forall₂ Retypes as bs)
    (g : List.Forall₂ Retypes bs cs) : List.Forall₂ Retypes as cs :=
  forall₂_trans (fun _ _ _ hab hbc => hab.trans hbc) h g

end Column

theorem Model.Descends.trans {l l' : List Mutation} {a b c : Model} (h : Descends l a b)
    (g : Descends l' b c) : Descends (l ++ l') a c :=
  ⟨by rw [Replay.fate_append, h.key, Option.bind_some, g.key], g.file.trans h.file, g.line.trans h.line,
    Column.forall₂_retypes_trans h.columns g.columns⟩

theorem EnumItem.Descends.trans {l l' : List Mutation} {a b c : EnumItem} (h : Descends l a b)
    (g : Descends l' b c) : Descends (l ++ l') a c :=
  ⟨by rw [Replay.fate_append, h.key, Option.bind_some, g.key], g.file.trans h.file, g.line.trans h.line,
    g.values.trans h.values, fun hn => g.named (h.named hn)⟩

namespace Catalog

theorem Descends.trans {l l' : List Mutation} {a b c : Catalog} (h : Descends l a b)
    (g : Descends l' b c) : Descends (l ++ l') a c := by
  have hlost : ∀ k, (Replay.fate l k).isSome = false → (Replay.fate (l ++ l') k).isSome = false := by
    intro k hk
    rw [Replay.fate_append, Option.not_isSome_iff_eq_none.1 (Bool.eq_false_iff.1 hk), Option.bind_none]
    exact Option.isSome_none
  have hkept : ∀ k k', Replay.fate l k = some k' →
      (Replay.fate (l ++ l') k).isSome = (Replay.fate l' k').isSome := by
    intro k k' hk
    rw [Replay.fate_append, hk, Option.bind_some]
  exact ⟨g.base.trans h.base, g.generator.trans h.generator, g.datasource.trans h.datasource,
    g.files.trans h.files,
    forall₂_filter_trans (fun m => hlost m.key) (fun m _ hm => hkept m.key _ hm.key)
      (fun _ _ _ hm hm' => hm.trans hm') h.models g.models,
    forall₂_filter_trans (fun e => hlost e.key) (fun e _ he => hkept e.key _ he.key)
      (fun _ _ _ he he' => he.trans he') h.enums g.enums,
    by rw [List.countP_append, Nat.add_assoc, g.lost, h.lost]⟩

theorem Descends.of_kept {log : List Mutation} {c c' : Catalog}
    (hbase : c'.base = c.base) (hgen : c'.generator = c.generator)
    (hdata : c'.datasource = c.datasource) (hfiles : c'.files = c.files)
    (h : ∀ k, (Replay.fate log k).isSome = true) (hlost : log.countP Mutation.isRemoval = 0)
    (hm : List.Forall₂ (Model.Descends log) c.models c'.models)
    (he : List.Forall₂ (EnumItem.Descends log) c.enums c'.enums) : Descends log c c' := by
  refine ⟨hbase, hgen, hdata, hfiles, ?_, ?_, ?_⟩
  · simpa only [h, List.filter_true] using hm
  · simpa only [h, List.filter_true] using he
  · simp [keys, hlost, hm.length_eq, he.length_eq]

theorem Descends.of_stays {log : List Mutation} (h : ∀ m ∈ log, ∀ k, m.move k = some k) (c : Catalog) :
    Descends log c c := by
  have hfate := Replay.fate_of_stays h
  have hremoval : ∀ m ∈ log, ¬ m.isRemoval = true := by
    intro m hm hr
    cases m with
    | removed k kind => exact absurd (h _ hm k) (by simp [Mutation.move])
    | _ => cases hr
  refine .of_kept rfl rfl rfl rfl (fun k => by rw [hfate, Option.isSome_some])
    (List.countP_eq_zero.2 hremoval)
    (List.forall₂_same.2 fun m _ => ?_) (List.forall₂_same.2 fun e _ => ?_)
  · exact ⟨hfate m.key, rfl, rfl, Column.forall₂_retypes_refl m.columns⟩
  · exact ⟨hfate e.key, rfl, rfl, rfl, id⟩

theorem descends_remove {c c' : Catalog} {k : ItemKey} {kind : ItemKind} (hn : c.keys.Nodup)
    (h : c.remove? k kind = some c') : Descends [.removed k kind] c c' := by
  have hfate : ∀ x : ItemKey, (Replay.fate [.removed k kind] x).isSome = (x != k) := by
    intro x
    by_cases hx : x = k <;> simp [Mutation.move, hx]
  obtain ⟨pre, post, hi, hi'⟩ := items_remove? h
  have hlost : [Mutation.removed k kind].countP Mutation.isRemoval + c'.keys.length =
      c.keys.length := by
    rw [keys_eq_map_items, keys_eq_map_items, hi, hi']
    simp [Mutation.isRemoval]
    omega
  obtain rfl := remove?_eq_filter hn h
  refine ⟨rfl, rfl, rfl, rfl, ?_, ?_, hlost⟩
  · simp only [hfate]
    refine List.forall₂_same.2 fun m hm => ⟨?_, rfl, rfl, Column.forall₂_retypes_refl m.columns⟩
    have hne := (List.mem_filter.1 hm).2
    rw [Replay.fate_singleton, Mutation.move, if_neg (bne_iff_ne.1 hne)]
  · simp only [hfate]
    refine List.forall₂_same.2 fun e he => ⟨?_, rfl, rfl, rfl, id⟩
    have hne := (List.mem_filter.1 he).2
    rw [Replay.fate_singleton, Mutation.move, if_neg (bne_iff_ne.1 hne)]

theorem descends_rename {c c' : Catalog} {k : ItemKey} {kind : ItemKind} {name : String}
    (hn : c.keys.Nodup) (h : c.rename? k kind name = some c') (retyped : Nat) :
    Descends [.renamed k (k.renamed name) retyped] c c' := by
  have hfate : ∀ x, Replay.fate [.renamed k (k.renamed name) retyped] x =
      some (Replay.follow k (k.renamed name) x) := fun x => Replay.fate_singleton _ x
  obtain rfl := rename?_eq_map hn h
  refine .of_kept rfl rfl rfl rfl (fun x => by rw [hfate, Option.isSome_some]) rfl
    (List.forall₂_map_right_iff.2 (List.forall₂_same.2 fun m _ => ?_))
    (List.forall₂_map_right_iff.2 (List.forall₂_same.2 fun e _ => ?_))
  · split
    · next hm =>
      exact ⟨by rw [hfate, hm, Replay.follow_old], by rw [hm]; rfl, rfl,
        Column.forall₂_retypes_refl m.columns⟩
    · next hm =>
      exact ⟨by rw [hfate, Replay.follow_of_ne hm], rfl, rfl, Column.forall₂_retypes_refl m.columns⟩
  · split
    · next he =>
      exact ⟨by rw [hfate, he, Replay.follow_old], by rw [he]; rfl, rfl, rfl, fun _ => rfl⟩
    · next he =>
      exact ⟨by rw [hfate, Replay.follow_of_ne he], rfl, rfl, rfl, id⟩

theorem descends_retype {name : String} (hname : IsIdentifier name) (c : Catalog) (k : ItemKey)
    (all : Bool) : Descends [] c (c.retypeReferences k name all) := by
  refine .of_kept rfl rfl rfl rfl (fun _ => rfl) rfl
    (List.forall₂_map_right_iff.2 (List.forall₂_same.2 fun m _ => ?_))
    (List.forall₂_same.2 fun e _ => ⟨rfl, rfl, rfl, rfl, id⟩)
  split
  · refine ⟨rfl, rfl, rfl, List.forall₂_map_right_iff.2 (List.forall₂_same.2 fun col _ => ?_)⟩
    exact Column.retypes_retypeColumn hname col
  · exact ⟨rfl, rfl, rfl, Column.forall₂_retypes_refl m.columns⟩

end Catalog

namespace Replay

/-- An action writes one effect to the log, and the catalog is what this effect says. -/
structure Carries (r : Replay) (e : ItemKey × Action) (m : Mutation) (r' : Replay) : Prop where
  log : r'.log = r.log ++ [m]
  records : Records e m
  catalog : Catalog.Descends [m] r.catalog r'.catalog

theorem carries_note {r : Replay} {e : ItemKey × Action} {m : Mutation} (h : Records e m)
    (hm : ∀ k, m.move k = some k) : Carries r e m (r.note m) :=
  ⟨rfl, h, .of_stays (by simpa using hm) r.catalog⟩

theorem carries_rename {r : Replay} (hn : r.catalog.keys.Nodup) (k : ItemKey) {a : Action}
    {name : String} (hname : IsIdentifier name) (ha : a.newName? = some name) (all : Bool) :
    ∃ m, Carries r (k, a) m (r.rename k a name all) := by
  rw [rename]
  split
  · exact ⟨_, carries_note (.taken ha) fun _ => rfl⟩
  · split
    · exact ⟨_, carries_note (.absent ha) fun _ => rfl⟩
    · next c hc =>
      exact ⟨_, rfl, .renamed _ ha,
        (Catalog.descends_rename hn hc _).trans (Catalog.descends_retype hname c k all)⟩

theorem carries_act {r : Replay} (hn : r.catalog.keys.Nodup) (e : ItemKey × Action)
    (hname : ∀ name, e.2.newName? = some name → IsIdentifier name) :
    ∃ m, Carries r e m (r.act e) := by
  obtain ⟨k, a⟩ := e
  cases a with
  | skip kind =>
    simp only [act, skip]
    split
    · next c hc => exact ⟨_, rfl, .removed k kind, Catalog.descends_remove hn hc⟩
    · exact ⟨_, carries_note (.nothing k kind) fun _ => rfl⟩
  | rename name kind => exact carries_rename hn k (hname name rfl) rfl false
  | renameAll name kind => exact carries_rename hn k (hname name rfl) rfl true
  | remap source target kind =>
    exact ⟨_, rfl, .remapped k source target kind _, .of_stays (by simp [Mutation.move]) r.catalog⟩

theorem carries_foldl {queue : List (ItemKey × Action)} {r : Replay} (hn : r.catalog.keys.Nodup)
    (hnames : ∀ e ∈ queue, ∀ name, e.2.newName? = some name → IsIdentifier name) :
    ∃ log, (queue.foldl act r).log = r.log ++ log ∧ List.Forall₂ Records queue log ∧
      Catalog.Descends log r.catalog (queue.foldl act r).catalog := by
  induction queue generalizing r with
  | nil => exact ⟨[], (List.append_nil _).symm, .nil, .of_stays (by simp) r.catalog⟩
  | cons e queue ih =>
    obtain ⟨m, hm⟩ := carries_act hn e (hnames e List.mem_cons_self)
    obtain ⟨log, hlog, hrec, hdesc⟩ :=
      ih (nodup_act hn e) fun x hx => hnames x (List.mem_cons_of_mem _ hx)
    refine ⟨m :: log, ?_, .cons hm.records hrec, hm.catalog.trans hdesc⟩
    rw [List.foldl_cons, hlog, hm.log, List.append_assoc, List.singleton_append]

end Replay

end FragmentMerge
