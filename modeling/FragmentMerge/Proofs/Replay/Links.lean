import FragmentMerge.Proofs.Catalog.Distinct
import FragmentMerge.Proofs.Data.Aligned
import FragmentMerge.Proofs.Replay.Fate
import FragmentMerge.Proofs.Replay.Remaps
import Mathlib.Data.List.Induction

/-! Links follow the item and not the name. As long as nothing is taken out, the models of a replay stand
where they stood in the pristine catalog, so a model is known by its place. Remaps, replacements and
parents name, at the end of a replay, the models that they named when they were installed. -/

namespace FragmentMerge.Replay

/-- The model that the pristine catalog declares as `p` has the key `k` in a replay. -/
def Names (c : Catalog) (r : Replay) (p k : ItemKey) : Prop :=
  (p, k) ∈ (c.models.map Model.key).zip (r.catalog.models.map Model.key)

instance (c : Catalog) (r : Replay) (p k : ItemKey) : Decidable (Names c r p k) :=
  inferInstanceAs (Decidable (_ ∈ _))

/-- The latest remap in a queue of a column, which is known by its pristine model, and the pristine
model that this remap named as its target. -/
inductive Installed (c : Catalog) (links : Links) : List (ItemKey × Action) → ColumnKey → ItemKey → Prop
  | here {queue : List (ItemKey × Action)} (k : ItemKey) (source : ColumnKey) (target : ItemKey)
      (kind : ItemKind) {p q : ItemKey} :
      Names c (run c links queue []) p source.item → Names c (run c links queue []) q target →
      Installed c links (queue ++ [(k, .remap source target kind)]) ⟨p, source.column⟩ q
  | later {queue : List (ItemKey × Action)} {e : ItemKey × Action} {p : ColumnKey} {q : ItemKey} :
      Installed c links queue p q →
      (∀ source target kind, e.2 = .remap source target kind → source.column = p.column →
        ¬ Names c (run c links queue []) p.item source.item) →
      Installed c links (queue ++ [e]) p q

/-- The latest remap in a queue that put the model of this key out of use, and the pristine model that
this remap named as its target. -/
inductive Replaced (c : Catalog) (links : Links) : List (ItemKey × Action) → ItemKey → ItemKey → Prop
  | here {queue : List (ItemKey × Action)} (k : ItemKey) (source : ColumnKey) (target : ItemKey)
      (kind : ItemKind) {s q : ItemKey} :
      (run c links queue []).shadowed? source target = some s →
      Names c (run c links queue []) q target →
      Replaced c links (queue ++ [(k, .remap source target kind)]) s q
  | later {queue : List (ItemKey × Action)} {e : ItemKey × Action} {s q : ItemKey} :
      Replaced c links queue s q →
      (∀ source target kind, e.2 = .remap source target kind →
        (run c links queue []).shadowed? source target ≠ some s) →
      Replaced c links (queue ++ [e]) s q

/-- Links that name the models that they named when they were installed. -/
structure Tied (c : Catalog) (links : Links) (queue : List (ItemKey × Action)) (r : Replay) : Prop where
  distinct : r.catalog.keys.Nodup
  places : r.catalog.models.length = c.models.length
  remaps : ∀ source target, (source, target) ∈ r.remaps ↔ ∃ p q,
    Installed c links queue ⟨p, source.column⟩ q ∧ Names c r p source.item ∧ Names c r q target
  once : (r.remaps.map Prod.fst).Nodup
  shadowedOnce : (r.shadows.map Prod.fst).Nodup
  shadows : ∀ s target, (s, target) ∈ r.shadows → ∃ q, Replaced c links queue s q ∧ Names c r q target
  extended : List.Forall₂ (fun e e' => Names c r e.1 e'.1 ∧ Names c r e.2 e'.2) links r.extended

section Places

variable {c : Catalog} {r : Replay} {p p' k k' : ItemKey}

theorem Names.mem (h : Names c r p k) : k ∈ r.catalog.models.map Model.key := (List.of_mem_zip h).2

theorem Names.key_eq (hn : c.keys.Nodup) (h : Names c r p k) (h' : Names c r p k') : k = k' :=
  zip_right_unique (Catalog.nodup_keys hn).1 h h'

theorem exists_names (hp : r.catalog.models.length = c.models.length)
    (hk : k ∈ r.catalog.models.map Model.key) : ∃ p, Names c r p k :=
  exists_left_of_mem (by simp [hp]) hk

theorem names_start (links : Links) (hp : p ∈ c.models.map Model.key) : Names c (start c links) p p :=
  mem_zip_self hp

end Places

theorem run_snoc (c : Catalog) (links : Links) (queue : List (ItemKey × Action)) (e : ItemKey × Action) :
    run c links (queue ++ [e]) [] = (run c links queue []).act e :=
  List.foldl_append

section Last

variable {c : Catalog} {links : Links} {queue : List (ItemKey × Action)} {e : ItemKey × Action}

theorem installed_snoc {p : ColumnKey} {q : ItemKey} :
    Installed c links (queue ++ [e]) p q ↔
      (∃ source target kind, e.2 = .remap source target kind ∧ source.column = p.column ∧
        Names c (run c links queue []) p.item source.item ∧ Names c (run c links queue []) q target) ∨
      Installed c links queue p q ∧ ∀ source target kind, e.2 = .remap source target kind →
        source.column = p.column → ¬ Names c (run c links queue []) p.item source.item := by
  constructor
  · intro h
    generalize hq : queue ++ [e] = l at h
    cases h with
    | here k source target kind hp hq' =>
      obtain ⟨rfl, he⟩ := List.append_inj' hq rfl
      obtain rfl := List.head_eq_of_cons_eq he
      exact .inl ⟨source, target, kind, rfl, rfl, hp, hq'⟩
    | later h hne =>
      obtain ⟨rfl, he⟩ := List.append_inj' hq rfl
      obtain rfl := List.head_eq_of_cons_eq he
      exact .inr ⟨h, hne⟩
  · obtain ⟨k, a⟩ := e
    rintro (⟨source, target, kind, rfl, hcol, hp, hq⟩ | ⟨h, hne⟩)
    · obtain ⟨i, col⟩ := p
      obtain rfl : source.column = col := hcol
      exact .here k source target kind hp hq
    · exact .later h hne

theorem Installed.mem {p : ColumnKey} {q : ItemKey} (h : Installed c links queue p q) :
    q ∈ c.models.map Model.key := by
  induction h with
  | here _ _ _ _ _ hq => exact (List.of_mem_zip hq).1
  | later _ _ ih => exact ih

theorem installed_other (he : ∀ source target kind, e.2 ≠ .remap source target kind) {p : ColumnKey}
    {q : ItemKey} : Installed c links (queue ++ [e]) p q ↔ Installed c links queue p q := by
  rw [installed_snoc]
  constructor
  · rintro (⟨source, target, kind, h, -⟩ | h)
    · exact absurd h (he source target kind)
    · exact h.1
  · exact fun h => .inr ⟨h, fun source target kind h => absurd h (he source target kind)⟩

end Last

theorem Tied.note {c : Catalog} {links : Links} {queue : List (ItemKey × Action)} {r : Replay}
    (h : Tied c links queue r) {e : ItemKey × Action}
    (he : ∀ source target kind, e.2 ≠ .remap source target kind) (m : Mutation) :
    Tied c links (queue ++ [e]) (r.note m) := by
  refine ⟨h.distinct, h.places, fun source target => ?_, h.once, h.shadowedOnce, fun s target hs => ?_,
    h.extended⟩
  · simp only [installed_other he]
    exact h.remaps source target
  · obtain ⟨q, hq, hn⟩ := h.shadows s target hs
    exact ⟨q, .later hq fun source target kind h => absurd h (he source target kind), hn⟩

section Renamed

variable {c d : Catalog} {links : Links} {queue : List (ItemKey × Action)} {r : Replay} {k : ItemKey}
  {kind : ItemKind} {name : String}

theorem names_renamed (hn : r.catalog.keys.Nodup) (hd : r.catalog.rename? k kind name = some d) (all : Bool)
    (m : Mutation) {p x : ItemKey} : Names c ((r.renamed d k name all).note m) p x ↔
      ∃ y, Names c r p y ∧ follow k (k.renamed name) y = x := by
  rw [Names, catalog_note, modelKeys_renamed hn hd all]
  exact mem_zip_map_right

theorem free_of_names (hd : r.catalog.rename? k kind name = some d) {p x : ItemKey} (hx : Names c r p x) :
    x = k ∨ x ≠ k.renamed name := by
  rcases Catalog.free_of_rename? hd with hs | hs
  · exact (eq_or_ne x k).imp_right fun hne he => hne (he.trans hs)
  · exact .inr fun he => hs (he ▸ List.mem_append_left _ hx.mem)

/-- Sources of remaps stay apart when a key is renamed. -/
theorem Tied.once_renamed (h : Tied c links queue r) (hd : r.catalog.rename? k kind name = some d) :
    ((r.remaps.map fun e => (followColumn k (k.renamed name) e.1, follow k (k.renamed name) e.2)).map
      Prod.fst).Nodup := by
  have hcols : (r.remaps.map fun e => (followColumn k (k.renamed name) e.1,
      follow k (k.renamed name) e.2)).map Prod.fst =
        (r.remaps.map Prod.fst).map (followColumn k (k.renamed name)) := by
    rw [List.map_map, List.map_map]
    rfl
  rw [hcols]
  refine List.Nodup.map_on ?_ h.once
  intro x hx y hy hxy
  obtain ⟨⟨⟨i, col⟩, t⟩, he, rfl⟩ := List.mem_map.1 hx
  obtain ⟨⟨⟨i', col'⟩, t'⟩, he', rfl⟩ := List.mem_map.1 hy
  obtain ⟨p, -, -, hp, -⟩ := (h.remaps _ _).1 he
  obtain ⟨p', -, -, hp', -⟩ := (h.remaps _ _).1 he'
  obtain ⟨hitem, rfl⟩ := ColumnKey.mk.inj hxy
  obtain rfl := follow_inj (free_of_names hd hp) (free_of_names hd hp') hitem
  rfl

theorem Tied.renamed (h : Tied c links queue r) {a : Action}
    (ha : ∀ source target kind, a ≠ .remap source target kind)
    (hd : r.catalog.rename? k kind name = some d) (all : Bool) (m : Mutation) :
    Tied c links (queue ++ [(k, a)]) ((r.renamed d k name all).note m) := by
  have hmoved : ∀ {p x}, Names c r p x →
      Names c ((r.renamed d k name all).note m) p (follow k (k.renamed name) x) := fun hx =>
    (names_renamed h.distinct hd all m).2 ⟨_, hx, rfl⟩
  have hstep : (r.renamed d k name all).catalog.keys.Nodup := by
    rw [catalog_renamed, Catalog.keys_retypeReferences]
    exact Catalog.nodup_rename? h.distinct hd
  refine ⟨hstep, ?_, fun source target => ?_, h.once_renamed hd, ?_, fun s target hs => ?_, ?_⟩
  · rw [← h.places, ← List.length_map Model.key, catalog_note, modelKeys_renamed h.distinct hd all,
      List.length_map, List.length_map]
  · simp only [installed_other (e := (k, a)) ha]
    constructor
    · intro hmem
      obtain ⟨⟨s, t⟩, hst, he⟩ := List.mem_map.1 hmem
      obtain ⟨rfl, rfl⟩ := Prod.mk.inj he
      obtain ⟨p, q, hi, hp, hq⟩ := (h.remaps s t).1 hst
      exact ⟨p, q, hi, hmoved hp, hmoved hq⟩
    · rintro ⟨p, q, hi, hp, hq⟩
      obtain ⟨x, hx, hxs⟩ := (names_renamed h.distinct hd all m).1 hp
      obtain ⟨y, hy, rfl⟩ := (names_renamed h.distinct hd all m).1 hq
      refine List.mem_map.2 ⟨(⟨x, source.column⟩, y), (h.remaps _ _).2 ⟨p, q, hi, hx, hy⟩, ?_⟩
      simp only [followColumn, hxs]
  · have hkept : ((r.shadows.filter (·.1 != k)).map fun e => (e.1, follow k (k.renamed name) e.2)).map
        Prod.fst = (r.shadows.filter (·.1 != k)).map Prod.fst := by
      rw [List.map_map]
      rfl
    refine (congrArg List.Nodup hkept).mpr (h.shadowedOnce.sublist ?_)
    exact List.filter_sublist.map _
  · obtain ⟨⟨x, t⟩, hx, he⟩ := List.mem_map.1 hs
    obtain ⟨rfl, rfl⟩ := Prod.mk.inj he
    obtain ⟨q, hq, ht⟩ := h.shadows x t (List.mem_filter.1 hx).1
    exact ⟨q, .later hq fun source target kind h => absurd h (ha source target kind), hmoved ht⟩
  · refine List.forall₂_map_right_iff.2 (h.extended.imp fun e e' he => ?_)
    exact ⟨hmoved he.1, hmoved he.2⟩

end Renamed

section Remapped

variable {c : Catalog} {links : Links} {queue : List (ItemKey × Action)} {k p₀ q₀ : ItemKey}
  {source : ColumnKey} {target : ItemKey} {kind : ItemKind}

/-- The remaps are those of before, with the new one in place of an older one of its column. -/
theorem Tied.remaps_remap (hn : c.keys.Nodup) (h : Tied c links queue (run c links queue []))
    (hp₀ : Names c (run c links queue []) p₀ source.item) (hq₀ : Names c (run c links queue []) q₀ target)
    (s : ColumnKey) (t : ItemKey) : (s, t) ∈ upsert source target (run c links queue []).remaps ↔
      ∃ p q, Installed c links (queue ++ [(k, .remap source target kind)]) ⟨p, s.column⟩ q ∧
        Names c (run c links queue []) p s.item ∧ Names c (run c links queue []) q t := by
  rw [mem_upsert_iff h.once, h.remaps s t]
  simp only [installed_snoc, Action.remap.injEq]
  constructor
  · rintro (he | ⟨⟨p, q, hi, hp, hq⟩, hne⟩)
    · obtain ⟨rfl, rfl⟩ := Prod.mk.inj he
      exact ⟨p₀, q₀, .inl ⟨s, t, kind, ⟨rfl, rfl, rfl⟩, rfl, hp₀, hq₀⟩, hp₀, hq₀⟩
    · refine ⟨p, q, .inr ⟨hi, ?_⟩, hp, hq⟩
      rintro _ _ _ ⟨rfl, -, -⟩ hcol hp'
      -- the same model and the same column are the same source
      obtain ⟨i, col⟩ := s
      obtain rfl := Names.key_eq hn hp hp'
      exact hne (congrArg (ColumnKey.mk source.item) hcol.symm)
  · rintro ⟨p, q, ⟨_, _, _, ⟨rfl, rfl, -⟩, hcol, hp', hq'⟩ | ⟨hi, hlate⟩, hp, hq⟩
    · obtain ⟨i, col⟩ := s
      obtain rfl := Names.key_eq hn hp hp'
      obtain rfl := Names.key_eq hn hq hq'
      exact .inl (congrArg (fun x => (ColumnKey.mk source.item x, t)) hcol.symm)
    · refine .inr ⟨⟨p, q, hi, hp, hq⟩, ?_⟩
      rintro rfl
      exact hlate s target kind ⟨rfl, rfl, rfl⟩ rfl hp

theorem shadows_of_remap (r : Replay) (source : ColumnKey) (target : ItemKey) :
    (r.remap source target).shadows = match r.shadowed? source target with
      | some s => upsert s target r.shadows
      | none => r.shadows := rfl

theorem Tied.shadows_remap (h : Tied c links queue (run c links queue []))
    (hq₀ : Names c (run c links queue []) q₀ target) {s t : ItemKey}
    (hst : (s, t) ∈ ((run c links queue []).remap source target).shadows) :
    ∃ q, Replaced c links (queue ++ [(k, .remap source target kind)]) s q ∧
      Names c (run c links queue []) q t := by
  have hlater : (s, t) ∈ (run c links queue []).shadows →
      (run c links queue []).shadowed? source target ≠ some s →
      ∃ q, Replaced c links (queue ++ [(k, .remap source target kind)]) s q ∧
        Names c (run c links queue []) q t := by
    intro hst hne
    obtain ⟨q, hq, hn⟩ := h.shadows s t hst
    refine ⟨q, .later hq ?_, hn⟩
    rintro _ _ _ ha he
    obtain ⟨rfl, rfl, -⟩ := Action.remap.inj ha
    exact hne he
  rw [shadows_of_remap] at hst
  split at hst
  · next x hx =>
    rcases (mem_upsert_iff h.shadowedOnce).1 hst with he | ⟨hst, hne⟩
    · obtain ⟨rfl, rfl⟩ := Prod.mk.inj he
      exact ⟨q₀, .here k source t kind hx hq₀, hq₀⟩
    · exact hlater hst fun he => hne (Option.some.inj (hx.symm.trans he)).symm
  · next hx => exact hlater hst (by simp [hx])

theorem Tied.remap (hn : c.keys.Nodup) (h : Tied c links queue (run c links queue [])) (k : ItemKey)
    (kind : ItemKind) (hs : source.item ∈ (run c links queue []).catalog.models.map Model.key)
    (ht : target ∈ (run c links queue []).catalog.models.map Model.key) :
    Tied c links (queue ++ [(k, .remap source target kind)])
      ((run c links queue []).remap source target) := by
  obtain ⟨p₀, hp₀⟩ := exists_names h.places hs
  obtain ⟨q₀, hq₀⟩ := exists_names h.places ht
  refine ⟨h.distinct, h.places, h.remaps_remap hn hp₀ hq₀, nodup_upsert _ _ h.once, ?_,
    fun s t hst => h.shadows_remap hq₀ hst, h.extended⟩
  rw [shadows_of_remap]
  split
  · exact nodup_upsert _ _ h.shadowedOnce
  · exact h.shadowedOnce

end Remapped

theorem tied_start {c : Catalog} (hn : c.keys.Nodup) {links : Links}
    (hl : ∀ e ∈ links, e.1 ∈ c.models.map Model.key ∧ e.2 ∈ c.models.map Model.key) :
    Tied c links [] (start c links) := by
  have hempty : ∀ p q, ¬ Installed c links [] p q := by
    intro p q h
    generalize hq : ([] : List (ItemKey × Action)) = l at h
    cases h with
    | here => exact absurd hq (by simp)
    | later => exact absurd hq (by simp)
  refine ⟨hn, rfl, fun source target => ?_, List.nodup_nil, List.nodup_nil, fun s target hs => ?_, ?_⟩
  · simp only [hempty, false_and, exists_false, iff_false]
    exact List.not_mem_nil
  · exact absurd hs List.not_mem_nil
  · exact List.forall₂_same.2 fun e he => ⟨names_start links (hl e he).1, names_start links (hl e he).2⟩

theorem Tied.rename {c : Catalog} {links : Links} {queue : List (ItemKey × Action)} {r : Replay}
    (h : Tied c links queue r) (k : ItemKey) {a : Action}
    (ha : ∀ source target kind, a ≠ .remap source target kind) (name : String) (all : Bool) :
    Tied c links (queue ++ [(k, a)]) (r.rename k a name all) := by
  cases hd : r.catalog.rename? k a.kind name with
  | none =>
    obtain ⟨m, hm⟩ := rename_of_none hd all
    exact hm ▸ h.note ha m
  | some d =>
    obtain ⟨m, hm⟩ := rename_of_some hd all
    exact hm ▸ h.renamed ha hd all m

section Runs

variable {c : Catalog} {links : Links} {queue : List (ItemKey × Action)}

theorem tied_queue (hn : c.keys.Nodup)
    (hl : ∀ e ∈ links, e.1 ∈ c.models.map Model.key ∧ e.2 ∈ c.models.map Model.key)
    (hskip : ∀ e ∈ queue, ∀ kind, e.2 ≠ .skip kind)
    (hpresent : ∀ done k source target kind rest, queue = done ++ (k, .remap source target kind) :: rest →
      source.item ∈ (run c links done []).catalog.models.map Model.key ∧
        target ∈ (run c links done []).catalog.models.map Model.key) :
    Tied c links queue (run c links queue []) := by
  induction queue using List.reverseRecOn with
  | nil => exact tied_start hn hl
  | append_singleton queue e ih =>
    have h := ih (fun e he => hskip e (List.mem_append_left _ he))
      fun done k source target kind rest hq =>
        hpresent done k source target kind (rest ++ [e]) (by rw [hq, List.append_assoc, List.cons_append])
    rw [run_snoc]
    obtain ⟨k, a⟩ := e
    cases a with
    | skip kind => exact absurd rfl (hskip (k, .skip kind) (by simp) kind)
    | rename name kind => exact h.rename k (by simp) name false
    | renameAll name kind => exact h.rename k (by simp) name true
    | remap source target kind =>
      obtain ⟨hs, ht⟩ := hpresent queue k source target kind [] rfl
      exact h.remap hn k kind hs ht

theorem Tied.attributes (h : Tied c links queue (run c links queue [])) (as : List (String × String)) :
    Tied c links queue (run c links queue as) := by
  obtain ⟨hc, hr, hs, he⟩ := foldl_addAttribute as (run c links queue [])
  have hremaps : (run c links queue as).remaps = (run c links queue []).remaps := hr
  have hshadows : (run c links queue as).shadows = (run c links queue []).shadows := hs
  have hextended : (run c links queue as).extended = (run c links queue []).extended := he
  have hitems : (run c links queue as).catalog.items = (run c links queue []).catalog.items := by
    rw [items_run, items_run]
  have hkeys : (run c links queue as).catalog.models.map Model.key =
      (run c links queue []).catalog.models.map Model.key := by
    rw [show (run c links queue as).catalog = as.foldl Catalog.addLine (run c links queue []).catalog from hc,
      modelKeys_foldl_addLine]
  have hnames : ∀ p k, Names c (run c links queue as) p k ↔ Names c (run c links queue []) p k := by
    intro p k
    rw [Names, hkeys, Names]
  refine ⟨?_, ?_, ?_, ?_, ?_, ?_, ?_⟩
  · rw [Catalog.keys_eq_map_items, hitems, ← Catalog.keys_eq_map_items]
    exact h.distinct
  · rw [← List.length_map Model.key, hkeys, List.length_map, h.places]
  · simp only [hnames, hremaps]
    exact h.remaps
  · rw [hremaps]
    exact h.once
  · rw [hshadows]
    exact h.shadowedOnce
  · simp only [hnames, hshadows]
    exact h.shadows
  · simp only [hnames, hextended]
    exact h.extended

end Runs

end FragmentMerge.Replay
