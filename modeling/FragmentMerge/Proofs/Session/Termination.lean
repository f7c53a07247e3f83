import FragmentMerge.Proofs.Catalog.Namesakes
import FragmentMerge.Proofs.Session.Circle

/-! Whether rules come to an end. Rules whose renamings do not go round in a circle settle every session
or fail, in a number of rounds that items and rules bound. For all other rules there is a session that
they never settle: an item on the circle meets a namesake under each of its names. -/

namespace FragmentMerge.Session

variable {rules : List (ItemKey × Action)} {kind : ItemKind}

def queueRenames (kind : ItemKind) (es : List (ItemKey × String)) (s : Session) : Session :=
  es.foldl (fun s e => s.suggest e.1 (.rename e.2 kind)) s

theorem queueRenames_eq (es : List (ItemKey × String)) (s : Session) : queueRenames kind es s =
    { s with queue := s.queue ++ es.map fun e => (e.1, .rename e.2 kind) } := by
  induction es generalizing s with
  | nil => simp [queueRenames]
  | cons e es ih =>
    have h := ih (s.suggest e.1 (.rename e.2 kind))
    rw [queueRenames] at h ⊢
    rw [List.foldl_cons, h]
    simp [suggest]

theorem over_queueRenames {c : Catalog} {s : Session} (h : Over c s) (es : List (ItemKey × String)) :
    Over c (queueRenames kind es s) := by
  induction es generalizing s with
  | nil => exact h
  | cons e es ih => exact ih (.suggest e.1 _ h)

def freshFile (rules : List (ItemKey × Action)) (i : Nat) : String :=
  String.ofList (List.replicate ((rules.map fun e => e.1.file.length).sum + 1 + i) 'g')

theorem length_freshFile (i : Nat) :
    (freshFile rules i).length = (rules.map fun e => e.1.file.length).sum + 1 + i := by
  rw [← String.length_toList, freshFile, String.toList_ofList, List.length_replicate]

theorem file_ne_freshFile {e : ItemKey × Action} (h : e ∈ rules) (i : Nat) :
    e.1.file ≠ freshFile rules i := by
  intro he
  have hle : e.1.file.length ≤ (rules.map fun e => e.1.file.length).sum :=
    List.le_sum_of_mem (List.mem_map.2 ⟨e, h, rfl⟩)
  rw [he, length_freshFile] at hle
  omega

/-- The names that rules give, each with a fragment for it. -/
def homes (rules : List (ItemKey × Action)) : List (String × String) :=
  (rules.filterMap fun e => e.2.newName?).zipIdx.map fun p => (freshFile rules p.2, p.1)

theorem nodup_homes : ((homes rules).map Prod.fst).Nodup := by
  have hmap : (homes rules).map Prod.fst =
      ((rules.filterMap fun e => e.2.newName?).zipIdx.map Prod.snd).map (freshFile rules) := by
    rw [homes, List.map_map, List.map_map]
    rfl
  rw [hmap, List.zipIdx_map_snd]
  refine List.Nodup.map (fun i j h => ?_) List.nodup_range'
  have hlen := congrArg String.length h
  rw [length_freshFile, length_freshFile] at hlen
  omega

theorem mem_homes {e : ItemKey × Action} {name : String} (h : e ∈ rules) (hn : e.2.newName? = some name) :
    ∃ file, (file, name) ∈ homes rules := by
  have hmem : name ∈ (rules.filterMap fun e => e.2.newName?).zipIdx.map Prod.fst := by
    rw [List.zipIdx_map_fst]
    exact List.mem_filterMap.2 ⟨e, h, hn⟩
  obtain ⟨p, hp, rfl⟩ := List.mem_map.1 hmem
  exact ⟨freshFile rules p.2, List.mem_map.2 ⟨p, hp, rfl⟩⟩

theorem file_ne_home {e : ItemKey × Action} (h : e ∈ rules) {p : String × String} (hp : p ∈ homes rules) :
    p.1 ≠ e.1.file := by
  obtain ⟨q, -, rfl⟩ := List.mem_map.1 hp
  exact (file_ne_freshFile h q.2).symm

/-- The names that items called A are to have: the name of a key, and the names that rules give. -/
def namings (rules : List (ItemKey × Action)) (k : ItemKey) : List (ItemKey × String) :=
  (⟨k.file, "A"⟩, k.name) :: (homes rules).map fun p => (⟨p.1, "A"⟩, p.2)

/-- A session over a loaded catalog in which a given item is first and every name that rules give is
taken in a fragment of its own. -/
theorem exists_circling (kind : ItemKind) {k : ItemKey} (hk : k ∈ rules.map Prod.fst) :
    ∃ fs c s, Catalog.ofFragments (fun _ => false) fs = .ok c ∧ Over c s ∧
      Circling kind ((homes rules).map fun p => (kind, ⟨p.1, p.2⟩)) k s := by
  obtain ⟨e, he, rfl⟩ := List.mem_map.1 hk
  have hnodup : (e.1.file :: (homes rules).map Prod.fst).Nodup := by
    refine List.nodup_cons.2 ⟨fun hmem => ?_, nodup_homes⟩
    obtain ⟨p, hp, hpe⟩ := List.mem_map.1 hmem
    exact file_ne_home he hp hpe
  obtain ⟨c, hc, hitems⟩ := Catalog.load_namesakes kind hnodup
  have hw : c.WellKeyed := Catalog.wellKeyed_ofSources hc
  have hover : Over c (queueRenames kind (namings rules e.1) ((new c).withCrossFile true)) :=
    over_queueRenames (.crossFile true .new) (namings rules e.1)
  refine ⟨_, c, _, hc, hover, ?_⟩
  have hstart : c.items = [] ++ (namings rules e.1).map fun e => (kind, e.1) := by
    rw [hitems]
    simp [namings, Catalog.namesake]
  have hfiles : (c.keys.map ItemKey.file).Nodup := by
    rw [Catalog.keys_eq_map_items, hitems, List.map_map, List.map_map]
    simpa [Function.comp_def, Catalog.namesake] using hnodup
  obtain ⟨hi, hh⟩ := Replay.foldl_renames (r := Replay.start c []) hw rfl hstart hfiles
  rw [queueRenames_eq]
  refine ⟨hw, rfl, rfl, hi.trans ?_, hh⟩
  simp [namings, ItemKey.renamed]

theorem exists_unsettled (h : Rules.Circular rules) :
    ∃ fs c s, Catalog.ofFragments (fun _ => false) fs = .ok c ∧ Over c s ∧
      ∀ n, s.resolveWithin (ruleResolver rules) n () = none := by
  obtain ⟨kind, k, hk⟩ := h
  have hrule : ∀ {a b}, Rules.Leads rules kind a b → a ∈ rules.map Prod.fst := fun hab => by
    obtain ⟨x, -, hf, -⟩ := Rules.next?_eq_some.1 hab
    exact List.mem_map.2 ⟨_, List.mem_of_find?_eq_some hf, rfl⟩
  obtain ⟨k₁, hk₁, -⟩ := Relation.TransGen.head'_iff.1 hk
  obtain ⟨fs, c, s, hc, hs, hcircle⟩ := exists_circling kind (hrule hk₁)
  refine ⟨fs, c, s, hc, hs, fun n => ?_⟩
  have hsettle : settleWithin (ruleResolver rules) n s () 0 none = none := by
    -- on the circle: reached from `k`, and leading back to it
    refine settleWithin_circling (P := fun x => Relation.ReflTransGen (Rules.Leads rules kind) k x ∧
      Relation.TransGen (Rules.Leads rules kind) x k) (fun x hx => ?_) ⟨.refl, hk⟩ hcircle nofun
    obtain ⟨hkx, hxk⟩ := hx
    obtain ⟨y, hxy, hyk⟩ := Relation.TransGen.head'_iff.1 hxk
    obtain ⟨w, -, hwx⟩ := Relation.TransGen.tail'_iff.1 (Relation.TransGen.trans_left hk hkx)
    obtain ⟨a, name, hf, hn, -, -, rfl⟩ := Rules.next?_eq_some.1 hwx
    obtain ⟨file, hfile⟩ := mem_homes (List.mem_of_find?_eq_some hf) hn
    refine ⟨⟨_, List.mem_map.2 ⟨_, hfile, rfl⟩, rfl⟩, fun o ho => ?_, y, hxy, hkx.tail hxy, ?_⟩
    · obtain ⟨p, hp, rfl⟩ := List.mem_map.1 ho
      obtain ⟨e, he, heq⟩ := List.mem_map.1 (hrule hxy)
      rw [← heq]
      exact file_ne_home he hp
    · exact Relation.TransGen.trans_right hyk hk
  unfold resolveWithin convergeWithin
  rw [hsettle]

/-- Rules that never rename in a circle end every resolution, within rounds that the items and the rules
bound; for rules that do, some resolution never ends. -/
theorem rules_end_iff {config : Config} {rules : List (ItemKey × Action)}
    (h : config.answers = .ok rules) :
    (¬Rules.Circular rules → ∀ c, c.Kept → ∀ s, Over c s →
      ∀ n, c.keys.length * (rules.length + 1) + 1 < n →
        (s.resolveWithin (ruleResolver rules) n ()).isSome) ∧
    (Rules.Circular rules → ∃ fs c s, Catalog.ofFragments (fun _ => false) fs = .ok c ∧ Over c s ∧
      ∀ n, s.resolveWithin (ruleResolver rules) n () = none) := by
  refine ⟨fun hr c hc s hs n hn => ?_, exists_unsettled⟩
  have hsound := hs.sound hc.wellKeyed
  exact convergeWithin_isSome hr (Config.answers_ne_remap h) (hsound.pristine ▸ hc.wellKeyed)
    hsound.mapper (hsound.pristine ▸ hn)

def renamingOnce : Config :=
  { Config.initial with resolve := [⟨"f:A", .rename, some "B", .model⟩] }

def renamingBack : Config :=
  { Config.initial with
    resolve := [⟨"f:A", .rename, some "B", .model⟩, ⟨"f:B", .rename, some "A", .model⟩] }

/-- Two models of one name, and a third one of the name that the first is given. -/
def threefold : List Fragment :=
  [⟨"base", "generator g \x7b\n\x7d\ndatasource d \x7b\n\x7d"⟩, ⟨"f", "model A \x7b\n\x7d"⟩,
    ⟨"g", "model A \x7b\n\x7d"⟩, ⟨"h", "model B \x7b\n\x7d"⟩]

def threefoldCatalog : Catalog :=
  { base := "base", generator := "generator g \x7b\n\x7d", datasource := "datasource d \x7b\n\x7d",
    files := ["base", "f", "g", "h"],
    models := [⟨⟨"f", "A"⟩, [], 1⟩, ⟨⟨"g", "A"⟩, [], 1⟩, ⟨⟨"h", "B"⟩, [], 1⟩], enums := [] }

theorem load_threefold : Catalog.ofFragments (fun _ => false) threefold = .ok threefoldCatalog := by
  decide +kernel

theorem not_circular_once : ¬Rules.Circular [(⟨"f", "A"⟩, Action.rename "B" .model)] := by
  rintro ⟨kind, k, hk⟩
  have hstep : ∀ {a b}, Rules.Leads [(⟨"f", "A"⟩, Action.rename "B" .model)] kind a b →
      a = ⟨"f", "A"⟩ ∧ b = ⟨"f", "B"⟩ := fun hab => by
    obtain ⟨x, name, hf, hn, -, -, rfl⟩ := Rules.next?_eq_some.1 hab
    obtain ⟨rfl, rfl⟩ := Prod.mk.inj (List.mem_singleton.1 (List.mem_of_find?_eq_some hf))
    exact ⟨rfl, by rw [← Option.some.inj hn]; rfl⟩
  obtain ⟨x, hx, hback⟩ := Relation.TransGen.head'_iff.1 hk
  obtain ⟨rfl, rfl⟩ := hstep hx
  rcases hback.cases_head with heq | ⟨y, hy, -⟩
  · exact absurd (congrArg ItemKey.name heq) (by decide)
  · exact absurd (congrArg ItemKey.name (hstep hy).1) (by decide)

theorem rules_end_once :
    renamingOnce.answers = .ok [(⟨"f", "A"⟩, .rename "B" .model)] ∧
      ¬Rules.Circular [(⟨"f", "A"⟩, Action.rename "B" .model)] ∧ threefoldCatalog.Kept ∧
      ((new threefoldCatalog).resolveWithin (ruleResolver [(⟨"f", "A"⟩, .rename "B" .model)]) 8
        ()).isSome :=
  ⟨rfl, not_circular_once, .loaded load_threefold,
    (rules_end_iff (show renamingOnce.answers = .ok _ from rfl)).1 not_circular_once threefoldCatalog
      (.loaded load_threefold) _ .new 8 (by decide)⟩

/-- Renamings back and forth: each undoes a conflict and makes another. -/
theorem rules_without_end :
    renamingBack.answers = .ok [(⟨"f", "A"⟩, .rename "B" .model), (⟨"f", "B"⟩, .rename "A" .model)] ∧
      Catalog.ofFragments (fun _ => false) threefold = .ok threefoldCatalog ∧
      Over threefoldCatalog ((new threefoldCatalog).withCrossFile true) ∧
      ∀ n, ((new threefoldCatalog).withCrossFile true).resolveWithin
        (ruleResolver [(⟨"f", "A"⟩, .rename "B" .model), (⟨"f", "B"⟩, .rename "A" .model)]) n () = none := by
  refine ⟨rfl, load_threefold, .crossFile true .new, fun n => ?_⟩
  have hcircle : Circling .model [(.model, ⟨"g", "A"⟩), (.model, ⟨"h", "B"⟩)] ⟨"f", "A"⟩
      ((new threefoldCatalog).withCrossFile true) :=
    ⟨Catalog.wellKeyed_ofSources load_threefold, rfl, rfl, rfl, rfl⟩
  have hsettle : settleWithin (ruleResolver [(⟨"f", "A"⟩, .rename "B" .model),
      (⟨"f", "B"⟩, .rename "A" .model)]) n ((new threefoldCatalog).withCrossFile true) () 0 none = none := by
    refine settleWithin_circling (P := fun k => k = ⟨"f", "A"⟩ ∨ k = ⟨"f", "B"⟩) ?_ (.inl rfl) hcircle nofun
    rintro k (rfl | rfl)
    · exact ⟨by simp, by simp, ⟨"f", "B"⟩, by decide, .inr rfl⟩
    · exact ⟨by simp, by simp, ⟨"f", "A"⟩, by decide, .inl rfl⟩
  unfold resolveWithin convergeWithin
  rw [hsettle]

end FragmentMerge.Session
