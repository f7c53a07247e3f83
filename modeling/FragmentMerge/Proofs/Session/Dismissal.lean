import FragmentMerge.Proofs.Session.Answer

/-! Conflicts that a step settles on its own. The configured remaps of a conflict can put both of its
sides out of use, each in favour of the other. This file proves that a side is left whenever they do
not cross in this way, and only then. -/

namespace FragmentMerge

/-- A conflict that was settled by configured remaps, with the sessions before and after they were
queued and replayed. -/
structure Dismissal where
  conflict : Conflict
  before : Session
  after : Session

namespace Session

/-- The conflicts that `stepWithin` settles on its way. -/
def dismissalsWithin : Nat → Session → List Dismissal
  | 0, _ => []
  | n + 1, s =>
    match s.turn, s.started.conflicts with
    | (.again, t), c :: _ => ⟨c, s.started, t⟩ :: dismissalsWithin n t
    | _, _ => []

def dismissals (s : Session) : List Dismissal := dismissalsWithin (s.mapper.length + 1) s

end Session

namespace Dismissal

/-- A side of the conflict that is still in use. -/
def Leaves (x : Dismissal) (k : ItemKey) : Prop :=
  k ∈ x.conflict.sides ∧ k ∈ x.after.catalog.keys ∧ k ∉ x.after.hidden

/-- One of the queued remaps puts this item out of use. -/
def Hides (x : Dismissal) (k : ItemKey) : Prop :=
  ∃ e ∈ x.before.pendingRemaps x.conflict, x.before.bare.shadowed? e.1 e.2 = some k

/-- One of the queued remaps puts the left side out of use, and one the right side. -/
def Crossed (x : Dismissal) : Prop := x.Hides x.conflict.left ∧ x.Hides x.conflict.right

/-- The relations that cross: a column in the fragment of either side is sent to the other side. -/
def CrossedBy (x : Dismissal) (relations : Remaps) : Prop :=
  (∃ e ∈ relations, e.1.item.file = x.conflict.left.file ∧ e.2 = x.conflict.right) ∧
  ∃ e ∈ relations, e.1.item.file = x.conflict.right.file ∧ e.2 = x.conflict.left

end Dismissal

namespace Session

theorem hidden_automap {s : Session} (h : s.Replayed) (c : Conflict) {k : ItemKey} :
    k ∈ (s.automap c).hidden ↔
      k ∈ s.hidden ∨ ∃ e ∈ s.pendingRemaps c, s.bare.shadowed? e.1 e.2 = some k := by
  rw [(automap_spec h c).1.hidden, bare_automap, Replay.mem_hidden_foldl_remaps, h.hidden]

theorem catalog_automap {s : Session} (h : s.Replayed) (c : Conflict) :
    (s.automap c).catalog = s.catalog := (automap_spec h c).2.1.catalog

structure Dismisses (s : Session) (x : Dismissal) : Prop where
  replayed : x.before.Replayed
  mapper : x.before.mapper = s.mapper
  first : x.before.conflicts.head? = some x.conflict
  after : x.after = x.before.automap x.conflict
  gone : x.conflict ∉ x.after.conflicts

theorem dismisses_of_mem {n : Nat} {s : Session} {x : Dismissal} (h : x ∈ dismissalsWithin n s) :
    s.Dismisses x := by
  induction n generalizing s with
  | zero => cases h
  | succ n ih =>
    rcases turn_cases s with ⟨-, ht⟩ | ⟨c, cs, hc, ⟨e, -, ht⟩ | ⟨-, hgone, ht⟩ | ⟨-, ht⟩⟩
    · simp [dismissalsWithin, ht] at h
    · simp [dismissalsWithin, ht] at h
    · simp only [dismissalsWithin, ht, hc, List.mem_cons] at h
      rcases h with rfl | h
      · exact ⟨replayed_started s, rfl, by simp [hc], rfl, hgone⟩
      · have hx := ih h
        exact ⟨hx.replayed, hx.mapper.trans (mapper_automap s.started c), hx.first, hx.after, hx.gone⟩
    · simp [dismissalsWithin, ht] at h

end Session

namespace Dismissal

theorem leaves_iff {s : Session} {x : Dismissal} (h : s.Dismisses x) {k : ItemKey}
    (hk : k ∈ x.conflict.sides) : x.Leaves k ↔ ¬ x.Hides k := by
  obtain ⟨hkeys, hvis⟩ := Session.side_visible (List.mem_of_head? h.first) hk
  have hcat : x.after.catalog = x.before.catalog := by
    rw [h.after]
    exact Session.catalog_automap h.replayed x.conflict
  rw [Leaves, hcat, h.after, Session.hidden_automap h.replayed, Hides]
  exact ⟨fun hl hh => hl.2.2 (.inr hh), fun hn => ⟨hk, hkeys, fun hh => hh.elim hvis hn⟩⟩

/-- What puts a side out of use is a configured relation of its fragment that is sent to the other
side. -/
theorem relation_of_hides {s : Session} {x : Dismissal} (h : s.Dismisses x) {k : ItemKey}
    (hh : x.Hides k) : ∃ e ∈ s.mapper, e.1.item.file = k.file ∧ e.2 ∈ x.conflict.sides ∧ e.2 ≠ k := by
  obtain ⟨e, he, hs⟩ := hh
  obtain ⟨hfile, hne, -⟩ := Replay.shadowed?_eq_some hs
  obtain ⟨⟨side, hside, hmap⟩, -⟩ := Session.mem_pendingRemaps.1 he
  obtain ⟨hmapper, rfl, -⟩ := Session.mem_mappingsTo.1 hmap
  exact ⟨e, h.mapper ▸ hmapper, hfile.symm, hside, hne.symm⟩

theorem crossedBy_of_crossed {s : Session} {x : Dismissal} (h : s.Dismisses x) (hx : x.Crossed) :
    x.CrossedBy s.mapper := by
  obtain ⟨e, he, hfile, hside, hne⟩ := relation_of_hides h hx.1
  obtain ⟨e', he', hfile', hside', hne'⟩ := relation_of_hides h hx.2
  simp only [Conflict.sides, List.mem_cons, List.not_mem_nil, or_false] at hside hside'
  exact ⟨⟨e, he, hfile, hside.resolve_left hne⟩, e', he', hfile', hside'.resolve_right hne'⟩

/-- A dismissed conflict keeps a side in use unless the remaps that settled it cross; and then the
configured relations cross. -/
theorem leaves_side_iff {s : Session} {x : Dismissal} (hx : x ∈ s.dismissals) :
    ((∃ k, x.Leaves k) ↔ ¬ x.Crossed) ∧ (x.Crossed → x.CrossedBy s.mapper) := by
  have h := Session.dismisses_of_mem hx
  refine ⟨?_, crossedBy_of_crossed h⟩
  have hleft : x.Leaves x.conflict.left ↔ ¬ x.Hides x.conflict.left :=
    leaves_iff h List.mem_cons_self
  have hright : x.Leaves x.conflict.right ↔ ¬ x.Hides x.conflict.right :=
    leaves_iff h (List.mem_cons_of_mem _ List.mem_cons_self)
  have hsides : (∃ k, x.Leaves k) ↔ x.Leaves x.conflict.left ∨ x.Leaves x.conflict.right := by
    constructor
    · rintro ⟨k, hk⟩
      rcases List.mem_cons.1 hk.1 with rfl | hmem
      · exact .inl hk
      · exact .inr (List.mem_singleton.1 hmem ▸ hk)
    · rintro (hk | hk)
      · exact ⟨_, hk⟩
      · exact ⟨_, hk⟩
  rw [hsides, hleft, hright, Crossed, not_and_or]

/-- Two fragments that declare a model of one name, each with a relation to that name. -/
def facing : List Fragment :=
  [⟨"base", "generator g \x7b\n\x7d\ndatasource d \x7b\n\x7d"⟩,
    ⟨"f", "model N \x7b\n  id Int\n\x7d\nmodel M \x7b\n  c N @relation(fields: [a])\n\x7d"⟩,
    ⟨"g", "model N \x7b\n  id Int\n\x7d\nmodel K \x7b\n  d N @relation(fields: [a])\n\x7d"⟩]

def facingCatalog : Catalog :=
  { base := "base", generator := "generator g \x7b\n\x7d", datasource := "datasource d \x7b\n\x7d",
    files := ["base", "f", "g"],
    models := [
      ⟨⟨"f", "N"⟩, [⟨"id", "Int", []⟩], 1⟩,
      ⟨⟨"f", "M"⟩, [⟨"c", "N", ["@relation(fields: [a])"]⟩], 4⟩,
      ⟨⟨"g", "N"⟩, [⟨"id", "Int", []⟩], 1⟩,
      ⟨⟨"g", "K"⟩, [⟨"d", "N", ["@relation(fields: [a])"]⟩], 4⟩],
    enums := [] }

/-- The relation of one fragment is sent to the model of the other. -/
def facingSession : Session :=
  ((Session.new facingCatalog).withCrossFile true).withMapping ⟨⟨"f", "M"⟩, "c"⟩ ⟨"g", "N"⟩

/-- The relation of either fragment is sent to the model of the other. -/
def crossedSession : Session := facingSession.withMapping ⟨⟨"g", "K"⟩, "d"⟩ ⟨"f", "N"⟩

theorem leaves_side_facing : ∃ x ∈ facingSession.dismissals,
    x.conflict = ⟨⟨"f", "N"⟩, ⟨"g", "N"⟩, .model⟩ ∧ ¬ x.Crossed ∧ ∃ k, x.Leaves k := by
  have hmem : ⟨⟨⟨"f", "N"⟩, ⟨"g", "N"⟩, .model⟩, facingSession.started, facingSession.turn.2⟩ ∈
      facingSession.dismissals := List.mem_cons_self
  have hone : ¬ Dismissal.Crossed ⟨⟨⟨"f", "N"⟩, ⟨"g", "N"⟩, .model⟩, facingSession.started,
      facingSession.turn.2⟩ := by
    intro h
    obtain ⟨e, he, -, hto⟩ := ((leaves_side_iff hmem).2 h).2
    rw [List.mem_singleton.1 he] at hto
    exact absurd hto (by decide)
  exact ⟨_, hmem, rfl, hone, (leaves_side_iff hmem).1.2 hone⟩

/-- A step that ends without a conflict although it has put both models of a name out of use. -/
theorem both_sides_hidden :
    Catalog.ofFragments (fun _ => false) facing = .ok facingCatalog ∧
      Session.Over facingCatalog crossedSession ∧ crossedSession.crossFile = true ∧
      crossedSession.nextStep.1 = .ok .done ∧
      ∃ x ∈ crossedSession.dismissals, ∀ k, ¬ x.Leaves k := by
  have hload : Catalog.ofFragments (fun _ => false) facing = .ok facingCatalog := rfl
  have hdone : crossedSession.nextStep.1 = .ok .done := rfl
  refine ⟨hload, .mapping _ _ (.mapping _ _ (.crossFile _ .new)), rfl, hdone, _, List.mem_cons_self, ?_⟩
  rintro k ⟨hside, -, hvis⟩
  revert k
  decide

end Dismissal

end FragmentMerge
