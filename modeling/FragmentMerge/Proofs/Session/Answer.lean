import FragmentMerge.Proofs.Replay.Effect
import FragmentMerge.Proofs.Session.Step

/-! What an answer does. When an answer to the first conflict has been queued and replayed, this conflict
is gone, or it is still the first. It can then be settled without another answer only if the answer was
a remap that sent a configured relation column elsewhere. -/

namespace FragmentMerge.Session

/-- The replay of the queue without the attributes. -/
def bare (s : Session) : Replay := s.queue.foldl Replay.act (Replay.start s.pristine s.links)

theorem current_replay (s : Session) :
    s.replay.current = s.attributes.foldl Replay.addAttribute s.bare := rfl

theorem bare_suggest (s : Session) (k : ItemKey) (a : Action) :
    (s.suggest k a).bare = s.bare.act (k, a) := by
  simp [bare, suggest, List.foldl_append]

theorem bare_queueRemaps (s : Session) (es : Remaps) :
    (s.queueRemaps es).bare = (es.map Replay.remapEntry).foldl Replay.act s.bare := by
  rw [queueRemaps_eq]
  simp [bare, List.foldl_append]

theorem bare_automap (s : Session) (c : Conflict) :
    (s.automap c).bare = ((s.pendingRemaps c).map Replay.remapEntry).foldl Replay.act s.bare := by
  have h : (s.automap c).bare = (s.queueRemaps (s.pendingRemaps c)).bare := by
    unfold automap
    split <;> rfl
  rw [h, bare_queueRemaps]

theorem Replayed.current_eq {s : Session} (h : s.Replayed) :
    s.current = s.attributes.foldl Replay.addAttribute s.bare := h

theorem Replayed.items {s : Session} (h : s.Replayed) : s.catalog.items = s.bare.catalog.items := by
  rw [catalog, h]
  exact Replay.items_run s.pristine s.links s.queue s.attributes

theorem Replayed.hidden {s : Session} (h : s.Replayed) : s.hidden = s.bare.hidden := by
  obtain ⟨-, -, hs, he⟩ := Replay.foldl_addAttribute s.attributes s.bare
  rw [Session.hidden, h.current_eq, Replay.hidden, hs, he, Replay.hidden]

theorem Replayed.remaps {s : Session} (h : s.Replayed) : s.current.remaps = s.bare.remaps := by
  rw [h.current_eq, (Replay.foldl_addAttribute _ _).2.1]

theorem Replayed.conflicts {s : Session} (h : s.Replayed) :
    s.conflicts = s.bare.catalog.conflicts s.bare.hidden := by
  rw [← h.hidden]
  exact Catalog.conflicts_of_items h.items s.hidden

theorem wellKeyed_bare {s : Session} (h : s.pristine.WellKeyed) : s.bare.catalog.WellKeyed :=
  Replay.wellKeyed_foldl_act h s.links s.queue

theorem side_visible {s : Session} {c : Conflict} {k : ItemKey} (h : c ∈ s.conflicts)
    (hk : k ∈ c.sides) : k ∈ s.catalog.keys ∧ k ∉ s.hidden := by
  obtain ⟨hl, hr⟩ := Catalog.sides_visible h
  simp only [Conflict.sides, List.mem_cons, List.not_mem_nil, or_false] at hk
  rcases hk with rfl | rfl
  · exact Catalog.mem_visibleKeys.1 hl
  · exact Catalog.mem_visibleKeys.1 hr

theorem not_mem_conflicts {s : Session} {c : Conflict} {k : ItemKey} (hk : k ∈ c.sides)
    (h : k ∉ s.catalog.keys) : c ∉ s.conflicts := fun hc => h (side_visible hc hk).1

theorem Presents.mem {s : Session} {c : Conflict} (h : s.Presents c) : c ∈ s.conflicts :=
  List.mem_of_head? h.first

theorem Presents.effect {s : Session} {c : Conflict} {k : ItemKey} (h : s.Presents c)
    (hw : s.pristine.WellKeyed) (hk : k ∈ c.sides) (a : Action) : s.bare.Effect k a :=
  Replay.effect (wellKeyed_bare hw) (h.replayed.hidden ▸ (side_visible h.mem hk).2) a

theorem Presents.pending_of_remaps {s s' : Session} {c : Conflict} (h : s.Presents c)
    (hs : s.current.Shades s'.current) (hm : s'.mapper = s.mapper) {e : ColumnKey × ItemKey}
    (he : e ∈ s'.pendingRemaps c) : e ∈ s.current.remaps ∧ e ∉ s'.current.remaps := by
  obtain ⟨⟨side, hside, he⟩, hidle⟩ := mem_pendingRemaps.1 he
  refine ⟨Decidable.byContradiction fun hn => ?_, hidle⟩
  have hp : e ∈ s.pendingRemaps c :=
    mem_pendingRemaps.2 ⟨⟨side, hside, mappingsTo_subset hm hs side he⟩, hn⟩
  rw [h.settled] at hp
  cases hp

theorem answer_cases {s : Session} {c : Conflict} {k : ItemKey} (h : s.Presents c)
    (hw : s.pristine.WellKeyed) (hk : k ∈ c.sides) (a : Action) :
    c ∉ (s.suggest k a).replay.conflicts ∨
      ((s.suggest k a).replay.conflicts.head? = some c ∧
        ((s.suggest k a).replay.pendingRemaps c = [] ∨
          ∃ source target kind, a = .remap source target kind ∧
            ∀ e ∈ (s.suggest k a).replay.pendingRemaps c, e.1 = source ∧ e.2 ≠ target)) := by
  have hr : (s.suggest k a).replay.Replayed := replayed_replay _
  have hshades : s.bare.Shades (s.bare.act (k, a)) →
      s.current.Shades (s.suggest k a).replay.current := fun hs => by
    rw [h.replayed.current_eq, current_replay, bare_suggest]
    exact hs.attributes s.attributes
  have hremaps : (s.suggest k a).replay.current.remaps = (s.bare.act (k, a)).remaps := by
    rw [hr.remaps]
    exact congrArg Replay.remaps (bare_suggest s k a)
  refine Classical.or_iff_not_imp_left.2 fun hc => ?_
  have hc := Classical.not_not.1 hc
  rcases (h.effect hw hk a).cases (wellKeyed_bare hw) with hgone | ⟨hs, hsame⟩ |
    ⟨source, target, kind, ha, hs, hup⟩
  · refine absurd hc (not_mem_conflicts hk ?_)
    rw [Catalog.keys_eq_map_items, hr.items, ← Catalog.keys_eq_map_items]
    exact fun hm => hgone (bare_suggest s k a ▸ hm)
  · refine ⟨(hshades hs).head?_conflicts h.first hc, .inl ?_⟩
    rw [List.eq_nil_iff_forall_not_mem]
    intro e he
    obtain ⟨hold, hnew⟩ := h.pending_of_remaps (hshades hs) rfl he
    rw [hremaps, hsame, ← h.replayed.remaps] at hnew
    exact hnew hold
  · refine ⟨(hshades hs).head?_conflicts h.first hc, .inr ⟨source, target, kind, ha, fun e he => ?_⟩⟩
    obtain ⟨hold, hnew⟩ := h.pending_of_remaps (hshades hs) rfl he
    rw [hremaps, hup, ← h.replayed.remaps] at hnew
    by_cases hsrc : e.1 = source
    · exact ⟨hsrc, fun ht => hnew (by rw [← hsrc, ← ht]; exact mem_upsert e.1 e.2 _)⟩
    · exact absurd (mem_upsert_of_ne hold hsrc) hnew

end FragmentMerge.Session
