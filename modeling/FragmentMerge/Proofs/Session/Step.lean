import Mathlib.Data.List.Nodup
import FragmentMerge.Proofs.Session.Keys

/-! The turns of a step. Each turn but the last makes a configured relation active that was not, and none
becomes inactive, so a step comes to an end within its turns. A conflict that is left after its configured
remaps have been queued is still the first, and none of its remaps is left to queue. -/

namespace FragmentMerge.Session

/-- The working replay is that of the whole queue. -/
def Replayed (s : Session) : Prop :=
  s.current = Replay.run s.pristine s.links s.queue s.attributes

theorem replayed_replay (s : Session) : s.replay.Replayed := rfl

theorem replayed_started (s : Session) : s.started.Replayed := rfl

theorem Replayed.inPhase {s : Session} (h : s.Replayed) (p : Phase) : (s.inPhase p).Replayed := h

theorem Replayed.started {s : Session} (h : s.Replayed) : s.started.current = s.current := h.symm

theorem queueRemaps_eq (s : Session) (es : Remaps) :
    s.queueRemaps es = { s with queue := s.queue ++ es.map Replay.remapEntry } := by
  induction es generalizing s with
  | nil => simp [queueRemaps]
  | cons e es ih =>
    have h := ih (s.suggest e.2 (.remap e.1 e.2 .model))
    rw [queueRemaps] at h ⊢
    rw [List.foldl_cons, h]
    simp [suggest, Replay.remapEntry]

theorem mem_mappingsTo {s : Session} {side : ItemKey} {e : ColumnKey × ItemKey} :
    e ∈ s.mappingsTo side ↔ e ∈ s.mapper ∧ e.2 = side ∧ e.1 ∈ s.referring side := by
  rw [mappingsTo, List.mem_filterMap]
  constructor
  · rintro ⟨col, hcol, hf⟩
    have hp := List.find?_some hf
    simp only [Bool.and_eq_true, beq_iff_eq] at hp
    obtain ⟨rfl, rfl⟩ := hp
    exact ⟨List.mem_of_find?_eq_some hf, rfl, hcol⟩
  · rintro ⟨he, rfl, hcol⟩
    refine ⟨e.1, hcol, ?_⟩
    cases hf : s.mapper.find? (fun d => d.1 == e.1 && d.2 == e.2) with
    | none => exact absurd (List.find?_eq_none.1 hf e he) (by simp)
    | some d =>
      have hp := List.find?_some hf
      simp only [Bool.and_eq_true, beq_iff_eq] at hp
      rw [Prod.ext hp.1 hp.2]

theorem mem_pendingRemaps {s : Session} {c : Conflict} {e : ColumnKey × ItemKey} :
    e ∈ s.pendingRemaps c ↔
      (∃ side ∈ c.sides, e ∈ s.mappingsTo side) ∧ e ∉ s.current.remaps := by
  simp [pendingRemaps, isActive]

/-- A session that shades another with the same configured relations finds no further mapping. -/
theorem mappingsTo_subset {s s' : Session} (hm : s'.mapper = s.mapper)
    (h : s.current.Shades s'.current) (side : ItemKey) : s'.mappingsTo side ⊆ s.mappingsTo side := by
  intro e he
  rw [mem_mappingsTo, hm] at he
  exact mem_mappingsTo.2 ⟨he.1, he.2.1, h.referring_subset side.name he.2.2⟩

theorem automap_spec {s : Session} (h : s.Replayed) (c : Conflict) :
    (s.automap c).Replayed ∧ s.current.Shades (s.automap c).current ∧
      (s.automap c).current.remaps =
        (s.pendingRemaps c).foldl (fun rs e => upsert e.1 e.2 rs) s.current.remaps := by
  by_cases hm : s.mappedSides c = []
  · rw [automap_of_unmapped hm, pendingRemaps_eq_nil hm]
    exact ⟨h, .refl _, rfl⟩
  · have hmap : s.automap c = ((s.queueRemaps (s.pendingRemaps c)).inPhase .autoMapped).replay := by
      simp [automap, hm]
    rw [hmap, queueRemaps_eq]
    refine ⟨rfl, ?_⟩
    obtain ⟨hs, hr⟩ := Replay.shades_foldl_remaps
      (s.queue.foldl Replay.act (Replay.start s.pristine s.links)) (s.pendingRemaps c)
    rw [show s.current = s.attributes.foldl Replay.addAttribute
      (s.queue.foldl Replay.act (Replay.start s.pristine s.links)) from h]
    simp only [replay, inPhase, Replay.run, List.foldl_append]
    refine ⟨hs.attributes s.attributes, ?_⟩
    rw [(Replay.foldl_addAttribute _ _).2.1, (Replay.foldl_addAttribute _ _).2.1, hr]

theorem mapper_automap (s : Session) (c : Conflict) : (s.automap c).mapper = s.mapper :=
  (grows_automap s c).mapper

theorem mapper_injective {s : Session} (hm : (s.mapper.map Prod.fst).Nodup)
    {d e : ColumnKey × ItemKey} (hd : d ∈ s.mapper) (he : e ∈ s.mapper) (h : d.1 = e.1) : d = e :=
  List.inj_on_of_nodup_map hm hd he h

theorem active_automap {s : Session} (h : s.Replayed) (hm : (s.mapper.map Prod.fst).Nodup)
    {c : Conflict} {e : ColumnKey × ItemKey} (he : e ∈ s.mapper)
    (ha : e ∈ s.pendingRemaps c ∨ e ∈ s.current.remaps) : e ∈ (s.automap c).current.remaps := by
  rw [(automap_spec h c).2.2]
  refine Replay.mem_foldl_upsert ha fun d hd hde => ?_
  obtain ⟨⟨side, -, hd⟩, -⟩ := mem_pendingRemaps.1 hd
  exact mapper_injective hm (mem_mappingsTo.1 hd).1 he hde

theorem pendingRemaps_automap {s : Session} (h : s.Replayed) (hm : (s.mapper.map Prod.fst).Nodup)
    (c : Conflict) : (s.automap c).pendingRemaps c = [] := by
  rw [List.eq_nil_iff_forall_not_mem]
  intro e he
  obtain ⟨⟨side, hside, he⟩, hidle⟩ := mem_pendingRemaps.1 he
  have he := mappingsTo_subset (mapper_automap s c) (automap_spec h c).2.1 side he
  refine hidle (active_automap h hm (mem_mappingsTo.1 he).1 ?_)
  by_cases ha : e ∈ s.current.remaps
  · exact .inr ha
  · exact .inl (mem_pendingRemaps.2 ⟨⟨side, hside, he⟩, ha⟩)

/-- With nothing to queue the automatic remaps change nothing that conflicts depend on. -/
theorem current_automap_of_idle {s : Session} (h : s.Replayed) {c : Conflict}
    (hp : s.pendingRemaps c = []) : (s.automap c).current = s.current := by
  unfold automap
  rw [hp]
  split
  · rfl
  · exact h.symm

/-- How many configured relations are not active. -/
def idle (s : Session) : Nat := (s.mapper.filter fun e => !s.isActive e).length

theorem idle_le (s : Session) : s.idle ≤ s.mapper.length := List.length_filter_le _ _

theorem idle_automap_lt {s : Session} (h : s.Replayed) (hm : (s.mapper.map Prod.fst).Nodup)
    {c : Conflict} (hp : s.pendingRemaps c ≠ []) : (s.automap c).idle < s.idle := by
  obtain ⟨e, he⟩ := List.exists_mem_of_ne_nil _ hp
  obtain ⟨⟨side, -, hmap⟩, hidle⟩ := mem_pendingRemaps.1 he
  have hmem := (mem_mappingsTo.1 hmap).1
  have hsub : (s.automap c).mapper.filter (fun e => !(s.automap c).isActive e) =
      (s.mapper.filter fun e => !s.isActive e).filter fun e => !(s.automap c).isActive e := by
    rw [mapper_automap, List.filter_filter]
    refine List.filter_congr fun d hd => ?_
    by_cases hact : d ∈ s.current.remaps
    · have := active_automap h hm (c := c) hd (.inr hact)
      simp [isActive, this]
    · simp [isActive, hact]
  rw [idle, hsub, idle, List.length_filter_lt_length_iff_exists]
  refine ⟨e, List.mem_filter.2 ⟨hmem, by simpa [isActive] using hidle⟩, ?_⟩
  have := active_automap h hm hmem (.inl he)
  simp [isActive, this]

theorem pendingRemaps_of_again {s : Session} {c : Conflict} (h : s.Replayed)
    (hc : s.conflicts.head? = some c) (ha : c ∉ (s.automap c).conflicts) : s.pendingRemaps c ≠ [] := by
  intro hp
  rw [conflicts, current_automap_of_idle h hp] at ha
  exact ha (List.mem_of_head? hc)

theorem stepWithin_isSome {n : Nat} {s : Session} (hm : (s.mapper.map Prod.fst).Nodup)
    (h : s.started.idle < n) : (stepWithin n s).isSome := by
  induction n generalizing s with
  | zero => omega
  | succ n ih =>
    rcases turn_cases s with ⟨-, ht⟩ | ⟨c, cs, hc, ⟨e, -, ht⟩ | ⟨-, ha, ht⟩ | ⟨-, ht⟩⟩
    · simp [stepWithin, ht]
    · simp [stepWithin, ht]
    · simp only [stepWithin, ht]
      have hr := replayed_started s
      have hp := pendingRemaps_of_again hr (by rw [hc]; rfl) ha
      have hlt := idle_automap_lt hr hm hp
      have hr' := (automap_spec hr c).1
      have hsame : (s.started.automap c).started.idle = (s.started.automap c).idle := by
        simp only [idle, isActive, hr'.started]
        rfl
      exact ih (by rw [mapper_automap]; exact hm) (by omega)
    · simp [stepWithin, ht]

theorem nextStep_eq (s : Session) (hm : (s.mapper.map Prod.fst).Nodup) :
    stepWithin (s.mapper.length + 1) s = some s.nextStep := by
  have h := stepWithin_isSome (n := s.mapper.length + 1) hm (Nat.lt_succ_of_le (idle_le s.started))
  rw [nextStep]
  exact (Option.some_get h).symm ▸ rfl

/-- A session in which a conflict comes first and none of its configured remaps is left to queue. -/
structure Presents (s : Session) (c : Conflict) : Prop where
  replayed : s.Replayed
  first : s.conflicts.head? = some c
  settled : s.pendingRemaps c = []

theorem presents_automap {s : Session} (h : s.Replayed) (hm : (s.mapper.map Prod.fst).Nodup)
    {c : Conflict} (hc : s.conflicts.head? = some c) (hmem : c ∈ (s.automap c).conflicts) :
    (s.automap c).Presents c :=
  ⟨(automap_spec h c).1, (automap_spec h c).2.1.head?_conflicts hc hmem, pendingRemaps_automap h hm c⟩

theorem mem_sides_of_candidate {c : Conflict} {mapped : List ItemKey} {k : ItemKey}
    (h : k ∈ candidatesOf c mapped) : k ∈ c.sides := by
  unfold candidatesOf at h
  split at h
  · exact (List.mem_filter.1 h).1
  · exact h

/-- A step that neither fails nor puts the first conflict to the resolver has settled it by queueing
configured remaps. -/
theorem nextStep_of_first {s : Session} {c : Conflict} (hc : s.started.conflicts.head? = some c) :
    (∃ e, s.nextStep.1 = .error e) ∨ (∃ ch, s.nextStep.1 = .ok (.choice ch) ∧ ch.conflict = c) ∨
      (s.started.pendingRemaps c ≠ [] ∧ c ∉ (s.started.automap c).conflicts) := by
  rcases turn_cases s with ⟨hnil, ht⟩ | ⟨d, cs, hcons, h⟩
  · simp [hnil] at hc
  · obtain rfl : d = c := by simpa [hcons] using hc
    rcases h with ⟨e, -, ht⟩ | ⟨-, ha, ht⟩ | ⟨-, ht⟩
    · exact .inl ⟨e, by simp [nextStep, stepWithin, ht]⟩
    · exact .inr (.inr ⟨pendingRemaps_of_again (replayed_started s) hc ha, ha⟩)
    · exact .inr (.inl ⟨s.started.choiceOf d, by simp [nextStep, stepWithin, ht], rfl⟩)

end FragmentMerge.Session
