import FragmentMerge.Proofs.Session.Mappings

/-! What passes bring back into view. A pass renames the models out of use along with the others. One
that is out of use as a parent stays so. One that another model replaces is in use again once it has a
new name, and a model in use goes out of use when its new key is one that a hidden item has left. -/

namespace FragmentMerge.Session

variable {c : Catalog} {s : Session} {p k' : ItemKey}

theorem Replayed.parents (hr : s.Replayed) : s.current.parents = s.bare.parents := by
  rw [Replay.parents, hr.current_eq, (Replay.foldl_addAttribute _ _).2.2.2, Replay.parents]

theorem Replayed.isLeftover (hr : s.Replayed) {k : ItemKey} :
    s.current.IsLeftover k ↔ s.bare.IsLeftover k :=
  and_congr (iff_of_eq (congrArg (k ∈ ·) hr.hidden)) (not_congr (iff_of_eq (congrArg (k ∈ ·) hr.keys)))

/-- Attributes move no model, so the replay of the queue alone tells where the models are. -/
theorem Replayed.fate_log (hr : s.Replayed) (hw : s.pristine.WellKeyed) (p : ItemKey) :
    Replay.fate s.current.log p = Replay.fate s.bare.log p := by
  obtain ⟨notes, hlog, hadded, -⟩ := hr.gains hw
  have hstay : ∀ e ∈ notes, ∀ x, e.move x = some x := fun e he x => by
    obtain ⟨m, -, line, rfl⟩ := hadded e he
    rfl
  rw [hlog, Replay.fate_append, funext (Replay.fate_of_stays hstay)]
  exact Option.bind_fun_some _

/-- The models of the pristine catalog that are left have the keys that the log takes them to. -/
theorem mem_keys_of_fate (hw : s.pristine.WellKeyed) (hp : p ∈ s.pristine.models.map Model.key)
    {k : ItemKey} (hk : Replay.fate s.bare.log p = some k) : k ∈ s.bare.catalog.keys := by
  refine List.mem_append_left _ ?_
  rw [(moves_bare hw).2]
  exact List.mem_filterMap.2 ⟨p, hp, hk⟩

theorem mem_hidden_introspect (hw : s.pristine.WellKeyed) (hr : s.Replayed)
    (hp : p ∈ s.pristine.models.map Model.key)
    (hk' : Replay.fate s.introspect.2.current.log p = some k') :
    ∃ k, Replay.fate s.current.log p = some k ∧ (k' ∈ s.introspect.2.hidden ↔
      if k' = k then k ∈ s.hidden else k ∈ s.current.parents ∨ s.current.IsLeftover k') := by
  have hg := (foldl_applyRules s s.visibleNames).1
  have hw' : s.ruled.replay.pristine.WellKeyed := hg.pristine ▸ hw
  have hpass : s.ruled.replay.Replayed := replayed_replay _
  obtain ⟨log, hshift⟩ := Replay.shifts_foldl (wellKeyed_bare hw).distinct (renames_bare hw hr)
  rw [← bare_ruled] at hshift
  have hbare : s.ruled.replay.bare = s.ruled.bare := rfl
  rw [current_introspect hr, hpass.fate_log hw', hbare, hshift.logged, Replay.fate_append,
    Option.bind_eq_some_iff] at hk'
  obtain ⟨k, hk, hkk'⟩ := hk'
  refine ⟨k, (hr.fate_log hw p).trans hk, ?_⟩
  have hhidden : s.introspect.2.hidden = s.ruled.bare.hidden := by
    rw [hidden, current_introspect hr]
    exact hpass.hidden
  rw [hhidden, hr.hidden, hr.parents, hr.isLeftover]
  exact hshift.hidden k (mem_keys_of_fate hw hp hk) k' hkk'

/-- A pass leaves a model in or out of use exactly if it keeps its key, if it is a parent, or if its new
key was left hidden in case it was replaced, and was not in case it was in use. -/
theorem introspect_keeps_sight_iff (hc : c.Kept) (hs : Over c s) (hr : s.Replayed)
    (hp : p ∈ c.models.map Model.key)
    (hk' : Replay.fate s.introspect.2.current.log p = some k') :
    ∃ k, Replay.fate s.current.log p = some k ∧ ((k' ∈ s.introspect.2.hidden ↔ k ∈ s.hidden) ↔
      (k' ≠ k → k ∉ s.current.parents → (s.current.IsLeftover k' ↔ k ∈ s.hidden))) := by
  have hsound := hs.sound hc.wellKeyed
  rw [← hsound.pristine] at hp
  obtain ⟨k, hk, hiff⟩ := mem_hidden_introspect (hsound.pristine ▸ hc.wellKeyed) hr hp hk'
  refine ⟨k, hk, ?_⟩
  rw [hiff]
  by_cases hkk : k' = k
  · simp [hkk]
  · by_cases hpar : k ∈ s.current.parents
    · have hhidden : k ∈ s.hidden := Replay.mem_hidden.2 (.inr hpar)
      simp [hkk, hpar, hhidden]
    · simp [hkk, hpar]

/-- A user model has replaced another one, and there is a rule for the name of both. -/
def replacedSession : Session :=
  (authoredSession.withRules [⟨.exact "User", some "Person", []⟩] 10).nextStep.2

theorem over_replacedSession : Over authoredCatalog replacedSession :=
  .nextStep (.rules _ _ (.mapping _ _ (.crossFile _ .new)))

theorem introspect_keeps_sight_replacement :
    Catalog.ofFragments (fun _ => false) authored = .ok authoredCatalog ∧ replacedSession.Replayed ∧
      Replay.fate replacedSession.introspect.2.current.log ⟨"g", "User"⟩ = some ⟨"g", "Person"⟩ ∧
      (⟨"g", "Person"⟩ ∈ replacedSession.introspect.2.hidden ↔
        ⟨"g", "User"⟩ ∈ replacedSession.hidden) := by
  have hr : replacedSession.Replayed := rfl
  have hk' : Replay.fate replacedSession.introspect.2.current.log ⟨"g", "User"⟩ =
      some ⟨"g", "Person"⟩ := rfl
  have hp : (⟨"g", "User"⟩ : ItemKey) ∈ authoredCatalog.models.map Model.key := by decide
  obtain ⟨k, hk, hiff⟩ := introspect_keeps_sight_iff (.loaded load_authored) over_replacedSession hr hp hk'
  obtain rfl : ⟨"g", "User"⟩ = k := Option.some.inj hk
  exact ⟨load_authored, hr, hk', hiff.2 fun _ _ => by decide⟩

/-- The replaced model is in use again after the pass, in conflict with its replacement. -/
theorem replaced_revealed :
    Catalog.ofFragments (fun _ => false) authored = .ok authoredCatalog ∧
      Over authoredCatalog replacedSession ∧ replacedSession.Replayed ∧ replacedSession.links = [] ∧
      replacedSession.conflicts = [] ∧ ⟨"f", "User"⟩ ∈ replacedSession.hidden ∧
      Replay.fate replacedSession.current.log ⟨"f", "User"⟩ = some ⟨"f", "User"⟩ ∧
      Replay.fate replacedSession.introspect.2.current.log ⟨"f", "User"⟩ = some ⟨"f", "Person"⟩ ∧
      ⟨"f", "Person"⟩ ∉ replacedSession.introspect.2.hidden ∧
      replacedSession.introspect.2.conflicts = [⟨⟨"f", "Person"⟩, ⟨"g", "Person"⟩, .model⟩] :=
  ⟨load_authored, over_replacedSession, rfl, rfl, rfl, by decide, rfl, rfl, by decide, rfl⟩

end FragmentMerge.Session
