import FragmentMerge.Command.Merge
import FragmentMerge.Proofs.Document.Declarations
import FragmentMerge.Proofs.Features.Built
import FragmentMerge.Proofs.Session.Log
import FragmentMerge.Proofs.Session.Revealed

/-! What a merge leaves behind that has written its document: a session over the loaded catalog that is
resolved, and the document of that session. The log of the session tells under which key each loaded
model stands in the document. -/

namespace FragmentMerge

theorem Config.kept_load [PatternEngine] {c : Config} {d : Disk} {made : List Fragment} {catalog : Catalog}
    (h : c.load d made = .ok catalog) : catalog.Kept := by
  obtain ⟨_, -, h⟩ := Plan.exists_of_bind h
  obtain ⟨origins, -, h⟩ := Plan.exists_of_bind h
  obtain ⟨loaded, hloaded, h⟩ := Plan.exists_of_bind h
  rw [Catalog.withFullText] at h
  split at h
  · cases h
  · next catalog' hadd =>
    cases h
    have hkept := Catalog.Kept.fullText c.fullText c.isExcluded (.loaded hloaded)
    rwa [hadd] at hkept

/-- A selection without repetitions selects each element from one place only. -/
theorem eq_of_nodup_filterMap {α β : Type} {f : α → Option β} {xs : List α} (h : (xs.filterMap f).Nodup)
    {x y : α} (hx : x ∈ xs) (hy : y ∈ xs) {b : β} (hfx : f x = some b) (hfy : f y = some b) : x = y := by
  have hpair := List.pairwise_filterMap.1 h
  induction xs with
  | nil => cases hx
  | cons z xs ih =>
    rw [List.pairwise_cons] at hpair
    rcases List.mem_cons.1 hx with rfl | hx'
    · rcases List.mem_cons.1 hy with rfl | hy'
      · rfl
      · exact absurd rfl (hpair.1 y hy' b hfx b hfy)
    · rcases List.mem_cons.1 hy with rfl | hy'
      · exact absurd rfl (hpair.1 x hx' b hfy b hfx)
      · exact ih (List.pairwise_filterMap.2 hpair.2) hx' hy' hpair.2

namespace Session

/-- Under which key a session emits a model of its pristine catalog. -/
structure Emits (s : Session) (k k' : ItemKey) : Prop where
  loaded : k ∈ s.pristine.models.map Model.key
  moved : Replay.fate s.current.log k = some k'
  visible : k' ∉ s.hidden

variable {s : Session} {k k' k₁ k₂ k₁' k₂' : ItemKey}

theorem Emits.mem_models (h : s.Emits k k') (hr : s.Replayed) (hw : s.pristine.WellKeyed) :
    k' ∈ s.catalog.models.map Model.key := by
  obtain ⟨notes, -, -, hgain, -⟩ := hr.gains hw
  have hmoved := h.moved
  rw [hr.fate_log hw] at hmoved
  rw [hgain.keys, (moves_bare hw).2]
  exact List.mem_filterMap.2 ⟨k, h.loaded, hmoved⟩

theorem Emits.mem_visible (h : s.Emits k k') (hr : s.Replayed) (hw : s.pristine.WellKeyed) :
    ∃ m ∈ Document.visibleModels s.current, m.key = k' := by
  obtain ⟨m, hm, rfl⟩ := List.mem_map.1 (h.mem_models hr hw)
  refine ⟨m, List.mem_filter.2 ⟨hm, ?_⟩, rfl⟩
  simpa [Replay.isVisible, hidden] using h.visible

theorem Emits.key_ne (h₁ : s.Emits k₁ k₁') (h₂ : s.Emits k₂ k₂') (hr : s.Replayed)
    (hw : s.pristine.WellKeyed) (hne : k₁ ≠ k₂) : k₁' ≠ k₂' := by
  have hnodup := (Catalog.nodup_keys (wellKeyed_bare hw).distinct).1
  rw [(moves_bare hw).2] at hnodup
  have hmoved₁ := h₁.moved
  have hmoved₂ := h₂.moved
  rw [hr.fate_log hw] at hmoved₁ hmoved₂
  rintro rfl
  exact hne (eq_of_nodup_filterMap hnodup h₁.loaded h₂.loaded hmoved₁ hmoved₂)

theorem Emits.name_ne (h₁ : s.Emits k₁ k₁') (h₂ : s.Emits k₂ k₂') (hr : s.Replayed)
    (hw : s.pristine.WellKeyed) (hnone : s.conflicts = []) (hne : k₁ ≠ k₂) : k₁'.name ≠ k₂'.name := by
  intro hname
  have hnames : ((s.catalog.visibleKeys s.hidden).map ItemKey.name).Nodup := Catalog.conflicts_eq_nil.1 hnone
  have hmem₁ : k₁' ∈ s.catalog.visibleKeys s.hidden :=
    Catalog.mem_visibleKeys.2 ⟨List.mem_append_left _ (h₁.mem_models hr hw), h₁.visible⟩
  have hmem₂ : k₂' ∈ s.catalog.visibleKeys s.hidden :=
    Catalog.mem_visibleKeys.2 ⟨List.mem_append_left _ (h₂.mem_models hr hw), h₂.visible⟩
  exact h₁.key_ne h₂ hr hw hne (List.inj_on_of_nodup_map hnames hmem₁ hmem₂ hname)

end Session

namespace Merge

variable [PatternEngine] {c : Config} {d d' : Disk} {s : Session}

/-- A merge that has written the document of a session. -/
structure Merged (c : Config) (d d' : Disk) (s : Session) : Prop where
  loaded : c.load d [] = .ok s.pristine
  resolved : ∃ start answers r, Session.ofConfig s.pristine c = .ok start ∧ c.answers = .ok answers ∧
    start.resolve? (ruleResolver answers) () = some ⟨.ok r, s, ()⟩
  written : writeDocument (c.path c.output.schema) (Document.ofReplay s.current (extraBlocks c)) d =
    (.ok (), d')

theorem of_resolve {catalog : Catalog} {start : Session} {answers : List (ItemKey × Action)} {r : Resolution}
    (hc : catalog.Kept) (hstart : Session.ofConfig catalog c = .ok start)
    (hres : start.resolve? (ruleResolver answers) () = some ⟨.ok r, s, ()⟩) :
    s.pristine = catalog ∧ s.Replayed ∧ s.conflicts = [] := by
  have hsound := (Session.over_ofConfig hstart).sound hc.wellKeyed
  obtain ⟨-, -, hr, hnone, -⟩ :=
    Session.convergeWithin_ok (hsound.pristine ▸ hc.wellKeyed) hsound.mapper hres
  exact ⟨(hsound.grows hc.wellKeyed (Session.grows_resolveWithin hres)).pristine, hr, hnone⟩

theorem Merged.of_load {catalog : Catalog} (h : Merged c d d' s) (hload : c.load d [] = .ok catalog) :
    ∃ start answers r, Session.ofConfig catalog c = .ok start ∧ c.answers = .ok answers ∧
      start.resolve? (ruleResolver answers) () = some ⟨.ok r, s, ()⟩ := by
  obtain rfl : s.pristine = catalog := Except.ok.inj (h.loaded.symm.trans hload)
  exact h.resolved

theorem Merged.resolve_eq {catalog : Catalog} {start : Session} {answers : List (ItemKey × Action)}
    (h : Merged c d d' s) (hload : c.load d [] = .ok catalog) (hstart : Session.ofConfig catalog c = .ok start)
    (hanswers : c.answers = .ok answers) : ∃ r, start.resolve? (ruleResolver answers) () = some ⟨.ok r, s, ()⟩ := by
  obtain ⟨start', answers', r, hs, ha, hr⟩ := h.of_load hload
  obtain rfl := Except.ok.inj (hstart.symm.trans hs)
  obtain rfl := Except.ok.inj (hanswers.symm.trans ha)
  exact ⟨r, hr⟩

theorem Merged.session_eq {d₁ d₂ : Disk} {s₁ s₂ : Session} (h₁ : Merged c d d₁ s₁) (h₂ : Merged c d d₂ s₂) :
    s₁ = s₂ := by
  obtain ⟨start, answers, r, hstart, hanswers, hres⟩ := h₁.resolved
  obtain ⟨r', hres'⟩ := h₂.resolve_eq h₁.loaded hstart hanswers
  rw [hres] at hres'
  cases hres'
  rfl

theorem Merged.settled (h : Merged c d d' s) :
    s.pristine.WellKeyed ∧ s.Replayed ∧ s.conflicts = [] := by
  obtain ⟨start, answers, r, hstart, -, hres⟩ := h.resolved
  have hkept := Config.kept_load h.loaded
  exact ⟨hkept.wellKeyed, (of_resolve hkept hstart hres).2⟩

end Merge

end FragmentMerge
