import FragmentMerge.Proofs.Session.Offers

/-! Asking again. A second step finds the queue, the catalog and the remaps as the first one has left them,
and looks at the same conflict. Its choice is made from the columns that refer to the conflict, and those
in a model that the remaps of the first step have put out of use are no longer among them. -/

namespace FragmentMerge

namespace Replay

/-- Out of the columns that refer to a name, those in models that are still visible stay. -/
theorem Shades.referring_eq {r r' : Replay} (h : Shades r r') (name : String) :
    r'.referring name = (r.referring name).filter fun col => r'.isVisible col.item := by
  rw [Replay.referring_eq, Replay.referring_eq, h.catalog, List.filter_flatMap]
  refine List.flatMap_congr fun m _ => ?_
  have hitem : ∀ col ∈ relationsTo m name, col.item = m.key := fun _ => item_of_mem_relationsTo
  have hstay : ∀ k, r'.isVisible k = true → r.isVisible k = true := by
    intro k hk
    simp only [isVisible, Bool.not_eq_true', List.contains_eq_mem, decide_eq_false_iff_not] at hk ⊢
    exact fun hmem => hk (h.hidden hmem)
  by_cases hvis : r'.isVisible m.key = true
  · rw [if_pos hvis, if_pos (hstay _ hvis), List.filter_eq_self.2]
    intro col hcol
    rw [hitem col hcol]
    exact hvis
  · rw [if_neg hvis]
    symm
    rw [List.filter_eq_nil_iff]
    intro col hcol
    split at hcol
    · rw [hitem col hcol]
      exact hvis
    · cases hcol

end Replay

namespace Session

variable {s s' t : Session} {c : Catalog} {x : Conflict}

@[simp] theorem inPhase_inPhase (s : Session) (p q : Phase) : (s.inPhase p).inPhase q = s.inPhase q := rfl

theorem Replayed.started_eq (h : s.Replayed) : s.started = s.inPhase .awaiting := by
  calc s.started = { s.inPhase .awaiting with current := s.started.current } := rfl
    _ = { s.inPhase .awaiting with current := s.current } := by rw [h.started]

/-- A choice depends on the columns that refer to the sides, and on the configuration. -/
theorem choiceOf_congr (hmapper : s'.mapper = s.mapper)
    (h : ∀ side ∈ x.sides, s'.referring side = s.referring side) : s'.choiceOf x = s.choiceOf x := by
  have hmappings : ∀ side ∈ x.sides, s'.mappingsTo side = s.mappingsTo side := by
    intro side hside
    rw [mappingsTo, mappingsTo, h side hside, hmapper]
  have hmapped : s'.mappedSides x = s.mappedSides x := by
    unfold mappedSides
    refine List.filter_congr fun side hside => ?_
    rw [hmappings side hside]
  rw [choiceOf, choiceOf, hmapped, h x.left List.mem_cons_self]

@[simp] theorem choiceOf_inPhase (s : Session) (p : Phase) (x : Conflict) :
    (s.inPhase p).choiceOf x = s.choiceOf x := rfl

theorem crossingError?_automap (hr : t.Replayed) (he : t.crossingError? x = none) :
    (t.automap x).crossingError? x = none := by
  rw [crossingError?_eq_none] at he ⊢
  rw [(grows_automap t x).crossFile]
  refine he.imp_right fun h side hside col hcol => ?_
  exact h side hside col ((automap_spec hr x).2.1.referring_subset side.name hcol)

/-- The choice is the same once its remaps are active exactly if all its references are left. -/
theorem choiceOf_automap_iff (hr : t.Replayed) (hn : t.catalog.keys.Nodup)
    (hfirst : t.conflicts.head? = some x) (hmem : x ∈ (t.automap x).conflicts) :
    (t.automap x).choiceOf x = t.choiceOf x ↔
      ∀ col ∈ (t.choiceOf x).references, col.item ∉ (t.automap x).hidden := by
  have hshades := (automap_spec hr x).2.1
  have hsame : (t.automap x).referring x.left = t.referring x.left ↔
      ∀ col ∈ t.referring x.left, col.item ∉ (t.automap x).hidden := by
    rw [Session.referring, hshades.referring_eq, Session.referring, List.filter_eq_self]
    simp [Replay.isVisible, Session.hidden]
  rw [show (t.choiceOf x).references = t.referring x.left from rfl, ← hsame]
  constructor
  · exact fun h => congrArg Choice.references h
  · intro h
    refine choiceOf_congr (mapper_automap t x) fun side hside => ?_
    have hn' : (t.automap x).catalog.keys.Nodup := by
      rw [Session.catalog, hshades.catalog]
      exact hn
    have hfirst' := hshades.head?_conflicts hfirst hmem
    rw [referring_side hn' hfirst' hside, referring_side hn hfirst hside]
    exact h

/-- Where a choice has been put, the next step puts the one that is left. -/
theorem Presents.nextStep {p : Phase} (h : s.Presents x) (he : s.crossingError? x = none) :
    (s.inPhase p).nextStep.1 = .ok (.choice (s.choiceOf x)) ∧ (s.inPhase p).nextStep.2.queue = s.queue ∧
      (s.inPhase p).nextStep.2.current = s.current := by
  have hsame : ((s.inPhase .awaiting).automap x).current = s.current :=
    current_automap_of_idle (h.replayed.inPhase .awaiting) h.settled
  have hmem : x ∈ ((s.inPhase .awaiting).automap x).conflicts := by
    rw [conflicts, hsame]
    exact List.mem_of_head? h.first
  have hends : (s.inPhase p).started.Ends (.ok (.choice (s.choiceOf x)))
      (((s.inPhase .awaiting).automap x).inPhase .userChoice) := by
    rw [(h.replayed.inPhase p).started_eq, inPhase_inPhase, ← choiceOf_inPhase s .awaiting]
    exact .offered h.first he hmem
  rw [hends.nextStep]
  refine ⟨rfl, ?_, hsame⟩
  have hidle : (s.inPhase .awaiting).pendingRemaps x = [] := h.settled
  have hqueue := queue_automap (s.inPhase .awaiting) x
  rw [hidle, List.map_nil, List.append_nil] at hqueue
  exact hqueue

/-- Where a step has ended, the next one leaves queue and replay alone and comes to the same result, unless
a reference of its choice has gone out of use. -/
theorem Ends.again {r : Except ResolveError Step} (hr : t.Replayed) (hm : (t.mapper.map Prod.fst).Nodup)
    (hn : t.catalog.keys.Nodup) (h : t.Ends r s) :
    s.nextStep.2.queue = s.queue ∧ s.nextStep.2.current = s.current ∧
      (s.nextStep.1 = r ↔
        ∀ ch, r = .ok (.choice ch) → ∀ col ∈ ch.references, col.item ∉ s.hidden) := by
  cases h with
  | done hnil =>
    have hends : (t.inPhase .done).started.Ends (.ok .done) ((t.inPhase .awaiting).inPhase .done) := by
      rw [(hr.inPhase .done).started_eq, inPhase_inPhase]
      exact .done hnil
    rw [hends.nextStep]
    exact ⟨rfl, rfl, iff_of_true rfl (by simp)⟩
  | @failed x e hfirst he =>
    have hends : s.started.Ends (.error e) (s.inPhase .awaiting) := by
      rw [hr.started_eq]
      exact .failed hfirst he
    rw [hends.nextStep]
    exact ⟨rfl, rfl, iff_of_true rfl (by simp)⟩
  | @offered x hfirst he hmem =>
    have hp := presents_automap hr hm hfirst hmem
    obtain ⟨hresult, hqueue, hcurrent⟩ := hp.nextStep (p := .userChoice) (crossingError?_automap hr he)
    refine ⟨hqueue, hcurrent, ?_⟩
    rw [hresult, Except.ok.injEq, Step.choice.injEq, choiceOf_automap_iff hr hn hfirst hmem]
    simp only [Except.ok.injEq, Step.choice.injEq, forall_eq']
    rfl

/-- A second step without an action in between leaves the queue and the replay as they are. It comes to the
result of the first one exactly if no reference of a choice is in a model that the first step has put out
of use. -/
theorem nextStep_again_iff (hc : c.Kept) (hs : Over c s) :
    s.nextStep.2.nextStep.2.queue = s.nextStep.2.queue ∧
      s.nextStep.2.nextStep.2.current = s.nextStep.2.current ∧
      (s.nextStep.2.nextStep.1 = s.nextStep.1 ↔
        ∀ ch, s.nextStep.1 = .ok (.choice ch) →
          ∀ col ∈ ch.references, col.item ∉ s.nextStep.2.hidden) := by
  have hm := (hs.sound hc.wellKeyed).mapper
  obtain ⟨t, hr, hg, hends⟩ := nextStep_ends hm
  have hn : t.catalog.keys.Nodup := ((hs.sound hc.wellKeyed).grows hc.wellKeyed hg).keyed.distinct
  exact hends.again hr (hg.mapper ▸ hm) hn

theorem nextStep_again_trio :
    Catalog.ofFragments (fun _ => false) trio = .ok trioCatalog ∧ Over trioCatalog trioSession ∧
      trioSession.nextStep.1 = .ok (.choice trioChoice) ∧
      trioSession.nextStep.2.nextStep.1 = trioSession.nextStep.1 := by
  have hs : Over trioCatalog trioSession := .mapping _ _ (.crossFile _ .new)
  have hchoice : trioSession.nextStep.1 = .ok (.choice trioChoice) := rfl
  refine ⟨load_trio, hs, hchoice, (nextStep_again_iff (.loaded load_trio) hs).2.2.2 ?_⟩
  intro ch hch
  rw [hchoice] at hch
  cases hch
  decide

/-- A model that is its own parent, beside two others of its name. The relation is sent to one of these,
which puts the model out of use and the relation with it. -/
def kin : List Fragment :=
  [⟨"base", "generator g \x7b\n\x7d\ndatasource d \x7b\n\x7d"⟩,
    ⟨"f", "model User \x7b\n  id Int\n\x7d"⟩,
    ⟨"g", "model User \x7b\n  id Int\n\x7d"⟩,
    ⟨"h", "model User \x7b\n  id Int\n  parent User @relation(fields: [id])\n\x7d"⟩]

def kinCatalog : Catalog :=
  { base := "base", generator := "generator g \x7b\n\x7d", datasource := "datasource d \x7b\n\x7d",
    files := ["base", "f", "g", "h"],
    models := [
      ⟨⟨"f", "User"⟩, [⟨"id", "Int", []⟩], 1⟩,
      ⟨⟨"g", "User"⟩, [⟨"id", "Int", []⟩], 1⟩,
      ⟨⟨"h", "User"⟩, [⟨"id", "Int", []⟩, ⟨"parent", "User", ["@relation(fields: [id])"]⟩], 1⟩],
    enums := [] }

def kinSession : Session :=
  ((new kinCatalog).withCrossFile true).withMapping ⟨⟨"h", "User"⟩, "parent"⟩ ⟨"f", "User"⟩

/-- The first step offers the side that is not mapped, and the second one offers both. -/
theorem asked_again_differs :
    Catalog.ofFragments (fun _ => false) kin = .ok kinCatalog ∧ Over kinCatalog kinSession ∧
      kinSession.nextStep.1 = .ok (.choice ⟨⟨⟨"f", "User"⟩, ⟨"g", "User"⟩, .model⟩, [⟨"g", "User"⟩],
        [⟨"f", "User"⟩], [⟨⟨"h", "User"⟩, "parent"⟩]⟩) ∧
      kinSession.nextStep.2.nextStep.1 = .ok (.choice ⟨⟨⟨"f", "User"⟩, ⟨"g", "User"⟩, .model⟩,
        [⟨"f", "User"⟩, ⟨"g", "User"⟩], [], []⟩) ∧
      kinSession.nextStep.2.nextStep.1 ≠ kinSession.nextStep.1 := by
  have hfirst : kinSession.nextStep.1 = .ok (.choice ⟨⟨⟨"f", "User"⟩, ⟨"g", "User"⟩, .model⟩,
      [⟨"g", "User"⟩], [⟨"f", "User"⟩], [⟨⟨"h", "User"⟩, "parent"⟩]⟩) := rfl
  have hsecond : kinSession.nextStep.2.nextStep.1 = .ok (.choice ⟨⟨⟨"f", "User"⟩, ⟨"g", "User"⟩, .model⟩,
      [⟨"f", "User"⟩, ⟨"g", "User"⟩], [], []⟩) := rfl
  refine ⟨rfl, .mapping _ _ (.crossFile _ .new), hfirst, hsecond, ?_⟩
  rw [hfirst, hsecond]
  decide

end Session

end FragmentMerge
