import FragmentMerge.Proofs.Replay.Cases
import FragmentMerge.Session.Resolve

/-! One turn of a step. A turn replays the queue, looks at the first conflict, and queues the configured
remaps of its sides that are not active; it comes to an end unless these remaps settle the conflict. -/

namespace FragmentMerge.Session

/-- The session that a turn looks at. -/
def started (s : Session) : Session := (s.inPhase .awaiting).replay

/-- The session once the configured remaps for a conflict have been queued and replayed. -/
def automap (s : Session) (c : Conflict) : Session :=
  if (s.mappedSides c).isEmpty then s.queueRemaps (s.pendingRemaps c)
  else ((s.queueRemaps (s.pendingRemaps c)).inPhase .autoMapped).replay

def choiceOf (s : Session) (c : Conflict) : Choice :=
  ⟨c, candidatesOf c (s.mappedSides c), s.mappedSides c, s.referring c.left⟩

theorem pendingRemaps_eq_nil {s : Session} {c : Conflict} (h : s.mappedSides c = []) :
    s.pendingRemaps c = [] := by
  have hsides : ∀ side ∈ c.sides, s.mappingsTo side = [] := by
    simpa [mappedSides] using h
  have hflat : c.sides.flatMap s.mappingsTo = [] := List.flatMap_eq_nil_iff.2 hsides
  simp [pendingRemaps, hflat]

theorem automap_of_unmapped {s : Session} {c : Conflict} (h : s.mappedSides c = []) :
    s.automap c = s := by
  simp [automap, h, pendingRemaps_eq_nil h, queueRemaps]

theorem turn_cases (s : Session) :
    (s.started.conflicts = [] ∧ s.turn = (.ended (.ok .done), s.started.inPhase .done)) ∨
    ∃ c cs, s.started.conflicts = c :: cs ∧
      ((∃ e, s.started.crossingError? c = some e ∧ s.turn = (.ended (.error e), s.started)) ∨
      (s.started.mappedSides c ≠ [] ∧ c ∉ (s.started.automap c).conflicts ∧
        s.turn = (.again, s.started.automap c)) ∨
      (c ∈ (s.started.automap c).conflicts ∧
        s.turn = (.ended (.ok (.choice (s.started.choiceOf c))),
          (s.started.automap c).inPhase .userChoice))) := by
  have hturn : s.turn =
      s.started.conflicts.head?.elim (.ended (.ok .done), s.started.inPhase .done) fun c =>
        (s.started.crossingError? c).elim
          (if !(s.started.mappedSides c).isEmpty && !(s.started.automap c).conflicts.contains c then
            (.again, s.started.automap c)
          else (.ended (.ok (.choice (s.started.choiceOf c))),
            (s.started.automap c).inPhase .userChoice))
          fun e => (.ended (.error e), s.started) := by
    rw [turn, ← started]
    cases s.started.conflicts with
    | nil => rfl
    | cons c cs =>
      dsimp only [List.head?_cons, Option.elim_some]
      cases s.started.crossingError? c <;> rfl
  generalize s.started = t at hturn
  rw [hturn]
  cases hc : t.conflicts with
  | nil => exact .inl ⟨rfl, rfl⟩
  | cons c cs =>
    refine .inr ⟨c, cs, rfl, ?_⟩
    dsimp only [List.head?_cons, Option.elim_some]
    cases t.crossingError? c with
    | some e => exact .inl ⟨e, rfl, rfl⟩
    | none =>
      right
      by_cases hm : t.mappedSides c = []
      · have hmem : c ∈ (t.automap c).conflicts := by
          rw [automap_of_unmapped hm, hc]
          exact List.mem_cons_self
        exact .inr ⟨hmem, by simp [hm]⟩
      · by_cases hmem : c ∈ (t.automap c).conflicts
        · exact .inr ⟨hmem, by simp [hmem]⟩
        · exact .inl ⟨hm, hmem, by simp [hm, hmem]⟩

/-- What the operations of a session can change. Steps, passes and whole resolutions only add to the queue
and to the attributes, and the replay they leave is the old one or one of the same catalog and the same
links. -/
structure Grows (s s' : Session) : Prop where
  pristine : s'.pristine = s.pristine
  mapper : s'.mapper = s.mapper
  links : s'.links = s.links
  crossFile : s'.crossFile = s.crossFile
  rules : s'.rules = s.rules
  maxPasses : s'.maxPasses = s.maxPasses
  queue : s.queue <+: s'.queue
  attributes : s.attributes <+: s'.attributes
  current : s'.current = s.current ∨ ∃ q as, s'.current = Replay.run s.pristine s.links q as

theorem Grows.refl (s : Session) : Grows s s :=
  ⟨rfl, rfl, rfl, rfl, rfl, rfl, List.prefix_rfl, List.prefix_rfl, .inl rfl⟩

theorem Grows.trans {a b c : Session} (h : Grows a b) (g : Grows b c) : Grows a c := by
  refine ⟨g.pristine.trans h.pristine, g.mapper.trans h.mapper, g.links.trans h.links,
    g.crossFile.trans h.crossFile, g.rules.trans h.rules, g.maxPasses.trans h.maxPasses,
    h.queue.trans g.queue, h.attributes.trans g.attributes, ?_⟩
  rcases g.current with hc | ⟨q, as, hc⟩
  · rw [hc]
    exact h.current
  · exact .inr ⟨q, as, by rw [hc, h.pristine, h.links]⟩

theorem grows_inPhase (s : Session) (p : Phase) : Grows s (s.inPhase p) :=
  ⟨rfl, rfl, rfl, rfl, rfl, rfl, List.prefix_rfl, List.prefix_rfl, .inl rfl⟩

theorem grows_replay (s : Session) : Grows s s.replay :=
  ⟨rfl, rfl, rfl, rfl, rfl, rfl, List.prefix_rfl, List.prefix_rfl, .inr ⟨_, _, rfl⟩⟩

theorem grows_suggest (s : Session) (k : ItemKey) (a : Action) : Grows s (s.suggest k a) :=
  ⟨rfl, rfl, rfl, rfl, rfl, rfl, List.prefix_append _ _, List.prefix_rfl, .inl rfl⟩

theorem grows_queueRemaps (s : Session) (es : Remaps) : Grows s (s.queueRemaps es) := by
  induction es generalizing s with
  | nil => exact .refl s
  | cons e es ih => exact (grows_suggest s e.2 _).trans (ih _)

theorem grows_started (s : Session) : Grows s s.started :=
  (grows_inPhase s _).trans (grows_replay _)

theorem grows_automap (s : Session) (c : Conflict) : Grows s (s.automap c) := by
  have h := grows_queueRemaps s (s.pendingRemaps c)
  unfold automap
  split
  · exact h
  · exact h.trans ((grows_inPhase _ _).trans (grows_replay _))

theorem grows_turn (s : Session) : Grows s s.turn.2 := by
  have h := grows_started s
  rcases turn_cases s with ⟨-, ht⟩ | ⟨c, cs, -, ⟨e, -, ht⟩ | ⟨-, -, ht⟩ | ⟨-, ht⟩⟩
  · rw [ht]
    exact h.trans (grows_inPhase _ _)
  · rw [ht]
    exact h
  · rw [ht]
    exact h.trans (grows_automap _ c)
  · rw [ht]
    exact h.trans ((grows_automap _ c).trans (grows_inPhase _ _))

theorem grows_stepWithin {n : Nat} {s s' : Session} {r : Except ResolveError Step}
    (h : stepWithin n s = some (r, s')) : Grows s s' := by
  induction n generalizing s with
  | zero => cases h
  | succ n ih =>
    have ht := grows_turn s
    unfold stepWithin at h
    cases hs : s.turn with
    | mk t u =>
      rw [hs] at ht
      cases t with
      | ended r' =>
        simp only [hs, Option.some.injEq, Prod.mk.injEq] at h
        exact h.2 ▸ ht
      | again =>
        simp only [hs] at h
        exact ht.trans (ih h)

theorem grows_nextStep (s : Session) : Grows s s.nextStep.2 := by
  unfold nextStep
  cases h : stepWithin (s.mapper.length + 1) s with
  | none => exact .refl s
  | some p => exact grows_stepWithin h

theorem accept_eq_ok {s s' : Session} {c : Choice} {answer : Option (ItemKey × Action)}
    (h : s.accept c answer = .ok s') : ∃ k a, answer = some (k, a) ∧ k ∈ c.candidates ∧
      s' = s.suggest k a ∧ ∀ name, a.newName? = some name → s.catalog.isTaken k name = false := by
  unfold accept at h
  cases answer with
  | none => cases h
  | some p =>
    obtain ⟨k, a⟩ := p
    simp only at h
    split at h
    · cases h
    · next hk =>
      refine ⟨k, a, rfl, by simpa using hk, ?_⟩
      cases hn : a.newName? with
      | none =>
        simp only [hn, Except.ok.injEq] at h
        exact ⟨h.symm, by simp⟩
      | some name =>
        simp only [hn] at h
        split at h
        · cases h
        · next ht => exact ⟨(Except.ok.inj h).symm, fun _ he => Option.some.inj he ▸ by simpa using ht⟩

theorem grows_accept {s s' : Session} {c : Choice} {answer : Option (ItemKey × Action)}
    (h : s.accept c answer = .ok s') : Grows s s' := by
  obtain ⟨k, a, -, -, rfl, -⟩ := accept_eq_ok h
  exact grows_suggest s k a

theorem grows_settleWithin {σ : Type} {ask : Resolver σ} {n : Nat} {s : Session} {st : σ} {m : Nat}
    {previous : Option Conflict} {o : Outcome σ Nat}
    (h : settleWithin ask n s st m previous = some o) : Grows s o.session := by
  induction n generalizing s st m previous with
  | zero => cases h
  | succ n ih =>
    have hn := grows_nextStep s
    unfold settleWithin at h
    cases hs : s.nextStep with
    | mk r u =>
      rw [hs] at hn
      simp only [hs] at h
      cases r with
      | error e => exact Option.some.inj h ▸ hn
      | ok step =>
        cases step with
        | done => exact Option.some.inj h ▸ hn
        | choice c =>
          simp only at h
          split at h
          · exact Option.some.inj h ▸ hn
          · split at h
            · exact Option.some.inj h ▸ hn
            · next u' hu => exact hn.trans ((grows_accept hu).trans (ih h))

theorem prefix_foldl_fresh (final : String) (lines : List String) (as : List (String × String)) :
    as <+: lines.foldl (fun as line => if as.contains (final, line) then as else as ++ [(final, line)])
      as := by
  induction lines generalizing as with
  | nil => exact List.prefix_rfl
  | cons line lines ih =>
    refine List.IsPrefix.trans ?_ (ih _)
    dsimp only
    split
    · exact List.prefix_rfl
    · exact List.prefix_append _ _

theorem grows_applyRules (s : Session) (name : String) : Grows s (s.applyRules name) := by
  unfold applyRules
  split
  · exact .refl s
  · simp only [applyMatch]
    split
    · exact ⟨rfl, rfl, rfl, rfl, rfl, rfl, List.prefix_rfl, prefix_foldl_fresh _ _ _, .inl rfl⟩
    · exact ⟨rfl, rfl, rfl, rfl, rfl, rfl, List.prefix_append _ _, prefix_foldl_fresh _ _ _, .inl rfl⟩

theorem applyRules_current (s : Session) (name : String) :
    (s.applyRules name).current = s.current ∧ (s.applyRules name).phase = s.phase := by
  unfold applyRules
  split
  · exact ⟨rfl, rfl⟩
  · simp only [applyMatch]
    split <;> exact ⟨rfl, rfl⟩

theorem foldl_applyRules (s : Session) (names : List String) :
    Grows s (names.foldl applyRules s) ∧ (names.foldl applyRules s).current = s.current ∧
      (names.foldl applyRules s).phase = s.phase := by
  induction names generalizing s with
  | nil => exact ⟨.refl s, rfl, rfl⟩
  | cons name names ih =>
    obtain ⟨hg, hc, hp⟩ := ih (s.applyRules name)
    have h := applyRules_current s name
    exact ⟨(grows_applyRules s name).trans hg, hc.trans h.1, hp.trans h.2⟩

theorem grows_introspect (s : Session) : Grows s s.introspect.2 := by
  have h := (foldl_applyRules s s.visibleNames).1
  unfold introspect
  split
  · exact .refl s
  · dsimp only
    split
    · exact h
    · exact h.trans (grows_replay _)

theorem grows_convergeWithin {σ : Type} {ask : Resolver σ} {rounds left : Nat} {s : Session} {st : σ}
    {r : Resolution} {o : Outcome σ Resolution}
    (h : convergeWithin ask rounds left s st r = some o) : Grows s o.session := by
  induction left using Nat.strongRecOn generalizing s st r with
  | ind left ih =>
    unfold convergeWithin at h
    split at h
    · cases h
    · next hs => exact Option.some.inj h ▸ grows_settleWithin hs
    · next s₁ _ hs =>
      have hg := (grows_settleWithin hs).trans (grows_introspect s₁)
      simp only at h
      split at h
      · next s₂ hi => exact Option.some.inj h ▸ (by simpa [hi] using hg)
      · next s₂ hi =>
        rw [hi] at hg
        split at h
        · exact Option.some.inj h ▸ hg
        · next left => exact hg.trans (ih left (Nat.lt_succ_self left) h)

theorem grows_resolveWithin {σ : Type} {ask : Resolver σ} {rounds : Nat} {s : Session} {st : σ}
    {o : Outcome σ Resolution} (h : s.resolveWithin ask rounds st = some o) : Grows s o.session :=
  grows_convergeWithin h

end FragmentMerge.Session
