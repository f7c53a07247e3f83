import FragmentMerge.Proofs.Session.Step

/-! The sessions that the turns of a step look at. Each turn looks at the replayed queue of the one before
it, which that one has extended by remaps, and the step ends with what its last turn makes of the session
that it looks at: with no conflict, with an error, or with a choice for the first conflict. -/

namespace FragmentMerge.Session

variable {s s' t : Session} {r : Except ResolveError Step} {c : Conflict} {n : Nat}

/-- How a step ends at the session that its last turn looks at. -/
inductive Ends (t : Session) : Except ResolveError Step → Session → Prop
  | done : t.conflicts = [] → Ends t (.ok .done) (t.inPhase .done)
  | failed {c : Conflict} {e : ResolveError} : t.conflicts.head? = some c →
      t.crossingError? c = some e → Ends t (.error e) t
  | offered {c : Conflict} : t.conflicts.head? = some c → t.crossingError? c = none →
      c ∈ (t.automap c).conflicts →
      Ends t (.ok (.choice (t.choiceOf c))) ((t.automap c).inPhase .userChoice)

theorem turn_of_crossing {e : ResolveError} (hc : s.started.conflicts.head? = some c)
    (he : s.started.crossingError? c = some e) : s.turn = (.ended (.error e), s.started) := by
  obtain ⟨cs, hcs⟩ := List.head?_eq_some_iff.1 hc
  rw [turn, ← started]
  simp only [hcs, he]

/-- A turn settles the first conflict that it finds by remaps, or it ends the step. -/
theorem turn_ends (s : Session) :
    (∃ c, s.started.conflicts.head? = some c ∧ s.started.crossingError? c = none ∧
      c ∉ (s.started.automap c).conflicts ∧ s.turn = (.again, s.started.automap c)) ∨
    ∃ r s', s.started.Ends r s' ∧ s.turn = (.ended r, s') := by
  rcases turn_cases s with ⟨hc, ht⟩ | ⟨c, cs, hcs, h⟩
  · exact .inr ⟨_, _, .done hc, ht⟩
  · have hc : s.started.conflicts.head? = some c := by rw [hcs, List.head?_cons]
    cases he : s.started.crossingError? c with
    | some e => exact .inr ⟨_, _, .failed hc he, turn_of_crossing hc he⟩
    | none =>
      rcases h with ⟨e, he', -⟩ | ⟨-, hgone, ht⟩ | ⟨hmem, ht⟩
      · rw [he] at he'
        cases he'
      · exact .inl ⟨c, hc, he, hgone, ht⟩
      · exact .inr ⟨_, _, .offered hc he hmem, ht⟩

theorem nextStep_of_ended (h : s.turn = (.ended r, s')) : s.nextStep = (r, s') := by
  simp [nextStep, stepWithin, h]

theorem Ends.unique {r' : Except ResolveError Step} {t' : Session} (h : t.Ends r s) (h' : t.Ends r' t') :
    r' = r ∧ t' = s := by
  cases h with
  | done hnil =>
    cases h' with
    | done => exact ⟨rfl, rfl⟩
    | failed hc => simp [hnil] at hc
    | offered hc => simp [hnil] at hc
  | failed hc he =>
    cases h' with
    | done hnil => simp [hnil] at hc
    | failed hc' he' =>
      obtain rfl := Option.some.inj (hc.symm.trans hc')
      obtain rfl := Option.some.inj (he.symm.trans he')
      exact ⟨rfl, rfl⟩
    | offered hc' he' =>
      obtain rfl := Option.some.inj (hc.symm.trans hc')
      simp [he'] at he
  | offered hc he =>
    cases h' with
    | done hnil => simp [hnil] at hc
    | failed hc' he' =>
      obtain rfl := Option.some.inj (hc.symm.trans hc')
      simp [he] at he'
    | offered hc' =>
      obtain rfl := Option.some.inj (hc.symm.trans hc')
      exact ⟨rfl, rfl⟩

theorem Ends.nextStep (h : s.started.Ends r s') : s.nextStep = (r, s') := by
  have hturn : s.turn = (.ended r, s') := by
    rcases turn_ends s with ⟨c, hc, he, hgone, -⟩ | ⟨r₁, s₁, hends, ht⟩
    · cases h with
      | done hnil => simp [hnil] at hc
      | failed hc' he' =>
        obtain rfl := Option.some.inj (hc.symm.trans hc')
        simp [he] at he'
      | offered hc' he' hmem =>
        obtain rfl := Option.some.inj (hc.symm.trans hc')
        exact absurd hmem hgone
    · obtain ⟨rfl, rfl⟩ := h.unique hends
      exact ht
  exact nextStep_of_ended hturn

/-- The remaps that a turn queues when it looks at a session. -/
def found (t : Session) : Remaps :=
  match t.conflicts.head? with
  | some c => if (t.crossingError? c).isNone then t.pendingRemaps c else []
  | none => []

theorem found_of_head? (hc : t.conflicts.head? = some c) (he : t.crossingError? c = none) :
    t.found = t.pendingRemaps c := by
  simp [found, hc, he]

theorem mem_found {e : ColumnKey × ItemKey} (h : e ∈ t.found) : e ∈ t.mapper ∧ e ∉ t.current.remaps := by
  rw [found] at h
  split at h
  · split at h
    · obtain ⟨⟨side, -, he⟩, hidle⟩ := mem_pendingRemaps.1 h
      exact ⟨(mem_mappingsTo.1 he).1, hidle⟩
    · cases h
  · cases h

theorem queue_automap (s : Session) (c : Conflict) :
    (s.automap c).queue = s.queue ++ (s.pendingRemaps c).map Replay.remapEntry := by
  have h := congrArg Session.queue (queueRemaps_eq s (s.pendingRemaps c))
  unfold automap
  split <;> exact h

theorem Ends.queue (h : t.Ends r s') : s'.queue = t.queue ++ t.found.map Replay.remapEntry := by
  cases h with
  | done hc => simp [found, hc, inPhase]
  | failed hc he => simp [found, hc, he]
  | offered hc he =>
    rw [found_of_head? hc he]
    exact queue_automap t _

/-- The sessions that the turns of `stepWithin` look at. -/
def looksWithin : Nat → Session → List Session
  | 0, _ => []
  | n + 1, s => s.started ::
    match s.turn with
    | (.again, t) => looksWithin n t
    | _ => []

def looks (s : Session) : List Session := looksWithin (s.mapper.length + 1) s

theorem looksWithin_of_again (h : s.turn = (.again, t)) :
    looksWithin (n + 1) s = s.started :: looksWithin n t := by
  simp only [looksWithin, h]

theorem looksWithin_of_ended (h : s.turn = (.ended r, s')) : looksWithin (n + 1) s = [s.started] := by
  simp only [looksWithin, h]

/-- A session that a turn looks at is replayed, with the remaps of the turns before it in its queue. -/
theorem looksWithin_split {done rest : List Session} (h : looksWithin n s = done ++ t :: rest) :
    t.Replayed ∧ Grows s t ∧ t.queue = s.queue ++ (done.flatMap found).map Replay.remapEntry := by
  have hfirst : ∀ s : Session, s.started.Replayed ∧ Grows s s.started ∧ s.started.queue = s.queue ++ [] :=
    fun s => ⟨replayed_started s, grows_started s, (List.append_nil _).symm⟩
  induction n generalizing s done with
  | zero => simp [looksWithin] at h
  | succ n ih =>
    rcases turn_ends s with ⟨c, hc, he, -, ht⟩ | ⟨r, s', -, ht⟩
    · rw [looksWithin_of_again ht] at h
      cases done with
      | nil =>
        obtain ⟨rfl, -⟩ := List.cons.inj h
        exact hfirst s
      | cons d done =>
        obtain ⟨rfl, hl⟩ := List.cons.inj h
        obtain ⟨hr, hg, hq⟩ := ih hl
        refine ⟨hr, (grows_started s).trans ((grows_automap _ c).trans hg), ?_⟩
        rw [hq, queue_automap, List.flatMap_cons, found_of_head? hc he, List.map_append, List.append_assoc]
        rfl
    · rw [looksWithin_of_ended ht] at h
      obtain ⟨rfl, rfl, rfl⟩ : done = [] ∧ t = s.started ∧ rest = [] := by
        cases done <;> simp_all
      exact hfirst s

theorem stepWithin_ends (h : stepWithin n s = some (r, s')) :
    ∃ done t, looksWithin n s = done ++ [t] ∧ t.Ends r s' := by
  induction n generalizing s with
  | zero => cases h
  | succ n ih =>
    rcases turn_ends s with ⟨c, -, -, -, ht⟩ | ⟨r₁, s₁, hends, ht⟩
    · simp only [stepWithin, ht] at h
      obtain ⟨done, t, hl, hends⟩ := ih h
      exact ⟨s.started :: done, t, by rw [looksWithin_of_again ht, hl, List.cons_append], hends⟩
    · simp only [stepWithin, ht, Option.some.injEq, Prod.mk.injEq] at h
      obtain ⟨rfl, rfl⟩ := h
      exact ⟨[], s.started, looksWithin_of_ended ht, hends⟩

theorem queue_stepWithin (h : stepWithin n s = some (r, s')) :
    s'.queue = s.queue ++ ((looksWithin n s).flatMap found).map Replay.remapEntry := by
  obtain ⟨done, t, hl, hends⟩ := stepWithin_ends h
  obtain ⟨-, -, hq⟩ := looksWithin_split hl
  rw [hends.queue, hq, hl]
  simp

/-- A step ends at the session that the last of its turns looks at. -/
theorem nextStep_ends (hm : (s.mapper.map Prod.fst).Nodup) :
    ∃ t, t.Replayed ∧ Grows s t ∧ t.Ends s.nextStep.1 s.nextStep.2 := by
  obtain ⟨done, t, hl, hends⟩ := stepWithin_ends (nextStep_eq s hm)
  obtain ⟨hr, hg, -⟩ := looksWithin_split hl
  exact ⟨t, hr, hg, hends⟩

/-- What a step leaves: a session without a conflict, or one that presents the conflict of its choice. -/
theorem nextStep_spec (s : Session) (hm : (s.mapper.map Prod.fst).Nodup) :
    (∃ e, s.nextStep.1 = .error e) ∨
    (s.nextStep.1 = .ok .done ∧ s.nextStep.2.Replayed ∧ s.nextStep.2.conflicts = [] ∧
      s.nextStep.2.phase = .done) ∨
    ∃ ch, s.nextStep.1 = .ok (.choice ch) ∧ s.nextStep.2.Presents ch.conflict ∧
      ∀ k ∈ ch.candidates, k ∈ ch.conflict.sides := by
  obtain ⟨t, hr, hg, hends⟩ := nextStep_ends hm
  generalize s.nextStep.1 = r at hends ⊢
  generalize s.nextStep.2 = s' at hends ⊢
  cases hends with
  | done hnil => exact .inr (.inl ⟨rfl, hr, hnil, rfl⟩)
  | failed => exact .inl ⟨_, rfl⟩
  | offered hfirst he hmem =>
    have hp := presents_automap hr (hg.mapper ▸ hm) hfirst hmem
    exact .inr (.inr ⟨_, rfl, ⟨hp.replayed, hp.first, hp.settled⟩, fun k => mem_sides_of_candidate⟩)

end FragmentMerge.Session
