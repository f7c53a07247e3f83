import FragmentMerge.Proofs.Replay.Effect
import FragmentMerge.Proofs.Session.Rounds

/-! Rules that go round in a circle. An item that rules rename round and round, in a catalog that holds
a namesake of it for each of its names, comes into a conflict in every round, and never twice into the
same in a row. So no limit on the rounds is enough. -/

namespace FragmentMerge.Session

/-- A session without relations, whose first item is apart from the others. -/
structure Circling (kind : ItemKind) (others : List (ItemKind × ItemKey)) (k : ItemKey) (s : Session) :
    Prop where
  pristine : s.pristine.WellKeyed
  mapper : s.mapper = []
  crossFile : s.crossFile = true
  items : s.bare.catalog.items = (kind, k) :: others
  hidden : s.bare.hidden = []

theorem mappedSides_of_unmapped {s : Session} (h : s.mapper = []) (c : Conflict) :
    s.mappedSides c = [] := by
  simp [mappedSides, mappingsTo, h]

theorem nextStep_of_unmapped {s : Session} {c : Conflict} (hm : s.mapper = [])
    (hx : s.crossFile = true) (hc : s.started.conflicts.head? = some c) :
    s.nextStep = (.ok (.choice (s.started.choiceOf c)), s.started.inPhase .userChoice) := by
  obtain ⟨cs, hcs⟩ : ∃ cs, s.started.conflicts = c :: cs := by
    cases h : s.started.conflicts with
    | nil => simp [h] at hc
    | cons d cs => exact ⟨cs, by simpa [h] using hc⟩
  have hmapped : s.started.mappedSides c = [] := mappedSides_of_unmapped (s := s.started) hm c
  rcases turn_cases s with ⟨hnil, -⟩ | ⟨d, ds, hds, h⟩
  · rw [hnil] at hcs
    cases hcs
  · obtain ⟨rfl, rfl⟩ := List.cons.inj (hcs.symm.trans hds)
    have hturn : s.turn = (.ended (.ok (.choice (s.started.choiceOf c))), s.started.inPhase .userChoice) := by
      rcases h with ⟨e, he, -⟩ | ⟨hne, -⟩ | ⟨-, ht⟩
      · rw [crossingError?, show s.started.crossFile = true from hx] at he
        cases he
      · exact absurd hmapped hne
      · rw [ht, automap_of_unmapped hmapped]
    simp [nextStep, stepWithin, hturn]

theorem Circling.first {kind : ItemKind} {others : List (ItemKind × ItemKey)} {k : ItemKey} {s : Session}
    (h : Circling kind others k s) (hmem : ∃ o ∈ others, o.2.name = k.name) :
    ∃ c, s.started.conflicts.head? = some c ∧ c.left = k := by
  have hr := replayed_started s
  have hkeys : s.started.bare.catalog.visibleKeys s.started.bare.hidden = k :: others.map Prod.snd := by
    rw [show s.started.bare = s.bare from rfl, h.hidden, Catalog.visibleKeys, Catalog.keys_eq_map_items,
      h.items]
    simp
  rw [hr.conflicts, Catalog.head?_conflicts, hkeys, Catalog.firstPair?]
  cases hf : (others.map Prod.snd).find? (·.name = k.name) with
  | none =>
    obtain ⟨o, ho, hname⟩ := hmem
    exact absurd (List.find?_eq_none.1 hf o.2 (List.mem_map_of_mem ho)) (by simpa using hname)
  | some k' => exact ⟨_, rfl, rfl⟩

/-- One round of a circle: the first item is put to the rules, which rename it. -/
theorem Circling.round {rules : List (ItemKey × Action)} {kind : ItemKind}
    {others : List (ItemKind × ItemKey)} {k k' : ItemKey} {s : Session} (h : Circling kind others k s)
    (hmem : ∃ o ∈ others, o.2.name = k.name) (hfiles : ∀ o ∈ others, o.2.file ≠ k.file)
    (hnext : Rules.next? rules kind k = some k') :
    ∃ ch s₁ a, s.nextStep = (.ok (.choice ch), s₁) ∧ ch.conflict.left = k ∧
      s₁.accept ch (answerBy rules ch) = .ok (s₁.suggest k a) ∧
      Circling kind others k' (s₁.suggest k a) := by
  obtain ⟨c, hc, rfl⟩ := h.first hmem
  obtain ⟨a, name, hf, hn, rfl, -, rfl⟩ := Rules.next?_eq_some.1 hnext
  have hstep := nextStep_of_unmapped h.mapper h.crossFile hc
  have hr : (s.started.inPhase .userChoice).Replayed := replayed_started s
  have hitems : (s.started.inPhase .userChoice).catalog.items = (a.kind, c.left) :: others :=
    hr.items.trans h.items
  have ht : ∀ d : Catalog, d.items = (a.kind, c.left) :: others → d.isTaken c.left name = false := by
    intro d hd
    refine Catalog.isTaken_of_file fun x hx hxf => ?_
    rw [Catalog.keys_eq_map_items, hd] at hx
    rcases List.mem_cons.1 hx with rfl | hx
    · rfl
    · obtain ⟨o, ho, rfl⟩ := List.mem_map.1 hx
      exact absurd hxf (hfiles o ho)
  have hsides : candidatesOf c (s.started.mappedSides c) = [c.left, c.right] := by
    rw [mappedSides_of_unmapped (s := s.started) h.mapper c]
    rfl
  have hans : answerBy rules (s.started.choiceOf c) = some (c.left, a) := by
    simp [answerBy, choiceOf, hsides, hf]
  refine ⟨_, _, a, hstep, rfl, ?_, ?_⟩
  · rw [hans]
    simp [accept, choiceOf, hsides, hn, ht _ hitems]
  · obtain ⟨hi, hh⟩ := Replay.items_act_rename (wellKeyed_bare h.pristine) hn
      (show s.bare.catalog.items = [] ++ (a.kind, c.left) :: others from h.items) (ht _ h.items)
    refine ⟨h.pristine, h.mapper, h.crossFile, ?_, ?_⟩
    · rw [bare_suggest]
      exact hi
    · rw [bare_suggest]
      exact hh h.hidden

/-- A circle never settles: whatever the limit, it is met. -/
theorem settleWithin_circling {rules : List (ItemKey × Action)} {kind : ItemKind}
    {others : List (ItemKind × ItemKey)} {P : ItemKey → Prop}
    (hP : ∀ k, P k → (∃ o ∈ others, o.2.name = k.name) ∧ (∀ o ∈ others, o.2.file ≠ k.file) ∧
      ∃ k', Rules.next? rules kind k = some k' ∧ P k')
    {n : Nat} {s : Session} {k : ItemKey} {m : Nat} {previous : Option Conflict} (hk : P k)
    (hs : Circling kind others k s) (hprev : ∀ c, previous = some c → c.left ≠ k) :
    settleWithin (ruleResolver rules) n s () m previous = none := by
  induction n generalizing s k m previous with
  | zero => rfl
  | succ n ih =>
    obtain ⟨hmem, hfiles, k', hnext, hk'⟩ := hP k hk
    obtain ⟨ch, s₁, a, hstep, hleft, hacc, hs'⟩ := hs.round hmem hfiles hnext
    have hne : previous ≠ some ch.conflict := fun h => hprev _ h hleft
    unfold settleWithin
    simp only [hstep, hne, if_false, ruleResolver, hacc]
    refine ih hk' hs' fun c hc => ?_
    obtain ⟨-, name, -, -, -, hname, rfl⟩ := Rules.next?_eq_some.1 hnext
    rw [← Option.some.inj hc, hleft]
    exact fun he => hname (congrArg ItemKey.name he).symm

end FragmentMerge.Session
