import FragmentMerge.Proofs.Session.Looks
import FragmentMerge.Proofs.Session.Mappings

/-! Sessions without relations between fragments. The two sides of a conflict are of two fragments, so a
column that refers to their name is outside the fragment of one of them, and a step fails as soon as there
is such a column. Where there is none, no configured relation can apply and both sides are put to the
resolver. -/

namespace FragmentMerge.Session

variable {s : Session} {c : Catalog} {x : Conflict}

/-- A visible model has a relation column of this type. -/
def Refers (s : Session) (name : String) : Prop :=
  ∃ m ∈ s.catalog.models, m.key ∉ s.hidden ∧
    ∃ col ∈ m.columns, col.isRaw = false ∧ col.isRelation = true ∧ col.baseType = name

theorem refers_iff {name : String} : s.Refers name ↔ ∃ key, key ∈ s.current.referring name := by
  constructor
  · rintro ⟨m, hm, hvis, col, hcol, hraw, hrel, hbase⟩
    refine ⟨m.key.column col.name, List.mem_flatMap.2 ⟨m, List.mem_filter.2 ⟨hm, ?_⟩, ?_⟩⟩
    · simpa [Replay.isVisible, Session.hidden] using hvis
    · exact List.mem_map_of_mem (List.mem_filter.2 ⟨hcol, by simp [hraw, hrel, hbase]⟩)
  · rintro ⟨key, hkey⟩
    obtain ⟨m, hm, hkey⟩ := List.mem_flatMap.1 hkey
    obtain ⟨hm, hvis⟩ := List.mem_filter.1 hm
    obtain ⟨col, hcol, -⟩ := List.mem_map.1 hkey
    obtain ⟨hcol, hp⟩ := List.mem_filter.1 hcol
    simp only [Bool.and_eq_true, Bool.not_eq_true', beq_iff_eq] at hp
    refine ⟨m, hm, ?_, col, hcol, hp.1.1, hp.1.2, hp.2⟩
    simpa [Replay.isVisible, Session.hidden] using hvis

/-- A conflict passes the check when fragments may be related, and when no side is referred to from outside
its fragment. -/
theorem crossingError?_eq_none : s.crossingError? x = none ↔
    s.crossFile = true ∨ ∀ side ∈ x.sides, ∀ col ∈ s.referring side, col.item.file = side.file := by
  rw [crossingError?]
  split
  · next h => exact iff_of_true rfl (.inl h)
  · next h => simp [h, crossing?]

theorem crossingError?_eq_some {e : ResolveError} (h : s.crossingError? x = some e) :
    ∃ col side, e = .crossFileRelation col side ∧ side ∈ x.sides ∧ col ∈ s.referring side ∧
      col.item.file ≠ side.file := by
  rw [crossingError?] at h
  split at h
  · cases h
  · obtain ⟨side, hside, h⟩ := List.exists_of_findSome?_eq_some h
    obtain ⟨col, hcol, rfl⟩ := Option.map_eq_some_iff.1 h
    exact ⟨col, side, rfl, hside, List.mem_of_find?_eq_some hcol, by simpa using List.find?_some hcol⟩

/-- Both sides of the first conflict are referred to by the same columns. -/
theorem referring_side (hn : s.catalog.keys.Nodup) (hfirst : s.conflicts.head? = some x) {side : ItemKey}
    (hside : side ∈ x.sides) : s.referring side = s.current.referring x.name := by
  rcases List.mem_cons.1 hside with rfl | hside
  · rfl
  · obtain rfl := List.mem_singleton.1 hside
    exact congrArg s.current.referring (Catalog.sides_of_head? hn hfirst).1

/-- Without relations between fragments the check fails at any column that refers to the name of the
conflict, since it cannot be in the fragments of both sides. -/
theorem crossingError?_eq_none_iff (hn : s.catalog.keys.Nodup) (hx : s.crossFile = false)
    (hfirst : s.conflicts.head? = some x) : s.crossingError? x = none ↔ ¬ s.Refers x.name := by
  rw [crossingError?_eq_none, refers_iff, hx, Bool.false_eq_true, false_or]
  constructor
  · rintro h ⟨col, hcol⟩
    have hfile : ∀ side ∈ x.sides, col.item.file = side.file := fun side hside =>
      h side hside col (referring_side hn hfirst hside ▸ hcol)
    have hleft := hfile x.left List.mem_cons_self
    have hright := hfile x.right (List.mem_cons_of_mem _ List.mem_cons_self)
    exact (Catalog.sides_of_head? hn hfirst).2 (hright.symm.trans hleft)
  · rintro h side hside col hcol
    exact absurd ⟨col, referring_side hn hfirst hside ▸ hcol⟩ h

theorem choiceOf_of_unreferred (hn : s.catalog.keys.Nodup) (hfirst : s.conflicts.head? = some x)
    (h : ¬ s.Refers x.name) : s.mappedSides x = [] ∧ s.choiceOf x = ⟨x, x.sides, [], []⟩ := by
  have hnil : ∀ side ∈ x.sides, s.referring side = [] := fun side hside => by
    rw [referring_side hn hfirst hside]
    exact List.eq_nil_iff_forall_not_mem.2 fun col hcol => h (refers_iff.2 ⟨col, hcol⟩)
  have hmapped : s.mappedSides x = [] :=
    List.filter_eq_nil_iff.2 fun side hside => by simp [mappingsTo, hnil side hside]
  refine ⟨hmapped, ?_⟩
  rw [choiceOf, hmapped, hnil x.left List.mem_cons_self]
  rfl

theorem guarded_cases (hn : s.started.catalog.keys.Nodup) (hx : s.crossFile = false) :
    (s.started.conflicts = [] ∧ s.nextStep = (.ok .done, s.started.inPhase .done)) ∨
    ∃ x, s.started.conflicts.head? = some x ∧
      ((s.started.Refers x.name ∧ ∃ col side, side ∈ x.sides ∧ col ∈ s.started.referring side ∧
        col.item.file ≠ side.file ∧
        s.nextStep = (.error (.crossFileRelation col side), s.started)) ∨
      (¬ s.started.Refers x.name ∧
        s.nextStep = (.ok (.choice ⟨x, x.sides, [], []⟩), s.started.inPhase .userChoice))) := by
  rcases turn_ends s with ⟨x, hfirst, he, hgone, -⟩ | ⟨r, s', hends, ht⟩
  · have hfree := (crossingError?_eq_none_iff hn hx hfirst).1 he
    rw [automap_of_unmapped (choiceOf_of_unreferred hn hfirst hfree).1] at hgone
    exact absurd (List.mem_of_head? hfirst) hgone
  · have hstep := nextStep_of_ended ht
    cases hends with
    | done hnil => exact .inl ⟨hnil, hstep⟩
    | @failed x e hfirst he =>
      have hrefers : s.started.Refers x.name := by
        by_contra h
        rw [(crossingError?_eq_none_iff hn hx hfirst).2 h] at he
        cases he
      obtain ⟨col, side, rfl, hside, hcol, hfile⟩ := crossingError?_eq_some he
      exact .inr ⟨x, hfirst, .inl ⟨hrefers, col, side, hside, hcol, hfile, hstep⟩⟩
    | @offered x hfirst he hmem =>
      have hfree := (crossingError?_eq_none_iff hn hx hfirst).1 he
      obtain ⟨hmapped, hchoice⟩ := choiceOf_of_unreferred hn hfirst hfree
      rw [hchoice, automap_of_unmapped hmapped] at hstep
      exact .inr ⟨x, hfirst, .inr ⟨hfree, hstep⟩⟩

/-- Without relations between fragments a step queues nothing. It ends without a conflict, or with an
error that names a side of the first conflict and a column outside of its fragment, or with a choice
between both sides; and it fails exactly when a visible model refers to the name of the conflict. -/
theorem nextStep_guarded (hc : c.Kept) (hs : Over c s) (hx : s.crossFile = false) :
    s.nextStep.2.queue = s.queue ∧ s.nextStep.2.current = s.replay.current ∧
      (s.nextStep.1 = .ok .done ↔ s.nextStep.2.conflicts = []) ∧
      ∀ x, s.nextStep.2.conflicts.head? = some x →
        ((∃ col side, s.nextStep.1 = .error (.crossFileRelation col side)) ↔ s.nextStep.2.Refers x.name) ∧
        (∀ col side, s.nextStep.1 = .error (.crossFileRelation col side) →
          side ∈ x.sides ∧ col ∈ s.nextStep.2.referring side ∧ col.item.file ≠ side.file) ∧
        (¬ s.nextStep.2.Refers x.name → s.nextStep.1 = .ok (.choice ⟨x, x.sides, [], []⟩)) := by
  have hn : s.started.catalog.keys.Nodup := ((Over.replay hs).sound hc.wellKeyed).keyed.distinct
  rcases guarded_cases hn hx with ⟨hnil, hstep⟩ | ⟨y, hfirst, h⟩
  · have hnil : s.nextStep.2.conflicts = [] := by rw [hstep]; exact hnil
    exact ⟨by rw [hstep]; rfl, by rw [hstep]; rfl, iff_of_true (by rw [hstep]) hnil, by simp [hnil]⟩
  · have hstays : s.nextStep.2.queue = s.queue ∧ s.nextStep.2.current = s.started.current := by
      rcases h with ⟨-, col, side, -, -, -, hstep⟩ | ⟨-, hstep⟩ <;> rw [hstep] <;> exact ⟨rfl, rfl⟩
    have hhead : s.nextStep.2.conflicts.head? = some y := by
      rw [Session.conflicts, hstays.2]
      exact hfirst
    have hrefers : s.nextStep.2.Refers y.name ↔ s.started.Refers y.name := by
      rw [refers_iff, hstays.2, refers_iff]
    refine ⟨hstays.1, hstays.2, iff_of_false ?_ fun hnil => by simp [hnil] at hhead, fun x hx' => ?_⟩
    · rcases h with ⟨-, col, side, -, -, -, hstep⟩ | ⟨-, hstep⟩ <;> rw [hstep] <;> simp
    · obtain rfl : x = y := Option.some.inj (hx'.symm.trans hhead)
      rw [hrefers]
      rcases h with ⟨hr, col, side, hside, hcol, hfile, hstep⟩ | ⟨hr, hstep⟩
      · rw [hstep]
        refine ⟨iff_of_true ⟨col, side, rfl⟩ hr, fun col' side' h => ?_, fun hn => absurd hr hn⟩
        cases h
        exact ⟨hside, hcol, hfile⟩
      · rw [hstep]
        refine ⟨iff_of_false (by simp) hr, fun col side h => ?_, fun _ => rfl⟩
        cases h

/-- A relation is configured, but fragments are not to be related. -/
def apartSession : Session := authoredSession.withCrossFile false

theorem nextStep_guarded_apart :
    Catalog.ofFragments (fun _ => false) authored = .ok authoredCatalog ∧ apartSession.crossFile = false ∧
      apartSession.nextStep.2.queue = [] ∧
      apartSession.nextStep.2.conflicts.head? = some ⟨⟨"f", "User"⟩, ⟨"g", "User"⟩, .model⟩ ∧
      ∃ col side, apartSession.nextStep.1 = .error (.crossFileRelation col side) := by
  have hs : Over authoredCatalog apartSession := .crossFile _ (.mapping _ _ (.crossFile _ .new))
  obtain ⟨hqueue, -, -, hcases⟩ := nextStep_guarded (.loaded load_authored) hs rfl
  have hfirst : apartSession.nextStep.2.conflicts.head? =
      some ⟨⟨"f", "User"⟩, ⟨"g", "User"⟩, .model⟩ := rfl
  refine ⟨load_authored, rfl, hqueue, hfirst, (hcases _ hfirst).1.2 ?_⟩
  exact refers_iff.2 ⟨⟨⟨"f", "Post"⟩, "author"⟩, by decide⟩

end FragmentMerge.Session
