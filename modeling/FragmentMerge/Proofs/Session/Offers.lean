import FragmentMerge.Proofs.Session.Guard

/-! What a choice offers. A step comes to its choice within its turns, and by then all configured
relations that it has found for the conflict are active. The choice is about the first conflict that is
left, and its candidates are sides that are still in use. -/

namespace FragmentMerge.Session

variable {s s' t : Session} {c : Catalog} {x : Conflict} {ch : Choice}

/-- What holds of a choice in the session that a step leaves. -/
structure Offers (s : Session) (ch : Choice) : Prop where
  first : s.conflicts.head? = some ch.conflict
  filled : ch.candidates ≠ []
  inUse : ∀ k ∈ ch.candidates, k ∈ ch.conflict.sides ∧ k ∈ s.catalog.keys ∧ k ∉ s.hidden
  referring : ∀ side ∈ ch.conflict.sides, s.referring side ⊆ ch.references
  mapped : ∀ k, k ∈ ch.autoMapped ↔
    k ∈ ch.conflict.sides ∧ ∃ e ∈ s.mapper, e.1 ∈ ch.references ∧ e.2 = k
  other_left : ch.autoMapped = [ch.conflict.right] → ch.candidates = [ch.conflict.left]
  other_right : ch.autoMapped = [ch.conflict.left] → ch.candidates = [ch.conflict.right]
  active : ∀ e ∈ s.mapper, e.1 ∈ ch.references → e.2 ∈ ch.conflict.sides → e ∈ s.current.remaps

theorem Offers.inPhase (h : s.Offers ch) (p : Phase) : (s.inPhase p).Offers ch :=
  ⟨h.first, h.filled, h.inUse, h.referring, h.mapped, h.other_left, h.other_right, h.active⟩

theorem mem_mappedSides (hn : s.catalog.keys.Nodup) (hfirst : s.conflicts.head? = some x) {k : ItemKey} :
    k ∈ s.mappedSides x ↔
      k ∈ x.sides ∧ ∃ e ∈ s.mapper, e.1 ∈ s.current.referring x.name ∧ e.2 = k := by
  rw [mappedSides, List.mem_filter]
  refine and_congr_right fun hk => ?_
  rw [Bool.not_eq_true', List.isEmpty_eq_false_iff_exists_mem]
  refine exists_congr fun e => ?_
  rw [mem_mappingsTo, referring_side hn hfirst hk]
  exact and_congr_right fun _ => and_comm

theorem candidatesOf_filled (hne : x.right ≠ x.left) (mapped : List ItemKey) :
    candidatesOf x mapped ≠ [] := by
  unfold candidatesOf
  split
  · next side =>
    intro h
    have hnone : ∀ k ∈ x.sides, k = side := by simpa using h
    have hleft := hnone x.left List.mem_cons_self
    exact hne ((hnone x.right (List.mem_cons_of_mem _ List.mem_cons_self)).trans hleft.symm)
  · exact List.cons_ne_nil _ _

/-- The remaps that a choice has found are active once they have been queued and replayed. -/
theorem offers_automap (hr : t.Replayed) (hm : (t.mapper.map Prod.fst).Nodup) (hn : t.catalog.keys.Nodup)
    (hfirst : t.conflicts.head? = some x) (hmem : x ∈ (t.automap x).conflicts) :
    (t.automap x).Offers (t.choiceOf x) := by
  have hp := presents_automap hr hm hfirst hmem
  obtain ⟨hname, hfile⟩ := Catalog.sides_of_head? hn hfirst
  have hne : x.right ≠ x.left := fun he => hfile (congrArg ItemKey.file he)
  have hmapper := mapper_automap t x
  refine ⟨hp.first, candidatesOf_filled hne _, fun k hk => ?_, fun side hside => ?_, fun k => ?_, ?_, ?_,
    fun e he hcol hside => ?_⟩
  · have hside := mem_sides_of_candidate hk
    exact ⟨hside, side_visible hmem hside⟩
  · intro col hcol
    have hcol := (automap_spec hr x).2.1.referring_subset side.name hcol
    rw [show t.current.referring side.name = _ from referring_side hn hfirst hside] at hcol
    exact hcol
  · rw [hmapper]
    exact mem_mappedSides hn hfirst
  · intro h
    have hsides : x.sides.filter (· != x.right) = [x.left] := by
      simp [Conflict.sides, hne.symm]
    rw [choiceOf, show t.mappedSides x = [x.right] from h, candidatesOf]
    exact hsides
  · intro h
    have hsides : x.sides.filter (· != x.left) = [x.right] := by
      simp [Conflict.sides, hne]
    rw [choiceOf, show t.mappedSides x = [x.left] from h, candidatesOf]
    exact hsides
  · rw [hmapper] at he
    have hmap : e ∈ t.mappingsTo e.2 :=
      mem_mappingsTo.2 ⟨he, rfl, (referring_side hn hfirst hside).symm ▸ hcol⟩
    refine active_automap hr hm he ?_
    by_cases ha : e ∈ t.current.remaps
    · exact .inr ha
    · exact .inl (mem_pendingRemaps.2 ⟨⟨e.2, hside, hmap⟩, ha⟩)

/-- A step comes to its end within one turn more than there are configured relations. It queues the
remaps that its turns find, which are configured and not active in the session that a turn looks at. When
it asks nothing, no conflict is left; a choice is for the first conflict that is left, between sides in
use, and the relations found for it are active. -/
theorem nextStep_offers (hc : c.Kept) (hs : Over c s) :
    stepWithin (s.mapper.length + 1) s = some s.nextStep ∧
      s.nextStep.2.queue = s.queue ++ (s.looks.flatMap found).map Replay.remapEntry ∧
      (∀ done t rest, s.looks = done ++ t :: rest →
        t.Replayed ∧ t.queue = s.queue ++ (done.flatMap found).map Replay.remapEntry ∧
          ∀ e ∈ t.found, e ∈ s.mapper ∧ e ∉ t.current.remaps) ∧
      (s.nextStep.1 = .ok .done → s.nextStep.2.conflicts = []) ∧
      ∀ ch, s.nextStep.1 = .ok (.choice ch) → s.nextStep.2.Offers ch := by
  have hm := (hs.sound hc.wellKeyed).mapper
  have hwithin := nextStep_eq s hm
  refine ⟨hwithin, queue_stepWithin hwithin, fun done t rest h => ?_, ?_⟩
  · obtain ⟨hr, hg, hq⟩ := looksWithin_split h
    exact ⟨hr, hq, fun e he => hg.mapper ▸ mem_found he⟩
  · obtain ⟨t, hr, hg, hends⟩ := nextStep_ends hm
    have hn : t.catalog.keys.Nodup := ((hs.sound hc.wellKeyed).grows hc.wellKeyed hg).keyed.distinct
    have hm' : (t.mapper.map Prod.fst).Nodup := hg.mapper ▸ hm
    generalize s.nextStep.1 = r at hends
    generalize s.nextStep.2 = s' at hends
    cases hends with
    | done hnil => exact ⟨fun _ => hnil, by simp⟩
    | failed => exact ⟨by simp, by simp⟩
    | offered hfirst he hmem =>
      refine ⟨by simp, fun ch hch => ?_⟩
      cases hch
      exact (offers_automap hr hm' hn hfirst hmem).inPhase .userChoice

/-- Three fragments with a model of one name. A relation of the first is sent to the model of the second,
which settles their conflict and leaves one with the third. -/
def trio : List Fragment :=
  [⟨"base", "generator g \x7b\n\x7d\ndatasource d \x7b\n\x7d"⟩,
    ⟨"f", "model User \x7b\n  id Int\n\x7d\nmodel Post \x7b\n  author User @relation(fields: [a])\n\x7d"⟩,
    ⟨"g", "model User \x7b\n  id Int\n\x7d"⟩,
    ⟨"h", "model User \x7b\n  id Int\n\x7d"⟩]

def trioCatalog : Catalog :=
  { base := "base", generator := "generator g \x7b\n\x7d", datasource := "datasource d \x7b\n\x7d",
    files := ["base", "f", "g", "h"],
    models := [
      ⟨⟨"f", "User"⟩, [⟨"id", "Int", []⟩], 1⟩,
      ⟨⟨"f", "Post"⟩, [⟨"author", "User", ["@relation(fields: [a])"]⟩], 4⟩,
      ⟨⟨"g", "User"⟩, [⟨"id", "Int", []⟩], 1⟩,
      ⟨⟨"h", "User"⟩, [⟨"id", "Int", []⟩], 1⟩],
    enums := [] }

theorem load_trio : Catalog.ofFragments (fun _ => false) trio = .ok trioCatalog := by
  decide +kernel

def trioSession : Session :=
  ((new trioCatalog).withCrossFile true).withMapping ⟨⟨"f", "Post"⟩, "author"⟩ ⟨"g", "User"⟩

def trioChoice : Choice :=
  ⟨⟨⟨"g", "User"⟩, ⟨"h", "User"⟩, .model⟩, [⟨"h", "User"⟩], [⟨"g", "User"⟩], [⟨⟨"f", "Post"⟩, "author"⟩]⟩

theorem nextStep_offers_trio :
    Catalog.ofFragments (fun _ => false) trio = .ok trioCatalog ∧ Over trioCatalog trioSession ∧
      trioSession.looks.length = 2 ∧
      trioSession.nextStep.1 = .ok (.choice trioChoice) ∧ trioSession.nextStep.2.Offers trioChoice := by
  have hs : Over trioCatalog trioSession := .mapping _ _ (.crossFile _ .new)
  have hchoice : trioSession.nextStep.1 = .ok (.choice trioChoice) := rfl
  exact ⟨load_trio, hs, rfl, hchoice, (nextStep_offers (.loaded load_trio) hs).2.2.2.2 trioChoice hchoice⟩

end FragmentMerge.Session
