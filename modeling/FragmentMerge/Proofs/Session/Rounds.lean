import Mathlib
import FragmentMerge.Proofs.Session.Answer
import FragmentMerge.Proofs.Session.Looks
import FragmentMerge.Proofs.Session.Ranks

/-! How many rounds rules take. Each answer of the rules takes an item out or lowers its rank, or it
changes nothing, and then the next round ends the settling. A step only queues remaps, which leave the
items alone. So the ranks of all items, put together, bound the rounds of a settling. A pass adds to the
queue only, and no replay has more items than the catalog. -/

namespace FragmentMerge

namespace Catalog

/-- The ranks of all items, with one more for each. -/
def weight (rules : List (ItemKey × Action)) (c : Catalog) : Nat :=
  (c.items.map fun i => Rules.rank rules i.1 i.2 + 1).sum

theorem weight_le {rules : List (ItemKey × Action)} (hr : ¬Rules.Circular rules) (c : Catalog) :
    c.weight rules ≤ c.items.length * (rules.length + 1) := by
  have hlen : c.items.length = (c.items.map fun i => Rules.rank rules i.1 i.2 + 1).length :=
    (List.length_map _).symm
  rw [weight, hlen]
  refine List.sum_le_card_nsmul _ _ fun n hn => ?_
  obtain ⟨i, -, rfl⟩ := List.mem_map.1 hn
  exact Nat.succ_le_succ (Rules.rank_le hr i.2)

end Catalog

namespace Session

theorem catalog_bare_automap (s : Session) (c : Conflict) : (s.automap c).bare.catalog = s.bare.catalog := by
  rw [bare_automap]
  exact (Replay.shades_foldl_remaps s.bare (s.pendingRemaps c)).1.catalog

theorem catalog_bare_stepWithin {n : Nat} {s s' : Session} {r : Except ResolveError Step}
    (h : stepWithin n s = some (r, s')) : s'.bare.catalog = s.bare.catalog := by
  induction n generalizing s with
  | zero => cases h
  | succ n ih =>
    rcases turn_cases s with ⟨-, ht⟩ | ⟨c, cs, -, ⟨e, -, ht⟩ | ⟨-, -, ht⟩ | ⟨-, ht⟩⟩
    · simp only [stepWithin, ht, Option.some.injEq, Prod.mk.injEq] at h
      rw [← h.2]
      rfl
    · simp only [stepWithin, ht, Option.some.injEq, Prod.mk.injEq] at h
      rw [← h.2]
      rfl
    · simp only [stepWithin, ht] at h
      exact (ih h).trans (catalog_bare_automap s.started c)
    · simp only [stepWithin, ht, Option.some.injEq, Prod.mk.injEq] at h
      rw [← h.2]
      exact catalog_bare_automap s.started c

theorem catalog_bare_nextStep {s : Session} (hm : (s.mapper.map Prod.fst).Nodup) :
    s.nextStep.2.bare.catalog = s.bare.catalog :=
  catalog_bare_stepWithin (nextStep_eq s hm)

/-- An answer that is only noted leaves the conflict where it was. -/
theorem Presents.noted {s : Session} {c : Conflict} {k : ItemKey} {a : Action} {m : Mutation}
    (h : s.Presents c) (hn : s.bare.act (k, a) = s.bare.note m) :
    (s.suggest k a).replay.Presents c := by
  have hr : (s.suggest k a).replay.Replayed := replayed_replay _
  have hbare : (s.suggest k a).replay.bare = s.bare.note m := (bare_suggest s k a).trans hn
  have hs : s.current.Shades (s.suggest k a).replay.current := by
    rw [h.replayed.current_eq, current_replay, bare_suggest, hn]
    exact (Replay.shades_note s.bare m).attributes s.attributes
  refine ⟨hr, ?_, List.eq_nil_iff_forall_not_mem.2 fun e he => ?_⟩
  · rw [hr.conflicts, hbare]
    exact h.replayed.conflicts ▸ h.first
  · obtain ⟨hold, hnew⟩ := h.pending_of_remaps hs rfl he
    rw [hr.remaps, hbare] at hnew
    exact hnew (h.replayed.remaps ▸ hold)

/-- Settling ends when the first conflict has just been answered and nothing is left to queue for it. -/
theorem settleWithin_again {σ : Type} {ask : Resolver σ} {n : Nat} {s : Session} {st : σ} {m : Nat}
    {c : Conflict} (h : s.replay.Presents c) :
    (settleWithin ask (n + 1) s st m (some c)).isSome := by
  unfold settleWithin
  rcases nextStep_of_first (s := s) h.first with ⟨e, he⟩ | ⟨ch, hch, rfl⟩ | ⟨hp, -⟩
  · rcases hs : s.nextStep with ⟨r, s₁⟩
    obtain rfl : r = .error e := by simpa [hs] using he
    rfl
  · rcases hs : s.nextStep with ⟨r, s₁⟩
    obtain rfl : r = .ok (.choice ch) := by simpa [hs] using hch
    simp
  · exact absurd h.settled hp

variable {rules : List (ItemKey × Action)}

theorem find?_of_answerBy {ch : Choice} {k : ItemKey} {a : Action} (h : answerBy rules ch = some (k, a)) :
    rules.find? (·.1 == k) = some (k, a) := by
  obtain ⟨k', -, hf⟩ := List.exists_of_findSome?_eq_some h
  obtain rfl : k = k' := by simpa using List.find?_some hf
  exact hf

/-- An answer of the rules that does something lowers the weight. -/
theorem weight_lt {s : Session} {k : ItemKey} {a : Action} (hr : ¬Rules.Circular rules)
    (hf : rules.find? (·.1 == k) = some (k, a)) (ha : ∀ source target kind, a ≠ .remap source target kind)
    (he : s.bare.Effect k a) :
    (∃ m, s.bare.act (k, a) = s.bare.note m) ∨
      (s.suggest k a).bare.catalog.weight rules < s.bare.catalog.weight rules := by
  rw [bare_suggest]
  cases he with
  | noted m h => exact .inl ⟨m, h⟩
  | removed kind pre post _ hi hi' =>
    right
    rw [Catalog.weight, Catalog.weight, hi, hi']
    simp
  | renamed name pre post hn hne hi hi' =>
    right
    have hnext : Rules.next? rules a.kind k = some (k.renamed name) :=
      Rules.next?_eq_some.2 ⟨a, name, hf, hn, rfl, hne, rfl⟩
    rw [Catalog.weight, Catalog.weight, hi, hi']
    simp [Rules.rank_next hr hnext]
  | remapped source target kind h => exact absurd h (ha source target kind)

theorem settleWithin_isSome {n : Nat} {s : Session} {m : Nat} {previous : Option Conflict}
    (hr : ¬Rules.Circular rules) (ha : ∀ e ∈ rules, ∀ source target kind, e.2 ≠ .remap source target kind)
    (hw : s.pristine.WellKeyed) (hm : (s.mapper.map Prod.fst).Nodup)
    (hn : s.bare.catalog.weight rules + 1 < n) :
    (settleWithin (ruleResolver rules) n s () m previous).isSome := by
  induction n generalizing s m previous with
  | zero => omega
  | succ n ih =>
    have hg := grows_nextStep s
    have hweight := congrArg (Catalog.weight rules) (catalog_bare_nextStep hm)
    unfold settleWithin
    rcases nextStep_spec s hm with ⟨e, he⟩ | ⟨he, -⟩ | ⟨ch, he, hp, hsides⟩
    · rcases hs : s.nextStep with ⟨r, s₁⟩
      obtain rfl : r = .error e := by simpa [hs] using he
      rfl
    · rcases hs : s.nextStep with ⟨r, s₁⟩
      obtain rfl : r = .ok .done := by simpa [hs] using he
      rfl
    · rcases hs : s.nextStep with ⟨r, s₁⟩
      obtain rfl : r = .ok (.choice ch) := by simpa [hs] using he
      rw [hs] at hg hweight hp
      dsimp only at hg hweight hp ⊢
      split
      · rfl
      · split
        · rfl
        · next s₂ hacc =>
          obtain ⟨k, a, hans, hk, rfl, -⟩ := accept_eq_ok hacc
          have hf := find?_of_answerBy hans
          have hrule : (k, a) ∈ rules := List.mem_of_find?_eq_some hf
          have hw₁ : s₁.pristine.WellKeyed := hg.pristine ▸ hw
          rcases weight_lt hr hf (ha (k, a) hrule) (hp.effect hw₁ (hsides k hk) a) with ⟨m', hnote⟩ | hlt
          · obtain ⟨n, rfl⟩ : ∃ n', n = n' + 1 := ⟨n - 1, by omega⟩
            exact settleWithin_again (hp.noted hnote)
          · exact ih (s := s₁.suggest k a) hw₁ (hg.mapper ▸ hm) (by omega)

theorem length_items_bare_le (s : Session) :
    s.bare.catalog.items.length ≤ s.pristine.items.length := by
  show (Replay.run s.pristine s.links s.queue []).catalog.items.length ≤ _
  refine Replay.catalog_run (P := fun c => c.items.length ≤ s.pristine.items.length) (Nat.le_refl _)
    (fun c k kind c' hle hc => ?_) (fun e _ c k kind name c' _ hle hc => ?_)
    (fun c k name all hle => by rw [Catalog.items_retypeReferences]; exact hle)
    (fun c a hle => by rw [Catalog.items_addLine]; exact hle) s.links []
  · obtain ⟨pre, post, hi, hi'⟩ := Catalog.items_remove? hc
    rw [hi] at hle
    rw [hi']
    simp only [List.length_append, List.length_cons] at hle ⊢
    omega
  · obtain ⟨pre, post, hi, hi'⟩ := Catalog.items_rename? hc
    rw [hi] at hle
    rw [hi']
    simpa using hle

theorem convergeWithin_isSome {rounds left : Nat} {s : Session} {r : Resolution}
    (hr : ¬Rules.Circular rules) (ha : ∀ e ∈ rules, ∀ source target kind, e.2 ≠ .remap source target kind)
    (hw : s.pristine.WellKeyed) (hm : (s.mapper.map Prod.fst).Nodup)
    (hn : s.pristine.keys.length * (rules.length + 1) + 1 < rounds) :
    (convergeWithin (ruleResolver rules) rounds left s () r).isSome := by
  induction left using Nat.strongRecOn generalizing s r with
  | ind left ih =>
    have hweight : s.bare.catalog.weight rules + 1 < rounds := by
      have hle := Nat.mul_le_mul_right (rules.length + 1) (length_items_bare_le s)
      have hlen : s.pristine.keys.length = s.pristine.items.length := by
        rw [Catalog.keys_eq_map_items, List.length_map]
      have := Catalog.weight_le hr s.bare.catalog
      rw [hlen] at hn
      omega
    have hsome : (settleWithin (ruleResolver rules) rounds s () 0 none).isSome :=
      settleWithin_isSome hr ha hw hm hweight
    obtain ⟨⟨e | n, s₁, ⟨⟩⟩, hs⟩ := Option.isSome_iff_exists.1 hsome
    · unfold convergeWithin
      simp [hs]
    · unfold convergeWithin
      rcases hi : s₁.introspect with ⟨_ | _, s₂⟩
      · simp [hs, hi]
      · have hg : Grows s s₂ := (grows_settleWithin hs).trans (by simpa [hi] using grows_introspect s₁)
        cases left with
        | zero => simp [hs, hi]
        | succ left =>
          simp only [hs, hi]
          exact ih left (Nat.lt_succ_self left) (hg.pristine ▸ hw) (hg.mapper ▸ hm) (hg.pristine ▸ hn)

end Session

theorem ResolveRule.answer_ne_remap {r : ResolveRule} {e : ItemKey × Action} (h : r.answer = .ok e)
    (source : ColumnKey) (target : ItemKey) (kind : ItemKind) : e.2 ≠ .remap source target kind := by
  simp only [answer, bind, Except.bind, pure, Except.pure] at h
  split at h
  · cases h
  · split at h
    · obtain rfl := Except.ok.inj h
      simp
    · split at h
      · cases h
      · obtain rfl := Except.ok.inj h
        simp
    · split at h
      · cases h
      · obtain rfl := Except.ok.inj h
        simp

namespace Config

theorem answers_ne_remap {config : Config} {rules : List (ItemKey × Action)}
    (h : config.answers = .ok rules) :
    ∀ e ∈ rules, ∀ source target kind, e.2 ≠ .remap source target kind := by
  rw [answers] at h
  generalize config.resolve = rs at h
  induction rs generalizing rules with
  | nil =>
    obtain rfl := Except.ok.inj h
    simp
  | cons r rs ih =>
    rw [List.mapM_cons] at h
    simp only [bind, Except.bind, pure, Except.pure] at h
    split at h
    · cases h
    · next e he =>
      split at h
      · cases h
      · next es hes =>
        obtain rfl := Except.ok.inj h
        intro x hx
        rcases List.mem_cons.1 hx with rfl | hx
        · exact ResolveRule.answer_ne_remap he
        · exact ih hes x hx

end Config

end FragmentMerge
