import FragmentMerge.Proofs.Session.Answer
import FragmentMerge.Proofs.Session.Looks

/-! Resolutions that succeed. The log of a resolution lists the answers that were accepted, each with
the session that has just queued it. In a resolution that succeeds each answer has settled its conflict,
or the configured remaps of the next turn have done so in its place. -/

namespace FragmentMerge

/-- An accepted answer: the conflict it was for, and the session with the answer at the end of its
queue. -/
structure Exchange where
  conflict : Conflict
  answer : ItemKey × Action
  queued : Session

namespace Exchange

def Gone (x : Exchange) : Prop := x.conflict ∉ x.queued.replay.conflicts

/-- The answer sent a relation column elsewhere than configured; the next turn queues what is
configured for this column, which settles the conflict. -/
def Restored (x : Exchange) : Prop :=
  ∃ source target kind, x.answer.2 = .remap source target kind ∧
    x.queued.started.pendingRemaps x.conflict ≠ [] ∧
    (∀ e ∈ x.queued.started.pendingRemaps x.conflict, e.1 = source ∧ e.2 ≠ target) ∧
    x.conflict ∉ (x.queued.started.automap x.conflict).conflicts

end Exchange

namespace Session

variable {σ : Type}

/-- The answers that `settleWithin` accepts on its way. -/
def settleLog (ask : Resolver σ) : Nat → Session → σ → Option Conflict → List Exchange
  | 0, _, _, _ => []
  | n + 1, s, st, previous =>
    match s.nextStep with
    | (.ok (.choice c), s) =>
      if previous = some c.conflict then []
      else match ask c st with
      | (none, _) => []
      | (some answer, st) =>
        match s.accept c (some answer) with
        | .error _ => []
        | .ok s => ⟨c.conflict, answer, s⟩ :: settleLog ask n s st (some c.conflict)
    | _ => []

def convergeLog (ask : Resolver σ) (rounds : Nat) : Nat → Session → σ → List Exchange
  | left, s, st =>
    settleLog ask rounds s st none ++
      match settleWithin ask rounds s st 0 none with
      | some ⟨.ok _, s, st⟩ =>
        match s.introspect with
        | (false, _) => []
        | (true, s) =>
          match left with
          | 0 => []
          | left + 1 => convergeLog ask rounds left s st
      | _ => []

def resolveLog (ask : Resolver σ) (rounds : Nat) (s : Session) (st : σ) : List Exchange :=
  convergeLog ask rounds s.maxPasses s st

theorem settleWithin_round {ask : Resolver σ} {n : Nat} {s s' : Session} {st st' : σ} {m r : Nat}
    {previous : Option Conflict} (h : settleWithin ask (n + 1) s st m previous = some ⟨.ok r, s', st'⟩) :
    (s.nextStep = (.ok .done, s') ∧ r = m ∧ settleLog ask (n + 1) s st previous = []) ∨
    ∃ ch s₁ k a st₁, s.nextStep = (.ok (.choice ch), s₁) ∧ previous ≠ some ch.conflict ∧
      k ∈ ch.candidates ∧
      settleWithin ask n (s₁.suggest k a) st₁ (m + 1) (some ch.conflict) = some ⟨.ok r, s', st'⟩ ∧
      settleLog ask (n + 1) s st previous =
        ⟨ch.conflict, (k, a), s₁.suggest k a⟩ ::
          settleLog ask n (s₁.suggest k a) st₁ (some ch.conflict) := by
  unfold settleWithin at h
  rcases hs : s.nextStep with ⟨e | step, s₁⟩
  · simp [hs] at h
  · cases step with
    | done =>
      simp only [hs, Option.some.injEq, Outcome.mk.injEq, Except.ok.injEq] at h
      obtain ⟨rfl, rfl, rfl⟩ := h
      exact .inl ⟨rfl, rfl, by simp only [settleLog, hs]⟩
    | choice ch =>
      simp only [hs] at h
      by_cases hprev : previous = some ch.conflict
      · simp [hprev] at h
      · simp only [hprev, if_false] at h
        rcases hask : ask ch st with ⟨answer, st₁⟩
        simp only [hask] at h
        split at h
        · cases h
        · next s₂ hs₂ =>
          obtain ⟨k, a, rfl, hk, rfl, -⟩ := accept_eq_ok hs₂
          exact .inr ⟨ch, s₁, k, a, st₁, rfl, hprev, hk, h,
            by simp only [settleLog, hs, hprev, if_false, hask, hs₂]⟩

theorem exchange_settled {ask : Resolver σ} {n : Nat} {s s' : Session} {c : Conflict} {k : ItemKey}
    {a : Action} {st st' : σ} {m r : Nat} (hp : s.Presents c) (hw : s.pristine.WellKeyed)
    (hk : k ∈ c.sides)
    (h : settleWithin ask n (s.suggest k a) st m (some c) = some ⟨.ok r, s', st'⟩) :
    Exchange.Gone ⟨c, (k, a), s.suggest k a⟩ ∨ Exchange.Restored ⟨c, (k, a), s.suggest k a⟩ := by
  rcases answer_cases hp hw hk a with hgone | ⟨hfirst, hpending⟩
  · exact .inl hgone
  -- the conflict is still there, so the next step must not present it again
  obtain ⟨n, rfl⟩ : ∃ n', n = n' + 1 := by
    cases n with
    | zero => cases h
    | succ n => exact ⟨n, rfl⟩
  have hnext : (s.suggest k a).started.pendingRemaps c ≠ [] ∧
      c ∉ ((s.suggest k a).started.automap c).conflicts := by
    rcases nextStep_of_first (s := s.suggest k a) hfirst with ⟨e, he⟩ | ⟨ch, hch, hc⟩ | hnext
    · rcases settleWithin_round h with ⟨hs, -, -⟩ | ⟨ch, s₁, k', a', st₁, hs, -⟩ <;> simp [hs] at he
    · rcases settleWithin_round h with ⟨hs, -, -⟩ | ⟨ch', s₁, k', a', st₁, hs, hprev, -⟩
      · simp [hs] at hch
      · simp only [hs, Except.ok.injEq, Step.choice.injEq] at hch
        exact absurd (by rw [hch, hc]) hprev
    · exact hnext
  rcases hpending with hnil | ⟨source, target, kind, ha, hall⟩
  · exact absurd hnil hnext.1
  · exact .inr ⟨source, target, kind, ha, hnext.1, hall, hnext.2⟩

theorem settleWithin_ok {ask : Resolver σ} {n : Nat} {s s' : Session} {st st' : σ} {m r : Nat}
    {previous : Option Conflict} (hw : s.pristine.WellKeyed) (hm : (s.mapper.map Prod.fst).Nodup)
    (h : settleWithin ask n s st m previous = some ⟨.ok r, s', st'⟩) :
    r = m + (settleLog ask n s st previous).length ∧ s'.Replayed ∧ s'.conflicts = [] ∧
      s'.phase = .done ∧ ∀ x ∈ settleLog ask n s st previous, x.Gone ∨ x.Restored := by
  induction n generalizing s st m previous with
  | zero => cases h
  | succ n ih =>
    rcases settleWithin_round h with ⟨hs, rfl, hlog⟩ |
      ⟨ch, s₁, k, a, st₁, hs, -, hk, hrest, hlog⟩
    · rcases nextStep_spec s hm with ⟨e, he⟩ | ⟨-, hr, hc, hp⟩ | ⟨ch, hch, -⟩
      · simp [hs] at he
      · rw [hs] at hr hc hp
        rw [hlog]
        exact ⟨rfl, hr, hc, hp, by simp⟩
      · simp [hs] at hch
    · rcases nextStep_spec s hm with ⟨e, he⟩ | ⟨he, -⟩ | ⟨ch', hch, hp, hsides⟩
      · simp [hs] at he
      · simp [hs] at he
      obtain rfl : ch' = ch := by simpa [hs] using hch.symm
      rw [hs] at hp
      have hg : Grows s s₁ := by simpa [hs] using grows_nextStep s
      have hw₁ : s₁.pristine.WellKeyed := hg.pristine ▸ hw
      obtain ⟨hr, hreplayed, hc, hphase, hall⟩ :=
        ih (s := s₁.suggest k a) hw₁ (hg.mapper ▸ hm) hrest
      rw [hlog]
      refine ⟨by rw [hr, List.length_cons]; omega, hreplayed, hc, hphase, fun x hx => ?_⟩
      rcases List.mem_cons.1 hx with rfl | hx
      · exact exchange_settled hp hw₁ (hsides k hk) hrest
      · exact hall x hx

theorem introspect_false {s s' : Session} (hr : s.Replayed) (h : s.introspect = (false, s')) :
    s'.Replayed ∧ s'.current = s.current ∧ s'.phase = s.phase := by
  unfold introspect at h
  split at h
  · obtain rfl : s = s' := congrArg Prod.snd h
    exact ⟨hr, rfl, rfl⟩
  · obtain ⟨hg, hc, hp⟩ := foldl_applyRules s s.visibleNames
    dsimp only at h
    split at h
    · next hlen =>
      obtain rfl : s.visibleNames.foldl applyRules s = s' := congrArg Prod.snd h
      simp only [Bool.and_eq_true, decide_eq_true_eq] at hlen
      have hq := hg.queue.eq_of_length hlen.1.symm
      have has := hg.attributes.eq_of_length hlen.2.symm
      exact ⟨by rw [Replayed, hc, hg.pristine, hg.links, ← hq, ← has]; exact hr, hc, hp⟩
    · cases h

/-- One turn of settling and a pass, when the whole succeeds. -/
theorem convergeWithin_turn {ask : Resolver σ} {rounds left : Nat} {s s' : Session} {st st' : σ}
    {acc r : Resolution} (h : convergeWithin ask rounds left s st acc = some ⟨.ok r, s', st'⟩) :
    ∃ n s₁ st₁, settleWithin ask rounds s st 0 none = some ⟨.ok n, s₁, st₁⟩ ∧
      ((s₁.introspect = (false, s') ∧ r = { acc with resolved := acc.resolved + n } ∧
        convergeLog ask rounds left s st = settleLog ask rounds s st none) ∨
      ∃ left' s₂, left = left' + 1 ∧ s₁.introspect = (true, s₂) ∧
        convergeWithin ask rounds left' s₂ st₁ ⟨acc.resolved + n, acc.passes + 1⟩ =
          some ⟨.ok r, s', st'⟩ ∧
        convergeLog ask rounds left s st =
          settleLog ask rounds s st none ++ convergeLog ask rounds left' s₂ st₁) := by
  unfold convergeWithin at h
  rcases hs : settleWithin ask rounds s st 0 none with _ | ⟨e | n, s₁, st₁⟩
  · simp [hs] at h
  · simp [hs] at h
  · refine ⟨n, s₁, st₁, rfl, ?_⟩
    rcases hi : s₁.introspect with ⟨_ | _, s₂⟩
    · simp only [hs, hi, Option.some.injEq, Outcome.mk.injEq, Except.ok.injEq] at h
      obtain ⟨rfl, rfl, -⟩ := h
      refine .inl ⟨rfl, rfl, ?_⟩
      unfold convergeLog
      simp [hs, hi]
    · cases left with
      | zero => simp [hs, hi] at h
      | succ left =>
        simp only [hs, hi] at h
        refine .inr ⟨left, s₂, rfl, rfl, h, ?_⟩
        conv => lhs; unfold convergeLog
        simp only [hs, hi]

theorem convergeWithin_ok {ask : Resolver σ} {rounds left : Nat} {s s' : Session} {st st' : σ}
    {acc r : Resolution} (hw : s.pristine.WellKeyed) (hm : (s.mapper.map Prod.fst).Nodup)
    (h : convergeWithin ask rounds left s st acc = some ⟨.ok r, s', st'⟩) :
    r.resolved = acc.resolved + (convergeLog ask rounds left s st).length ∧
      r.passes ≤ acc.passes + left ∧ s'.Replayed ∧ s'.conflicts = [] ∧ s'.phase = .done ∧
      ∀ x ∈ convergeLog ask rounds left s st, x.Gone ∨ x.Restored := by
  induction left using Nat.strongRecOn generalizing s st acc with
  | ind left ih =>
    obtain ⟨n, s₁, st₁, hs, hturn⟩ := convergeWithin_turn h
    obtain ⟨hn, hr, hc, hp, hall⟩ := settleWithin_ok hw hm hs
    rcases hturn with ⟨hi, rfl, hlog⟩ | ⟨left', s₂, rfl, hi, hrest, hlog⟩
    · obtain ⟨hr', hcur, hphase⟩ := introspect_false hr hi
      rw [hlog]
      refine ⟨by simp [hn], Nat.le_add_right _ _, hr', ?_, hphase.trans hp, hall⟩
      rw [conflicts, hcur]
      exact hc
    · have hg : Grows s s₂ := (grows_settleWithin hs).trans (by simpa [hi] using grows_introspect s₁)
      obtain ⟨hres, hpass, hr', hc', hp', hall'⟩ := ih left' (Nat.lt_succ_self left')
        (s := s₂) (hg.pristine ▸ hw) (hg.mapper ▸ hm) hrest
      rw [hlog]
      refine ⟨?_, ?_, hr', hc', hp', fun x hx => ?_⟩
      · rw [List.length_append]
        dsimp only at hres
        omega
      · dsimp only at hpass
        omega
      · rcases List.mem_append.1 hx with hx | hx
        · exact hall x hx
        · exact hall' x hx

end Session

end FragmentMerge
