import FragmentMerge.Proofs.Text.Lines

/-! Searches for a piece of text: what they find is the first place where the piece stands. -/

namespace FragmentMerge.Text

theorem after?_self (p s : List Char) : after? p (p ++ s) = some s := after?_eq_some_iff.2 rfl

/-- A piece that is no longer than the start of a text is looked for in that start. -/
theorem after?_append {p x : List Char} (h : p.length ≤ x.length) (s : List Char) :
    after? p (x ++ s) = (after? p x).map (· ++ s) := by
  induction p generalizing x with
  | nil => rfl
  | cons a p ih =>
    cases x with
    | nil => exact absurd h (by simp)
    | cons b x =>
      rw [List.cons_append, after?, after?]
      split
      · exact ih (by simpa using h)
      · rfl

theorem find?_eq_none_iff {p s : List Char} : find? p s = none ↔ ¬ p <:+: s := by
  induction s with
  | nil => simp [find?]
  | cons c s ih =>
    rw [find?, List.infix_cons_iff]
    cases h : after? p (c :: s) with
    | some r =>
      have : p <+: c :: s := ⟨r, (after?_eq_some_iff.1 h).symm⟩
      simp [this]
    | none =>
      have : ¬ p <+: c :: s := by
        rintro ⟨r, hr⟩
        rw [← hr, after?_self] at h
        cases h
      simp [this, ih]

theorem contains_iff {s p : List Char} : contains s p = true ↔ p <:+: s := by
  rw [contains, Option.isSome_iff_ne_none, ne_eq, find?_eq_none_iff, Classical.not_not]

theorem contains_eq_false_iff {s p : List Char} : contains s p = false ↔ ¬ p <:+: s := by
  rw [← contains_iff, Bool.not_eq_true]

/-- The first place stays the first, whatever follows it. -/
theorem find?_replace {p a b : List Char} (h : find? p (a ++ p ++ b) = some (a, b)) (b' : List Char) :
    find? p (a ++ p ++ b') = some (a, b') := by
  induction a with
  | nil =>
    rw [List.nil_append]
    cases p with
    | nil => cases b' <;> rfl
    | cons c p => rw [List.cons_append, find?, ← List.cons_append, after?_self]
  | cons c a ih =>
    have hlen : p.length ≤ (c :: a ++ p).length := by
      rw [List.length_append]
      omega
    rw [List.cons_append, List.cons_append, find?, ← List.cons_append, ← List.cons_append,
      after?_append hlen] at h ⊢
    cases ha : after? p (c :: a ++ p) with
    | some r =>
      rw [ha] at h
      cases h
    | none =>
      rw [ha] at h
      obtain ⟨⟨x, y⟩, hxy, he⟩ := Option.map_eq_some_iff.1 h
      obtain ⟨rfl, rfl⟩ : x = a ∧ y = b := by simpa using he
      rw [Option.map_none, ih hxy]
      rfl

/-- A piece of one line that does not stand before a line feed is found behind it. -/
theorem find?_behind {p : List Char} (hp : IsLine p) (hne : p ≠ []) {a : List Char} (ha : ¬ p <:+: a)
    (s : List Char) : find? p (a ++ '\n' :: s) = (find? p s).map fun (x, y) => (a ++ '\n' :: x, y) := by
  induction a with
  | nil =>
    rw [List.nil_append, find?, after?_newline hp hne]
    rfl
  | cons c a ih =>
    have hc : after? p (c :: a ++ '\n' :: s) = none := by
      refine Option.eq_none_iff_forall_ne_some.2 fun r hr => ?_
      rcases List.append_eq_append_iff.1 (after?_eq_some_iff.1 hr) with ⟨x, hx, hrest⟩ | ⟨x, hx, -⟩
      · cases x with
        | nil => exact ha ⟨[], [], by simpa using hx⟩
        | cons d x =>
          obtain rfl := (List.cons.inj hrest).1
          exact hp (by simp [hx])
      · exact ha ⟨[], x, by simpa using hx.symm⟩
    rw [List.cons_append] at hc ⊢
    rw [find?, hc, ih fun h => ha (h.trans (List.suffix_cons c a).isInfix)]
    cases find? p s <;> rfl

theorem infix_lines {p v : List Char} {ls : List (List Char)} (hp : IsLine p) (hne : p ≠ []) :
    p <:+: v ++ below ls ↔ p <:+: v ∨ ∃ l ∈ ls, p <:+: l := by
  induction ls generalizing v with
  | nil => simp
  | cons l ls ih =>
    rw [below_cons]
    by_cases hv : p <:+: v
    · exact iff_of_true (hv.trans (List.prefix_append _ _).isInfix) (.inl hv)
    · have hbehind := find?_behind hp hne hv (l ++ below ls)
      have hiff : p <:+: v ++ '\n' :: (l ++ below ls) ↔ p <:+: l ++ below ls := by
        rw [← contains_iff, ← contains_iff, contains, contains, hbehind, Option.isSome_map]
      rw [hiff, ih]
      simp [hv]

theorem cons_eq_cut_iff {sep c : Char} {s a b : List Char} :
    c :: s = a ++ sep :: b ↔ (a = [] ∧ c = sep ∧ s = b) ∨ ∃ a', a = c :: a' ∧ s = a' ++ sep :: b := by
  rw [List.cons_eq_append_iff, List.cons.injEq, eq_comm (a := sep), eq_comm (a := b)]

theorem cutFirst?_eq_some_iff {sep : Char} {s a b : List Char} :
    cutFirst? sep s = some (a, b) ↔ s = a ++ sep :: b ∧ sep ∉ a := by
  induction s generalizing a with
  | nil => simp [cutFirst?]
  | cons c s ih =>
    rw [cutFirst?, cons_eq_cut_iff]
    split
    · next hc =>
      subst hc
      constructor
      · intro h
        cases h
        exact ⟨.inl ⟨rfl, rfl, rfl⟩, List.not_mem_nil⟩
      · rintro ⟨⟨rfl, -, rfl⟩ | ⟨a', rfl, -⟩, ha⟩
        · rfl
        · exact absurd List.mem_cons_self ha
    · next hc =>
      rw [Option.map_eq_some_iff]
      constructor
      · rintro ⟨⟨x, y⟩, hx, he⟩
        cases he
        obtain ⟨rfl, hsep⟩ := ih.1 hx
        exact ⟨.inr ⟨x, rfl, rfl⟩, List.not_mem_cons_of_ne_of_not_mem (Ne.symm hc) hsep⟩
      · rintro ⟨⟨-, heq, -⟩ | ⟨a', rfl, rfl⟩, ha⟩
        · exact absurd heq hc
        · exact ⟨(a', b), ih.2 ⟨rfl, List.not_mem_of_not_mem_cons ha⟩, rfl⟩

theorem cutLast?_eq_none_iff {sep : Char} {s : List Char} : cutLast? sep s = none ↔ sep ∉ s := by
  induction s with
  | nil => simp [cutLast?]
  | cons c s ih =>
    rw [cutLast?, List.mem_cons, not_or, ← ih]
    cases cutLast? sep s with
    | some parts => simp
    | none => simp [eq_comm]

theorem cutLast?_eq_some_iff {sep : Char} {s a b : List Char} :
    cutLast? sep s = some (a, b) ↔ s = a ++ sep :: b ∧ sep ∉ b := by
  induction s generalizing a with
  | nil => simp [cutLast?]
  | cons c s ih =>
    rw [cutLast?, cons_eq_cut_iff]
    cases hcut : cutLast? sep s with
    | some parts =>
      -- the last separator stands behind the first character
      have hs : sep ∈ s := Classical.not_not.1 fun hs => by
        rw [cutLast?_eq_none_iff.2 hs] at hcut
        cases hcut
      obtain ⟨x, y⟩ := parts
      rw [hcut] at ih
      constructor
      · intro h
        cases h
        obtain ⟨rfl, hy⟩ := ih.1 rfl
        exact ⟨.inr ⟨x, rfl, rfl⟩, hy⟩
      · rintro ⟨⟨-, -, rfl⟩ | ⟨a', rfl, rfl⟩, hb⟩
        · exact absurd hs hb
        · cases ih.2 ⟨rfl, hb⟩
          rfl
    | none =>
      have hs : sep ∉ s := cutLast?_eq_none_iff.1 hcut
      dsimp only
      constructor
      · intro h
        split at h
        · next hc =>
          cases h
          exact ⟨.inl ⟨rfl, hc, rfl⟩, hs⟩
        · cases h
      · rintro ⟨⟨rfl, hc, rfl⟩ | ⟨a', -, rfl⟩, -⟩
        · exact if_pos hc
        · exact absurd (List.mem_append_right _ List.mem_cons_self) hs

end FragmentMerge.Text
