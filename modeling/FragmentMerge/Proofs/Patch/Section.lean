import FragmentMerge.Patch.Section
import FragmentMerge.Proofs.Text.Find

/-! Guarded sections in a text. A section that has been put in is found again, so the last one of several
stands in the place of all of them, and once it is removed the text is there again. The exception is a begin
mark without an end mark: what follows it is taken for a section as soon as one is put in behind it. -/

namespace FragmentMerge.Section

open Text

variable {sentinel body s before : List Char} {p : Placement}

/-- A sentinel whose marks are lines that can be told apart. -/
structure IsSentinel (sentinel : List Char) : Prop where
  line : IsLine sentinel
  apart : ¬ endMark sentinel <:+: beginMark sentinel

theorem not_endMark_infix (sentinel : List Char) : ¬ endMark sentinel <:+: beginMark sentinel := by
  rintro ⟨u, v, h⟩
  have hlength := congrArg List.length h
  simp [beginMark, endMark] at hlength
  match u with
  | [] => simp [beginMark, endMark] at h
  | [a] => simp [beginMark, endMark] at h
  | [a, b] => simp [beginMark, endMark] at h
  | a :: b :: c :: u =>
    simp only [List.length_cons] at hlength
    omega

theorem isSentinel_of_isLine (h : IsLine sentinel) : IsSentinel sentinel := ⟨h, not_endMark_infix sentinel⟩

theorem beginMark_ne_nil (sentinel : List Char) : beginMark sentinel ≠ [] :=
  List.append_ne_nil_of_right_ne_nil _ (by decide)

theorem endMark_ne_nil (sentinel : List Char) : endMark sentinel ≠ [] :=
  List.append_ne_nil_of_right_ne_nil _ (by decide)

theorem isLine_beginMark (h : IsLine sentinel) : IsLine (beginMark sentinel) := by
  simpa [beginMark, IsLine] using h

theorem isLine_endMark (h : IsLine sentinel) : IsLine (endMark sentinel) := by
  simpa [endMark, IsLine] using h

theorem isInfix_trimLines (s : List Char) : trimLines s <:+: s := by
  have h : trimLines s <+: s := by
    rw [trimLines, ← List.reverse_suffix, List.reverse_reverse]
    exact List.dropWhile_suffix _
  exact h.isInfix

theorem find?_self {p : List Char} (h : p ≠ []) (s : List Char) : find? p (p ++ s) = some ([], s) := by
  cases p with
  | nil => exact absurd rfl h
  | cons c p => rw [List.cons_append, find?, ← List.cons_append, after?_self]

theorem guarded_append (sentinel body after : List Char) : guarded sentinel body ++ after =
    beginMark sentinel ++ '\n' :: (trimLines body ++ '\n' :: (endMark sentinel ++ after)) := by
  simp [guarded]

theorem find?_endMark (hs : IsSentinel sentinel) (hbody : ¬ endMark sentinel <:+: body) (after : List Char) :
    ∃ x, find? (endMark sentinel) (guarded sentinel body ++ after) = some (x, after) := by
  have htrim : ¬ endMark sentinel <:+: trimLines body :=
    fun h => hbody (h.trans (isInfix_trimLines body))
  have hline := isLine_endMark hs.line
  have hne := endMark_ne_nil sentinel
  rw [guarded_append, find?_behind hline hne hs.apart, find?_behind hline hne htrim, find?_self hne]
  exact ⟨_, rfl⟩

/-- A section is located where its begin mark is the first and its body has no end mark. -/
theorem locate?_guarded (hs : IsSentinel sentinel)
    (hfirst : find? (beginMark sentinel) (before ++ beginMark sentinel) = some (before, []))
    (hbody : ¬ endMark sentinel <:+: body) (after : List Char) :
    locate? sentinel (before ++ guarded sentinel body ++ after) = some (before, after) := by
  have hbegin := find?_replace (b := []) (by simpa using hfirst)
    ('\n' :: (trimLines body ++ '\n' :: (endMark sentinel ++ after)))
  rw [List.append_assoc, ← guarded_append] at hbegin
  obtain ⟨x, hend⟩ := find?_endMark hs hbody after
  rw [locate?, List.append_assoc, hbegin, Option.bind_some]
  simp only [List.drop_left]
  rw [hend]
  rfl

theorem remove_of_none (h : locate? sentinel s = none) : remove sentinel s = s := by
  simp only [remove, h]

theorem first_of_locate? {after : List Char} (h : locate? sentinel s = some (before, after)) :
    find? (beginMark sentinel) (before ++ beginMark sentinel) = some (before, []) := by
  obtain ⟨⟨x, y⟩, hfind, hend⟩ := Option.bind_eq_some_iff.1 h
  obtain ⟨⟨_, _⟩, -, he⟩ := Option.map_eq_some_iff.1 hend
  obtain rfl := (Prod.mk.inj he).1
  rw [append_of_find? hfind] at hfind
  simpa using find?_replace hfind []

theorem first_below (hs : IsSentinel sentinel) {a : List Char} (ha : ¬ beginMark sentinel <:+: a) :
    find? (beginMark sentinel) (a ++ ['\n'] ++ beginMark sentinel) = some (a ++ ['\n'], []) := by
  have hne := beginMark_ne_nil sentinel
  have := find?_behind (isLine_beginMark hs.line) hne ha (beginMark sentinel ++ [])
  rw [find?_self hne] at this
  simpa using this

/-- The parts of a text between which a section is put, whatever the section. -/
def around (sentinel : List Char) (p : Placement) (s : List Char) : List Char × List Char :=
  match locate? sentinel s with
  | some parts => parts
  | none =>
    match p with
    | .prologue => ([], '\n' :: s)
    | .epilogue => if s.isEmpty || s.getLast? == some '\n' then (s, ['\n']) else (s ++ ['\n'], ['\n'])

theorem splice_eq (sentinel body : List Char) (p : Placement) (s : List Char) :
    splice sentinel body p s =
      (around sentinel p s).1 ++ guarded sentinel body ++ (around sentinel p s).2 := by
  unfold splice around
  cases locate? sentinel s with
  | some parts => rfl
  | none =>
    cases p with
    | prologue => rfl
    | epilogue =>
      dsimp only
      split
      · rfl
      · simp

theorem around_of_locate? {parts : List Char × List Char} (h : locate? sentinel s = some parts)
    (p : Placement) : around sentinel p s = parts := by
  unfold around
  rw [h]

theorem around_of_none (h : locate? sentinel s = none) (p : Placement) : around sentinel p s =
    match p with
    | .prologue => ([], '\n' :: s)
    | .epilogue => if s.isEmpty || s.getLast? == some '\n' then (s, ['\n']) else (s ++ ['\n'], ['\n']) := by
  unfold around
  rw [h]

/-- A begin mark stands in the text without an end mark behind it. -/
def IsUnclosed (sentinel s : List Char) : Prop := beginMark sentinel <:+: s ∧ locate? sentinel s = none

theorem first_around (hs : IsSentinel sentinel)
    (hclosed : p = .epilogue → ¬ IsUnclosed sentinel s) :
    find? (beginMark sentinel) ((around sentinel p s).1 ++ beginMark sentinel) =
      some ((around sentinel p s).1, []) := by
  have hself : find? (beginMark sentinel) (beginMark sentinel) = some ([], []) := by
    simpa using find?_self (beginMark_ne_nil sentinel) []
  cases hl : locate? sentinel s with
  | some parts =>
    rw [around_of_locate? hl]
    exact first_of_locate? hl
  | none =>
    rw [around_of_none hl]
    cases p with
    | prologue => exact hself
    | epilogue =>
      have hclear : ¬ beginMark sentinel <:+: s := fun h => hclosed rfl ⟨h, hl⟩
      dsimp only
      split
      · next hends =>
        rcases Bool.or_eq_true_iff.1 hends with hempty | hlast
        · obtain rfl := List.isEmpty_iff.1 hempty
          exact hself
        · obtain ⟨a, rfl⟩ := List.getLast?_eq_some_iff.1 (eq_of_beq hlast)
          exact first_below hs fun h => hclear (h.trans (List.prefix_append _ _).isInfix)
      · exact first_below hs hclear

/-- A section that has been put in stands where it was put. -/
theorem locate?_splice (hs : IsSentinel sentinel) (hbody : ¬ endMark sentinel <:+: body)
    (hclosed : p = .epilogue → ¬ IsUnclosed sentinel s) :
    locate? sentinel (splice sentinel body p s) = some (around sentinel p s) := by
  rw [splice_eq]
  exact locate?_guarded hs (first_around hs hclosed) hbody _

/-- A section takes the place of the one that was put in before. -/
theorem splice_again (hs : IsSentinel sentinel) (hbody : ¬ endMark sentinel <:+: body)
    (hclosed : p = .epilogue → ¬ IsUnclosed sentinel s) (body' : List Char) :
    splice sentinel body' p (splice sentinel body p s) = splice sentinel body' p s := by
  rw [splice_eq, around_of_locate? (locate?_splice hs hbody hclosed), ← splice_eq]

theorem splice_splice (hs : IsSentinel sentinel) (hbody : ¬ endMark sentinel <:+: body)
    (hstray : beginMark sentinel <:+: s → locate? sentinel s ≠ none) (p : Placement) :
    splice sentinel body p (splice sentinel body p s) = splice sentinel body p s :=
  splice_again hs hbody (fun _ h => hstray h.1 h.2) body

theorem unclosed_cut (h : IsUnclosed sentinel s) : ∃ before rest,
    find? (beginMark sentinel) s = some (before, rest) ∧ s = before ++ (beginMark sentinel ++ rest) ∧
      ¬ endMark sentinel <:+: beginMark sentinel ++ rest := by
  obtain ⟨hbegin, hnone⟩ := h
  cases hf : find? (beginMark sentinel) s with
  | none => exact absurd hbegin (find?_eq_none_iff.1 hf)
  | some parts =>
    obtain ⟨before, rest⟩ := parts
    have hs : s = before ++ (beginMark sentinel ++ rest) := by
      rw [append_of_find? hf, List.append_assoc]
    refine ⟨before, rest, rfl, hs, find?_eq_none_iff.1 ?_⟩
    rw [locate?, hf, Option.bind_some, Option.map_eq_none_iff] at hnone
    rw [hs] at hnone
    simpa using hnone

theorem around_epilogue {before t : List Char} (ht : t ≠ []) (h : locate? sentinel (before ++ t) = none) :
    ∃ u, u <+: t ∧ (∃ gap, u ++ ['\n'] = t ++ gap) ∧
      around sentinel .epilogue (before ++ t) = (before ++ (u ++ ['\n']), ['\n']) := by
  rw [around_of_none h]
  dsimp only
  split
  · next hends =>
    have hlast : t.getLast? = some '\n' := by
      simpa [ht, List.getLast?_append, Option.or_eq_some_iff] using hends
    obtain ⟨u, rfl⟩ := List.getLast?_eq_some_iff.1 hlast
    exact ⟨u, List.prefix_append _ _, ⟨[], by simp⟩, rfl⟩
  · exact ⟨t, List.prefix_rfl, ⟨['\n'], rfl⟩, by rw [List.append_assoc]⟩

/-- Behind a begin mark that is not closed a section ends what the mark begins. -/
theorem locate?_unclosed (hs : IsSentinel sentinel) (hbody : ¬ endMark sentinel <:+: body)
    (h : IsUnclosed sentinel s) : ∃ before rest, s = before ++ (beginMark sentinel ++ rest) ∧
      locate? sentinel (splice sentinel body .epilogue s) = some (before, ['\n']) := by
  obtain ⟨before, rest, hf, rfl, hend⟩ := unclosed_cut h
  have ht : beginMark sentinel ++ rest ≠ [] := List.append_ne_nil_of_left_ne_nil (beginMark_ne_nil _) _
  obtain ⟨u, hu, ⟨gap, hgap⟩, haround⟩ := around_epilogue ht h.2
  refine ⟨before, rest, rfl, ?_⟩
  have hsplice : splice sentinel body .epilogue (before ++ (beginMark sentinel ++ rest)) =
      before ++ (u ++ '\n' :: (guarded sentinel body ++ ['\n'])) := by
    rw [splice_eq, haround]
    simp
  have hbegin : find? (beginMark sentinel) (before ++ (u ++ '\n' :: (guarded sentinel body ++ ['\n']))) =
      some (before, rest ++ gap ++ (guarded sentinel body ++ ['\n'])) := by
    rw [← List.append_assoc] at hf
    rw [List.append_cons, hgap]
    simpa using find?_replace hf (rest ++ gap ++ (guarded sentinel body ++ ['\n']))
  obtain ⟨x, hx⟩ := find?_endMark hs hbody ['\n']
  rw [hsplice, locate?, hbegin, Option.bind_some]
  simp only [List.drop_left]
  rw [find?_behind (isLine_endMark hs.line) (endMark_ne_nil sentinel)
    (fun h => hend (h.trans hu.isInfix)), hx]
  rfl

/-- The text holds a section, and what stands outside of the section of `s` around it. -/
def Keeps (sentinel body s t : List Char) : Prop :=
  ∃ before after, t = before ++ guarded sentinel body ++ after ∧
    (locate? sentinel s = some (before, after) ∨
      locate? sentinel s = none ∧ (s <+: before ∨ s <:+ after))

theorem keeps_splice (sentinel body : List Char) (p : Placement) (s : List Char) :
    Keeps sentinel body s (splice sentinel body p s) := by
  refine ⟨_, _, splice_eq sentinel body p s, ?_⟩
  cases hl : locate? sentinel s with
  | some parts => exact .inl (by rw [around_of_locate? hl])
  | none =>
    refine .inr ⟨rfl, ?_⟩
    rw [around_of_none hl]
    cases p with
    | prologue => exact .inr (List.suffix_cons _ _)
    | epilogue =>
      refine .inl ?_
      dsimp only
      split
      · exact List.prefix_rfl
      · exact List.prefix_append _ _

/-- A section that is put in behind a begin mark that is not closed is lost with the text behind the mark
when the next one is put in. -/
theorem length_splice_unclosed (hs : IsSentinel sentinel) (hbody : ¬ endMark sentinel <:+: body)
    (h : IsUnclosed sentinel s) (body' : List Char) :
    (splice sentinel body' .epilogue (splice sentinel body .epilogue s)).length <
      s.length + (guarded sentinel body').length := by
  obtain ⟨before, rest, rfl, hl⟩ := locate?_unclosed hs hbody h
  have hmark : 1 < (beginMark sentinel).length := by
    simp [beginMark]
  rw [splice_eq, around_of_locate? hl]
  simp only [List.length_append, List.length_singleton]
  omega

theorem not_keeps_of_length {t : List Char} (h : t.length < s.length + (guarded sentinel body).length)
    (hnone : locate? sentinel s = none) : ¬ Keeps sentinel body s t := by
  rintro ⟨before, after, rfl, hl | ⟨-, hl | hl⟩⟩
  · rw [hnone] at hl
    cases hl
  · have := hl.length_le
    simp only [List.length_append] at h
    omega
  · have := hl.length_le
    simp only [List.length_append] at h
    omega

/-- The last section stands in the place of the one that was put in before it, the same section put in
again changes nothing, and the text outside of the section stays, exactly unless the section goes to the end
of a text with a begin mark that is not closed. -/
theorem splice_last_iff (hs : IsLine sentinel) {x : List Char} (hx : ¬ endMark sentinel <:+: x)
    (p : Placement) (s y : List Char) :
    (splice sentinel y p (splice sentinel x p s) = splice sentinel y p s ↔
      ¬ (p = .epilogue ∧ IsUnclosed sentinel s)) ∧
    (splice sentinel x p (splice sentinel x p s) = splice sentinel x p s ↔
      ¬ (p = .epilogue ∧ IsUnclosed sentinel s)) ∧
    Keeps sentinel x s (splice sentinel x p s) ∧
    (Keeps sentinel y s (splice sentinel y p (splice sentinel x p s)) ↔
      ¬ (p = .epilogue ∧ IsUnclosed sentinel s)) := by
  have hs := isSentinel_of_isLine hs
  by_cases h : p = .epilogue ∧ IsUnclosed sentinel s
  · obtain ⟨rfl, hopen⟩ := h
    have hlost : ∀ z, ¬ Keeps sentinel z s (splice sentinel z .epilogue (splice sentinel x .epilogue s)) :=
      fun z => not_keeps_of_length (length_splice_unclosed hs hx hopen z) hopen.2
    have hdiffers : ∀ z, splice sentinel z .epilogue (splice sentinel x .epilogue s) ≠
        splice sentinel z .epilogue s := by
      intro z he
      apply hlost z
      rw [he]
      exact keeps_splice sentinel z .epilogue s
    simp [hopen, hdiffers, hlost, keeps_splice]
  · have hagain : ∀ z, splice sentinel z p (splice sentinel x p s) = splice sentinel z p s :=
      splice_again hs hx fun hp hopen => h ⟨hp, hopen⟩
    simp [h, hagain, keeps_splice]

def wiredText : List Char := "main();\n// weave:begin\nsetup();\n// weave:end\nend();".toList

theorem splice_last_wired : IsLine "weave".toList ∧ ¬ endMark "weave".toList <:+: "setup(1);\n".toList ∧
    splice "weave".toList "setup(2);".toList .epilogue
      (splice "weave".toList "setup(1);\n".toList .epilogue wiredText) =
      "main();\n// weave:begin\nsetup(2);\n// weave:end\nend();".toList := by
  have hline : IsLine "weave".toList := by decide
  have hbody : ¬ endMark "weave".toList <:+: "setup(1);\n".toList := contains_eq_false_iff.1 (by decide)
  have hlocated : locate? "weave".toList wiredText ≠ none := by decide
  obtain ⟨hlast, -⟩ := splice_last_iff hline hbody .epilogue wiredText "setup(2);".toList
  exact ⟨hline, hbody, (hlast.2 fun h => hlocated h.2.2).trans rfl⟩

/-- The line between a stray begin mark and the first section is lost when the second one is put in. -/
theorem stray_mark_takes_line :
    splice "weave".toList "b".toList .epilogue "// weave:begin\nmain();\n".toList =
      "// weave:begin\nmain();\n// weave:begin\nb\n// weave:end\n".toList ∧
    splice "weave".toList "b".toList .epilogue
      (splice "weave".toList "a".toList .epilogue "// weave:begin\nmain();\n".toList) =
      "// weave:begin\nb\n// weave:end\n".toList := by
  decide

theorem foldl_splice (hs : IsSentinel sentinel) {bodies : List (List Char)}
    (hbodies : ∀ x ∈ body :: bodies, ¬ endMark sentinel <:+: x)
    (hclosed : p = .epilogue → ¬ IsUnclosed sentinel s) :
    ∃ x ∈ body :: bodies, bodies.foldl (fun t x => splice sentinel x p t) (splice sentinel body p s) =
      splice sentinel x p s := by
  induction bodies generalizing body with
  | nil => exact ⟨body, List.mem_singleton_self _, rfl⟩
  | cons y bodies ih =>
    have hbody := hbodies body List.mem_cons_self
    obtain ⟨x, hx, h⟩ := ih fun z hz => hbodies z (List.mem_cons_of_mem _ hz)
    refine ⟨x, List.mem_cons_of_mem _ hx, ?_⟩
    rw [List.foldl_cons, splice_again hs hbody hclosed, h]

theorem remove_splice (hs : IsSentinel sentinel) (hbody : ¬ endMark sentinel <:+: body)
    (hclosed : p = .epilogue → ¬ IsUnclosed sentinel s) : remove sentinel (splice sentinel body p s) =
      (around sentinel p s).1 ++ dropNewline (around sentinel p s).2 := by
  simp only [remove, locate?_splice hs hbody hclosed]

/-- Removing the section undoes all that has been put into a text without a begin mark, but for the line
feed that a text has been given to end in one. -/
theorem remove_foldl_splice (hs : IsLine sentinel) (hclear : ¬ beginMark sentinel <:+: s)
    {bodies : List (List Char)} (hne : bodies ≠ []) (hbodies : ∀ x ∈ bodies, ¬ endMark sentinel <:+: x)
    (p : Placement) : remove sentinel (bodies.foldl (fun t x => splice sentinel x p t) s) =
      match p with
      | .prologue => s
      | .epilogue => if s = [] ∨ s.getLast? = some '\n' then s else s ++ ['\n'] := by
  have hs := isSentinel_of_isLine hs
  have hclosed : p = .epilogue → ¬ IsUnclosed sentinel s := fun _ h => hclear h.1
  have hnone : locate? sentinel s = none := by
    rw [locate?, find?_eq_none_iff.2 hclear, Option.bind_none]
  obtain ⟨body, bodies, rfl⟩ := List.exists_cons_of_ne_nil hne
  obtain ⟨x, hx, hlast⟩ := foldl_splice hs hbodies hclosed
  rw [List.foldl_cons, hlast, remove_splice hs (hbodies x hx) hclosed, around_of_none hnone]
  cases p with
  | prologue => rfl
  | epilogue =>
    have hends : (s.isEmpty || s.getLast? == some '\n') = true ↔ s = [] ∨ s.getLast? = some '\n' := by
      simp
    dsimp only
    by_cases h : s = [] ∨ s.getLast? = some '\n'
    · rw [if_pos h, if_pos (hends.2 h)]
      exact List.append_nil s
    · rw [if_neg h, if_neg (mt hends.1 h)]
      exact List.append_nil _

theorem remove_foldl_splice_twice : IsLine "weave".toList ∧
    ¬ beginMark "weave".toList <:+: "// weave:end\nmain();".toList ∧
    (∀ x ∈ ["a".toList, "b\n".toList], ¬ endMark "weave".toList <:+: x) ∧
    remove "weave".toList (["a".toList, "b\n".toList].foldl
      (fun t x => splice "weave".toList x .epilogue t) "// weave:end\nmain();".toList) =
      "// weave:end\nmain();\n".toList := by
  have hline : IsLine "weave".toList := by decide
  have hclear : ¬ beginMark "weave".toList <:+: "// weave:end\nmain();".toList :=
    contains_eq_false_iff.1 (by decide)
  have hbodies : ∀ x ∈ ["a".toList, "b\n".toList], ¬ endMark "weave".toList <:+: x := by
    intro x hx
    apply contains_eq_false_iff.1
    revert x
    decide
  exact ⟨hline, hclear, hbodies,
    (remove_foldl_splice hline hclear (by decide) hbodies .epilogue).trans (by decide)⟩

end FragmentMerge.Section
