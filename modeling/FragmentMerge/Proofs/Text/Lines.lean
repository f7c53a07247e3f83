import FragmentMerge.Text.Basic

/-! Texts by lines. A text is its first line and what stands below; a search for a piece without a line
feed that starts in a line does not see what stands below it. Each character stands on one line. -/

namespace FragmentMerge.Text

/-- The lines below a line, each after its line feed. -/
def below (ls : List (List Char)) : List Char := ls.flatMap ('\n' :: ·)

@[simp] theorem below_nil : below [] = [] := rfl

@[simp] theorem below_cons (l : List Char) (ls : List (List Char)) :
    below (l :: ls) = '\n' :: (l ++ below ls) := rfl

@[simp] theorem below_append (ls ls' : List (List Char)) : below (ls ++ ls') = below ls ++ below ls' :=
  List.flatMap_append

theorem intercalate_cons (sep a : List Char) (as : List (List Char)) :
    sep.intercalate (a :: as) = a ++ as.flatMap (sep ++ ·) := by
  induction as generalizing a with
  | nil => simp
  | cons b as ih =>
    rw [List.intercalate_cons_cons, ih, List.flatMap_cons]
    simp

theorem unlines_cons (l : List Char) (ls : List (List Char)) : unlines (l :: ls) = l ++ below ls :=
  intercalate_cons ['\n'] l ls

def IsLine (l : List Char) : Prop := '\n' ∉ l

instance (l : List Char) : Decidable (IsLine l) := inferInstanceAs (Decidable (_ ∉ _))

theorem lines_of_isLine {l : List Char} {ls : List (List Char)} (h : IsLine l)
    (hs : ∀ l ∈ ls, IsLine l) : lines (l ++ below ls) = l :: ls := by
  rw [← unlines_cons]
  refine List.splitOn_intercalate '\n' (fun x hx => ?_) (by simp)
  rcases List.mem_cons.1 hx with rfl | hx
  · exact h
  · exact hs x hx

theorem lines_injective {s t : List Char} (h : lines s = lines t) : s = t := by
  calc s = unlines (lines s) := (List.intercalate_splitOn '\n').symm
    _ = unlines (lines t) := congrArg unlines h
    _ = t := List.intercalate_splitOn '\n'

theorem exists_lines (s : List Char) :
    ∃ l ls, s = l ++ below ls ∧ IsLine l ∧ ∀ l ∈ ls, IsLine l := by
  induction s with
  | nil => exact ⟨[], [], rfl, List.not_mem_nil, by simp⟩
  | cons c s ih =>
    obtain ⟨l, ls, rfl, hl, hls⟩ := ih
    by_cases hc : c = '\n'
    · refine ⟨[], l :: ls, by simp [hc], List.not_mem_nil, fun x hx => ?_⟩
      rcases List.mem_cons.1 hx with rfl | hx
      · exact hl
      · exact hls x hx
    · refine ⟨c :: l, ls, rfl, fun h => ?_, hls⟩
      rcases List.mem_cons.1 h with h | h
      · exact hc h.symm
      · exact hl h

/-- The lines of a text that stand among others are this text. -/
theorem infix_unlines_lines (above rest : List (List Char)) (p : List Char) :
    p <:+: unlines (above ++ lines p ++ rest) := by
  obtain ⟨l, ls, rfl, hl, hls⟩ := exists_lines p
  rw [lines_of_isLine hl hls]
  cases above with
  | nil =>
    refine ⟨[], below rest, ?_⟩
    simp [unlines_cons]
  | cons a above =>
    refine ⟨a ++ below above ++ ['\n'], below rest, ?_⟩
    simp [unlines_cons]

theorem below_cases (ls : List (List Char)) : below ls = [] ∨ ∃ s, below ls = '\n' :: s := by
  cases ls with
  | nil => exact .inl rfl
  | cons l ls => exact .inr ⟨_, rfl⟩

theorem after?_newline {p s : List Char} (hp : IsLine p) (hne : p ≠ []) :
    after? p ('\n' :: s) = none := by
  cases p with
  | nil => exact absurd rfl hne
  | cons c p =>
    have hc : c ≠ '\n' := fun h => hp (h ▸ List.mem_cons_self)
    rw [after?, if_neg hc]

theorem after?_below {p : List Char} (hp : IsLine p) (s : List Char) (ls : List (List Char)) :
    after? p (s ++ below ls) = (after? p s).map (· ++ below ls) := by
  induction p generalizing s with
  | nil => rfl
  | cons c p ih =>
    have hp' : IsLine p := fun h => hp (List.mem_cons_of_mem _ h)
    cases s with
    | nil =>
      rcases below_cases ls with h | ⟨s, h⟩
      · simp [h, after?]
      · rw [List.nil_append, h, after?_newline hp (by simp)]
        rfl
    | cons d s =>
      rw [List.cons_append, after?, after?]
      split
      · exact ih hp' s
      · rfl

theorem takeWhile_append_of_stop {p : Char → Bool} {l r : List Char} (h : ∀ c ∈ l, p c = true)
    (hstop : ∀ c, r.head? = some c → p c = false) : (l ++ r).takeWhile p = l := by
  rw [List.takeWhile_append_of_pos h]
  cases r with
  | nil => simp
  | cons c r => simp [hstop c rfl]

theorem takeWhile_line {l : List Char} (h : IsLine l) (ls : List (List Char)) :
    (l ++ below ls).takeWhile (· != '\n') = l := by
  refine takeWhile_append_of_stop (fun c hc => ?_) fun c hc => ?_
  · simpa using fun he : c = '\n' => h (he ▸ hc)
  · rcases below_cases ls with hnil | ⟨s, hs⟩
    · simp [hnil] at hc
    · obtain rfl : '\n' = c := by simpa [hs] using hc
      rfl

theorem newlines_line {l : List Char} (h : IsLine l) : newlines l = 0 := List.count_eq_zero.2 h

theorem newlines_below {ls : List (List Char)} (h : ∀ l ∈ ls, IsLine l) :
    newlines (below ls) = ls.length := by
  induction ls with
  | nil => rfl
  | cons l ls ih =>
    have hl : l.count '\n' = 0 := newlines_line (h l List.mem_cons_self)
    have ih := ih fun x hx => h x (List.mem_cons_of_mem _ hx)
    rw [newlines] at ih ⊢
    rw [below_cons, List.count_cons_self, List.count_append, hl, ih, List.length_cons, Nat.zero_add]

variable {s p : List Char} {j k : Nat}

theorem lines_ne_nil (s : List Char) : lines s ≠ [] := List.splitOn_ne_nil '\n' s

theorem isLine_of_mem_lines {l : List Char} (h : l ∈ lines s) : IsLine l := by
  obtain ⟨l', ls, rfl, hl, hls⟩ := exists_lines s
  rw [lines_of_isLine hl hls] at h
  rcases List.mem_cons.1 h with rfl | h
  · exact hl
  · exact hls l h

theorem unlines_lines (s : List Char) : unlines (lines s) = s := List.intercalate_splitOn '\n'

theorem lines_unlines {ls : List (List Char)} (hne : ls ≠ []) (h : ∀ l ∈ ls, IsLine l) :
    lines (unlines ls) = ls := List.splitOn_intercalate '\n' h hne

@[simp] theorem lines_newline (s : List Char) : lines ('\n' :: s) = [] :: lines s := by
  rw [lines, List.splitOn_cons_eq_if_modifyHead, if_pos (beq_self_eq_true _), lines]

theorem lines_cons {c : Char} (hc : c ≠ '\n') (s : List Char) :
    lines (c :: s) = (lines s).modifyHead (c :: ·) := by
  rw [lines, List.splitOn_cons_eq_if_modifyHead, if_neg (by simpa using hc), lines]

theorem lines_line {l : List Char} (h : IsLine l) (s : List Char) : lines (l ++ '\n' :: s) = l :: lines s := by
  induction l with
  | nil => exact lines_newline s
  | cons c l ih =>
    obtain ⟨hc, hl⟩ := not_or.1 fun hm => h (List.mem_cons.2 hm)
    rw [List.cons_append, lines_cons (Ne.symm hc), ih hl, List.modifyHead_cons]

theorem lines_terminated {ls : List (List Char)} (h : ∀ l ∈ ls, IsLine l) :
    lines (ls.flatMap (· ++ ['\n'])) = ls ++ [[]] := by
  induction ls with
  | nil => rfl
  | cons l ls ih =>
    obtain ⟨hl, hls⟩ := List.forall_mem_cons.1 h
    rw [List.flatMap_cons, List.append_assoc, List.singleton_append, lines_line hl, ih hls, List.cons_append]

/-- The characters before a line, with the line feeds of the lines above it. -/
def lineStart (ls : List (List Char)) (k : Nat) : Nat := ((ls.take k).flatMap (· ++ ['\n'])).length

@[simp] theorem lineStart_zero (ls : List (List Char)) : lineStart ls 0 = 0 := rfl

@[simp] theorem lineStart_cons (l : List Char) (ls : List (List Char)) (k : Nat) :
    lineStart (l :: ls) (k + 1) = l.length + 1 + lineStart ls k := by
  rw [lineStart, List.take_succ_cons, List.flatMap_cons, List.length_append, List.length_append]
  rfl

theorem lineStart_succ_le (ls : List (List Char)) (k : Nat) : lineStart ls k ≤ lineStart ls (k + 1) := by
  induction ls generalizing k with
  | nil => simp [lineStart]
  | cons l ls ih =>
    cases k with
    | zero => exact Nat.zero_le _
    | succ k =>
      rw [lineStart_cons, lineStart_cons]
      exact Nat.add_le_add_left (ih k) _

theorem lineStart_mono (ls : List (List Char)) (h : j ≤ k) : lineStart ls j ≤ lineStart ls k := by
  induction h with
  | refl => exact Nat.le_refl _
  | step _ ih => exact Nat.le_trans ih (lineStart_succ_le ls _)

theorem lineStart_modifyHead_le (c : Char) (ls : List (List Char)) (k : Nat) :
    lineStart (ls.modifyHead (c :: ·)) k ≤ lineStart ls k + 1 := by
  cases ls with
  | nil => simp [lineStart]
  | cons l ls =>
    cases k with
    | zero => exact Nat.zero_le _
    | succ k =>
      rw [List.modifyHead_cons, lineStart_cons, lineStart_cons, List.length_cons]
      omega

theorem lineStart_modifyHead_succ (c : Char) {ls : List (List Char)} (h : ls ≠ []) (k : Nat) :
    lineStart (ls.modifyHead (c :: ·)) (k + 1) = lineStart ls (k + 1) + 1 := by
  cases ls with
  | nil => exact absurd rfl h
  | cons l ls =>
    rw [List.modifyHead_cons, lineStart_cons, lineStart_cons, List.length_cons]
    omega

/-- A character stands on the line that starts at it or before, with the next one behind it. A line feed
stands on the line that it ends. -/
def StandsOn (s : List Char) (i k : Nat) : Prop := lineStart (lines s) k ≤ i ∧ i < lineStart (lines s) (k + 1)

theorem StandsOn.unique {i : Nat} (hj : StandsOn s i j) (hk : StandsOn s i k) : j = k := by
  have hle : ∀ {a b}, StandsOn s i a → StandsOn s i b → a ≤ b := fun {a b} ha hb => by
    refine Nat.not_lt.1 fun hlt => ?_
    have hstart : lineStart (lines s) (b + 1) ≤ lineStart (lines s) a := lineStart_mono _ hlt
    exact absurd (Nat.lt_of_lt_of_le hb.2 hstart) (Nat.not_lt.2 ha.1)
  exact Nat.le_antisymm (hle hj hk) (hle hk hj)

/-- A character stands below as many lines as there are line feeds before it. -/
theorem standsOn_newlines (p : List Char) (c : Char) (r : List Char) :
    StandsOn (p ++ c :: r) p.length (newlines p) := by
  induction p with
  | nil =>
    refine ⟨Nat.le_refl _, ?_⟩
    obtain ⟨l, ls, h⟩ := List.exists_cons_of_ne_nil (lines_ne_nil (c :: r))
    have hcount : newlines [] = 0 := rfl
    rw [List.nil_append, h, hcount, lineStart_cons, List.length_nil]
    omega
  | cons d p ih =>
    obtain ⟨hle, hlt⟩ := ih
    rw [List.cons_append]
    by_cases hd : d = '\n'
    · subst hd
      have hcount : newlines ('\n' :: p) = newlines p + 1 := List.count_cons_self
      rw [StandsOn, lines_newline, hcount, lineStart_cons, lineStart_cons, List.length_cons, List.length_nil]
      omega
    · have hcount : newlines (d :: p) = newlines p := List.count_cons_of_ne hd
      rw [StandsOn, lines_cons hd, hcount, lineStart_modifyHead_succ d (lines_ne_nil _)]
      exact ⟨Nat.le_trans (lineStart_modifyHead_le d _ _) (Nat.succ_le_succ hle), Nat.succ_lt_succ hlt⟩

theorem getLast?_isLine {l : List Char} (h : IsLine l) : l.getLast? ≠ some '\n' :=
  fun he => h (List.mem_of_getLast? he)

/-- A text ends in a line feed if its last line is empty and not its only one. -/
theorem ends_in_newline_iff (s : List Char) :
    s.getLast? = some '\n' ↔ (lines s).getLast? = some [] ∧ 1 < (lines s).length := by
  obtain ⟨l, ls, rfl, hl, hls⟩ := exists_lines s
  rw [lines_of_isLine hl hls]
  rcases List.eq_nil_or_concat ls with rfl | ⟨ls, m, rfl⟩
  · simp [getLast?_isLine hl]
  · have hm : IsLine m := hls m (by simp)
    cases m with
    | nil => simp [below, List.getLast?_cons]
    | cons c m =>
      have hlast := getLast?_isLine hm
      simpa [below, List.getLast?_cons] using hlast

/-- The lines of a text, without the empty one behind a line feed at its end. -/
def lineCount (s : List Char) : Nat :=
  if s.getLast? = some '\n' then (lines s).length - 1 else (lines s).length

theorem lineCount_le (s : List Char) : lineCount s ≤ (lines s).length := by
  rw [lineCount]
  split
  · exact Nat.sub_le _ _
  · exact Nat.le_refl _

end FragmentMerge.Text
