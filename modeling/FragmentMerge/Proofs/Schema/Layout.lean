import FragmentMerge.Proofs.Schema.Extract

/-! Where the blocks of a text stand. They lie one behind the other, each from its keyword to the brace that
closes it, and between them no line starts with a header. A line feed ends every header, so what follows
one gives the same blocks as it would on its own, only on later lines. -/

namespace FragmentMerge

def BlockError.shifted (lines : Nat) (e : BlockError) : BlockError := { e with line := e.line + lines }

namespace Block

def shifted (lines : Nat) (b : Block) : Block := { b with line := b.line + lines }

def shiftedBy (lines : Nat) (r : Except BlockError (List Block)) : Except BlockError (List Block) :=
  (r.map (List.map (shifted lines))).mapError (BlockError.shifted lines)

/-- A line starts behind a part of a text. -/
def AtLine (before : List Char) : Prop := ∀ c ∈ before.getLast?, c = '\n'

/-- No line that starts in a part of a text starts with a header. -/
def Headless (before part after : List Char) : Prop :=
  ∀ u v, part = u ++ v → v ≠ [] → AtLine (before ++ u) → header? (v ++ after) = none

/-- The text of a block: its header, its body, and the brace that closes it. -/
structure Written (b : Block) (header body : List Char) : Prop where
  pieces : ∃ keyword gap name space, Pieces keyword gap name space ∧
    header = keyword ++ gap ++ name ++ space ++ ['\x7b'] ∧
    b.keyword.toList = keyword.map Char.toLower ∧ b.name.toList = name
  closed : scanBody .code 1 (body ++ ['\x7d']) = some (body, [])
  inner : b.body.toList = body
  whole : b.text.toList = header ++ body ++ ['\x7d']

/-- The blocks that stand in a text, behind the part of it that comes before. -/
inductive Laid : List Char → List Char → List Block → Prop
  | done {before rest : List Char} : Headless before rest [] → Laid before rest []
  | block {before gap indent header body rest : List Char} {b : Block} {bs : List Block} :
      Headless before gap (indent ++ b.text.toList ++ rest) → AtLine (before ++ gap) →
      (∀ c ∈ indent, isSpace c = true) → Written b header body →
      b.line = Text.newlines (before ++ gap ++ indent) + 1 →
      Laid (before ++ gap ++ indent ++ b.text.toList) rest bs →
      Laid before (gap ++ indent ++ b.text.toList ++ rest) (b :: bs)

theorem nextLine_eq_none {s : List Char} : nextLine s = none ↔ '\n' ∉ s := by
  induction s with
  | nil => simp [nextLine]
  | cons c s ih =>
    rw [nextLine]
    split
    · next h => simp [h]
    · next h => simp [ih, Ne.symm h]

theorem nextLine_eq_some {s r : List Char} (h : nextLine s = some r) :
    ∃ l, '\n' ∉ l ∧ s = l ++ '\n' :: r := by
  induction s with
  | nil => cases h
  | cons c s ih =>
    rw [nextLine] at h
    split at h
    · next hc =>
      obtain rfl := Option.some.inj h
      exact ⟨[], List.not_mem_nil, by rw [hc]; rfl⟩
    · next hc =>
      obtain ⟨l, hl, rfl⟩ := ih h
      exact ⟨c :: l, by simp [hl, Ne.symm hc], rfl⟩

theorem atLine_nil : AtLine [] := fun _ h => nomatch h

theorem atLine_line (before l : List Char) : AtLine (before ++ (l ++ ['\n'])) := by
  intro c hc
  rw [← List.append_assoc, List.getLast?_concat] at hc
  exact (Option.some.inj hc).symm

theorem mem_of_atLine {before l : List Char} (hl : l ≠ []) (h : AtLine (before ++ l)) : '\n' ∈ l := by
  have hlast : l.getLast hl = '\n' := h _ (by simp [List.getLast?_append, List.getLast?_eq_some_getLast hl])
  rw [← hlast]
  exact List.getLast_mem hl

theorem headless_of_not_mem {before part after : List Char} (h : '\n' ∉ part)
    (hnone : AtLine before → header? (part ++ after) = none) : Headless before part after := by
  rintro u v rfl - hat
  cases u with
  | nil => exact hnone (by simpa using hat)
  | cons c u =>
    exact absurd (List.mem_append_left v (mem_of_atLine (List.cons_ne_nil c u) hat)) h

theorem Headless.line {before l part after : List Char} (h : Headless (before ++ (l ++ ['\n'])) part after)
    (hl : '\n' ∉ l) (hnone : AtLine before → header? (l ++ '\n' :: (part ++ after)) = none) :
    Headless before (l ++ '\n' :: part) after := by
  intro u v huv hv hat
  cases u with
  | nil =>
    obtain rfl : l ++ '\n' :: part = v := huv
    rw [List.append_assoc]
    exact hnone (by simpa using hat)
  | cons c u =>
    have hmem := mem_of_atLine (List.cons_ne_nil c u) hat
    rcases List.append_eq_append_iff.1 huv with ⟨w, hu, hw⟩ | ⟨w, rfl, -⟩
    · cases w with
      | nil => exact absurd (by simpa [hu] using hmem) hl
      | cons d w =>
        obtain ⟨rfl, rfl⟩ := List.cons.inj hw
        refine h w v rfl hv ?_
        rw [hu] at hat
        simpa using hat
    · exact absurd (List.mem_append_left w hmem) hl

theorem Laid.line {before l r : List Char} {bs : List Block} (h : Laid (before ++ (l ++ ['\n'])) r bs)
    (hl : '\n' ∉ l) (hnone : AtLine before → header? (l ++ '\n' :: r) = none) :
    Laid before (l ++ '\n' :: r) bs := by
  cases h with
  | done hfree => exact .done (hfree.line hl (by simpa using hnone))
  | @block _ gap indent header body rest b bs hgap hat hindent hw hline hrest =>
    have hassoc : before ++ (l ++ ['\n']) ++ gap = before ++ (l ++ '\n' :: gap) := by simp
    rw [hassoc] at hat hline hrest
    have hlaid := Laid.block (hgap.line hl (by simpa using hnone)) hat hindent hw hline hrest
    simpa using hlaid

theorem header?_indent {indent : List Char} (h : ∀ c ∈ indent, isSpace c = true) (s : List Char) :
    header? (indent ++ s) = header? s := by
  unfold header?
  rw [List.dropWhile_append_of_pos h]

theorem header?_split {s : List Char} {h : Header} (hs : header? s = some h) :
    ∃ indent, (∀ c ∈ indent, isSpace c = true) ∧ '\n' ∉ indent ++ h.text ∧
      s = indent ++ h.text ++ h.rest := by
  obtain ⟨indent, gap, space, hp, hindent, ht, rfl⟩ := header?_eq_some hs
  refine ⟨indent, hindent, ?_, by simp [ht]⟩
  have hspace : ∀ l : List Char, (∀ c ∈ l, isSpace c = true) → '\n' ∉ l := fun l hl hmem => by
    simpa [isSpace] using hl _ hmem
  have hkeyword : '\n' ∉ h.keyword := fun hmem => absurd (hp.keyword.2 _ hmem) (by decide)
  have hname : '\n' ∉ h.name := fun hmem => absurd (hp.name.2 _ hmem) (by decide)
  simp [ht, hspace indent hindent, hkeyword, hspace gap hp.gap.2, hname, hspace space hp.space]

/-- Whether a line starts with a header does not depend on the lines after it. -/
theorem header?_line (s tail : List Char) :
    header? (s ++ '\n' :: tail) = (header? s).map fun h => { h with rest := h.rest ++ '\n' :: tail } := by
  cases hs : header? s with
  | some h =>
    obtain ⟨indent, hindent, -, rfl⟩ := header?_split hs
    rw [List.append_assoc, header?_indent hindent] at hs
    rw [List.append_assoc, List.append_assoc, header?_indent hindent, header?_text hs]
    rfl
  | none =>
    refine Option.eq_none_iff_forall_not_mem.2 fun h hh => ?_
    obtain ⟨indent, hindent, hline, hsplit⟩ := header?_split hh
    have hbehind : ∃ w, s = indent ++ h.text ++ w := by
      rcases List.append_eq_append_iff.1 hsplit with ⟨w, hw, htail⟩ | ⟨w, hw, -⟩
      · cases w with
        | nil => exact ⟨[], by simpa using hw.symm⟩
        | cons c w =>
          obtain ⟨rfl, -⟩ := List.cons.inj htail
          exact absurd (by simp [hw]) hline
      · exact ⟨w, hw⟩
    obtain ⟨w, rfl⟩ := hbehind
    rw [hsplit, List.append_assoc, header?_indent hindent] at hh
    rw [List.append_assoc, header?_indent hindent, header?_text hh] at hs
    cases hs

theorem block?_line {line : Nat} {s rest : List Char} {b : Block} (h : block? line s = some (b, rest))
    (tail : List Char) : block? line (s ++ '\n' :: tail) = some (b, rest ++ '\n' :: tail) := by
  obtain ⟨hd, body, hhd, hb, rfl⟩ := block?_eq_some h
  obtain ⟨hrest, hagain⟩ := scanBody_again Nat.one_pos hb
  have hscan : scanBody .code 1 (hd.rest ++ '\n' :: tail) = some (body, rest ++ '\n' :: tail) := by
    rw [hrest, List.append_assoc, List.cons_append]
    exact hagain _
  simp only [block?, header?_line, hhd, Option.map_some, Option.bind_some, hscan]

theorem written_of_block? {line : Nat} {s rest : List Char} {b : Block}
    (h : block? line s = some (b, rest)) :
    ∃ indent header body, (∀ c ∈ indent, isSpace c = true) ∧ '\n' ∉ indent ++ header ∧
      s = indent ++ b.text.toList ++ rest ∧ b.line = line ∧ Written b header body := by
  obtain ⟨hd, body, hhd, hb, rfl⟩ := block?_eq_some h
  obtain ⟨indent, hindent, hline, hs⟩ := header?_split hhd
  obtain ⟨_, gap, space, hp, -, ht, -⟩ := header?_eq_some hhd
  obtain ⟨hrest, hagain⟩ := scanBody_again Nat.one_pos hb
  refine ⟨indent, hd.text, body, hindent, hline, ?_, rfl, ⟨_, _, _, _, hp, ht, ?_, ?_⟩, hagain [], ?_, ?_⟩
  · rw [String.toList_ofList, hs, hrest]
    simp
  · exact String.toList_ofList
  · exact String.toList_ofList
  · exact String.toList_ofList
  · exact String.toList_ofList

theorem newlines_nil : Text.newlines [] = 0 := rfl

theorem newlines_append (s t : List Char) : Text.newlines (s ++ t) = Text.newlines s + Text.newlines t :=
  List.count_append

theorem newlines_of_not_mem {s : List Char} (h : '\n' ∉ s) : Text.newlines s = 0 :=
  List.count_eq_zero.2 h

theorem newlines_through (s l r : List Char) (hl : '\n' ∉ l) :
    Text.newlines (s ++ (l ++ '\n' :: r)) = Text.newlines s + 1 + Text.newlines r := by
  rw [newlines_append, newlines_append, newlines_of_not_mem hl]
  simp only [Text.newlines, List.count_cons_self]
  omega

/-- The line feeds in the text of a block are those of its body. -/
theorem Written.newlines {b : Block} {indent header body : List Char} (h : Written b header body)
    (hline : '\n' ∉ indent ++ header) :
    Text.newlines (indent ++ b.text.toList) = Text.newlines b.body.toList := by
  rw [h.whole, h.inner, ← List.append_assoc, ← List.append_assoc, newlines_append, newlines_append,
    newlines_of_not_mem hline, newlines_of_not_mem (s := ['\x7d']) (by decide)]
  omega

theorem Written.not_atLine {b : Block} {header body : List Char} (h : Written b header body)
    (before : List Char) : ¬ AtLine (before ++ b.text.toList) := by
  intro hat
  have hlast := hat '\x7d' (by simp [h.whole, ← List.append_assoc])
  exact absurd hlast (by decide)

theorem Laid.front {before s rest : List Char} {b : Block} (hat : AtLine before)
    (h : block? (Text.newlines before + 1) s = some (b, rest)) :
    ∃ start, s = start ++ rest ∧ Text.newlines start = Text.newlines b.body.toList ∧
      (∀ u, ¬ AtLine (u ++ start)) ∧ ∀ bs, Laid (before ++ start) rest bs → Laid before s (b :: bs) := by
  obtain ⟨indent, header, body, hindent, hline, rfl, hb, hw⟩ := written_of_block? h
  refine ⟨indent ++ b.text.toList, rfl, hw.newlines hline, fun u hend => ?_, fun bs hbs => ?_⟩
  · rw [← List.append_assoc] at hend
    exact hw.not_atLine _ hend
  · have hplace : b.line = Text.newlines (before ++ [] ++ indent) + 1 := by
      have hindent : '\n' ∉ indent := fun hm => hline (List.mem_append_left _ hm)
      rw [hb, List.append_nil, newlines_append, newlines_of_not_mem hindent]
    have hfree : Headless before [] (indent ++ b.text.toList ++ rest) :=
      fun u v huv hv => absurd (List.append_eq_nil_iff.1 huv.symm).2 hv
    refine .block hfree (by simpa using hat) hindent hw hplace ?_
    rw [List.append_nil, List.append_assoc]
    exact hbs

theorem newlines_of_block? {line : Nat} {s rest : List Char} {b : Block}
    (h : block? line s = some (b, rest)) :
    Text.newlines s = Text.newlines b.body.toList + Text.newlines rest := by
  obtain ⟨indent, header, body, -, hline, rfl, -, hw⟩ := written_of_block? h
  rw [newlines_append, hw.newlines hline]

theorem eq_ok_of_map {ε α β : Type} {f : α → β} {r : Except ε α} {b : β} (h : r.map f = .ok b) :
    ∃ a, r = .ok a ∧ f a = b := by
  cases r with
  | error e => cases h
  | ok a => exact ⟨a, rfl, Except.ok.inj h⟩

theorem laid_of_extractWithin {n line : Nat} {before s : List Char} {bs : List Block}
    (hn : s.length < n) (hat : AtLine before) (hline : line = Text.newlines before + 1)
    (h : extractWithin n line s = .ok bs) : Laid before s bs := by
  induction n generalizing line before s bs with
  | zero => omega
  | succ n ih =>
    subst hline
    rw [extractWithin_succ] at h
    split at h
    · next hnone =>
      split at h
      · next hl =>
        obtain rfl := Except.ok.inj h
        refine .done (headless_of_not_mem (nextLine_eq_none.1 hl) fun _ => ?_)
        rw [List.append_nil, hnone]
      · next r hr =>
        have hlength := length_nextLine hr
        obtain ⟨l, hl, rfl⟩ := nextLine_eq_some hr
        refine Laid.line (ih (by omega) (atLine_line before l) ?_ h) hl fun _ => hnone
        rw [newlines_through before l [] hl, newlines_nil]
    · split at h
      · cases h
      · next b rest hb =>
        have hlength := length_block? hb
        obtain ⟨start, rfl, hstart, hend, hfront⟩ := Laid.front hat hb
        split at h
        · next hl =>
          obtain rfl := Except.ok.inj h
          refine hfront [] (.done (headless_of_not_mem (nextLine_eq_none.1 hl) fun hat' => ?_))
          exact absurd hat' (hend before)
        · next r hr =>
          have hrest := length_nextLine hr
          obtain ⟨l, hl, rfl⟩ := nextLine_eq_some hr
          obtain ⟨cs, hcs, rfl⟩ := eq_ok_of_map h
          refine hfront cs (Laid.line (ih (by omega) (atLine_line _ l) ?_ hcs) hl fun hat' => ?_)
          · rw [newlines_through _ l [] hl, newlines_append, hstart, newlines_nil]
            omega
          · exact absurd hat' (hend before)

theorem nextLine_append {s r : List Char} (h : nextLine s = some r) (tail : List Char) :
    nextLine (s ++ '\n' :: tail) = some (r ++ '\n' :: tail) := by
  obtain ⟨l, hl, rfl⟩ := nextLine_eq_some h
  rw [List.append_assoc]
  exact nextLine_of_line hl _

theorem newlines_of_nextLine {s r : List Char} (h : nextLine s = some r) :
    Text.newlines s = Text.newlines r + 1 := by
  obtain ⟨l, hl, rfl⟩ := nextLine_eq_some h
  have hcount := newlines_through [] l r hl
  rw [List.nil_append, newlines_nil] at hcount
  omega

/-- What follows a line feed does not change the blocks before it, nor they the blocks after it. -/
theorem extractFrom_append {n line : Nat} {s : List Char} {bs : List Block} (hn : s.length < n)
    (h : extractWithin n line s = .ok bs) (tail : List Char) :
    extractFrom line (s ++ '\n' :: tail) =
      (extractFrom (line + Text.newlines s + 1) tail).map (bs ++ ·) := by
  induction n generalizing line s bs with
  | zero => omega
  | succ n ih =>
    rw [extractWithin_succ] at h
    split at h
    · next hnone =>
      have hnone' : header? (s ++ '\n' :: tail) = none := by rw [header?_line, hnone]; rfl
      split at h
      · next hl =>
        obtain rfl := Except.ok.inj h
        have hs := nextLine_eq_none.1 hl
        rw [extractFrom_line hnone' (nextLine_of_line hs tail), newlines_of_not_mem hs]
        cases extractFrom (line + 0 + 1) tail <;> rfl
      · next r hr =>
        have hlength := length_nextLine hr
        have hplace : line + Text.newlines s + 1 = line + 1 + Text.newlines r + 1 := by
          rw [newlines_of_nextLine hr]
          omega
        rw [extractFrom_line hnone' (nextLine_append hr tail), ih (by omega) h, hplace]
    · split at h
      · cases h
      · next b rest hb =>
        have hlength := length_block? hb
        have hb' := block?_line hb tail
        split at h
        · next hl =>
          obtain rfl := Except.ok.inj h
          have hrest := nextLine_eq_none.1 hl
          rw [extractFrom_block hb' (nextLine_of_line hrest tail), newlines_of_block? hb,
            newlines_of_not_mem hrest]
          rfl
        · next r hr =>
          have hrest := length_nextLine hr
          obtain ⟨cs, hcs, rfl⟩ := eq_ok_of_map h
          have hplace : line + Text.newlines s + 1 =
              line + Text.newlines b.body.toList + 1 + Text.newlines r + 1 := by
            rw [newlines_of_block? hb, newlines_of_nextLine hr]
            omega
          rw [extractFrom_block hb' (nextLine_append hr tail), ih (by omega) hcs, hplace]
          cases extractFrom _ tail <;> rfl

/-- A text further down has the same blocks, or the same fault, so many lines later. -/
theorem extractWithin_shifted (n lines line : Nat) (s : List Char) :
    extractWithin n (line + lines) s = shiftedBy lines (extractWithin n line s) := by
  induction n generalizing line s with
  | zero => rfl
  | succ n ih =>
    have hblock : block? (line + lines) s = (block? line s).map fun (b, rest) => (b.shifted lines, rest) := by
      unfold block?
      cases header? s with
      | none => rfl
      | some h => cases hb : scanBody .code 1 h.rest <;> simp [hb, shifted]
    rw [extractWithin_succ, extractWithin_succ, hblock]
    cases header? s with
    | none =>
      cases hl : nextLine s with
      | none => rfl
      | some r =>
        have hnext : line + lines + 1 = line + 1 + lines := by omega
        simp only [hnext, ih]
    | some h =>
      cases block? line s with
      | none => rfl
      | some p =>
        obtain ⟨b, rest⟩ := p
        cases hl : nextLine rest with
        | none => simp only [Option.map_some, hl]; rfl
        | some r =>
          have hnext : line + lines + Text.newlines b.body.toList + 1 =
              line + Text.newlines b.body.toList + 1 + lines := by omega
          simp only [Option.map_some, hl, shifted, hnext, ih]
          cases extractWithin n (line + Text.newlines b.body.toList + 1) r <;> rfl

/-- Extraction lays the blocks out in the text, and another text behind a line feed adds its own blocks,
or its own fault, with their lines counted on. -/
theorem extract_laid {t₁ : String} {bs : List Block} (h : extract t₁ = .ok bs) :
    Laid [] t₁.toList bs ∧ ∀ t₂, extract (t₁ ++ "\n" ++ t₂) =
      (shiftedBy (Text.newlines t₁.toList + 1) (extract t₂)).map (bs ++ ·) := by
  refine ⟨laid_of_extractWithin (Nat.lt_succ_self _) atLine_nil rfl h, fun t₂ => ?_⟩
  have htext : (t₁ ++ "\n" ++ t₂).toList = t₁.toList ++ '\n' :: t₂.toList := by simp
  have hline : 1 + Text.newlines t₁.toList + 1 = 1 + (Text.newlines t₁.toList + 1) := by omega
  rw [extract_eq, htext, extractFrom_append (Nat.lt_succ_self _) h, hline, extractFrom,
    extractWithin_shifted]
  rfl

/-- Braces in quotes and comments do not close a body, and a header behind a block on its line is none. The
text is followed by one that is never closed. -/
def quoted : String := "note\n  Model A \x7b\n  s \"\x7d\" // \x7d\n\x7d enum C \x7b"

def quotedBlock : Block :=
  ⟨"model", "A", "\n  s \"\x7d\" // \x7d\n", "Model A \x7b\n  s \"\x7d\" // \x7d\n\x7d", 2⟩

theorem extract_laid_quoted :
    extract quoted = .ok [quotedBlock] ∧ Laid [] quoted.toList [quotedBlock] ∧
      extract (quoted ++ "\n" ++ "\nenum B \x7b") = .error ⟨"enum", "B", 6⟩ := by
  have h : extract quoted = .ok [quotedBlock] := rfl
  have hopen : extract "\nenum B \x7b" = .error ⟨"enum", "B", 2⟩ := rfl
  have hjoined := (extract_laid h).2 "\nenum B \x7b"
  rw [hopen] at hjoined
  exact ⟨h, (extract_laid h).1, hjoined⟩

end Block

end FragmentMerge
