import FragmentMerge.Proofs.Schema.Extract
import FragmentMerge.Schema.Column
import Mathlib.Data.List.Basic

/-! The lines of columns. A line and the tokens read off it are related by how the tokens stand in it; the
written form of a column stands for the same tokens as the line that was read, with single blanks between
them. -/

namespace FragmentMerge

def Text.solid (s : List Char) : List Char := s.filter (!isBlank ·)

namespace Text

@[simp] theorem solid_append (s t : List Char) : solid (s ++ t) = solid s ++ solid t :=
  List.filter_append ..

theorem solid_cons_blank {c : Char} (h : isBlank c = true) (s : List Char) : solid (c :: s) = solid s :=
  List.filter_cons_of_neg (by simp [h])

theorem solid_trimLeft (s : List Char) : solid (trimLeft s) = solid s := by
  induction s with
  | nil => rfl
  | cons c s ih =>
    unfold trimLeft
    rw [List.dropWhile_cons]
    split
    · next hc => rw [solid_cons_blank hc]; exact ih
    · rfl

theorem solid_reverse (s : List Char) : solid s.reverse = (solid s).reverse := List.filter_reverse

theorem solid_trim (s : List Char) : solid (trim s) = solid s := by
  have h : solid (trimRight (trimLeft s)) = solid (trimLeft s) := by
    have := solid_trimLeft (trimLeft s).reverse
    rw [solid_reverse] at this
    unfold trimRight
    rw [solid_reverse, ← List.reverse_inj, List.reverse_reverse]
    exact this
  exact h.trans (solid_trimLeft s)

theorem trim_of_ends {s : List Char} (hhead : ∀ c ∈ s.head?, isBlank c = false)
    (hlast : ∀ c ∈ s.getLast?, isBlank c = false) : trim s = s := by
  have hright : trimLeft s.reverse = s.reverse := by
    apply trimLeft_of_head
    intro c hc
    rw [List.head?_reverse] at hc
    exact hlast c hc
  rw [trim, trimLeft_of_head hhead, trimRight]
  exact (congrArg List.reverse hright).trans (List.reverse_reverse s)

theorem ends_of_trim {s : List Char} (h : trim s = s) :
    (∀ c ∈ s.head?, isBlank c = false) ∧ ∀ c ∈ s.getLast?, isBlank c = false := by
  have hright : trimRight s = s := by
    rw [← h]
    exact trimRight_trimRight _
  have hleft : trimLeft s = s := by
    have hle : (trimLeft s).length ≤ s.length := (List.dropWhile_suffix _).length_le
    have hge : s.length ≤ (trimLeft s).length := by
      have := (prefix_trimRight (trimLeft s)).length_le
      rw [show trimRight (trimLeft s) = s from h] at this
      exact this
    exact (List.dropWhile_suffix _).eq_of_length (Nat.le_antisymm hle hge)
  refine ⟨fun c hc => head_trimLeft (hleft.symm ▸ hc), fun c hc => ?_⟩
  rw [← List.head?_reverse] at hc
  have hrev : trimLeft s.reverse = s.reverse := by
    rw [← List.reverse_inj, List.reverse_reverse]
    exact hright
  exact head_trimLeft (hrev.symm ▸ hc)

end Text

namespace Column

open Text

/-- No character separates tokens in a text that is read from here. -/
def Unbroken : Nesting → List Char → Prop
  | _, [] => True
  | n, c :: t => n.separates c = false ∧ Unbroken (n.next c) t

/-- Where a reader is after a text. -/
def ending (n : Nesting) (t : List Char) : Nesting := t.foldl Nesting.next n

section Cuts

variable {n : Nesting} {c : Char} {s t : List Char}

theorem pieces_unbroken (h : Unbroken n t) : pieces n t = [t] := by
  induction t generalizing n with
  | nil => rfl
  | cons c t ih =>
    obtain ⟨hc, ht⟩ := h
    rw [pieces, hc, if_neg (by decide), ih ht]

theorem pieces_cut (h : Unbroken n t) (hc : (ending n t).separates c = true) (s : List Char) :
    pieces n (t ++ c :: s) = t :: pieces (ending n t) s := by
  induction t generalizing n with
  | nil => exact if_pos hc
  | cons d t ih =>
    obtain ⟨hd, ht⟩ := h
    have := ih ht hc
    rw [List.cons_append, pieces, hd, if_neg (by decide), this]
    rfl

theorem exists_cut (n : Nesting) (s : List Char) :
    Unbroken n s ∨ ∃ t c r, s = t ++ c :: r ∧ Unbroken n t ∧ (ending n t).separates c = true := by
  induction s generalizing n with
  | nil => exact .inl trivial
  | cons c s ih =>
    cases hc : n.separates c with
    | true => exact .inr ⟨[], c, s, rfl, trivial, hc⟩
    | false =>
      rcases ih (n.next c) with hs | ⟨t, d, r, rfl, ht, hd⟩
      · exact .inl ⟨hc, hs⟩
      · exact .inr ⟨c :: t, d, r, rfl, ⟨hc, ht⟩, hd⟩

theorem escaped_next (h : n.quoted = false → n.escaped = false) (c : Char) :
    (n.next c).quoted = false → (n.next c).escaped = false := by
  unfold Nesting.next
  grind

theorem escaped_ending (h : n.quoted = false → n.escaped = false) (t : List Char) :
    (ending n t).quoted = false → (ending n t).escaped = false := by
  induction t generalizing n with
  | nil => exact h
  | cons c t ih => exact ih (escaped_next h c)

theorem separates_iff : n.separates c = true ↔ (n.quoted = false ∧ n.depth = 0) ∧ isBlank c = true := by
  simp [Nesting.separates]

/-- Where a separator is met, the reader is outside of all brackets and quotes, as at the start. -/
theorem ending_of_separates (h : (ending .initial t).separates c = true) :
    ending .initial t = .initial ∧ isBlank c = true := by
  obtain ⟨⟨hq, hd⟩, hc⟩ := separates_iff.1 h
  have he : (ending .initial t).escaped = false := escaped_ending (fun _ => rfl) t hq
  refine ⟨?_, hc⟩
  cases hn : ending .initial t with
  | mk depth quoted escaped =>
    rw [hn] at hq hd he
    subst hq hd he
    rfl

theorem separates_blank (h : isBlank c = true) : Nesting.initial.separates c = true :=
  separates_iff.2 ⟨⟨rfl, rfl⟩, h⟩

end Cuts

/-- A line in which these tokens stand. All but the last one leave no bracket and no quote open. -/
inductive Spells : List Char → List (List Char) → Prop
  | nil : Spells [] []
  | blank {c : Char} {s : List Char} {ts : List (List Char)} :
      isBlank c = true → Spells s ts → Spells (c :: s) ts
  | last {t : List Char} : t ≠ [] → Unbroken .initial t → Spells t [t]
  | token {t s : List Char} {c : Char} {ts : List (List Char)} : t ≠ [] → Unbroken .initial t →
      ending .initial t = .initial → isBlank c = true → Spells s ts → Spells (t ++ c :: s) (t :: ts)

section Tokens

variable {c : Char} {s t : List Char} {ts : List (List Char)}

theorem tokens_of_ne_nil (hne : t ≠ []) (h : Unbroken .initial t) : tokens t = [t] := by
  rw [tokens, pieces_unbroken h]
  exact List.filter_cons_of_pos (by simpa using hne)

theorem Spells.tokens_eq (h : Spells s ts) : tokens s = ts := by
  induction h with
  | nil => rfl
  | @blank c s ts hc _ ih =>
    rw [← ih, tokens, pieces, if_pos (separates_blank hc)]
    rfl
  | last hne ht => exact tokens_of_ne_nil hne ht
  | @token t s c ts hne ht hend hc _ ih =>
    have hsep : (ending .initial t).separates c = true := by
      rw [hend]
      exact separates_blank hc
    rw [← ih, tokens, pieces_cut ht hsep, hend]
    exact List.filter_cons_of_pos (by simpa using hne)

theorem exists_spells (s : List Char) : ∃ ts, Spells s ts := by
  rcases exists_cut .initial s with hs | ⟨t, c, r, hcut, ht, hc⟩
  · by_cases hne : s = []
    · exact ⟨[], hne ▸ .nil⟩
    · exact ⟨[s], .last hne hs⟩
  · obtain ⟨hend, hc⟩ := ending_of_separates hc
    obtain ⟨ts, h⟩ := exists_spells r
    subst hcut
    by_cases hne : t = []
    · subst hne
      exact ⟨ts, .blank hc h⟩
    · exact ⟨t :: ts, .token hne ht hend hc h⟩
termination_by s.length
decreasing_by
  rw [hcut, List.length_append, List.length_cons]
  omega

theorem spells_tokens (s : List Char) : Spells s (tokens s) := by
  obtain ⟨ts, h⟩ := exists_spells s
  rw [h.tokens_eq]
  exact h

def spaced (ts : List (List Char)) : List Char := [' '].intercalate ts

@[simp] theorem spaced_nil : spaced [] = [] := rfl

@[simp] theorem spaced_singleton (t : List Char) : spaced [t] = t := by simp [spaced]

theorem spaced_cons (t : List Char) (h : ts ≠ []) : spaced (t :: ts) = t ++ ' ' :: spaced ts := by
  rw [spaced, List.intercalate_cons_of_ne_nil h]
  simp [spaced]

theorem Spells.spaced (h : Spells s ts) : Spells (spaced ts) ts := by
  induction h with
  | nil => exact .nil
  | blank _ _ ih => exact ih
  | @last t hne ht =>
    rw [spaced_singleton]
    exact .last hne ht
  | @token t s c ts hne ht hend _ _ ih =>
    by_cases hts : ts = []
    · subst hts
      rw [spaced_singleton]
      exact .last hne ht
    · rw [spaced_cons t hts]
      exact .token hne ht hend (by decide) ih

theorem Spells.solid_eq (h : Spells s ts) : solid s = ts.flatMap solid := by
  induction h with
  | nil => rfl
  | blank hc _ ih => rw [solid_cons_blank hc, ih]
  | last => simp
  | token _ _ _ hc _ ih => rw [solid_append, solid_cons_blank hc, ih, List.flatMap_cons]

theorem Spells.mem_ne_nil (h : Spells s ts) : ∀ t ∈ ts, t ≠ [] := by
  induction h with
  | nil => simp
  | blank _ _ ih => exact ih
  | last hne _ => simpa using hne
  | token hne _ _ _ _ ih => simpa using ⟨hne, ih⟩

theorem Spells.spaced_ne_nil (h : Spells s ts) (hts : ts ≠ []) : Column.spaced ts ≠ [] := by
  intro he
  have hnil : tokens (Column.spaced ts) = [] := by rw [he]; rfl
  exact hts (h.spaced.tokens_eq.symm.trans hnil)

theorem Spells.getLast? (h : Spells s ts) (hlast : ∀ c ∈ s.getLast?, isBlank c = false) :
    (Column.spaced ts).getLast? = s.getLast? := by
  induction h with
  | nil => rfl
  | @blank c s ts hc _ ih =>
    cases s with
    | nil => exact absurd (hlast c rfl) (by simp [hc])
    | cons d s => exact ih hlast
  | last => rw [spaced_singleton]
  | @token t s c ts _ _ _ hc hs ih =>
    cases s with
    | nil => exact absurd (hlast c (by simp)) (by simp [hc])
    | cons d s =>
      rw [List.getLast?_append_cons, List.getLast?_cons_cons] at hlast ⊢
      have ih := ih hlast
      have hts : ts ≠ [] := by
        rintro rfl
        exact absurd (List.getLast?_eq_none_iff.1 ih.symm) (by simp)
      obtain ⟨e, es, hes⟩ := List.exists_cons_of_ne_nil (hs.spaced_ne_nil hts)
      rw [spaced_cons t hts, List.getLast?_append_cons, hes, List.getLast?_cons_cons, ← hes]
      exact ih

theorem Spells.head? (h : Spells s ts) (hhead : ∀ c ∈ s.head?, isBlank c = false) :
    (Column.spaced ts).head? = s.head? := by
  cases h with
  | nil => rfl
  | @blank c s ts hc _ => exact absurd (hhead c rfl) (by simp [hc])
  | last => rw [spaced_singleton]
  | @token t s c ts hne _ _ _ _ =>
    obtain ⟨d, t, rfl⟩ := List.exists_cons_of_ne_nil hne
    by_cases hts : ts = []
    · rw [hts, spaced_singleton]
      rfl
    · rw [spaced_cons _ hts]
      rfl

/-- What a text starts with, if it has no blanks, stands before the first blank. -/
theorem prefix_cut_iff {p : List Char} (hp : ∀ c ∈ p, isBlank c = false) (hc : isBlank c = true)
    (r : List Char) : p <+: t ++ c :: r ↔ p <+: t := by
  refine ⟨fun ⟨u, h⟩ => ?_, fun h => h.trans (List.prefix_append _ _)⟩
  rcases List.append_eq_append_iff.1 h with ⟨a, rfl, -⟩ | ⟨a, rfl, hrest⟩
  · exact List.prefix_append _ _
  · cases a with
    | nil => simp
    | cons d a =>
      obtain rfl := (List.cons.inj hrest).1
      exact absurd (hp c (by simp)) (by simp [hc])

theorem Spells.prefix_iff (h : Spells s ts) (hhead : ∀ c ∈ s.head?, isBlank c = false) {p : List Char}
    (hp : ∀ c ∈ p, isBlank c = false) : p <+: Column.spaced ts ↔ p <+: s := by
  cases h with
  | nil => rfl
  | @blank c s ts hc _ => exact absurd (hhead c rfl) (by simp [hc])
  | last => rw [spaced_singleton]
  | @token t s c ts _ _ _ hc _ =>
    rw [prefix_cut_iff hp hc]
    by_cases hts : ts = []
    · rw [hts, spaced_singleton]
    · rw [spaced_cons t hts, prefix_cut_iff hp (by decide)]

/-- A trimmed line and its tokens with single blanks between them are trimmed both. -/
theorem Spells.trim_spaced (h : Spells s ts) (hs : trim s = s) : trim (Column.spaced ts) = Column.spaced ts := by
  obtain ⟨hhead, hlast⟩ := ends_of_trim hs
  apply trim_of_ends
  · rw [h.head? hhead]
    exact hhead
  · rw [h.getLast? hlast]
    exact hlast

end Tokens

/-- The column with these tokens: its name, its type and its attributes. -/
def ofTokens (ts : List (List Char)) : Column :=
  match ts.map String.ofList with
  | [] => raw ""
  | [name] => raw name
  | name :: type :: constraints => ⟨name, type, constraints⟩

theorem parse_eq (line : String) : parse line =
    if isRawLine (trim line.toList) then raw (String.ofList (trim line.toList))
    else ofTokens (tokens (trim line.toList)) := rfl

theorem format_raw (line : String) : (raw line).format = line := rfl

theorem format_ofTokens {ts : List (List Char)} (h : ∀ t ∈ ts, t ≠ []) :
    (ofTokens ts).format = String.ofList (spaced ts) := by
  match ts with
  | [] => rfl
  | [name] => rw [spaced_singleton]; rfl
  | name :: type :: constraints =>
    have htype : (String.ofList type).isEmpty = false := by
      simpa using h type (by simp)
    have hmap : (name :: type :: constraints).map (String.toList ∘ String.ofList) =
        name :: type :: constraints := by simp [Function.comp_def]
    rw [ofTokens, format, isRaw, ← String.toList_inj]
    simp only [List.map_cons, htype, Bool.false_eq_true, if_false, String.toList_intercalate,
      List.map_map, String.toList_ofList]
    simp only [List.map_cons, Function.comp_apply, String.toList_ofList] at hmap
    rw [hmap]
    rfl

theorem isRawLine_iff {s : List Char} : isRawLine s = true ↔ ['@', '@'] <+: s ∨ ['/', '/'] <+: s := by
  have hstart : ∀ p : List Char, startsWith s p = true ↔ p <+: s := by
    intro p
    unfold startsWith
    rw [Option.isSome_iff_exists]
    exact exists_congr fun r => after?_eq_some_iff.trans eq_comm
  rw [isRawLine, Bool.or_eq_true, hstart, hstart]

/-- A column that is written out is read again as it was. -/
theorem parse_format (line : String) : parse (parse line).format = parse line := by
  have htrim := trim_trim line.toList
  cases hraw : isRawLine (trim line.toList) with
  | true =>
    have h : parse line = raw (String.ofList (trim line.toList)) := by rw [parse_eq, hraw, if_pos rfl]
    rw [h, format_raw, parse_eq, String.toList_ofList, htrim, hraw, if_pos rfl]
  | false =>
    have hs := spells_tokens (trim line.toList)
    have h : parse line = ofTokens (tokens (trim line.toList)) := by
      rw [parse_eq, hraw, if_neg (by decide)]
    have hraw' : isRawLine (spaced (tokens (trim line.toList))) = false := by
      have hhead := (ends_of_trim htrim).1
      have hmarks : isBlank '@' = false ∧ isBlank '/' = false := by decide
      rw [← hraw, Bool.eq_iff_iff, isRawLine_iff, isRawLine_iff, hs.prefix_iff hhead (by simp [hmarks.1]),
        hs.prefix_iff hhead (by simp [hmarks.2])]
    rw [h, format_ofTokens hs.mem_ne_nil, parse_eq, String.toList_ofList, hs.trim_spaced htrim, hraw',
      if_neg (by decide), hs.spaced.tokens_eq]

theorem solid_format (line : String) : solid (parse line).format.toList = solid line.toList := by
  rw [← solid_trim line.toList, parse_eq]
  split
  · rw [format_raw, String.toList_ofList]
  · have hs := spells_tokens (trim line.toList)
    rw [format_ofTokens hs.mem_ne_nil, String.toList_ofList, hs.spaced.solid_eq, hs.solid_eq]

/-- A column that is written out is read again as it was. The written form has all characters of the line
in their order but for the blanks, and writing out what is read from it gives it again. -/
theorem written_again (line : String) : parse (parse line).format = parse line ∧
    (parse (parse line).format).format = (parse line).format ∧
    solid (parse line).format.toList = solid line.toList :=
  ⟨parse_format line, congrArg format (parse_format line), solid_format line⟩

end Column

end FragmentMerge
