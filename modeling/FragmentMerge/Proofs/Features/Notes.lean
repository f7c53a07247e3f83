import FragmentMerge.Proofs.Features.Settled

/-! Notes on a text, and the edits of a client's types all together: after one round of them, none has
anything to change. A note is a line without an opening, so it moves lines and does nothing else. -/

namespace FragmentMerge.Field

open Text

namespace Setting

def typing (e : Setting) : Edit := typeEdit e.model e.field e.value

def noting (e : Setting) : Edit := deprecationEdit e.model e.field e.value

structure IsNote (e : Setting) : Prop extends e.IsNamed where
  plain : IsPlain e.note

instance (e : Setting) : Decidable e.IsNote :=
  decidable_of_iff (e.IsNamed ∧ IsPlain e.note) ⟨fun ⟨h, hp⟩ => ⟨h, hp⟩, fun h => ⟨h.toIsNamed, h.plain⟩⟩

variable {e e' : Setting} {content : String} {l n : List Char} {ls above below : List (List Char)}
  {o o₂ : Bool}

theorem isLine_retypeLines {head field type : List Char} {o : Bool} {ls : List (List Char)}
    (ht : IsLine type) (h : ∀ l ∈ ls, IsLine l) : ∀ l ∈ retypeLines head field type o ls, IsLine l := by
  induction ls generalizing o with
  | nil => exact h
  | cons d ls ih =>
    have ih := fun o => ih (o := o) fun l hl => h l (List.mem_cons_of_mem _ hl)
    have hd := h d List.mem_cons_self
    rw [retypeLines]
    intro l hl
    split at hl
    · rcases List.mem_cons.1 hl with rfl | hl
      · exact fun hm => (List.mem_append.1 hm).elim (fun hm => hd (List.mem_of_mem_take hm)) ht
      · exact ih _ l hl
    · rcases List.mem_cons.1 hl with rfl | hl
      · exact hd
      · exact ih _ l hl

/-- The search in a whole text goes past the first line, which no line feed precedes. -/
theorem retyped_false (e : Setting) (v : List Char) (ls : List (List Char)) :
    e.retyped false (v :: ls) = v :: e.retyped (opens e.head v) ls := retyped_past (by simp) ls

theorem lines_typing (he : e.IsType) (content : String) :
    lines (e.typing.result content).toList = e.retyped false (lines content.toList) := by
  obtain ⟨v, ls, hc, hv, hls⟩ := exists_lines content.toList
  rw [typing, toList_result_typeEdit he.model.isLine he.field.isLine _ hc hv hls, hc,
    lines_of_isLine hv hls, lines_of_isLine hv (isLine_retypeLines he.plain.line hls), retyped_false]
  rfl

theorem result_typing_eq (he : e.IsType) (h : e.Settled false (lines content.toList)) :
    e.typing.result content = content := by
  refine String.ext (lines_injective ?_)
  rw [lines_typing he, h]

/-- The lines with the note, if the search finds the field. -/
def noted (e : Setting) (o : Bool) (ls : List (List Char)) : Option (List (List Char)) :=
  noteLines e.head e.word e.note o ls

theorem noted_past (h : o = true → afterBlanks? (fun _ => true) e.word l = none) (ls : List (List Char)) :
    e.noted o (l :: ls) = (e.noted (stays e.head o l) ls).map (l :: ·) := by
  simpa [noted] using noteLines_passes (.cons h (.nil _)) e.note ls

theorem noted_cons_eq_none_iff : e.noted o (l :: ls) = none ↔
    (o = true → afterBlanks? (fun _ => true) e.word l = none) ∧ e.noted (stays e.head o l) ls = none := by
  by_cases h : o = true → afterBlanks? (fun _ => true) e.word l = none
  · rw [noted_past h, Option.map_eq_none_iff]
    exact (and_iff_right h).symm
  · obtain ⟨rfl, hne⟩ := Classical.not_imp.1 h
    obtain ⟨t, ht⟩ := Option.ne_none_iff_exists'.1 hne
    rw [noted, noteLines_found ht]
    simp [ht]

theorem noted_cases (e : Setting) (o : Bool) (ls : List (List Char)) : e.noted o ls = none ∨
    ∃ above below, ls = above ++ below ∧ e.noted o ls = some (above ++ e.note :: below) := by
  rcases search_cases (fun _ => true) e.head e.word o ls with ⟨-, o', hp⟩ | ⟨above, l, t, rest, rfl, hp, ht, -⟩
  · have := noteLines_passes hp e.note []
    rw [List.append_nil] at this
    exact .inl (by rw [noted, this]; rfl)
  · exact .inr ⟨above, l :: rest, rfl, by rw [noted, noteLines_passes hp, noteLines_found ht]; rfl⟩

/-- The edit of a note has nothing to do: the note is there, or the field is not. -/
def Noted (e : Setting) (ls : List (List Char)) : Prop :=
  (∃ l ∈ ls, e.note <:+: l) ∨ e.noted false ls = none

theorem note_ne_nil (e : Setting) : e.note ≠ [] := fun h => by
  rw [note, toList_noteText] at h
  exact absurd (List.append_eq_nil_iff.1 h).1 (by decide)

theorem toList_noting (he : e.IsNote) {v : List Char} {ls : List (List Char)}
    (hc : content.toList = v ++ Text.below ls) (hv : IsLine v) (hls : ∀ l ∈ ls, IsLine l) :
    (e.noting.result content).toList =
      if Text.contains (v ++ Text.below ls) e.note then v ++ Text.below ls
      else v ++ Text.below ((e.noted (opens e.head v) ls).getD ls) :=
  toList_result_deprecationEdit he.model.isLine he.field.isLine he.plain.line hc hv hls

theorem lines_noting (he : e.IsNote) (content : String) :
    (e.noting.result content = content ∧ e.Noted (lines content.toList)) ∨
    ∃ above below, lines content.toList = above ++ below ∧
      lines (e.noting.result content).toList = above ++ e.note :: below := by
  obtain ⟨v, ls, hc, hv, hls⟩ := exists_lines content.toList
  have hresult := toList_noting he hc hv hls
  have hpast : e.noted false (v :: ls) = (e.noted (opens e.head v) ls).map (v :: ·) := noted_past (by simp) ls
  rw [hc, lines_of_isLine hv hls]
  split at hresult
  · next hcontains =>
    have hmem := (infix_lines he.plain.line e.note_ne_nil).1 (contains_iff.1 hcontains)
    exact .inl ⟨String.ext (hresult.trans hc.symm), .inl (by simpa using hmem)⟩
  · rcases e.noted_cases (opens e.head v) ls with hnone | ⟨above, below, rfl, hsome⟩
    · rw [hnone, Option.getD_none, ← hc] at hresult
      exact .inl ⟨String.ext hresult, .inr (by rw [hpast, hnone]; rfl)⟩
    · rw [hsome, Option.getD_some] at hresult
      refine .inr ⟨v :: above, below, rfl, ?_⟩
      rw [hresult, lines_of_isLine hv fun l hl => ?_]
      · rfl
      · rcases List.mem_append.1 hl with hl | hl
        · exact hls l (List.mem_append_left _ hl)
        · rcases List.mem_cons.1 hl with rfl | hl
          · exact he.plain.line
          · exact hls l (List.mem_append_right _ hl)

theorem result_noting_eq (he : e.IsNote) (h : e.Noted (lines content.toList)) :
    e.noting.result content = content := by
  obtain ⟨v, ls, hc, hv, hls⟩ := exists_lines content.toList
  have hresult := toList_noting he hc hv hls
  rw [hc, lines_of_isLine hv hls] at h
  refine String.ext (hresult.trans ?_)
  split
  · exact hc.symm
  · next hcontains =>
    rcases h with h | h
    · have hmem := (infix_lines he.plain.line e.note_ne_nil).2 (by simpa using h)
      exact absurd (contains_iff.2 hmem) hcontains
    · have hnone : e.noted (opens e.head v) ls = none := (noted_cons_eq_none_iff.1 h).2
      rw [hnone, hc, Option.getD_none]

theorem afterBlanks?_note {field : List Char} (hf : IsWord field) (ok : List Char → Bool) (e : Setting) :
    afterBlanks? ok field e.note = none := by
  refine Option.eq_none_iff_forall_ne_some.2 fun t ht => hf.1 ?_
  obtain ⟨-, lead, hl, heq⟩ := afterBlanks?_eq_some ht
  rw [← hl.word hf t, ← heq, note, toList_noteText]
  rfl

theorem noted_mono (h : e.noted o ls = none) (ho : o₂ = true → o = true) : e.noted o₂ ls = none := by
  induction ls generalizing o o₂ with
  | nil => rfl
  | cons l ls ih =>
    obtain ⟨hl, hls⟩ := noted_cons_eq_none_iff.1 h
    exact noted_cons_eq_none_iff.2 ⟨fun h => hl (ho h), ih hls (stays_mono ho l)⟩

/-- A field that is not found is not found with a line more that does not have it and opens no type. -/
theorem noted_insert (hopen : opens e.head n = false)
    (hfield : afterBlanks? (fun _ => true) e.word n = none) (h : e.noted o (above ++ below) = none) :
    e.noted o (above ++ n :: below) = none := by
  induction above generalizing o with
  | nil =>
    refine noted_cons_eq_none_iff.2 ⟨fun _ => hfield, noted_mono h fun hs => ?_⟩
    rw [stays, hopen, Bool.or_false, Bool.and_eq_true] at hs
    exact hs.1
  | cons l above ih =>
    obtain ⟨hl, hls⟩ := noted_cons_eq_none_iff.1 h
    exact noted_cons_eq_none_iff.2 ⟨hl, ih hls⟩

theorem Noted.insert (he : e.IsNote) (he' : e'.IsNote) (h : e.Noted (above ++ below)) :
    e.Noted (above ++ e'.note :: below) := by
  rcases h with ⟨l, hl, hn⟩ | h
  · refine .inl ⟨l, ?_, hn⟩
    rcases List.mem_append.1 hl with hl | hl
    · exact List.mem_append_left _ hl
    · exact List.mem_append_right _ (List.mem_cons_of_mem _ hl)
  · exact .inr (noted_insert (he'.plain.opens _) (afterBlanks?_note he.field _ e') h)

end Setting

section Edits

variable {types notes : List Setting} {content : String}

theorem lines_edited_types (ht : ∀ e ∈ types, e.IsType) (content : String) :
    lines (Batch.edited false content (types.map Setting.typing)).toList =
      types.foldl (fun ls e => e.retyped false ls) (lines content.toList) := by
  induction types generalizing content with
  | nil => rfl
  | cons e types ih =>
    rw [List.foldl_cons, ← Setting.lines_typing (ht e List.mem_cons_self)]
    exact ih (fun x hx => ht x (List.mem_cons_of_mem _ hx)) _

/-- What types and notes have settled stays so, whatever notes follow. -/
theorem settled_edited_notes (ht : ∀ e ∈ types, e.IsType) {done : List Setting}
    (hdone : ∀ e ∈ done, e.IsNote) (hn : ∀ e ∈ notes, e.IsNote)
    (htypes : ∀ e ∈ types, e.Settled false (lines content.toList))
    (hnotes : ∀ e ∈ done, e.Noted (lines content.toList)) :
    let final := lines (Batch.edited false content (notes.map Setting.noting)).toList
    (∀ e ∈ types, e.Settled false final) ∧ ∀ e ∈ done ++ notes, e.Noted final := by
  induction notes generalizing content done with
  | nil =>
    rw [List.append_nil]
    exact ⟨htypes, hnotes⟩
  | cons n notes ih =>
    have hn₁ := hn n List.mem_cons_self
    have hin : ∀ e ∈ done ++ [n], e.IsNote := by
      intro e he
      rcases List.mem_append.1 he with he | he
      · exact hdone e he
      · exact List.mem_singleton.1 he ▸ hn₁
    have hnext : (∀ e ∈ types, e.Settled false (lines (n.noting.result content).toList)) ∧
        ∀ e ∈ done ++ [n], e.Noted (lines (n.noting.result content).toList) := by
      rcases Setting.lines_noting hn₁ content with ⟨hsame, hnoted⟩ | ⟨above, below, hsplit, hlines⟩
      · rw [hsame]
        refine ⟨htypes, fun e he => ?_⟩
        rcases List.mem_append.1 he with he | he
        · exact hnotes e he
        · exact List.mem_singleton.1 he ▸ hnoted
      · rw [hlines]
        rw [hsplit] at htypes hnotes
        refine ⟨fun e he => (htypes e he).insert (ht e he) id (hn₁.plain.opens _)
          (Setting.afterBlanks?_note (ht e he).field _ n), fun e he => ?_⟩
        rcases List.mem_append.1 he with he | he
        · exact (hnotes e he).insert (hdone e he) hn₁
        · obtain rfl := List.mem_singleton.1 he
          exact .inl ⟨e.note, by simp, List.infix_rfl⟩
    rw [List.append_cons]
    exact ih hin (fun e he => hn e (List.mem_cons_of_mem _ he)) hnext.1 hnext.2

/-- After all edits of the types, none of them changes anything. -/
theorem typeEdits_fixed (ht : ∀ e ∈ types, e.IsType) (hn : ∀ e ∈ notes, e.IsNote)
    (hcalm : Calm types (fun _ => false) (lines content.toList)) :
    ∀ x ∈ types.map Setting.typing ++ notes.map Setting.noting,
      x.result (Batch.edited false content (types.map Setting.typing ++ notes.map Setting.noting)) =
        Batch.edited false content (types.map Setting.typing ++ notes.map Setting.noting) := by
  have htypes := settled_foldl ht hcalm
  rw [← lines_edited_types ht] at htypes
  obtain ⟨hsettled, hnoted⟩ := settled_edited_notes ht (List.forall_mem_nil Setting.IsNote) hn htypes (by simp)
  rw [Batch.edited, List.foldl_append]
  intro x hx
  rcases List.mem_append.1 hx with hx | hx
  · obtain ⟨e, he, rfl⟩ := List.mem_map.1 hx
    exact Setting.result_typing_eq (ht e he) (hsettled e he)
  · obtain ⟨e, he, rfl⟩ := List.mem_map.1 hx
    exact Setting.result_noting_eq (hn e he) (hnoted e he)

end Edits

end FragmentMerge.Field
