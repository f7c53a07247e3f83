import FragmentMerge.Proofs.Features.Scan
import FragmentMerge.Proofs.Patch.Edit

/-! The edits of types, line by line. An edit of a field's type changes the type on the line that the
search finds and goes on below it; a note goes above the first such line. -/

namespace FragmentMerge.Field

open Text

/-- The lines with another type for the field, wherever the search finds it. -/
def retypeLines (head field type : List Char) : Bool → List (List Char) → List (List Char)
  | _, [] => []
  | o, l :: ls =>
    match if o then afterBlanks? hasType field l else none with
    | some t => (l.take (l.length - t.length) ++ type) :: retypeLines head field type false ls
    | none => l :: retypeLines head field type (stays head o l) ls

def noteLines (head field note : List Char) : Bool → List (List Char) → Option (List (List Char))
  | _, [] => none
  | o, l :: ls =>
    match if o then afterBlanks? (fun _ => true) field l else none with
    | some _ => some (note :: l :: ls)
    | none => (noteLines head field note (stays head o l) ls).map (l :: ·)

section Lines

variable {head field : List Char} {o o' : Bool} {ls : List (List Char)}

theorem retypeLines_passes (h : Passes hasType head field o ls o') (type : List Char)
    (rest : List (List Char)) :
    retypeLines head field type o (ls ++ rest) = ls ++ retypeLines head field type o' rest := by
  induction h with
  | nil o => rfl
  | @cons o o' l ls hl _ ih =>
    have hnone : (if o then afterBlanks? hasType field l else none) = none := by
      cases o with
      | true => exact hl rfl
      | false => rfl
    rw [List.cons_append, retypeLines, hnone]
    exact congrArg (l :: ·) ih

theorem retypeLines_found {l t : List Char} (h : afterBlanks? hasType field l = some t)
    (type : List Char) (ls : List (List Char)) : retypeLines head field type true (l :: ls) =
      (l.take (l.length - t.length) ++ type) :: retypeLines head field type false ls := by
  rw [retypeLines, if_pos rfl, h]

theorem noteLines_passes (h : Passes (fun _ => true) head field o ls o') (note : List Char)
    (rest : List (List Char)) :
    noteLines head field note o (ls ++ rest) = (noteLines head field note o' rest).map (ls ++ ·) := by
  induction h with
  | nil o => simp
  | @cons o o' l ls hl _ ih =>
    have hnone : (if o then afterBlanks? (fun _ => true) field l else none) = none := by
      cases o with
      | true => exact hl rfl
      | false => rfl
    rw [List.cons_append, noteLines, hnone]
    simp only [ih, Option.map_map]
    rfl

theorem noteLines_found {l t : List Char} (h : afterBlanks? (fun _ => true) field l = some t)
    (note : List Char) (ls : List (List Char)) : noteLines head field note true (l :: ls) = some (note :: l :: ls) := by
  rw [noteLines, if_pos rfl, h]

end Lines

theorem typeHead_ne_nil (model : List Char) : typeHead model ≠ [] :=
  List.append_ne_nil_of_right_ne_nil _ (by decide)

theorem isLine_typeHead {model : List Char} (h : IsLine model) : IsLine (typeHead model) := by
  intro hm
  rcases List.mem_append.1 hm with hm | hm
  · rcases List.mem_append.1 hm with hm | hm
    · exact absurd hm (by simp)
    · exact h hm
  · exact absurd hm (by simp)

/-- What a finder gives, when the search has found a field: the text before its type is cut in two. -/
theorem span_of_seek? {ok : List Char → Bool} {head field s lead r : List Char} {n : Nat}
    (hne : head ≠ []) (h : seek? ok head field s = some (n, r)) (hs : s = lead ++ r) :
    s.take (s.length - r.length) = lead ∧ n < lead.length := by
  obtain ⟨before, mid, hsplit, rfl⟩ := seek?_eq_some h
  have hlead : lead = before ++ (head ++ mid) := List.append_cancel_right (hs ▸ hsplit)
  have hpos : 0 < head.length := List.length_pos_iff.2 hne
  refine ⟨by simp [hs], ?_⟩
  rw [hlead, List.length_append, List.length_append]
  omega

theorem findsWithin_none {f : Finder} {left : Option Char} {s : List Char} (h : f left s = none)
    (n : Nat) (fresh : Bool) (held : List Char) :
    Finder.findsWithin f (n + 1) left fresh held s = ([], held ++ s) := by
  simp [Finder.findsWithin, h]

/-- A find that is not empty is replaced where it stands, and what stands behind it after it. -/
theorem replaceEach_findsWithin_some {f : Finder} {left : Option Char} {gap text rest : List Char}
    {groups : List (Option (List Char))} (hne : text ≠ [])
    (h : f left (gap ++ (text ++ rest)) = some ⟨gap.length, text.length, groups⟩)
    (g : Find → List Char) (n : Nat) (fresh : Bool) (held : List Char) : ∃ left',
      Finder.replaceEach g (Finder.findsWithin f (n + 1) left fresh held (gap ++ (text ++ rest))) =
        held ++ gap ++ g ⟨held ++ gap, text, groups⟩ ++
          Finder.replaceEach g (Finder.findsWithin f n left' false [] rest) := by
  have hempty : text.isEmpty = false := List.isEmpty_eq_false_iff.2 hne
  refine ⟨(gap ++ text).getLast?.or left, ?_⟩
  simp [Finder.replaceEach, Finder.findsWithin, h, hempty]

theorem append_cut (upto text rest : List Char) (n : Nat) :
    upto ++ (text ++ rest) = upto.take n ++ (upto.drop n ++ text ++ rest) := by
  rw [List.append_assoc, ← List.append_assoc (upto.take n), List.take_append_drop]

section Edits

variable {model field : String} {ls : List (List Char)} {v : List Char}

/-- The find of a type, in a text that is cut where the find starts and where the line ends. -/
theorem typeFinder_found {upto t : List Char} {n : Nat} (ht : IsLine t)
    (h : seek? hasType (typeHead model.toList) field.toList (upto ++ (t ++ below ls)) =
      some (n, t ++ below ls)) (left : Option Char) :
    upto.drop n ++ t ≠ [] ∧ typeFinder model field left (upto.take n ++ ((upto.drop n ++ t) ++ below ls)) =
      some ⟨(upto.take n).length, (upto.drop n ++ t).length,
        [some (upto.drop n ++ t), some (upto.drop n), some t]⟩ := by
  obtain ⟨htake, hlt⟩ := span_of_seek? (typeHead_ne_nil _) h rfl
  refine ⟨List.append_ne_nil_of_left_ne_nil (by simpa using hlt) t, ?_⟩
  rw [← append_cut, typeFinder, h]
  simp only [Option.map_some]
  rw [htake, takeWhile_line ht, List.length_take_of_le (Nat.le_of_lt hlt), List.length_append]

theorem replaceEach_finds (hm : IsLine model.toList) (hf : IsLine field.toList) (type : List Char)
    {fuel : Nat} {left : Option Char} {fresh : Bool} {held : List Char}
    (hfuel : (v ++ below ls).length < fuel) (hv : IsLine v) (hls : ∀ l ∈ ls, IsLine l) :
    Finder.replaceEach (fun x => Finder.groupText x.groups 1 ++ type)
      (Finder.findsWithin (typeFinder model field) fuel left fresh held (v ++ below ls)) =
    held ++ (v ++ below
      (retypeLines (typeHead model.toList) field.toList type (opens (typeHead model.toList) v) ls)) := by
  induction fuel generalizing left fresh held v ls with
  | zero => omega
  | succ fuel ih =>
    have hseek := seek?_below isLocal_hasType hf (isLine_typeHead hm) (typeHead_ne_nil _) hls hv
    rcases search_cases hasType (typeHead model.toList) field.toList
      (opens (typeHead model.toList) v) ls with ⟨hs, o', hp⟩ | ⟨above, l, t, rest, rfl, hp, ht, hs⟩
    · have hnone : typeFinder model field left (v ++ below ls) = none := by
        rw [typeFinder, Option.map_eq_none_iff]
        simpa [hs] using hseek
      have hsame := retypeLines_passes hp type []
      rw [List.append_nil] at hsame
      rw [findsWithin_none hnone, hsame]
      simp [Finder.replaceEach, retypeLines]
    · obtain ⟨-, lead, -, rfl⟩ := afterBlanks?_eq_some ht
      rw [hs] at hseek
      obtain ⟨⟨n, r⟩, hn, rfl⟩ := Option.map_eq_some_iff.1 hseek
      obtain ⟨upto, hupto⟩ : ∃ x, x = v ++ below above ++ '\n' :: lead := ⟨_, rfl⟩
      have htext : v ++ below (above ++ (lead ++ t) :: rest) = upto ++ (t ++ below rest) := by
        simp [hupto]
      have hline : IsLine t := fun h =>
        hls (lead ++ t) (by simp) (List.mem_append_right _ h)
      have hrest : ∀ l ∈ rest, IsLine l := fun l hl => hls l (by simp [hl])
      obtain ⟨hne, hfind⟩ := typeFinder_found hline (htext ▸ hn) left
      have hshort : ([] ++ below rest).length < fuel := by
        rw [htext, append_cut upto t _ n, List.length_append, List.length_append] at hfuel
        have := List.length_pos_iff.2 hne
        rw [List.nil_append]
        omega
      obtain ⟨left', hfinds⟩ := replaceEach_findsWithin_some hne hfind
        (fun x => Finder.groupText x.groups 1 ++ type) fuel fresh held
      have hbehind : Finder.replaceEach (fun x => Finder.groupText x.groups 1 ++ type)
          (Finder.findsWithin (typeFinder model field) fuel left' false [] (below rest)) = _ :=
        ih (v := []) hshort List.not_mem_nil hrest
      have hlead : (lead ++ t).take ((lead ++ t).length - t.length) = lead := by simp
      rw [htext, append_cut upto t _ n, hfinds, hbehind, retypeLines_passes hp, retypeLines_found ht, hlead]
      simp only [Finder.groupText, List.getD_cons_succ, List.getD_cons_zero, Option.getD_some,
        List.append_assoc, List.nil_append]
      rw [← List.append_assoc (upto.take n), List.take_append_drop, hupto]
      simp [opens]

/-- An edit of a type is the change of the lines. -/
theorem toList_result_typeEdit (hm : IsLine model.toList) (hf : IsLine field.toList) (type : String)
    {content : String} (hc : content.toList = v ++ below ls) (hv : IsLine v) (hls : ∀ l ∈ ls, IsLine l) :
    ((typeEdit model field type).result content).toList = v ++ below
      (retypeLines (typeHead model.toList) field.toList type.toList
        (opens (typeHead model.toList) v) ls) := by
  have hfinds : Finder.replaceEach (fun x => Finder.groupText x.groups 1 ++ type.toList)
      ((typeFinder model field).finds (v ++ below ls)) = _ :=
    replaceEach_finds hm hf type.toList (by omega) hv hls
  rw [List.nil_append] at hfinds
  have hrun : (typeEdit model field type).change.run? (v ++ below ls) =
      (typeFinder model field none (v ++ below ls)).map fun _ =>
        Finder.replaceEach (fun x => Finder.groupText x.groups 1 ++ type.toList)
          ((typeFinder model field).finds (v ++ below ls)) := rfl
  have hmark : (typeEdit model field type).isMarked (v ++ below ls) = false := rfl
  rw [Edit.toList_result, hc, hmark, if_neg Bool.false_ne_true, hrun, hfinds]
  cases hfound : typeFinder model field none (v ++ below ls) with
  | some sp => rfl
  | none =>
    -- nothing is found, so there is nothing to replace
    rw [Finder.finds, findsWithin_none hfound] at hfinds
    simpa [Finder.replaceEach] using hfinds

def noteText (model field message : String) : String :=
  s!"  /** @deprecated {message} ({model}.{field}) */"

theorem toList_noteText (model field message : String) : (noteText model field message).toList =
    "  /** @deprecated ".toList ++ (message.toList ++ (" (".toList ++ (model.toList ++
      (".".toList ++ (field.toList ++ ") */".toList))))) := by
  have h : noteText model field message =
      "  /** @deprecated " ++ message ++ " (" ++ model ++ "." ++ field ++ ") */" := rfl
  rw [h]
  simp only [String.toList_append, List.append_assoc]

theorem noteText_ne_empty (model field message : String) :
    (noteText model field message).isEmpty = false := by
  have h : (noteText model field message).toList ≠ [] :=
    toList_noteText model field message ▸ List.append_ne_nil_of_left_ne_nil (by decide) _
  refine Bool.eq_false_iff.2 fun he => h ?_
  rw [String.isEmpty_iff.1 he, String.toList_empty]

/-- An anchor that ends on a line stands there, counted by the lines above. -/
theorem anchorLine_below {above : List (List Char)} {lead : List Char} (hv : IsLine v)
    (ha : ∀ x ∈ above, IsLine x) (hlead : IsLine lead) (c : Char) :
    Change.anchorLine (v ++ below above ++ '\n' :: (lead ++ [c])) = above.length + 1 := by
  have hdrop : (v ++ below above ++ '\n' :: (lead ++ [c])).dropLast =
      v ++ (below above ++ '\n' :: lead) := by
    rw [show v ++ below above ++ '\n' :: (lead ++ [c]) = (v ++ (below above ++ '\n' :: lead)) ++ [c] by simp,
      List.dropLast_concat]
  have habove := newlines_below ha
  have hv0 := newlines_line hv
  have hl0 := newlines_line hlead
  rw [newlines] at habove hv0 hl0
  rw [Change.anchorLine, hdrop, newlines, List.count_append, List.count_append, hv0, habove,
    List.count_cons_self, hl0]
  omega

theorem position_above {above : List (List Char)} {l : List Char} (hl : l ≠ []) (v : List Char)
    (rest : List (List Char)) :
    Change.position (above.length + 1) (-1) (v :: (above ++ l :: rest)) = above.length + 1 := by
  have hlast : (v :: (above ++ l :: rest)).getLast? = some [] → rest ≠ [] := by
    rintro h rfl
    rw [← List.cons_append, List.getLast?_append] at h
    exact hl (Option.some.inj h)
  have hlen : (v :: (above ++ l :: rest)).length = above.length + 1 + 1 + rest.length := by
    simp only [List.length_cons, List.length_append]
    omega
  rw [Change.position, hlen]
  split
  · next h =>
    simp only [Bool.and_eq_true, beq_iff_eq] at h
    have := List.length_pos_iff.2 (hlast h.1)
    omega
  · omega

theorem withLines_above {above : List (List Char)} {l : List Char} {rest : List (List Char)}
    (hv : IsLine v) (hls : ∀ x ∈ above ++ l :: rest, IsLine x) {lead : List Char} (hl : l ≠ [])
    (hlead : IsLine lead) {note : List Char} (hn : IsLine note) (c : Char) :
    Change.withLines (v ++ below above ++ '\n' :: (lead ++ [c])) (-1) note
      (v ++ below (above ++ l :: rest)) = v ++ below (above ++ note :: l :: rest) := by
  have hupto := anchorLine_below hv (fun x hx => hls x (List.mem_append_left _ hx)) hlead c
  have hnote : Text.lines note = [note] := by
    simpa using lines_of_isLine hn (List.forall_mem_nil IsLine)
  rw [Change.withLines, lines_of_isLine hv hls, hupto, position_above hl, hnote, List.take_succ_cons,
    List.drop_succ_cons, List.take_left, List.drop_left, List.append_assoc, List.cons_append, unlines_cons]
  rfl

theorem IsLead.ends {field lead : List Char} (h : IsLead field lead) : ∃ front, lead = front ++ [' '] := by
  obtain ⟨blanks, mark, -, rfl | rfl, rfl⟩ := h
  · exact ⟨blanks ++ field ++ [':'], by simp⟩
  · exact ⟨blanks ++ field ++ ['?', ':'], by simp⟩

theorem upToFirst?_found {upto t : List Char} {n : Nat}
    (h : seek? (fun _ => true) (typeHead model.toList) field.toList (upto ++ t) = some (n, t)) :
    Finder.upToFirst? (finder model field) (upto ++ t) = some upto := by
  obtain ⟨htake, hlt⟩ := span_of_seek? (typeHead_ne_nil _) h rfl
  rw [Finder.upToFirst?, finder, h]
  simp only [Option.map_some]
  rw [htake, List.length_drop, Nat.add_sub_cancel' (Nat.le_of_lt hlt), List.take_left]

/-- A note is put in its line, unless the text has the note already. -/
theorem toList_result_deprecationEdit (hm : IsLine model.toList) (hf : IsLine field.toList)
    {message content : String} (hn : IsLine (noteText model field message).toList)
    (hc : content.toList = v ++ below ls) (hv : IsLine v) (hls : ∀ l ∈ ls, IsLine l) :
    ((deprecationEdit model field message).result content).toList =
      if Text.contains (v ++ below ls) (noteText model field message).toList then v ++ below ls
      else v ++ below ((noteLines (typeHead model.toList) field.toList
        (noteText model field message).toList (opens (typeHead model.toList) v) ls).getD ls) := by
  have hmark : (deprecationEdit model field message).isMarked (v ++ below ls) =
      Text.contains (v ++ below ls) (noteText model field message).toList := by
    show (!(noteText model field message).isEmpty && _) = _
    rw [noteText_ne_empty]
    rfl
  have hrun : (deprecationEdit model field message).change.run? (v ++ below ls) =
      (Finder.upToFirst? (finder model field) (v ++ below ls)).map fun upto =>
        Change.withLines upto (-1) (noteText model field message).toList (v ++ below ls) := rfl
  rw [Edit.toList_result, hc, hmark, hrun]
  split
  · rfl
  · have hseek := seek?_below isLocal_true hf (isLine_typeHead hm) (typeHead_ne_nil _) hls hv
    rcases search_cases (fun _ => true) (typeHead model.toList) field.toList
      (opens (typeHead model.toList) v) ls with ⟨hs, o', hp⟩ | ⟨above, l, t, rest, rfl, hp, ht, hs⟩
    · have hnone : seek? (fun _ => true) (typeHead model.toList) field.toList (v ++ below ls) = none := by
        simpa [hs] using hseek
      have hsame := noteLines_passes hp (noteText model field message).toList []
      rw [List.append_nil] at hsame
      rw [Finder.upToFirst?, finder, hnone, hsame]
      simp [noteLines]
    · obtain ⟨-, lead, hlead, rfl⟩ := afterBlanks?_eq_some ht
      obtain ⟨front, hfront⟩ := hlead.ends
      rw [hs] at hseek
      obtain ⟨⟨n, r⟩, hn', rfl⟩ := Option.map_eq_some_iff.1 hseek
      have htext : v ++ below (above ++ (lead ++ t) :: rest) =
          (v ++ below above ++ '\n' :: lead) ++ (t ++ below rest) := by
        simp
      have hupto : Finder.upToFirst? (finder model field) (v ++ below (above ++ (lead ++ t) :: rest)) =
          some (v ++ below above ++ '\n' :: lead) := by
        rw [htext] at hn' ⊢
        exact upToFirst?_found hn'
      have hline : IsLine (lead ++ t) := hls _ (by simp)
      have hfrontLine : IsLine front := fun h => hline (by simp [hfront, h])
      rw [hupto, noteLines_passes hp, noteLines_found ht, hfront]
      simp only [Option.map_some, Option.getD_some]
      rw [withLines_above hv (hfront ▸ hls) (by simp) hfrontLine hn]

end Edits

end FragmentMerge.Field
