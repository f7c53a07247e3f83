import FragmentMerge.Patch.Batch
import FragmentMerge.Proofs.Text.Find

/-! What an edit makes of a text. It reports that it was applied exactly when it has changed the text, so
a file that no edit changes is not written. What it puts into the text stands there in one piece, so an
edit that looks for a piece of it is applied once. When lines are put into a text, those that were there
stay, in their order, around those that come in, and a line feed at the end of the text stays there. -/

namespace FragmentMerge

namespace Finder

variable {f : Finder} {s : List Char}

theorem snd_findsWithin {n : Nat} {left : Option Char} {fresh : Bool} {held : List Char}
    (h : (findsWithin f n left fresh held s).1 = []) : (findsWithin f n left fresh held s).2 = held ++ s := by
  induction n generalizing left fresh held s with
  | zero => rfl
  | succ n ih =>
    unfold findsWithin at h ⊢
    cases hf : f left s with
    | none => rfl
    | some sp =>
      rw [hf] at h
      dsimp only at h ⊢
      split at h
      · next hempty =>
        rw [if_pos hempty]
        cases s with
        | nil => exact (List.append_nil held).symm
        | cons c s =>
          dsimp only at h ⊢
          rw [ih h]
          simp
      · cases h

theorem finds_eq_nil_iff : (finds f s).1 = [] ↔ f none s = none := by
  unfold finds findsWithin
  cases f none s with
  | none => simp
  | some sp => simp

theorem replaceEach_of_nil {r : Find → List Char} (h : (finds f s).1 = []) : replaceEach r (finds f s) = s := by
  rw [replaceEach, h, finds, snd_findsWithin h]
  rfl

theorem infix_replaceEach {r : Find → List Char} {found : List Find × List Char} {p : List Char}
    (hr : ∀ x, p <:+: r x) (h : found.1 ≠ []) : p <:+: replaceEach r found := by
  obtain ⟨x, xs, hx⟩ := List.exists_cons_of_ne_nil h
  rw [replaceEach, hx, List.flatMap_cons]
  exact (hr x).trans ⟨x.gap, xs.flatMap (fun x => x.gap ++ r x) ++ found.2, by simp⟩

end Finder

namespace Anchor

variable {a : Anchor} {s : List Char}

theorem finds_of_ne (h : a ≠ .literal "") : a.finds s = a.finder.finds s := by
  unfold finds
  split
  · exact absurd rfl h
  · rfl

theorem finds_eq_nil_iff : (a.finds s).1 = [] ↔ a = .literal "" ∨ a.finder none s = none := by
  by_cases ha : a = .literal ""
  · subst ha
    exact iff_of_true rfl (.inl rfl)
  · rw [finds_of_ne ha, Finder.finds_eq_nil_iff, or_iff_right ha]

theorem replaceEach_of_nil {r : Find → List Char} (h : (a.finds s).1 = []) :
    Finder.replaceEach r (a.finds s) = s := by
  by_cases ha : a = .literal ""
  · subst ha
    rfl
  · rw [finds_of_ne ha] at h ⊢
    exact Finder.replaceEach_of_nil h

theorem exists_replaced {r : Find → List Char} {p : List Char} (hr : ∀ x, p <:+: r x)
    (h : a ≠ .literal "" ∧ a.finder none s ≠ none) :
    ∃ t, ((a.finder none s).map fun _ => Finder.replaceEach r (a.finds s)) = some t ∧ p <:+: t := by
  obtain ⟨hne, hfound⟩ := h
  obtain ⟨sp, hsp⟩ := Option.ne_none_iff_exists'.1 hfound
  refine ⟨_, by rw [hsp]; rfl, Finder.infix_replaceEach hr fun hnil => ?_⟩
  rcases finds_eq_nil_iff.1 hnil with he | hnone
  · exact hne he
  · exact hfound hnone

end Anchor

namespace Change

variable {c : Change} {s t : List Char}

/-- Whether a change finds a place for its payload. An empty piece of text is a place for lines alone. -/
def Attaches (s : List Char) : Change → Prop
  | insertLines a _ _ => a.finder none s ≠ none
  | join a _ | replace a _ => a ≠ .literal "" ∧ a.finder none s ≠ none
  | _ => False

theorem exists_run?_of_attaches (h : c.Attaches s) : ∃ t, c.run? s = some t ∧ c.payload.toList <:+: t := by
  cases c with
  | insertLines a offset payload =>
    obtain ⟨sp, hsp⟩ := Option.ne_none_iff_exists'.1 h
    refine ⟨withLines (s.take (sp.skip + sp.size)) offset payload.toList s, ?_, ?_⟩
    · rw [run?, Finder.upToFirst?, hsp]
      rfl
    · rw [withLines]
      exact Text.infix_unlines_lines _ _ _
  | join a payload =>
    exact Anchor.exists_replaced (fun x => (List.suffix_append x.text payload.toList).isInfix) h
  | replace a payload => exact Anchor.exists_replaced (fun _ => List.infix_refl _) h
  | replaceEach f r => exact h.elim
  | transform f => exact h.elim
  | nothing => exact h.elim

theorem eq_of_not_attaches (hp : c.payload ≠ "") (h : ¬ c.Attaches s) (hr : c.run? s = some t) : t = s := by
  have hsame : ∀ (a : Anchor) (r : Find → List Char), ¬ (a ≠ .literal "" ∧ a.finder none s ≠ none) →
      ((a.finder none s).map fun _ => Finder.replaceEach r (a.finds s)) = some t → t = s := by
    intro a r hno hr
    obtain ⟨sp, hsp, rfl⟩ := Option.map_eq_some_iff.1 hr
    have hempty : a = .literal "" := Classical.byContradiction fun hne => hno ⟨hne, by simp [hsp]⟩
    exact Anchor.replaceEach_of_nil (Anchor.finds_eq_nil_iff.2 (.inl hempty))
  cases c with
  | insertLines a offset payload =>
    rw [run?, Finder.upToFirst?, Classical.not_not.1 h] at hr
    cases hr
  | join a payload => exact hsame a _ h hr
  | replace a payload => exact hsame a _ h hr
  | replaceEach f r => exact absurd rfl hp
  | transform f => exact absurd rfl hp
  | nothing => exact absurd rfl hp

end Change

namespace Edit

variable {e : Edit} {s t : String}

def result (e : Edit) (content : String) : String := (e.apply content).2.getD content

theorem apply_of_ne_nothing (hc : e.change ≠ .nothing) (content : String) :
    e.apply content = if e.isMarked content.toList then (.alreadyApplied, none)
      else (e.change.run? content.toList).elim (.anchorMissing, none) fun t =>
        if t = content.toList then (.alreadyApplied, none) else (.applied, some (String.ofList t)) := by
  unfold apply
  split
  · next h => exact absurd h hc
  · dsimp only
    cases e.change.run? content.toList <;> rfl

theorem apply_cases (e : Edit) (content : String) :
    (e.change = .nothing ∧ e.apply content = (.noop, none)) ∨
    (e.isMarked content.toList = true ∧ e.apply content = (.alreadyApplied, none)) ∨
    (e.isMarked content.toList = false ∧ e.change.run? content.toList = none ∧
      e.apply content = (.anchorMissing, none)) ∨
    ∃ t, e.isMarked content.toList = false ∧ e.change.run? content.toList = some t ∧
      e.apply content =
        if t = content.toList then (.alreadyApplied, none) else (.applied, some (String.ofList t)) := by
  by_cases hc : e.change = .nothing
  · exact .inl ⟨hc, by rw [apply, hc]⟩
  · rw [apply_of_ne_nothing hc]
    cases hm : e.isMarked content.toList with
    | true => exact .inr (.inl ⟨rfl, rfl⟩)
    | false =>
      cases hr : e.change.run? content.toList with
      | none => exact .inr (.inr (.inl ⟨rfl, rfl, rfl⟩))
      | some t => exact .inr (.inr (.inr ⟨t, rfl, rfl, rfl⟩))

theorem toList_result (e : Edit) (content : String) :
    (e.result content).toList = if e.isMarked content.toList then content.toList
      else (e.change.run? content.toList).getD content.toList := by
  rcases apply_cases e content with ⟨hc, h⟩ | ⟨hm, h⟩ | ⟨hm, hr, h⟩ | ⟨t, hm, hr, h⟩
  · rw [result, h, hc]
    simp [Change.run?]
  · rw [result, h, hm]
    rfl
  · rw [result, h, hm, hr]
    rfl
  · rw [result, h, hm, hr]
    split
    · next ht => simp [ht]
    · simp

theorem applied_iff (e : Edit) (content : String) :
    (e.apply content).1 = .applied ↔ e.result content ≠ content := by
  rcases apply_cases e content with ⟨-, h⟩ | ⟨-, h⟩ | ⟨-, -, h⟩ | ⟨t, -, -, h⟩
  · simp [result, h]
  · simp [result, h]
  · simp [result, h]
  · rw [result, h]
    split
    · simp
    · next ht =>
      simp only [Option.getD_some, ne_eq, true_iff]
      exact fun he => ht (by rw [← he, String.toList_ofList])

/-- An edit whose mark is a piece of what it puts into the text. It inserts lines, joins or replaces, as
other changes have no payload. -/
structure LeavesMark (e : Edit) : Prop where
  mark : e.mark ≠ ""
  piece : e.mark.toList <:+: e.change.payload.toList

theorem isMarked_iff (h : e.mark ≠ "") (s : List Char) : e.isMarked s = true ↔ e.mark.toList <:+: s := by
  rw [isMarked, Bool.and_eq_true, Text.contains_iff]
  exact and_iff_right (by simpa using h)

theorem LeavesMark.payload_ne (h : e.LeavesMark) : e.change.payload ≠ "" := by
  intro hempty
  have hpiece := h.piece
  rw [hempty] at hpiece
  exact h.mark (String.toList_eq_nil_iff.1 (List.eq_nil_of_infix_nil hpiece))

theorem LeavesMark.ne_nothing (h : e.LeavesMark) : e.change ≠ .nothing := by
  intro hc
  exact h.payload_ne (by rw [hc]; rfl)

theorem of_apply_eq_some (h : (e.apply s).2 = some t) :
    (e.apply s).1 = .applied ∧ t ≠ s ∧ e.change.run? s.toList = some t.toList := by
  rcases apply_cases e s with ⟨-, he⟩ | ⟨-, he⟩ | ⟨-, -, he⟩ | ⟨u, -, hr, he⟩
  · rw [he] at h
    cases h
  · rw [he] at h
    cases h
  · rw [he] at h
    cases h
  · rw [he] at h ⊢
    split at h
    · cases h
    · next hne =>
      cases h
      rw [if_neg hne, hr]
      refine ⟨rfl, fun hs => hne ?_, by simp⟩
      rw [← hs, String.toList_ofList]

theorem exists_of_applied (h : (e.apply s).1 = .applied) : ∃ t, (e.apply s).2 = some t := by
  cases hs : (e.apply s).2 with
  | some t => exact ⟨t, rfl⟩
  | none =>
    have hsame : e.result s = s := by rw [result, hs]; rfl
    exact absurd hsame ((applied_iff e s).1 h)

theorem LeavesMark.isMarked_of_run? (h : e.LeavesMark) (ha : e.change.Attaches s.toList) {t : List Char}
    (hr : e.change.run? s.toList = some t) : e.isMarked t = true := by
  obtain ⟨u, hu, hpayload⟩ := Change.exists_run?_of_attaches ha
  obtain rfl := Option.some.inj (hr.symm.trans hu)
  exact (isMarked_iff h.mark t).2 (h.piece.trans hpayload)

theorem LeavesMark.attaches (h : e.LeavesMark) (ht : (e.apply s).2 = some t) :
    e.change.Attaches s.toList := by
  obtain ⟨-, hne, hr⟩ := of_apply_eq_some ht
  refine Classical.byContradiction fun hno => hne ?_
  exact String.toList_inj.1 (Change.eq_of_not_attaches h.payload_ne hno hr)

/-- It is applied where its anchor stands and its mark does not. -/
theorem LeavesMark.applied_iff (h : e.LeavesMark) :
    (e.apply s).1 = .applied ↔ e.isMarked s.toList = false ∧ e.change.Attaches s.toList := by
  constructor
  · intro ha
    obtain ⟨t, ht⟩ := exists_of_applied ha
    refine ⟨?_, h.attaches ht⟩
    rw [apply_of_ne_nothing h.ne_nothing] at ha
    split at ha
    · cases ha
    · next hm => exact Bool.eq_false_iff.2 hm
  · rintro ⟨hm, ha⟩
    obtain ⟨t, hr, -⟩ := Change.exists_run?_of_attaches ha
    have hne : t ≠ s.toList := by
      rintro rfl
      rw [h.isMarked_of_run? ha hr] at hm
      cases hm
    rw [apply_of_ne_nothing h.ne_nothing, hm, hr]
    simp [hne]

theorem LeavesMark.apply_again (h : e.LeavesMark) (ht : (e.apply s).2 = some t) :
    e.apply t = (.alreadyApplied, none) := by
  have hmarked := h.isMarked_of_run? (h.attaches ht) (of_apply_eq_some ht).2.2
  rw [apply_of_ne_nothing h.ne_nothing, if_pos hmarked]

/-- An edit gives a new text exactly if it reports that it has been applied, and this text differs. If its
mark is a piece of what it puts into the text, it is applied exactly where its anchor stands and its mark
does not, and it is not applied to its own result. -/
theorem applies_once (e : Edit) (s : String) :
    ((e.apply s).1 = .applied ↔ ∃ t, (e.apply s).2 = some t) ∧
      (∀ t, (e.apply s).2 = some t → t ≠ s) ∧
      (e.LeavesMark →
        ((e.apply s).1 = .applied ↔ e.isMarked s.toList = false ∧ e.change.Attaches s.toList) ∧
        ∀ t, (e.apply s).2 = some t → e.apply t = (.alreadyApplied, none)) := by
  refine ⟨⟨exists_of_applied, ?_⟩, fun t ht => (of_apply_eq_some ht).2.1, fun h => ?_⟩
  · rintro ⟨t, ht⟩
    exact (of_apply_eq_some ht).1
  · exact ⟨h.applied_iff, fun t ht => h.apply_again ht⟩

def documenting : Edit :=
  (Edit.of "doc" (.insertLines (.literal "email") (-1) "  /**\n   * doc */")).withMarker "* doc"

def dashing : Edit := .of "dash" (.join (.pattern fun _ _ => some ⟨0, 0, []⟩) "-")

def wrapping : Edit := .of "wrap" (.replace (.literal "b") "(b)")

theorem applies_once_shaped :
    (documenting.apply "  id\n  email\n").2 = some "  id\n  /**\n   * doc */\n  email\n" ∧
      documenting.apply "  id\n  /**\n   * doc */\n  email\n" = (.alreadyApplied, none) ∧
      (dashing.apply "ab").2 = some "-a-b-" ∧ dashing.apply "-a-b-" = (.alreadyApplied, none) ∧
      (wrapping.apply "abb").2 = some "a(b)(b)" ∧
      wrapping.apply "a(b)(b)" = (.alreadyApplied, none) := by
  have hdocumenting : documenting.LeavesMark := ⟨by decide, ⟨"  /**\n   ".toList, " */".toList, rfl⟩⟩
  have hdashing : dashing.LeavesMark := ⟨by decide, List.infix_refl _⟩
  have hwrapping : wrapping.LeavesMark := ⟨by decide, List.infix_refl _⟩
  refine ⟨rfl, ?_, rfl, ?_, rfl, ?_⟩
  · exact ((applies_once documenting "  id\n  email\n").2.2 hdocumenting).2 _ rfl
  · exact ((applies_once dashing "ab").2.2 hdashing).2 _ rfl
  · exact ((applies_once wrapping "abb").2.2 hwrapping).2 _ rfl

end Edit

namespace Batch

/-- The text after those of some edits that are not left out. -/
def edited (extensionMode : Bool) (content : String) (es : List Edit) : String :=
  es.foldl (fun s e => if isLeftOut extensionMode e then s else e.result s) content

theorem applyEdits_cons (extensionMode : Bool) (content : String) (e : Edit) (es : List Edit) :
    applyEdits extensionMode content (e :: es) =
      ((e.name, (applyEdit extensionMode content e).1) ::
          (applyEdits extensionMode (applyEdit extensionMode content e).2 es).1,
        (applyEdits extensionMode (applyEdit extensionMode content e).2 es).2) := rfl

theorem applyEdits_snd (extensionMode : Bool) (content : String) (es : List Edit) :
    (applyEdits extensionMode content es).2 = edited extensionMode content es := by
  induction es generalizing content with
  | nil => rfl
  | cons e es ih =>
    have hstep : (applyEdit extensionMode content e).2 =
        if isLeftOut extensionMode e then content else e.result content := by
      rw [applyEdit]
      split <;> rfl
    rw [applyEdits_cons, ih, hstep]
    rfl

theorem applyEdits_of_fixed {extensionMode : Bool} {content : String} {es : List Edit}
    (h : ∀ e ∈ es, isLeftOut extensionMode e = false → e.result content = content) :
    (applyEdits extensionMode content es).2 = content ∧
      ∀ x ∈ (applyEdits extensionMode content es).1, x.2 ≠ .applied := by
  induction es with
  | nil => exact ⟨rfl, fun x hx => absurd hx List.not_mem_nil⟩
  | cons e es ih =>
    obtain ⟨htext, houtcomes⟩ := ih fun x hx => h x (List.mem_cons_of_mem _ hx)
    have hstep : (applyEdit extensionMode content e).2 = content ∧
        (applyEdit extensionMode content e).1 ≠ .applied := by
      rw [applyEdit]
      split
      · exact ⟨rfl, fun hs => nomatch hs⟩
      · next hl =>
        have hsame := h e List.mem_cons_self (Bool.eq_false_iff.2 hl)
        exact ⟨hsame, fun ha => (Edit.applied_iff e content).1 ha hsame⟩
    rw [applyEdits_cons, hstep.1]
    refine ⟨htext, fun x hx => ?_⟩
    rcases List.mem_cons.1 hx with rfl | hx
    · exact hstep.2
    · exact houtcomes x hx

end Batch

namespace Change

open Text

variable {upto rest payload : List Char} {offset : Int} {k : Nat}

/-- The line that an anchor ends on: that of the last character up to its end, and the first one if there is
none. -/
def EndsOn (upto s : List Char) (k : Nat) : Prop :=
  if upto = [] then k = 0 else StandsOn s (upto.length - 1) k

theorem endsOn_iff (upto rest : List Char) (k : Nat) :
    EndsOn upto (upto ++ rest) k ↔ k = anchorLine upto := by
  rcases List.eq_nil_or_concat upto with rfl | ⟨p, c, rfl⟩
  · exact Iff.rfl
  · have hstands := standsOn_newlines p c rest
    rw [EndsOn, if_neg (by simp), anchorLine, List.concat_eq_append, List.dropLast_concat,
      List.length_append, List.length_singleton, Nat.add_sub_cancel, List.append_assoc,
      List.singleton_append]
    exact ⟨fun h => h.unique hstands, fun h => h ▸ hstands⟩

/-- The nearest number from 0 to `n`. -/
def clamp (i : Int) (n : Nat) : Nat := (max 0 (min i n)).toNat

theorem position_eq (line : Nat) (offset : Int) (s : List Char) :
    position line offset (lines s) = clamp (line + 1 + offset) (lineCount s) := by
  have hlast : ((lines s).getLast? == some [] && 1 < (lines s).length) = true ↔ s.getLast? = some '\n' := by
    rw [ends_in_newline_iff]
    simp
  rw [position, clamp, lineCount]
  by_cases h : s.getLast? = some '\n'
  · rw [if_pos h, if_pos (hlast.2 h)]
    omega
  · rw [if_neg h, if_neg (mt hlast.1 h)]
    omega

theorem clamp_le (i : Int) (n : Nat) : clamp i n ≤ n := by
  rw [clamp]
  omega

theorem lines_withLines_eq (upto : List Char) (offset : Int) (payload s : List Char) :
    lines (withLines upto offset payload s) =
      (lines s).take (clamp (anchorLine upto + 1 + offset) (lineCount s)) ++ lines payload ++
        (lines s).drop (clamp (anchorLine upto + 1 + offset) (lineCount s)) := by
  rw [← position_eq, withLines]
  refine lines_unlines (by simp [lines_ne_nil]) fun l hl => ?_
  rcases List.mem_append.1 hl with hl | hl
  · rcases List.mem_append.1 hl with hl | hl
    · exact isLine_of_mem_lines (List.mem_of_mem_take hl)
    · exact isLine_of_mem_lines hl
  · exact isLine_of_mem_lines (List.mem_of_mem_drop hl)

/-- A line feed at the end stays there, as the lines come in above the empty line behind it. -/
theorem ends_withLines (upto : List Char) (offset : Int) (payload : List Char) {s : List Char}
    (h : s.getLast? = some '\n') : (withLines upto offset payload s).getLast? = some '\n' := by
  obtain ⟨hlast, hmany⟩ := (ends_in_newline_iff s).1 h
  have hle := clamp_le (anchorLine upto + 1 + offset) (lineCount s)
  have hcount : lineCount s = (lines s).length - 1 := if_pos h
  rw [ends_in_newline_iff, lines_withLines_eq]
  constructor
  · rw [List.getLast?_append, List.getLast?_drop, if_neg (by omega), hlast]
    rfl
  · have hpayload := List.length_pos_iff.2 (lines_ne_nil payload)
    simp only [List.length_append, List.length_take, List.length_drop]
    omega

/-- Lines come in all together behind the line that the anchor ends on, moved by the offset but kept within
the text. The other lines stay as they are, so the text is there again when the new ones are taken out. -/
theorem withLines_inserts (upto rest payload : List Char) (offset : Int) :
    let s := upto ++ rest
    let t := withLines upto offset payload s
    ∃ k, (∀ j, EndsOn upto s j ↔ j = k) ∧
      let i := clamp (k + 1 + offset) (lineCount s)
      lines t = (lines s).take i ++ lines payload ++ (lines s).drop i ∧ i ≤ (lines s).length ∧
        unlines ((lines t).take i ++ (lines t).drop (i + (lines payload).length)) = s ∧
        (s.getLast? = some '\n' → t.getLast? = some '\n') := by
  intro s t
  refine ⟨anchorLine upto, endsOn_iff upto rest, ?_⟩
  intro i
  have hlines : lines t = (lines s).take i ++ lines payload ++ (lines s).drop i :=
    lines_withLines_eq upto offset payload s
  have hi : i ≤ (lines s).length := Nat.le_trans (clamp_le _ _) (lineCount_le s)
  have htake : ((lines s).take i).length = i := List.length_take_of_le hi
  refine ⟨hlines, hi, ?_, ends_withLines upto offset payload⟩
  have habove : (lines t).take i = (lines s).take i := by
    rw [hlines, List.append_assoc, List.take_append_of_le_length (by omega), List.take_of_length_le (by omega)]
  have hbelow : (lines t).drop (i + (lines payload).length) = (lines s).drop i := by
    rw [hlines, List.drop_left' (by simp [htake])]
  rw [habove, hbelow, List.take_append_drop, unlines_lines]

example : withLines "a\n".toList 0 "x\ny".toList "a\nb\n".toList = "a\nx\ny\nb\n".toList := by decide

end Change

end FragmentMerge
