import FragmentMerge.Features.Field
import FragmentMerge.Proofs.Text.Lines

/-! The search for a field, line by line. It goes down the lines with one piece of knowledge: whether a
type of the model has been opened above and no brace has stood after the opening. The first line with
the field while this holds is the one that is found. -/

namespace FragmentMerge.Field

open Text

/-- Whether a line opens a type and leaves it open. -/
def opens (head : List Char) : List Char → Bool
  | [] => false
  | c :: s => (after? head (c :: s)).any (!·.contains '\x7d') || opens head s

/-- Whether the type is open after a line. -/
def stays (head : List Char) (o : Bool) (l : List Char) : Bool :=
  (o && !l.contains '\x7d') || opens head l

/-- What follows the field in the first line that has it while the type is open. -/
def search (ok : List Char → Bool) (head field : List Char) : Bool → List (List Char) → Option (List Char)
  | _, [] => none
  | o, l :: ls =>
    match if o then afterBlanks? ok field l else none with
    | some t => some (t ++ below ls)
    | none => search ok head field (stays head o l) ls

def searchBelow (ok : List Char → Bool) (field : List Char) : List (List Char) → Option (List Char)
  | [] => none
  | l :: ls =>
    match afterBlanks? ok field l with
    | some t => some (t ++ below ls)
    | none => if l.contains '\x7d' then none else searchBelow ok field ls

/-- A test of what follows a field, which does not look past the line. -/
def IsLocal (ok : List Char → Bool) : Prop := ∀ t ls, ok (t ++ below ls) = ok t

theorem isLocal_true : IsLocal fun _ => true := fun _ _ => rfl

theorem isLocal_hasType : IsLocal hasType := by
  intro t ls
  cases t with
  | nil =>
    rcases below_cases ls with h | ⟨s, h⟩
    · rw [List.nil_append, h]
    · rw [List.nil_append, h]
      rfl
  | cons c t => rfl

section Search

variable {ok : List Char → Bool} {head field : List Char}

theorem afterName?_of_ne {r : List Char} (hr : ∀ x, r ≠ '?' :: x) {s : List Char}
    (h : after? field s = some r) : afterName? ok field s = (after? [':', ' '] r).filter ok := by
  unfold afterName?
  rw [h]
  split
  · next h => cases h
  · next x h => exact absurd (Option.some.inj h) (hr x)
  · next h => rw [Option.some.inj h]

theorem afterName?_below (hok : IsLocal ok) (hf : IsLine field) (s : List Char) (ls : List (List Char)) :
    afterName? ok field (s ++ below ls) = (afterName? ok field s).map (· ++ below ls) := by
  have hmark : ∀ r : List Char, (after? [':', ' '] (r ++ below ls)).filter ok =
      ((after? [':', ' '] r).filter ok).map (· ++ below ls) := by
    intro r
    rw [after?_below (by simp [IsLine])]
    cases after? [':', ' '] r with
    | none => rfl
    | some t =>
      simp only [Option.map_some, Option.filter_some, hok t ls]
      split <;> rfl
  have hbelow := after?_below hf s ls
  cases h : after? field s with
  | none => rw [afterName?, afterName?, hbelow, h]; rfl
  | some r =>
    rw [h, Option.map_some] at hbelow
    by_cases hr : ∃ x, r = '?' :: x
    · obtain ⟨x, rfl⟩ := hr
      rw [afterName?, afterName?, hbelow, h]
      exact hmark x
    · have hr : ∀ x, r ≠ '?' :: x := fun x hx => hr ⟨x, hx⟩
      have hr' : ∀ x, r ++ below ls ≠ '?' :: x := by
        intro x hx
        cases r with
        | nil =>
          rcases below_cases ls with hb | ⟨y, hb⟩
          · simp [hb] at hx
          · simp [hb] at hx
        | cons c r => exact hr r (by rw [(List.cons.inj hx).1])
      rw [afterName?_of_ne hr h, afterName?_of_ne hr' hbelow, hmark]

theorem afterBlanks?_below (hok : IsLocal ok) (hf : IsLine field) {l : List Char} (hl : IsLine l)
    (ls : List (List Char)) :
    afterBlanks? ok field (l ++ below ls) = (afterBlanks? ok field l).map (· ++ below ls) := by
  induction l with
  | nil =>
    have hname := afterName?_below hok hf [] ls
    rcases below_cases ls with hb | ⟨x, hb⟩
    · simp [hb]
    · have hstop : afterBlanks? ok field ('\n' :: x) = afterName? ok field ('\n' :: x) :=
        if_neg (by decide)
      rw [List.nil_append, hb, hstop, ← hb]
      exact hname
  | cons c l ih =>
    have hname := afterName?_below hok hf (c :: l) ls
    rw [List.cons_append] at hname
    rw [List.cons_append, afterBlanks?, afterBlanks?, ih fun h => hl (List.mem_cons_of_mem _ h), hname]
    split
    · cases afterBlanks? ok field l <;> rfl
    · rfl

theorem afterField?_line {v : List Char} (hv : IsLine v) (s : List Char) :
    afterField? ok field (v ++ s) = if v.contains '\x7d' then none else afterField? ok field s := by
  induction v with
  | nil => rfl
  | cons c v ih =>
    have hc : c ≠ '\n' := fun h => hv (h ▸ List.mem_cons_self)
    rw [List.cons_append, afterField?, if_neg hc, ih fun h => hv (List.mem_cons_of_mem _ h)]
    by_cases hb : c = '\x7d'
    · simp [hb]
    · simp [hb, Ne.symm hb]

theorem afterField?_below (hok : IsLocal ok) (hf : IsLine field) {ls : List (List Char)}
    (hls : ∀ l ∈ ls, IsLine l) : afterField? ok field (below ls) = searchBelow ok field ls := by
  induction ls with
  | nil => rfl
  | cons l ls ih =>
    have hl := hls l List.mem_cons_self
    have ih := ih fun x hx => hls x (List.mem_cons_of_mem _ hx)
    rw [below_cons, afterField?, if_pos rfl, afterBlanks?_below hok hf hl, searchBelow]
    cases afterBlanks? ok field l with
    | some t => rfl
    | none => rw [Option.map_none, if_neg (by decide), afterField?_line hl, ih]

theorem search_open {l t : List Char} (h : afterBlanks? ok field l = some t) (ls : List (List Char)) :
    search ok head field true (l :: ls) = some (t ++ below ls) := by
  rw [search, if_pos rfl, h]

theorem search_past {o : Bool} {l : List Char} (h : o = true → afterBlanks? ok field l = none)
    (ls : List (List Char)) :
    search ok head field o (l :: ls) = search ok head field (stays head o l) ls := by
  rw [search]
  cases o with
  | true => rw [if_pos rfl, h rfl]
  | false => rfl

/-- An open type is searched up to its first brace; after that the search goes on as from anywhere. -/
theorem search_true (ls : List (List Char)) :
    search ok head field true ls = (searchBelow ok field ls).or (search ok head field false ls) := by
  induction ls with
  | nil => rfl
  | cons l ls ih =>
    rw [searchBelow]
    cases hl : afterBlanks? ok field l with
    | some t => rw [search_open hl, Option.some_or]
    | none =>
      rw [search_past fun _ => hl, search_past (o := false) fun h => absurd h (by decide), stays, stays,
        Bool.true_and, Bool.false_and, Bool.false_or]
      cases l.contains '\x7d' with
      | true => rfl
      | false =>
        rw [Bool.not_false, Bool.true_or, if_neg (by decide)]
        cases opens head l with
        | true => rw [ih, ← Option.or_assoc, Option.or_self]
        | false => exact ih

theorem seek?_cons (c : Char) (s : List Char) :
    (seek? ok head field (c :: s)).map Prod.snd =
      ((after? head (c :: s)).bind (afterField? ok field)).or ((seek? ok head field s).map Prod.snd) := by
  rw [seek?]
  cases (after? head (c :: s)).bind (afterField? ok field) with
  | some r => rfl
  | none => cases seek? ok head field s <;> rfl

/-- The search through the characters of a line, when the search below it is known. -/
theorem seek?_line (hok : IsLocal ok) (hf : IsLine field) (hh : IsLine head) {ls : List (List Char)}
    (hls : ∀ l ∈ ls, IsLine l)
    (hbelow : (seek? ok head field (below ls)).map Prod.snd = search ok head field false ls)
    {v : List Char} (hv : IsLine v) :
    (seek? ok head field (v ++ below ls)).map Prod.snd = search ok head field (opens head v) ls := by
  induction v with
  | nil => exact hbelow
  | cons c v ih =>
    have ih := ih fun h => hv (List.mem_cons_of_mem _ h)
    rw [List.cons_append, seek?_cons, ← List.cons_append, after?_below hh, ih, opens]
    cases hu : after? head (c :: v) with
    | none => rfl
    | some u =>
      have hline : IsLine u := fun h => hv (after?_eq_some_iff.1 hu ▸ List.mem_append_right _ h)
      rw [Option.map_some, Option.bind_some, afterField?_line hline, afterField?_below hok hf hls,
        Option.any_some]
      cases u.contains '\x7d' with
      | true => rfl
      | false =>
        rw [if_neg (by decide), Bool.not_false, Bool.true_or, search_true]
        cases opens head v with
        | true => rw [search_true, ← Option.or_assoc, Option.or_self]
        | false => rfl

/-- The search through the characters of a text is the search through its lines. -/
theorem seek?_below (hok : IsLocal ok) (hf : IsLine field) (hh : IsLine head) (hne : head ≠ [])
    {ls : List (List Char)} (hls : ∀ l ∈ ls, IsLine l) {v : List Char} (hv : IsLine v) :
    (seek? ok head field (v ++ below ls)).map Prod.snd = search ok head field (opens head v) ls := by
  refine seek?_line hok hf hh hls ?_ hv
  induction ls with
  | nil =>
    cases head with
    | nil => exact absurd rfl hne
    | cons c head => rfl
  | cons l ls ih =>
    have hls' := fun x hx => hls x (List.mem_cons_of_mem _ hx)
    rw [below_cons, seek?_cons, after?_newline hh hne, Option.bind_none, Option.none_or,
      seek?_line hok hf hh hls' (ih hls') (hls l List.mem_cons_self),
      search_past (o := false) fun h => absurd h (by decide)]
    rfl

theorem afterName?_eq_some {s t : List Char} (h : afterName? ok field s = some t) :
    ok t = true ∧ (s = field ++ [':', ' '] ++ t ∨ s = field ++ ['?', ':', ' '] ++ t) := by
  unfold afterName? at h
  split at h
  · cases h
  · next r hr =>
    obtain ⟨ht, hok⟩ := Option.filter_eq_some_iff.1 h
    refine ⟨hok, .inr ?_⟩
    rw [after?_eq_some_iff.1 hr, after?_eq_some_iff.1 ht]
    simp
  · next r _ hr =>
    obtain ⟨ht, hok⟩ := Option.filter_eq_some_iff.1 h
    refine ⟨hok, .inl ?_⟩
    rw [after?_eq_some_iff.1 hr, after?_eq_some_iff.1 ht]
    simp

/-- What stands on the line of a field up to its type: blanks, the name, a mark and a colon. -/
def IsLead (field lead : List Char) : Prop :=
  ∃ blanks mark, (∀ c ∈ blanks, c = ' ' ∨ c = '\t') ∧ (mark = [':', ' '] ∨ mark = ['?', ':', ' ']) ∧
    lead = blanks ++ field ++ mark

theorem afterBlanks?_eq_some {s t : List Char} (h : afterBlanks? ok field s = some t) :
    ok t = true ∧ ∃ lead, IsLead field lead ∧ s = lead ++ t := by
  have hname : ∀ {s}, afterName? ok field s = some t →
      ok t = true ∧ ∃ lead, IsLead field lead ∧ s = lead ++ t := by
    intro s h
    obtain ⟨hok, rfl | rfl⟩ := afterName?_eq_some h
    · exact ⟨hok, _, ⟨[], _, by simp, .inl rfl, rfl⟩, rfl⟩
    · exact ⟨hok, _, ⟨[], _, by simp, .inr rfl, rfl⟩, rfl⟩
  induction s with
  | nil => exact hname h
  | cons c s ih =>
    rw [afterBlanks?] at h
    split at h
    · next hc =>
      rcases Option.or_eq_some_iff.1 h with h | ⟨-, h⟩
      · obtain ⟨hok, lead, ⟨blanks, mark, hb, hm, rfl⟩, rfl⟩ := ih h
        have hblanks : ∀ d ∈ c :: blanks, d = ' ' ∨ d = '\t' := by
          intro d hd
          rcases List.mem_cons.1 hd with rfl | hd
          · simpa using hc
          · exact hb d hd
        exact ⟨hok, _, ⟨c :: blanks, mark, hblanks, hm, rfl⟩, rfl⟩
      · exact hname h
    · exact hname h

theorem afterField?_eq_some {s r : List Char} (h : afterField? ok field s = some r) :
    ∃ mid, s = mid ++ r := by
  induction s with
  | nil => cases h
  | cons c s ih =>
    rw [afterField?] at h
    split at h
    · next x hx =>
      obtain rfl := Option.some.inj h
      split at hx
      · obtain ⟨-, lead, -, rfl⟩ := afterBlanks?_eq_some hx
        exact ⟨c :: lead, rfl⟩
      · cases hx
    · split at h
      · cases h
      · obtain ⟨mid, rfl⟩ := ih h
        exact ⟨c :: mid, rfl⟩

/-- What is found is text with an opening in it, between what stands before and what follows. -/
theorem seek?_eq_some {s r : List Char} {n : Nat} (h : seek? ok head field s = some (n, r)) :
    ∃ before mid, s = before ++ (head ++ mid) ++ r ∧ before.length = n := by
  have hhere : ∀ {s x : List Char}, (after? head s).bind (afterField? ok field) = some x →
      ∃ mid, s = head ++ mid ++ x := by
    intro s x hx
    obtain ⟨u, hu, hr⟩ := Option.bind_eq_some_iff.1 hx
    obtain ⟨mid, rfl⟩ := afterField?_eq_some hr
    exact ⟨mid, by rw [after?_eq_some_iff.1 hu, List.append_assoc]⟩
  induction s generalizing n with
  | nil =>
    obtain ⟨u, hu, he⟩ := Option.bind_eq_some_iff.1 h
    obtain ⟨x, hx, hxn⟩ := Option.map_eq_some_iff.1 he
    obtain ⟨rfl, rfl⟩ := Prod.mk.inj hxn
    obtain ⟨mid, hmid⟩ := hhere (Option.bind_eq_some_iff.2 ⟨u, hu, hx⟩)
    exact ⟨[], mid, hmid, rfl⟩
  | cons c s ih =>
    rw [seek?] at h
    split at h
    · next x hx =>
      obtain ⟨rfl, rfl⟩ := Prod.mk.inj (Option.some.inj h)
      obtain ⟨mid, hmid⟩ := hhere hx
      exact ⟨[], mid, hmid, rfl⟩
    · obtain ⟨⟨m, x⟩, hm, hxn⟩ := Option.map_eq_some_iff.1 h
      obtain ⟨rfl, rfl⟩ := Prod.mk.inj hxn
      obtain ⟨before, mid, rfl, rfl⟩ := ih hm
      exact ⟨c :: before, mid, rfl, rfl⟩

/-- The search goes past these lines, and the type is open before and after them as it says. -/
inductive Passes (ok : List Char → Bool) (head field : List Char) : Bool → List (List Char) → Bool → Prop
  | nil (o : Bool) : Passes ok head field o [] o
  | cons {o o' : Bool} {l : List Char} {ls : List (List Char)} :
      (o = true → afterBlanks? ok field l = none) →
      Passes ok head field (stays head o l) ls o' → Passes ok head field o (l :: ls) o'

theorem search_cases (ok : List Char → Bool) (head field : List Char) (o : Bool) (ls : List (List Char)) :
    (search ok head field o ls = none ∧ ∃ o', Passes ok head field o ls o') ∨
    ∃ above l t rest, ls = above ++ l :: rest ∧ Passes ok head field o above true ∧
      afterBlanks? ok field l = some t ∧ search ok head field o ls = some (t ++ below rest) := by
  induction ls generalizing o with
  | nil => exact .inl ⟨rfl, o, .nil o⟩
  | cons l ls ih =>
    by_cases hl : o = true → afterBlanks? ok field l = none
    · rw [search_past hl]
      rcases ih (stays head o l) with ⟨hs, o', hp⟩ | ⟨above, d, t, rest, rfl, hp, ht, hs⟩
      · exact .inl ⟨hs, o', .cons hl hp⟩
      · exact .inr ⟨l :: above, d, t, rest, rfl, .cons hl hp, ht, hs⟩
    · obtain ⟨rfl, hne⟩ := Classical.not_imp.1 hl
      obtain ⟨t, ht⟩ := Option.ne_none_iff_exists'.1 hne
      exact .inr ⟨[], l, t, ls, rfl, .nil true, ht, search_open ht ls⟩

end Search

def IsWord (w : List Char) : Prop := w ≠ [] ∧ ∀ c ∈ w, c.isAlphanum = true ∨ c = '_'

instance (w : List Char) : Decidable (IsWord w) :=
  decidable_of_iff (w ≠ [] ∧ (w.all fun c => c.isAlphanum || c == '_') = true) (by simp [IsWord])

theorem IsWord.not_mem {w : List Char} (h : IsWord w) {c : Char} (hc : c.isAlphanum = false)
    (hu : c ≠ '_') : c ∉ w := fun hm => by
  rcases h.2 c hm with h | h
  · rw [hc] at h
    cases h
  · exact hu h

theorem IsWord.isLine {w : List Char} (h : IsWord w) : IsLine w := h.not_mem (by decide) (by decide)

/-- The line of a field is read in one way only. -/
theorem afterBlanks?_lead {field lead : List Char} (hf : IsWord field) (hl : IsLead field lead)
    (ok : List Char → Bool) (t : List Char) :
    afterBlanks? ok field (lead ++ t) = if ok t then some t else none := by
  obtain ⟨blanks, mark, hb, hm, rfl⟩ := hl
  obtain ⟨c, cs, rfl⟩ := List.exists_cons_of_ne_nil hf.1
  have hc : c ≠ ' ' ∧ c ≠ '\t' :=
    ⟨fun h => hf.not_mem (c := ' ') (by decide) (by decide) (h ▸ List.mem_cons_self),
      fun h => hf.not_mem (c := '\t') (by decide) (by decide) (h ▸ List.mem_cons_self)⟩
  induction blanks with
  | nil =>
    have hname : after? (c :: cs) (c :: cs ++ (mark ++ t)) = some (mark ++ t) :=
      after?_eq_some_iff.2 rfl
    have hstop : afterBlanks? ok (c :: cs) (c :: (cs ++ (mark ++ t))) =
        afterName? ok (c :: cs) (c :: (cs ++ (mark ++ t))) := by
      rw [afterBlanks?, if_neg (by simp [hc])]
    have hfilter : (some t).filter ok = if ok t then some t else none := by
      rw [Option.filter_some]
    rw [List.nil_append, List.append_assoc, List.cons_append, hstop]
    rw [← List.cons_append]
    rcases hm with rfl | rfl
    · rw [afterName?_of_ne (by simp) hname]
      exact hfilter
    · rw [afterName?, hname]
      exact hfilter
  | cons d blanks ih =>
    have hd := hb d List.mem_cons_self
    have hno : afterName? ok (c :: cs) (d :: (blanks ++ (c :: cs) ++ mark ++ t)) = none := by
      have hne : c ≠ d := fun h => hd.elim (fun hd => hc.1 (h.trans hd)) fun hd => hc.2 (h.trans hd)
      have hafter : after? (c :: cs) (d :: (blanks ++ (c :: cs) ++ mark ++ t)) = none := by
        rw [after?, if_neg hne]
      rw [afterName?, hafter]
    have hblank : (d = ' ' || d = '\t') = true := by simpa using hd
    rw [List.cons_append, List.cons_append, List.cons_append, afterBlanks?, if_pos hblank, hno, Option.or_none]
    exact ih fun x hx => hb x (List.mem_cons_of_mem _ hx)

end FragmentMerge.Field
