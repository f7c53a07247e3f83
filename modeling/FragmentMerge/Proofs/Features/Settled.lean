import FragmentMerge.Proofs.Features.Retype
import FragmentMerge.Proofs.Text.Find

/-! Edits of types on a text that they have been through. An edit finds its field by an opening above and
the absence of braces between, so it stays settled as long as later edits bring no new openings and take
no braces away. -/

namespace FragmentMerge.Field

open Text

/-- What is set for a field of a model: its type, or a note that it is deprecated. -/
structure Setting where
  model : String
  field : String
  value : String

namespace Setting

def head (e : Setting) : List Char := typeHead e.model.toList

def word (e : Setting) : List Char := e.field.toList

def retyped (e : Setting) (o : Bool) (ls : List (List Char)) : List (List Char) :=
  retypeLines e.head e.word e.value.toList o ls

def note (e : Setting) : List Char := (noteText e.model e.field e.value).toList

structure IsNamed (e : Setting) : Prop where
  model : IsWord e.model.toList
  field : IsWord e.word

end Setting

/-- A piece of one line in which no type is opened. -/
structure IsPlain (x : List Char) : Prop where
  line : IsLine x
  closed : Text.contains x "export type ".toList = false

structure Setting.IsType (e : Setting) : Prop extends e.IsNamed where
  filled : e.value.toList ≠ []
  plain : IsPlain e.value.toList

instance (x : List Char) : Decidable (IsPlain x) :=
  decidable_of_iff (IsLine x ∧ Text.contains x "export type ".toList = false)
    ⟨fun ⟨h, hc⟩ => ⟨h, hc⟩, fun h => ⟨h.line, h.closed⟩⟩

instance (e : Setting) : Decidable e.IsNamed :=
  decidable_of_iff (IsWord e.model.toList ∧ IsWord e.word) ⟨fun ⟨h, hf⟩ => ⟨h, hf⟩, fun h => ⟨h.model, h.field⟩⟩

instance (e : Setting) : Decidable e.IsType :=
  decidable_of_iff (e.IsNamed ∧ e.value.toList ≠ [] ∧ IsPlain e.value.toList)
    ⟨fun ⟨h, hf, hp⟩ => ⟨h, hf, hp⟩, fun h => ⟨h.toIsNamed, h.filled, h.plain⟩⟩

theorem infix_of_opens {head x : List Char} (h : opens head x = true) : head <:+: x := by
  induction x with
  | nil => cases h
  | cons c x ih =>
    rw [Field.opens, Bool.or_eq_true] at h
    rcases h with h | h
    · obtain ⟨r, hr, -⟩ := (Option.any_eq_true _ _).1 h
      exact ⟨[], r, by simpa using (after?_eq_some_iff.1 hr).symm⟩
    · exact (ih h).trans (List.suffix_cons c x).isInfix

theorem IsPlain.opens {x : List Char} (h : IsPlain x) (model : List Char) :
    opens (typeHead model) x = false := by
  refine Bool.eq_false_iff.2 fun ho => contains_eq_false_iff.1 h.closed ?_
  exact ((List.prefix_append _ _).trans (List.prefix_append _ _)).isInfix.trans (infix_of_opens ho)

theorem stays_mono {head : List Char} {o o' : Bool} (h : o = true → o' = true) (l : List Char) :
    stays head o l = true → stays head o' l = true := by
  cases o with
  | true => rw [h rfl]; exact id
  | false =>
    intro hs
    rw [stays] at hs ⊢
    rw [Bool.false_and, Bool.false_or] at hs
    rw [hs, Bool.or_true]

theorem typeHead_eq (model : List Char) : ∃ s, typeHead model = 'e' :: s := ⟨_, rfl⟩

theorem brace_mem_typeHead (model : List Char) : '\x7b' ∈ typeHead model :=
  List.mem_append_right _ (by simp)

theorem colon_not_mem_typeHead {model : List Char} (h : IsWord model) : ':' ∉ typeHead model := by
  intro hm
  rcases List.mem_append.1 hm with hm | hm
  · rcases List.mem_append.1 hm with hm | hm
    · exact absurd hm (by simp)
    · exact h.not_mem (by decide) (by decide) hm
  · exact absurd hm (by simp)

theorem opens_mark {model : List Char} (hm : IsWord model) {w : List Char} (hw : '\x7b' ∉ w) (t : List Char) :
    opens (typeHead model) (w ++ (':' :: ' ' :: t)) = opens (typeHead model) t := by
  obtain ⟨h, hh⟩ := typeHead_eq model
  induction w with
  | nil =>
    have hcolon : after? (typeHead model) (':' :: ' ' :: t) = none := by
      rw [hh, after?, if_neg (by decide)]
    have hspace : after? (typeHead model) (' ' :: t) = none := by
      rw [hh, after?, if_neg (by decide)]
    rw [List.nil_append, opens, opens, hcolon, hspace]
    rfl
  | cons c w ih =>
    have hnone : after? (typeHead model) (c :: w ++ (':' :: ' ' :: t)) = none := by
      refine Option.eq_none_iff_forall_ne_some.2 fun r hr => ?_
      rcases List.append_eq_append_iff.1 (after?_eq_some_iff.1 hr) with ⟨x, hx, hrest⟩ | ⟨x, hx, -⟩
      · -- the opening ends after the colon, or it is all of `w`
        cases x with
        | nil =>
          rw [List.append_nil] at hx
          exact hw (hx ▸ brace_mem_typeHead model)
        | cons d x =>
          obtain rfl := (List.cons.inj hrest).1
          exact colon_not_mem_typeHead hm (by simp [hx])
      · exact hw (hx ▸ List.mem_append_left _ (brace_mem_typeHead model))
    rw [List.cons_append] at hnone ⊢
    rw [opens, hnone]
    exact ih fun h => hw (List.mem_cons_of_mem _ h)

theorem IsLead.split {field lead : List Char} (hf : IsWord field) (hl : IsLead field lead) :
    ∃ w, lead = w ++ [':', ' '] ∧ '\x7b' ∉ w ∧ '\x7d' ∉ w := by
  obtain ⟨blanks, mark, hb, hm, rfl⟩ := hl
  have hclear : ∀ c, c.isAlphanum = false → c ≠ '_' → c ≠ ' ' → c ≠ '\t' → c ∉ blanks ++ field := by
    intro c ha hu hs ht h
    rcases List.mem_append.1 h with h | h
    · exact (hb c h).elim hs ht
    · exact hf.not_mem ha hu h
  have hopen := hclear '\x7b' (by decide) (by decide) (by decide) (by decide)
  have hclose := hclear '\x7d' (by decide) (by decide) (by decide) (by decide)
  rcases hm with rfl | rfl
  · exact ⟨_, rfl, hopen, hclose⟩
  · exact ⟨blanks ++ field ++ ['?'], by simp, by simpa using hopen, by simpa using hclose⟩

theorem IsLead.contains {field lead : List Char} (hf : IsWord field) (hl : IsLead field lead)
    (x : List Char) : (lead ++ x).contains '\x7d' = x.contains '\x7d' := by
  obtain ⟨w, rfl, -, hw⟩ := hl.split hf
  rw [Bool.eq_iff_iff]
  simp [hw]

theorem opens_lead {model field lead : List Char} (hm : IsWord model) (hf : IsWord field)
    (hl : IsLead field lead) (t : List Char) :
    opens (typeHead model) (lead ++ t) = opens (typeHead model) t := by
  obtain ⟨w, rfl, hw, -⟩ := hl.split hf
  rw [List.append_assoc]
  exact opens_mark hm hw t

/-- The type is open after the line of a field as it was before, but for a brace in the field's own type. -/
theorem stays_lead {model field lead x : List Char} (hm : IsWord model) (hf : IsWord field)
    (hl : IsLead field lead) (hx : IsPlain x) (o : Bool) :
    stays (typeHead model) o (lead ++ x) = (o && !x.contains '\x7d') := by
  rw [stays, opens_lead hm hf hl, hx.opens, Bool.or_false, hl.contains hf]

theorem IsLead.word {field lead : List Char} (hf : IsWord field) (hl : IsLead field lead)
    (x : List Char) :
    ((lead ++ x).dropWhile fun c => c = ' ' || c = '\t').takeWhile
      (fun c => c.isAlphanum || c = '_') = field := by
  obtain ⟨blanks, mark, hb, hm, rfl⟩ := hl
  have hword : ∀ c ∈ field, (c.isAlphanum || c = '_') = true := fun c hc => by simpa using hf.2 c hc
  have hstop : ∀ c ∈ field, c ≠ ' ' ∧ c ≠ '\t' := fun c hc =>
    ⟨fun h => hf.not_mem (c := ' ') (by decide) (by decide) (h ▸ hc),
      fun h => hf.not_mem (c := '\t') (by decide) (by decide) (h ▸ hc)⟩
  have hblank : ∀ c ∈ blanks, (c = ' ' || c = '\t') = true := fun c hc => by simpa using hb c hc
  have hdrop : (blanks ++ field ++ mark ++ x).dropWhile (fun c => c = ' ' || c = '\t') =
      field ++ (mark ++ x) := by
    obtain ⟨c, cs, rfl⟩ := List.exists_cons_of_ne_nil hf.1
    rw [List.append_assoc, List.append_assoc, List.dropWhile_append_of_pos hblank, List.cons_append,
      List.dropWhile_cons_of_neg (by simpa using hstop c List.mem_cons_self)]
  rw [hdrop, List.takeWhile_append_of_pos hword]
  rcases hm with rfl | rfl
  · exact List.append_right_eq_self.2 (List.takeWhile_cons_of_neg (by decide))
  · exact List.append_right_eq_self.2 (List.takeWhile_cons_of_neg (by decide))

theorem word_of_afterBlanks? {ok : List Char → Bool} {field field' lead x t : List Char}
    (hf : IsWord field) (hf' : IsWord field') (hl : IsLead field lead)
    (h : afterBlanks? ok field' (lead ++ x) = some t) : field' = field := by
  obtain ⟨-, lead', hl', hx⟩ := afterBlanks?_eq_some h
  rw [← hl'.word hf' t, ← hx, hl.word hf]

theorem hasType_of_isPlain {x : List Char} (hx : IsPlain x) (hne : x ≠ []) : hasType x = true := by
  cases x with
  | nil => exact absurd rfl hne
  | cons c x =>
    have hc : c ≠ '\n' := fun h => hx.line (h ▸ List.mem_cons_self)
    simpa [hasType] using hc

namespace Setting

variable {e e' : Setting} {o o₂ : Bool} {l t lead note : List Char} {ls : List (List Char)}

theorem retyped_found (h : afterBlanks? hasType e.word (lead ++ t) = some t) (ls : List (List Char)) :
    e.retyped true ((lead ++ t) :: ls) = (lead ++ e.value.toList) :: e.retyped false ls := by
  rw [retyped, retypeLines_found h]
  simp [retyped]

theorem retyped_past (h : o = true → afterBlanks? hasType e.word l = none) (ls : List (List Char)) :
    e.retyped o (l :: ls) = l :: e.retyped (stays e.head o l) ls :=
  retypeLines_passes (.cons h (.nil _)) _ ls

theorem retyped_cases (e : Setting) (o : Bool) (l : List Char) :
    (o = true ∧ ∃ lead t, IsLead e.word lead ∧ l = lead ++ t ∧
      afterBlanks? hasType e.word (lead ++ t) = some t) ∨
    (o = true → afterBlanks? hasType e.word l = none) := by
  by_cases h : o = true → afterBlanks? hasType e.word l = none
  · exact .inr h
  · obtain ⟨rfl, hne⟩ := Classical.not_imp.1 h
    obtain ⟨t, ht⟩ := Option.ne_none_iff_exists'.1 hne
    obtain ⟨-, lead, hl, rfl⟩ := afterBlanks?_eq_some ht
    exact .inl ⟨rfl, lead, t, hl, rfl, ht⟩

/-- The lines are as the edit leaves them. -/
def Settled (e : Setting) (o : Bool) (ls : List (List Char)) : Prop := e.retyped o ls = ls

theorem found_own (he : e.IsType) (hl : IsLead e.word lead) :
    afterBlanks? hasType e.word (lead ++ e.value.toList) = some e.value.toList := by
  rw [afterBlanks?_lead he.field hl, if_pos (hasType_of_isPlain he.plain he.filled)]

theorem settled_own (he : e.IsType) (hl : IsLead e.word lead) (h : e.Settled false ls) :
    e.Settled true ((lead ++ e.value.toList) :: ls) := by
  rw [Settled, retyped_found (found_own he hl), h]

theorem settled_past (hl : o = true → afterBlanks? hasType e.word l = none)
    (h : e.Settled (stays e.head o l) ls) : e.Settled o (l :: ls) := by
  rw [Settled, retyped_past hl, h]

theorem Settled.cons (h : e.Settled o (l :: ls)) :
    (o = true ∧ ∃ lead, IsLead e.word lead ∧ l = lead ++ e.value.toList ∧ e.Settled false ls) ∨
    ((o = true → afterBlanks? hasType e.word l = none) ∧ e.Settled (stays e.head o l) ls) := by
  rcases e.retyped_cases o l with ⟨rfl, lead, t, hl, rfl, ht⟩ | hp
  · rw [Settled, retyped_found ht] at h
    obtain ⟨hline, hrest⟩ := List.cons.inj h
    exact .inl ⟨rfl, lead, hl, hline.symm, hrest⟩
  · rw [Settled, retyped_past hp] at h
    exact .inr ⟨hp, (List.cons.inj h).2⟩

theorem settled_retyped (he : e.IsType) (o : Bool) (ls : List (List Char)) :
    e.Settled o (e.retyped o ls) := by
  induction ls generalizing o with
  | nil => rfl
  | cons l ls ih =>
    rcases e.retyped_cases o l with ⟨rfl, lead, t, hl, rfl, ht⟩ | hp
    · rw [retyped_found ht]
      exact settled_own he hl (ih false)
    · rw [retyped_past hp]
      exact settled_past hp (ih _)

/-- After a line with the type that is set, it does not matter whether the edit has seen it. -/
theorem settled_own' (he : e.IsType) (hl : IsLead e.word lead) (h : e.Settled false ls) :
    e.Settled o ((lead ++ e.value.toList) :: ls) := by
  cases o with
  | true => exact settled_own he hl h
  | false =>
    refine settled_past (fun h => absurd h (by decide)) ?_
    rw [head, stays_lead he.model he.field hl he.plain]
    exact h

theorem Settled.mono (he : e.IsType) (h : e.Settled o ls) (ho : o₂ = true → o = true) :
    e.Settled o₂ ls := by
  induction ls generalizing o o₂ with
  | nil => rfl
  | cons l ls ih =>
    rcases h.cons with ⟨rfl, lead, hl, rfl, hrest⟩ | ⟨hp, hrest⟩
    · exact settled_own' he hl hrest
    · exact settled_past (fun h => hp (ho h)) (ih hrest (stays_mono ho l))

/-- A line without an opening and without the field, put between settled lines. -/
theorem Settled.insert (he : e.IsType) {above below : List (List Char)}
    (h : e.Settled o (above ++ below)) (ho : o₂ = true → o = true)
    (hopen : opens e.head note = false) (hfield : afterBlanks? hasType e.word note = none) :
    e.Settled o₂ (above ++ note :: below) := by
  induction above generalizing o o₂ with
  | nil =>
    refine settled_past (fun _ => hfield) (h.mono he fun hs => ho ?_)
    rw [stays, hopen, Bool.or_false, Bool.and_eq_true] at hs
    exact hs.1
  | cons l above ih =>
    rcases h.cons with ⟨rfl, lead, hl, rfl, hrest⟩ | ⟨hp, hrest⟩
    · exact settled_own' he hl (ih hrest id)
    · exact settled_past (fun h => hp (ho h)) (ih hrest (stays_mono ho l))

end Setting

/-- Where the types of several models are open. -/
abbrev Open := List Char → Bool

/-- On this line no edit takes a brace away, and no two edits set different types. -/
def CalmAt (es : List Setting) (s : Open) (l : List Char) : Prop :=
  ∀ e ∈ es, s e.head = true → ∀ t ∈ afterBlanks? hasType e.word l,
    ('\x7d' ∈ t → '\x7d' ∈ e.value.toList) ∧
    ∀ e' ∈ es, e'.word = e.word → s e'.head = true → e'.value = e.value

def Calm (es : List Setting) : Open → List (List Char) → Prop
  | _, [] => True
  | s, l :: ls => CalmAt es s l ∧ Calm es (fun head => stays head (s head) l) ls

instance (es : List Setting) (s : Open) (l : List Char) : Decidable (CalmAt es s l) :=
  inferInstanceAs (Decidable (∀ e ∈ es, s e.head = true → ∀ t ∈ afterBlanks? hasType e.word l,
    ('\x7d' ∈ t → '\x7d' ∈ e.value.toList) ∧
    ∀ e' ∈ es, e'.word = e.word → s e'.head = true → e'.value = e.value))

instance decidableCalm (es : List Setting) : (s : Open) → (ls : List (List Char)) → Decidable (Calm es s ls)
  | _, [] => .isTrue trivial
  | s, l :: ls =>
    have := decidableCalm es (fun head => stays head (s head) l) ls
    inferInstanceAs (Decidable (CalmAt es s l ∧ Calm es (fun head => stays head (s head) l) ls))

section Several

variable {es : List Setting} {s s₂ : Open} {e e' : Setting} {o o₂ o' : Bool} {ls : List (List Char)}

/-- The line with another type: a type is open after it only if it was open after the line as it stood. -/
theorem stays_retyped {lead t : List Char} (he : e.IsNamed) (he' : e'.IsType) (hl : IsLead e'.word lead)
    (hbrace : '\x7d' ∈ t → '\x7d' ∈ e'.value.toList) (ho : o₂ = true → o = true) :
    stays e.head o₂ (lead ++ e'.value.toList) = true → stays e.head o (lead ++ t) = true := by
  rw [Setting.head, stays_lead he.model he'.field hl he'.plain, stays]
  intro h
  obtain ⟨h, hv⟩ := Bool.and_eq_true_iff.1 h
  have hv : '\x7d' ∉ e'.value.toList := by simpa using hv
  obtain ⟨w, rfl, -, hw⟩ := hl.split he'.field
  have ht : '\x7d' ∉ w ++ [':', ' '] ++ t := by
    simpa [hw] using fun h => hv (hbrace h)
  rw [ho h, Bool.true_and, Bool.or_eq_true]
  exact .inl (by simpa using ht)

theorem Calm.retyped (hes : ∀ e ∈ es, e.IsType) (he' : e' ∈ es) (h : Calm es s ls)
    (ho' : o' = true → s e'.head = true)
    (hs : ∀ e ∈ es, s₂ e.head = true → s e.head = true) : Calm es s₂ (e'.retyped o' ls) := by
  induction ls generalizing s s₂ o' with
  | nil => trivial
  | cons l ls ih =>
    obtain ⟨hat, hrest⟩ := h
    rcases e'.retyped_cases o' l with ⟨rfl, lead, t', hl, rfl, ht'⟩ | hp
    · obtain ⟨hbrace, hsame⟩ := hat e' he' (ho' rfl) t' ht'
      rw [Setting.retyped_found ht']
      refine ⟨fun e he ho t ht => ?_, ih hrest (fun h => absurd h (by decide)) fun e he =>
        stays_retyped (hes e he).toIsNamed (hes e' he') hl hbrace (hs e he)⟩
      -- the line is still that of the edit's own field, so other edits on it set the same type
      have hword := word_of_afterBlanks? (hes e' he').field (hes e he).field hl ht
      have hvalue := hsame e he hword (hs e he ho)
      have hown := Setting.found_own (hes e' he') hl
      rw [hword, hown] at ht
      obtain rfl := Option.some.inj ht
      refine ⟨fun hb => hvalue ▸ hb, fun e'' he'' hw ho'' => ?_⟩
      exact (hsame e'' he'' (hw.trans hword) (hs e'' he'' ho'')).trans hvalue.symm
    · rw [Setting.retyped_past hp]
      refine ⟨fun e he ho t ht => ?_, ih hrest (stays_mono ho' l) fun e he => stays_mono (hs e he) l⟩
      obtain ⟨hbrace, hsame⟩ := hat e he (hs e he ho) t ht
      exact ⟨hbrace, fun e'' he'' hw ho'' => hsame e'' he'' hw (hs e'' he'' ho'')⟩

/-- An edit keeps settled what another has left. -/
theorem Setting.Settled.retyped (hes : ∀ e ∈ es, e.IsType) (he : e ∈ es) (he' : e' ∈ es)
    (hcalm : Calm es s ls) (h : e.Settled o ls) (ho' : o' = true → s e'.head = true)
    (ho : o = true → s e.head = true) (ho₂ : o₂ = true → o = true) :
    e.Settled o₂ (e'.retyped o' ls) := by
  induction ls generalizing s o o₂ o' with
  | nil => rfl
  | cons l ls ih =>
    obtain ⟨hat, hrest⟩ := hcalm
    have hoff : ∀ {b : Bool}, false = true → b = true := fun h => absurd h (by decide)
    rcases e'.retyped_cases o' l with ⟨rfl, lead, t', hl, rfl, ht'⟩ | hp'
    · obtain ⟨hbrace, hsame⟩ := hat e' he' (ho' rfl) t' ht'
      rw [Setting.retyped_found ht']
      rcases h.cons with ⟨rfl, lead₂, hl₂, hline, hset⟩ | ⟨hp, hset⟩
      · -- both edits find the line, so they set the same type
        have hword : e.word = e'.word :=
          word_of_afterBlanks? (hes e' he').field (hes e he).field hl (hline ▸ found_own (hes e he) hl₂)
        rw [← hsame e he hword (ho rfl)]
        exact settled_own' (hes e he) (hword ▸ hl) (ih hrest hset hoff hoff id)
      · refine settled_past (fun hopen => ?_) (ih hrest hset hoff (stays_mono ho _)
          (stays_retyped (hes e he).toIsNamed (hes e' he') hl hbrace ho₂))
        refine Option.eq_none_iff_forall_ne_some.2 fun t ht => ?_
        have hword := word_of_afterBlanks? (hes e' he').field (hes e he).field hl ht
        rw [hword, ht'] at hp
        exact absurd (hp (ho₂ hopen)) (by simp)
    · rw [Setting.retyped_past hp']
      rcases h.cons with ⟨rfl, lead, hl, rfl, hset⟩ | ⟨hp, hset⟩
      · exact settled_own' (hes e he) hl (ih hrest hset (stays_mono ho' _) hoff id)
      · exact settled_past (fun h => hp (ho₂ h))
          (ih hrest hset (stays_mono ho' l) (stays_mono ho l) (stays_mono ho₂ l))

/-- Edits one after the other: what each of them keeps is kept by all, and in the end all are settled. -/
theorem foldl_retyped (hes : ∀ e ∈ es, e.IsType) {P : List (List Char) → Prop}
    (hkeep : ∀ ls, P ls → ∀ e' ∈ es, P (e'.retyped false ls) ∧
      ∀ e ∈ es, e.Settled false ls → e.Settled false (e'.retyped false ls))
    {todo done : List Setting} (htodo : ∀ e ∈ todo, e ∈ es) (hdone : ∀ e ∈ done, e ∈ es) (hls : P ls)
    (h : ∀ e ∈ done, e.Settled false ls) :
    P (todo.foldl (fun ls e => e.retyped false ls) ls) ∧
      ∀ e ∈ done ++ todo, e.Settled false (todo.foldl (fun ls e => e.retyped false ls) ls) := by
  induction todo generalizing done ls with
  | nil => simpa using ⟨hls, h⟩
  | cons e todo ih =>
    have he := htodo e List.mem_cons_self
    obtain ⟨hnext, hstay⟩ := hkeep ls hls e he
    have hin : ∀ x ∈ done ++ [e], x ∈ es := by
      intro x hx
      rcases List.mem_append.1 hx with hx | hx
      · exact hdone x hx
      · exact List.mem_singleton.1 hx ▸ he
    have hsettled : ∀ x ∈ done ++ [e], x.Settled false (e.retyped false ls) := by
      intro x hx
      rcases List.mem_append.1 hx with hx | hx
      · exact hstay x (hdone x hx) (h x hx)
      · obtain rfl := List.mem_singleton.1 hx
        exact Setting.settled_retyped (hes x he) false ls
    have ih := ih (fun x hx => htodo x (List.mem_cons_of_mem _ hx)) hin hnext hsettled
    simpa using ih

theorem settled_foldl (hes : ∀ e ∈ es, e.IsType) (hcalm : Calm es (fun _ => false) ls) :
    ∀ e ∈ es, e.Settled false (es.foldl (fun ls e => e.retyped false ls) ls) := by
  have hoff : ∀ {b : Bool}, false = true → b = true := fun h => absurd h (by decide)
  have hkeep : ∀ ls, Calm es (fun _ => false) ls → ∀ e' ∈ es, Calm es (fun _ => false) (e'.retyped false ls) ∧
      ∀ e ∈ es, e.Settled false ls → e.Settled false (e'.retyped false ls) := fun ls hls e' he' =>
    ⟨hls.retyped hes he' hoff fun _ _ => id, fun e he h => h.retyped hes he he' hls hoff hoff id⟩
  simpa using (foldl_retyped hes hkeep (fun _ => id) (List.forall_mem_nil (· ∈ es)) hcalm
    (List.forall_mem_nil _)).2

end Several

end FragmentMerge.Field
