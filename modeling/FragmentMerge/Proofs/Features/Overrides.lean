import FragmentMerge.Proofs.Features.Built
import FragmentMerge.Proofs.Features.Calls

/-! All overrides of the types of a client together. The search for a field ends at the first closing
brace, so an override is lost when another one puts such a brace above its field. Where the types of the
client do not overlap and no override uncovers a field, this is the only way to lose one. What holds of
the type of a model before and after an edit is carried from line to line, and on the line that the edit
changes. -/

namespace FragmentMerge.Field

open Text

/-- No field is given two types. -/
def Agree (es : List Setting) : Prop :=
  ∀ e ∈ es, ∀ e' ∈ es, e'.head = e.head → e'.word = e.word → e'.value = e.value

/-- The line has a field of the model that is given a type. -/
def isSet (es : List Setting) (head l : List Char) : Bool :=
  es.any fun e => e.head == head && (afterBlanks? hasType e.word l).isSome

/-- The line has a field of the model that is given a type with a closing brace. -/
def isBraced (es : List Setting) (head l : List Char) : Bool :=
  es.any fun e => e.head == head && (afterBlanks? hasType e.word l).isSome && e.value.toList.contains '\x7d'

/-- Whether the type is open after a line once all types are set, if no closing brace is taken away. -/
def shows (es : List Setting) (head : List Char) (o : Bool) (l : List Char) : Bool :=
  (o && !(l.contains '\x7d' || isBraced es head l)) || opens head l

/-- Whether the search comes to the field of `e` once the types of `es` are set: below a line that they give
a closing brace, it does not. -/
def inSight (es : List Setting) (e : Setting) : Bool → List (List Char) → Bool
  | _, [] => false
  | o, l :: ls => (o && (afterBlanks? hasType e.word l).isSome) || inSight es e (shows es e.head o l) ls

/-- What is known of a model's type, whichever of the edits have been made: it is closed, or it is open unless
an edit has put in a closing brace, or it is open only if an edit has taken a closing brace away. -/
inductive Reach where
  | closed
  | opened
  | bared
  deriving DecidableEq, Repr

def Reach.below (es : List Setting) (head : List Char) (x : Reach) (l : List Char) : Reach :=
  if opens head l then .opened
  else if l.contains '\x7d' && !isBraced es head l then
    if isSet es head l && x != .closed then .bared else .closed
  else x

/-- Where the line of a field that is set can be open, it is so without an edit, no other type can be open, and
none starts there. -/
def ClearAt (es : List Setting) (x : List Char → Reach) (l : List Char) : Prop :=
  ∀ e ∈ es, x e.head ≠ .closed → ∀ t ∈ afterBlanks? hasType e.word l,
    x e.head = .opened ∧ ∀ e' ∈ es, opens e'.head t = false ∧ (x e'.head ≠ .closed → e'.head = e.head)

def Clear (es : List Setting) : (List Char → Reach) → List (List Char) → Prop
  | _, [] => True
  | x, l :: ls => ClearAt es x l ∧ Clear es (fun head => (x head).below es head l) ls

instance (es : List Setting) (x : List Char → Reach) (l : List Char) : Decidable (ClearAt es x l) :=
  inferInstanceAs (Decidable (∀ e ∈ es, x e.head ≠ .closed → ∀ t ∈ afterBlanks? hasType e.word l,
    x e.head = .opened ∧ ∀ e' ∈ es, opens e'.head t = false ∧ (x e'.head ≠ .closed → e'.head = e.head)))

instance decidableClear (es : List Setting) :
    (x : List Char → Reach) → (ls : List (List Char)) → Decidable (Clear es x ls)
  | _, [] => .isTrue trivial
  | x, l :: ls =>
    have := decidableClear es (fun head => (x head).below es head l) ls
    inferInstanceAs (Decidable (ClearAt es x l ∧ Clear es (fun head => (x head).below es head l) ls))

section Lines

variable {es : List Setting} {e e' : Setting} {o o₂ o' : Bool} {x x₂ : Reach} {ls : List (List Char)}
  {head l lead t : List Char}

theorem isBraced_iff : isBraced es head l = true ↔
    ∃ e ∈ es, e.head = head ∧ (afterBlanks? hasType e.word l).isSome = true ∧ '\x7d' ∈ e.value.toList := by
  simp [isBraced, and_assoc]

theorem isSome_lead {field field' : List Char} (hf : IsWord field) (hf' : IsWord field')
    (hl : IsLead field lead) (ht : hasType t = true) :
    (afterBlanks? hasType field' (lead ++ t)).isSome = true ↔ field' = field := by
  constructor
  · intro h
    obtain ⟨y, hy⟩ := Option.isSome_iff_exists.1 h
    exact word_of_afterBlanks? hf hf' hl hy
  · rintro rfl
    rw [afterBlanks?_lead hf hl, if_pos ht]
    rfl

theorem isSet_own (he' : e' ∈ es) (hf : IsWord e'.word) (hl : IsLead e'.word lead) (ht : hasType t = true) :
    isSet es e'.head (lead ++ t) = true :=
  List.any_eq_true.2 ⟨e', he', by simp [(isSome_lead hf hf hl ht).2 rfl]⟩

theorem isBraced_own (hes : ∀ e ∈ es, e.IsType) (hagree : Agree es) (he' : e' ∈ es) (hl : IsLead e'.word lead)
    (ht : hasType t = true) : isBraced es e'.head (lead ++ t) = e'.value.toList.contains '\x7d' := by
  rw [Bool.eq_iff_iff, isBraced_iff, List.contains_iff_mem]
  constructor
  · rintro ⟨e, he, hhead, hfound, hv⟩
    have hword := (isSome_lead (hes e' he').field (hes e he).field hl ht).1 hfound
    rwa [← hagree e' he' e he hhead hword]
  · exact fun hv => ⟨e', he', rfl, (isSome_lead (hes e' he').field (hes e' he').field hl ht).2 rfl, hv⟩

theorem opens_own (he : e.IsNamed) (he' : e'.IsNamed) (hl : IsLead e'.word lead) (t : List Char) :
    opens e.head (lead ++ t) = opens e.head t :=
  opens_lead he.model he'.field hl t

theorem below_closed (h : opens head l = false) : Reach.closed.below es head l = .closed := by
  simp [Reach.below, h]

/-- With its old type, the line of the field closes the model's type for good only if the new type does. -/
theorem below_old (hes : ∀ e ∈ es, e.IsType) (hagree : Agree es) (he' : e' ∈ es) (hl : IsLead e'.word lead)
    (ht : hasType t = true) (hopens : opens e'.head t = false) (hx : x ≠ .closed) :
    x.below es e'.head (lead ++ t) =
      if t.contains '\x7d' && !e'.value.toList.contains '\x7d' then .bared else x := by
  have hnamed := (hes e' he').toIsNamed
  rw [Reach.below, opens_own hnamed hnamed hl, hopens, isBraced_own hes hagree he' hl ht,
    isSet_own he' hnamed.field hl ht, hl.contains hnamed.field]
  simp [hx]

theorem below_new (hes : ∀ e ∈ es, e.IsType) (hagree : Agree es) (he' : e' ∈ es) (hl : IsLead e'.word lead)
    (x : Reach) : x.below es e'.head (lead ++ e'.value.toList) = x := by
  have hnamed := (hes e' he').toIsNamed
  have hplain := (hes e' he').plain
  rw [Reach.below, opens_own hnamed hnamed hl, Setting.head, hplain.opens, ← Setting.head,
    isBraced_own hes hagree he' hl (hasType_of_isPlain hplain (hes e' he').filled), hl.contains hnamed.field]
  simp

theorem stays_new (hes : ∀ e ∈ es, e.IsType) (he' : e' ∈ es) (hl : IsLead e'.word lead) (o : Bool) :
    stays e'.head o (lead ++ e'.value.toList) = (o && !e'.value.toList.contains '\x7d') :=
  stays_lead (hes e' he').model (hes e' he').field hl (hes e' he').plain o

theorem stays_old (he' : e'.IsNamed) (hl : IsLead e'.word lead) (hopens : opens e'.head t = false) (o : Bool) :
    stays e'.head o (lead ++ t) = (o && !t.contains '\x7d') := by
  rw [stays, opens_own he' he' hl, hopens, hl.contains he'.field, Bool.or_false]

/-- On this line, all other types are closed and stay so. -/
theorem ClearAt.others {x : List Char → Reach} (hes : ∀ e ∈ es, e.IsType) (hat : ClearAt es x (lead ++ t))
    (he' : e' ∈ es) (hx : x e'.head ≠ .closed) (hl : IsLead e'.word lead)
    (ht : afterBlanks? hasType e'.word (lead ++ t) = some t) (he : e ∈ es) (hne : e.head ≠ e'.head) :
    x e.head = .closed ∧ opens e.head (lead ++ t) = false ∧ opens e.head (lead ++ e'.value.toList) = false := by
  obtain ⟨hopens, honly⟩ := (hat e' he' hx t ht).2 e he
  have hnamed := (hes e he).toIsNamed
  have hnamed' := (hes e' he').toIsNamed
  refine ⟨by_contra fun h => hne (honly h), ?_, ?_⟩
  · rw [opens_own hnamed hnamed' hl, hopens]
  · rw [opens_own hnamed hnamed' hl]
    exact (hes e' he').plain.opens _

/-- No more is open, and no more with an edit only. -/
def Reach.Within (x₂ x : Reach) : Prop := (x₂ ≠ .closed → x ≠ .closed) ∧ (x₂ = .bared → x = .bared)

/-- The type is open where it was open before, or where the edit may have taken a brace away. -/
def Reach.Spreads (x : Reach) (o o₂ : Bool) : Prop := o₂ = true → x = .bared ∨ x = .opened ∧ o = true

/-- The same is in sight, but for what is there with an edit only. -/
def Reach.Agrees (x : Reach) (o o₂ : Bool) : Prop :=
  (x = .closed → o = false ∧ o₂ = false) ∧ (x = .opened → o₂ = o)

theorem Reach.Within.opened (h : x₂.Within x) (hx₂ : x₂ ≠ .closed) (hx : x = .opened) : x₂ = .opened := by
  cases x₂ with
  | closed => exact absurd rfl hx₂
  | opened => rfl
  | bared => exact absurd (h.2 rfl) (by simp [hx])

theorem Reach.Within.below (h : x₂.Within x) (es : List Setting) (head l : List Char) :
    (x₂.below es head l).Within (x.below es head l) := by
  unfold Reach.below
  split
  · simp [Reach.Within]
  · split
    · cases x₂ <;> cases x <;> cases isSet es head l <;> simp_all [Reach.Within]
    · exact h

theorem Reach.Spreads.below (h : x.Spreads o o₂) (es : List Setting) (head l : List Char) :
    (x.below es head l).Spreads (stays head o l) (stays head o₂ l) := by
  unfold Reach.below stays
  cases opens head l with
  | true => simp [Reach.Spreads]
  | false =>
    cases l.contains '\x7d' with
    | true => simp [Reach.Spreads]
    | false => simpa using h

theorem Reach.Agrees.below (h : x.Agrees o o₂) (es : List Setting) (head l : List Char) :
    (x.below es head l).Agrees (shows es head o l) (shows es head o₂ l) := by
  unfold Reach.below shows
  cases opens head l with
  | true => simp [Reach.Agrees]
  | false =>
    cases l.contains '\x7d' <;> cases isBraced es head l <;> simp_all [Reach.Agrees]

theorem below_ne_closed (h : o = true → x ≠ .closed) (hs : stays head o l = true) :
    x.below es head l ≠ .closed := by
  rw [stays, Bool.or_eq_true, Bool.and_eq_true, Bool.not_eq_true'] at hs
  unfold Reach.below
  rcases hs with ⟨ho, hl⟩ | hopens
  · rw [hl]
    split
    · simp
    · exact h ho
  · simp [hopens]

section Line

variable {x : List Char → Reach} (hes : ∀ e ∈ es, e.IsType) (hagree : Agree es) (he : e ∈ es)
  (he' : e' ∈ es) (hat : ClearAt es x (lead ++ t)) (hx : x e'.head ≠ .closed) (hl : IsLead e'.word lead)
  (ht : afterBlanks? hasType e'.word (lead ++ t) = some t)

include hes hagree he he' hat hx hl ht

theorem Reach.Within.retyped (h : x₂.Within (x e.head)) :
    (x₂.below es e.head (lead ++ e'.value.toList)).Within ((x e.head).below es e.head (lead ++ t)) := by
  by_cases hhead : e.head = e'.head
  · rw [hhead] at h ⊢
    rw [below_new hes hagree he' hl, below_old hes hagree he' hl (afterBlanks?_eq_some ht).1
      ((hat e' he' hx t ht).2 e' he').1 hx]
    split
    · simp [Reach.Within]
    · exact h
  · obtain ⟨hclosed, hold, hnew⟩ := hat.others hes he' hx hl ht he hhead
    have hclosed₂ : x₂ = .closed := by
      by_contra hne
      exact h.1 hne hclosed
    rw [hclosed, hclosed₂, below_closed hold, below_closed hnew]
    simp [Reach.Within]

theorem Reach.Spreads.retyped (h : (x e.head).Spreads o o₂) :
    ((x e.head).below es e.head (lead ++ t)).Spreads (stays e.head o (lead ++ t))
      (stays e.head o₂ (lead ++ e'.value.toList)) := by
  by_cases hhead : e.head = e'.head
  · have hopens := ((hat e' he' hx t ht).2 e' he').1
    rw [hhead] at h ⊢
    rw [below_old hes hagree he' hl (afterBlanks?_eq_some ht).1 hopens hx, stays_new hes he' hl,
      stays_old (hes e' he').toIsNamed hl hopens]
    intro hs
    obtain ⟨ho₂, hv⟩ := Bool.and_eq_true_iff.1 hs
    rw [hv]
    cases t.contains '\x7d' with
    | true => exact .inl rfl
    | false => simpa using h ho₂
  · obtain ⟨hclosed, hold, hnew⟩ := hat.others hes he' hx hl ht he hhead
    intro hs
    rw [stays, hnew, Bool.or_false] at hs
    exact absurd hclosed (by rcases h (Bool.and_eq_true_iff.1 hs).1 with h | ⟨h, -⟩ <;> simp [h])

theorem Reach.Agrees.retyped (h : (x e.head).Agrees o o₂) :
    ((x e.head).below es e.head (lead ++ t)).Agrees (shows es e.head o (lead ++ t))
      (shows es e.head o₂ (lead ++ e'.value.toList)) := by
  by_cases hhead : e.head = e'.head
  · have hopens := ((hat e' he' hx t ht).2 e' he').1
    have htype := (afterBlanks?_eq_some ht).1
    have hplain := (hes e' he').plain
    have hnamed := (hes e' he').toIsNamed
    rw [hhead] at h ⊢
    rw [below_old hes hagree he' hl htype hopens hx, shows, shows, isBraced_own hes hagree he' hl htype,
      isBraced_own hes hagree he' hl (hasType_of_isPlain hplain (hes e' he').filled),
      opens_own hnamed hnamed hl, opens_own hnamed hnamed hl, hopens, Setting.head, hplain.opens,
      ← Setting.head, hl.contains hnamed.field, hl.contains hnamed.field]
    cases t.contains '\x7d' <;> cases e'.value.toList.contains '\x7d' <;> simp_all [Reach.Agrees]
  · obtain ⟨hclosed, hold, hnew⟩ := hat.others hes he' hx hl ht he hhead
    obtain ⟨rfl, rfl⟩ := h.1 hclosed
    rw [hclosed, below_closed hold, shows, shows, hold, hnew]
    simp [Reach.Agrees]

end Line

theorem Clear.retyped {x x₂ : List Char → Reach} (hes : ∀ e ∈ es, e.IsType) (hagree : Agree es)
    (he' : e' ∈ es) (h : Clear es x ls) (ho' : o' = true → x e'.head ≠ .closed)
    (hx : ∀ e ∈ es, (x₂ e.head).Within (x e.head)) : Clear es x₂ (e'.retyped o' ls) := by
  induction ls generalizing x x₂ o' with
  | nil => trivial
  | cons l ls ih =>
    obtain ⟨hat, hrest⟩ := h
    rcases e'.retyped_cases o' l with ⟨rfl, lead, t', hl, rfl, ht'⟩ | hp
    · obtain ⟨-, hothers⟩ := hat e' he' (ho' rfl) t' ht'
      rw [Setting.retyped_found ht']
      refine ⟨fun e he ho t ht => ?_, ih hrest (fun h => absurd h (by decide)) fun e he =>
        (hx e he).retyped hes hagree he he' hat (ho' rfl) hl ht'⟩
      -- an edit that finds the line is one for the same field
      have hx₁ := (hx e he).1 ho
      have hword := word_of_afterBlanks? (hes e' he').field (hes e he).field hl ht
      have hhead := (hothers e he).2 hx₁
      obtain ⟨hopened, -⟩ := hat e he hx₁ t' (hword ▸ ht')
      rw [hword, Setting.found_own (hes e' he') hl] at ht
      obtain rfl := Option.some.inj ht
      exact ⟨(hx e he).opened ho hopened, fun y hy => ⟨(hes e' he').plain.opens _,
        fun hxy => ((hothers y hy).2 ((hx y hy).1 hxy)).trans hhead.symm⟩⟩
    · rw [Setting.retyped_past hp]
      refine ⟨fun e he ho t ht => ?_, ih hrest (below_ne_closed ho') fun e he => (hx e he).below es _ l⟩
      obtain ⟨hopened, hothers⟩ := hat e he ((hx e he).1 ho) t ht
      exact ⟨(hx e he).opened ho hopened, fun y hy =>
        ⟨(hothers y hy).1, fun hxy => (hothers y hy).2 ((hx y hy).1 hxy)⟩⟩

/-- An edit keeps settled what another has left, on clear lines. -/
theorem Setting.Settled.retyped_of_clear {x : List Char → Reach} (hes : ∀ e ∈ es, e.IsType) (hagree : Agree es)
    (he : e ∈ es) (he' : e' ∈ es) (hclear : Clear es x ls) (h : e.Settled o ls)
    (ho' : o' = true → x e'.head ≠ .closed) (ho : o = true → x e.head ≠ .closed)
    (ho₂ : (x e.head).Spreads o o₂) : e.Settled o₂ (e'.retyped o' ls) := by
  induction ls generalizing x o o₂ o' with
  | nil => rfl
  | cons l ls ih =>
    obtain ⟨hat, hrest⟩ := hclear
    have hoff : ∀ {p : Prop}, false = true → p := fun h => absurd h (by decide)
    -- where the edit comes to its field, it has come to it before
    have hfound : ∀ t ∈ afterBlanks? hasType e.word l, o₂ = true → o = true := by
      intro t ht h
      rcases ho₂ h with hx | ⟨-, ho⟩
      · obtain ⟨hopened, -⟩ := hat e he (by simp [hx]) t ht
        exact absurd hopened (by simp [hx])
      · exact ho
    rcases e'.retyped_cases o' l with ⟨rfl, lead, t', hl, rfl, ht'⟩ | hp'
    · obtain ⟨-, hothers⟩ := hat e' he' (ho' rfl) t' ht'
      rw [Setting.retyped_found ht']
      rcases h.cons with ⟨rfl, lead₂, hl₂, hline, hset⟩ | ⟨hp, hset⟩
      · -- both edits find the line, so they set the same type
        have hword : e.word = e'.word :=
          word_of_afterBlanks? (hes e' he').field (hes e he).field hl (hline ▸ found_own (hes e he) hl₂)
        rw [← hagree e' he' e he ((hothers e he).2 (ho rfl)) hword]
        exact settled_own' (hes e he) (hword ▸ hl) (ih hrest hset hoff hoff hoff)
      · refine settled_past (fun h => Option.eq_none_iff_forall_ne_some.2 fun t ht => ?_)
          (ih hrest hset hoff (below_ne_closed ho) (ho₂.retyped hes hagree he he' hat (ho' rfl) hl ht'))
        have hword := word_of_afterBlanks? (hes e' he').field (hes e he).field hl ht
        rw [← hword] at ht'
        rw [hp (hfound t' ht' h)] at ht'
        cases ht'
    · rw [Setting.retyped_past hp']
      rcases h.cons with ⟨rfl, lead, hl, rfl, hset⟩ | ⟨hp, hset⟩
      · exact settled_own' (hes e he) hl (ih hrest hset (below_ne_closed ho') hoff hoff)
      · refine settled_past (fun h => Option.eq_none_iff_forall_ne_some.2 fun t ht => ?_)
          (ih hrest hset (below_ne_closed ho') (below_ne_closed ho) (ho₂.below es _ l))
        rw [hp (hfound t ht h)] at ht
        cases ht

theorem inSight_retyped {x : List Char → Reach} (hes : ∀ e ∈ es, e.IsType) (hagree : Agree es) (he : e ∈ es)
    (he' : e' ∈ es) (hclear : Clear es x ls) (ho' : o' = true → x e'.head ≠ .closed)
    (ho : (x e.head).Agrees o o₂) : inSight es e o₂ (e'.retyped o' ls) = inSight es e o ls := by
  induction ls generalizing x o o₂ o' with
  | nil => rfl
  | cons l ls ih =>
    obtain ⟨hat, hrest⟩ := hclear
    -- the field is found on the line by both searches or by none
    have hfound : (o₂ && (afterBlanks? hasType e.word l).isSome) =
        (o && (afterBlanks? hasType e.word l).isSome) := by
      cases ht : afterBlanks? hasType e.word l with
      | none => simp
      | some t =>
        by_cases hx : x e.head = .closed
        · rw [(ho.1 hx).1, (ho.1 hx).2]
        · rw [ho.2 (hat e he hx t ht).1]
    rcases e'.retyped_cases o' l with ⟨rfl, lead, t, hl, rfl, ht⟩ | hp
    · have hsame : (afterBlanks? hasType e.word (lead ++ e'.value.toList)).isSome =
          (afterBlanks? hasType e.word (lead ++ t)).isSome := by
        rw [Bool.eq_iff_iff, isSome_lead (hes e' he').field (hes e he).field hl (afterBlanks?_eq_some ht).1,
          isSome_lead (hes e' he').field (hes e he).field hl
            (hasType_of_isPlain (hes e' he').plain (hes e' he').filled)]
      rw [Setting.retyped_found ht, inSight, inSight, hsame, hfound,
        ih hrest (fun h => absurd h (by decide)) (ho.retyped hes hagree he he' hat (ho' rfl) hl ht)]
    · rw [Setting.retyped_past hp, inSight, inSight, hfound, ih hrest (below_ne_closed ho') (ho.below es _ l)]

/-- After all edits, every one of them is settled, and the same is in sight as before. -/
theorem foldl_of_clear (hes : ∀ e ∈ es, e.IsType) (hagree : Agree es) (hclear : Clear es (fun _ => .closed) ls) :
    ∀ e ∈ es, e.Settled false (es.foldl (fun ls e => e.retyped false ls) ls) ∧
      inSight es e false (es.foldl (fun ls e => e.retyped false ls) ls) = inSight es e false ls := by
  have hoff : ∀ {p : Prop}, false = true → p := fun h => absurd h (by decide)
  have hkeep : ∀ ls', (Clear es (fun _ => .closed) ls' ∧
        ∀ e ∈ es, inSight es e false ls' = inSight es e false ls) →
      ∀ e' ∈ es, (Clear es (fun _ => .closed) (e'.retyped false ls') ∧
        ∀ e ∈ es, inSight es e false (e'.retyped false ls') = inSight es e false ls) ∧
        ∀ e ∈ es, e.Settled false ls' → e.Settled false (e'.retyped false ls') := by
    rintro ls' ⟨hls', hsight⟩ e' he'
    refine ⟨⟨hls'.retyped hes hagree he' hoff fun _ _ => ⟨id, id⟩, fun e he => ?_⟩, fun e he h =>
      h.retyped_of_clear hes hagree he he' hls' hoff hoff hoff⟩
    rw [← hsight e he]
    exact inSight_retyped hes hagree he he' hls' hoff ⟨fun _ => ⟨rfl, rfl⟩, fun _ => rfl⟩
  obtain ⟨⟨-, hsight⟩, hsettled⟩ := foldl_retyped hes hkeep (fun _ => id) (List.forall_mem_nil (· ∈ es))
    ⟨hclear, fun _ _ => rfl⟩ (List.forall_mem_nil _)
  exact fun e he => ⟨hsettled e he, hsight e he⟩

theorem shows_settled (hes : ∀ e ∈ es, e.IsType)
    (h : ∀ e ∈ es, e.head = head → '\x7d' ∈ e.value.toList → e.Settled o (l :: ls)) :
    shows es head o l = stays head o l := by
  rw [shows, stays]
  cases hb : o && isBraced es head l with
  | false =>
    cases o <;> simp_all
  | true =>
    obtain ⟨rfl, hb⟩ := Bool.and_eq_true_iff.1 hb
    obtain ⟨e, he, rfl, hfound, hv⟩ := isBraced_iff.1 hb
    rcases (h e he rfl hv).cons with ⟨-, lead, hl, rfl, -⟩ | ⟨hp, -⟩
    · rw [hl.contains (hes e he).field]
      simp [hv]
    · rw [hp rfl] at hfound
      cases hfound

theorem Setting.Settled.below (he : e.IsType) (hv : '\x7d' ∈ e.value.toList) (h : e.Settled o (l :: ls)) :
    e.Settled (stays e.head o l) ls := by
  rcases h.cons with ⟨rfl, lead, hl, rfl, hrest⟩ | ⟨-, hrest⟩
  · rw [Setting.head, stays_lead he.model he.field hl he.plain]
    simpa [hv] using hrest
  · exact hrest

/-- On settled lines, the search comes to what is in sight. -/
theorem inSight_settled (hes : ∀ e ∈ es, e.IsType)
    (h : ∀ e' ∈ es, e'.head = e.head → '\x7d' ∈ e'.value.toList → e'.Settled o ls) :
    inSight es e o ls = (search hasType e.head e.word o ls).isSome := by
  induction ls generalizing o with
  | nil => rfl
  | cons l ls ih =>
    rw [inSight, shows_settled hes h]
    by_cases hp : o = true → afterBlanks? hasType e.word l = none
    · have hnone : (o && (afterBlanks? hasType e.word l).isSome) = false := by
        cases o with
        | false => rfl
        | true => rw [hp rfl]; rfl
      rw [hnone, Bool.false_or, search_past hp]
      exact ih fun e' he' hhead hv => hhead ▸ (h e' he' hhead hv).below (hes e' he') hv
    · obtain ⟨rfl, hne⟩ := Classical.not_imp.1 hp
      obtain ⟨t, ht⟩ := Option.ne_none_iff_exists'.1 hne
      rw [search_open ht, ht]
      rfl

theorem inSight_nil (e : Setting) (o : Bool) (ls : List (List Char)) :
    inSight [] e o ls = (search hasType e.head e.word o ls).isSome :=
  inSight_settled (List.forall_mem_nil Setting.IsType) (by simp)

/-- Only a closing brace in a type hides a field. -/
theorem inSight_eq_of_no_brace (h : ∀ e' ∈ es, '\x7d' ∉ e'.value.toList) (e : Setting) (o : Bool)
    (ls : List (List Char)) : inSight es e o ls = inSight [] e o ls := by
  have hbraced : ∀ l, isBraced es e.head l = isBraced [] e.head l := by
    intro l
    refine Bool.eq_false_iff.2 fun hb => ?_
    obtain ⟨e', he', -, -, hv⟩ := isBraced_iff.1 hb
    exact h e' he' hv
  induction ls generalizing o with
  | nil => rfl
  | cons l ls ih => rw [inSight, inSight, shows, shows, hbraced, ih]

end Lines

section Edits

variable {e : Setting} {types : List Setting} {content : String}

/-- The edit of a type misses its place exactly where the field is out of sight. -/
theorem anchorMissing_iff (he : e.IsType) (content : String) :
    (e.typing.apply content).1 = .anchorMissing ↔ inSight [] e false (lines content.toList) = false := by
  obtain ⟨v, ls, hc, hv, hls⟩ := exists_lines content.toList
  have hseek : (seek? hasType e.head e.word (v ++ below ls)).map Prod.snd =
      search hasType e.head e.word (opens e.head v) ls :=
    seek?_below isLocal_hasType he.field.isLine (isLine_typeHead he.model.isLine) (typeHead_ne_nil _) hls hv
  have hsight : inSight [] e false (lines content.toList) =
      (seek? hasType e.head e.word content.toList).isSome := by
    rw [← Option.isSome_map, hc, hseek, lines_of_isLine hv hls, inSight_nil, search_past (by simp)]
    rfl
  have hrun : (e.typing.change.run? content.toList).isSome = inSight [] e false (lines content.toList) := by
    rw [hsight]
    show (Option.map _ (Option.map _ (seek? hasType e.head e.word content.toList))).isSome = _
    rw [Option.isSome_map, Option.isSome_map]
  rw [← hrun]
  rcases Edit.apply_cases e.typing content with ⟨hchange, -⟩ | ⟨hmarked, -⟩ | ⟨-, hnone, happly⟩ |
    ⟨t, -, hsome, happly⟩
  · cases hchange
  · cases hmarked
  · simp [happly, hnone]
  · rw [happly, hsome]
    split <;> simp

theorem apply_typing_settled (he : e.IsType) (h : e.Settled false (lines content.toList)) :
    e.typing.apply content =
      if inSight [] e false (lines content.toList) then (.alreadyApplied, none) else (.anchorMissing, none) := by
  have hmissing := anchorMissing_iff he content
  have happlied := Edit.applied_iff e.typing content
  rw [Setting.result_typing_eq he h] at happlied
  rcases Edit.apply_cases e.typing content with ⟨hchange, -⟩ | ⟨hmarked, -⟩ | ⟨-, -, happly⟩ |
    ⟨t, -, -, happly⟩
  · cases hchange
  · cases hmarked
  · rw [happly, if_neg (by simp [hmissing.1 (congrArg Prod.fst happly)])]
  · split at happly
    · rw [happly] at hmissing ⊢
      rw [if_pos (by simpa using hmissing)]
    · exact absurd (congrArg Prod.fst happly) (by simpa using happlied)

/-- After all edits of types, each finds its field if it was in sight of the edits before. -/
theorem apply_typing_edited (ht : ∀ e ∈ types, e.IsType) (hagree : Agree types)
    (hclear : Clear types (fun _ => .closed) (lines content.toList)) (he : e ∈ types) :
    e.typing.apply (Batch.edited false content (types.map Setting.typing)) =
      if inSight types e false (lines content.toList) then (.alreadyApplied, none)
      else (.anchorMissing, none) := by
  have hall := foldl_of_clear ht hagree hclear
  have hsettled : ∀ e ∈ types, e.Settled false
      (lines (Batch.edited false content (types.map Setting.typing)).toList) := by
    rw [lines_edited_types ht]
    exact fun e he => (hall e he).1
  have hsight := (hall e he).2
  rw [← lines_edited_types ht, inSight_settled ht fun e' he' _ _ => hsettled e' he', ← inSight_nil] at hsight
  rw [apply_typing_settled (ht e he) (hsettled e he), hsight]

end Edits

end FragmentMerge.Field

namespace FragmentMerge.Plan

open Text

theorem toList_of_splitKey {key model field : String} (h : splitKey key = .ok (model, field)) :
    key.toList = model.toList ++ '.' :: field.toList := by
  rw [splitKey] at h
  split at h
  · cases h
  · next m f hcut =>
    split at h
    · cases h
    · obtain ⟨rfl, rfl⟩ := Prod.mk.inj (Except.ok.inj h)
      rw [(cutFirst?_eq_some_iff.1 hcut).1, String.toList_ofList, String.toList_ofList]

theorem exists_entry {t : Table String} {e : Field.Setting} (he : e ∈ settings t) :
    ∃ x ∈ t.entries, x.1.toList = e.model.toList ++ '.' :: e.field.toList ∧ x.2 = e.value := by
  obtain ⟨x, hx, hset⟩ := List.mem_filterMap.1 he
  obtain ⟨names, hnames, rfl⟩ := Option.map_eq_some_iff.1 hset
  refine ⟨x, hx, ?_, rfl⟩
  cases hk : splitKey x.1 with
  | error err =>
    rw [hk] at hnames
    cases hnames
  | ok names' =>
    rw [hk] at hnames
    obtain rfl := Option.some.inj hnames
    exact toList_of_splitKey hk

theorem agree_settings (t : Table String) : Field.Agree (settings t) := by
  intro e he e' he' hhead hword
  obtain ⟨x, hx, hkey, hvalue⟩ := exists_entry he
  obtain ⟨x', hx', hkey', hvalue'⟩ := exists_entry he'
  have hmodel : e'.model.toList = e.model.toList :=
    List.append_cancel_left (List.append_cancel_right hhead)
  have hfield : e'.field.toList = e.field.toList := hword
  have hkeys : x'.1 = x.1 := String.ext (by rw [hkey, hkey', hmodel, hfield])
  have hfirst : t.find? x.1 = some x.2 := Registry.find?_of_mem hx
  have hsecond : t.find? x.1 = some x'.2 := hkeys ▸ Registry.find?_of_mem hx'
  rw [← hvalue', ← hvalue, ← Option.some.inj (hfirst.symm.trans hsecond)]

variable {t : Table String} {edits : List Edit} {text : String}

/-- Once all types of a table are set, an override finds its field again, and has nothing to do, exactly if no
other one puts a closing brace above the field; otherwise it misses its place. -/
theorem overrides_kept (h : fieldEdits Field.typeEdit t = .ok edits) (htypes : ∀ e ∈ settings t, e.IsType)
    (hclear : Field.Clear (settings t) (fun _ => .closed) (lines text.toList))
    (hfound : ∀ x ∈ edits, (x.apply text).1 ≠ .anchorMissing) :
    edits = (settings t).map Field.Setting.typing ∧
    (∀ e ∈ settings t, e.typing.apply (Batch.edited false text edits) =
      if Field.inSight (settings t) e false (lines text.toList) then (.alreadyApplied, none)
      else (.anchorMissing, none)) ∧
    ((∀ e ∈ settings t, '\x7d' ∉ e.value.toList) →
      ∀ x ∈ edits, x.apply (Batch.edited false text edits) = (.alreadyApplied, none)) := by
  obtain rfl : edits = (settings t).map Field.Setting.typing := fieldEdits_eq h
  have hagain := fun e he => Field.apply_typing_edited htypes (agree_settings t) hclear (e := e) he
  refine ⟨rfl, hagain, fun hbrace x hx => ?_⟩
  obtain ⟨e, he, rfl⟩ := List.mem_map.1 hx
  have hsight : Field.inSight (settings t) e false (lines text.toList) = true := by
    rw [Field.inSight_eq_of_no_brace hbrace, ← Bool.not_eq_false, ← Field.anchorMissing_iff (htypes e he)]
    exact hfound _ hx
  rw [hagain e he, if_pos hsight]

/-- Two overrides of one model, one of which is an object type. -/
def overridden : Table String := Table.ofList [("User.b", "X"), ("User.z", "\x7b y: number \x7d")]

def objectLast : String := "export type User = \x7b\n  b: string\n  z: string\n\x7d\n"

def objectFirst : String := "export type User = \x7b\n  z: string\n  b: string\n\x7d\n"

theorem overrides_kept_above :
    ((settings overridden).map fun e =>
      e.typing.apply (Batch.edited false objectLast ((settings overridden).map Field.Setting.typing))) =
    [(.alreadyApplied, none), (.alreadyApplied, none)] := by
  have hedits : fieldEdits Field.typeEdit overridden =
      .ok ((settings overridden).map Field.Setting.typing) := rfl
  have hclear : Field.Clear (settings overridden) (fun _ => .closed) (lines objectLast.toList) := by decide
  obtain ⟨-, hagain, -⟩ := overrides_kept hedits (by decide) hclear (by decide)
  rw [List.map_congr_left hagain]
  decide

/-- With the fields in the other order, each override finds its field alone, but the object type hides the
field below it. -/
theorem override_hidden : ∃ edits, fieldEdits Field.typeEdit overridden = .ok edits ∧
    (∀ e ∈ settings overridden, e.IsType) ∧ (∀ x ∈ edits, (x.apply objectFirst).1 = .applied) ∧
    ∃ x ∈ edits, x.apply (Batch.edited false objectFirst edits) = (.anchorMissing, none) :=
  ⟨(settings overridden).map Field.Setting.typing, rfl, by decide, by decide, _, List.mem_cons_self, by decide⟩

end FragmentMerge.Plan
