import FragmentMerge.Schema.Key

/-! Changes of a list whose elements belong to fragments. A change within one fragment leaves the elements
of the others where they stand, so changes within different fragments can be made in either order. -/

namespace FragmentMerge

variable {α : Type}

def replaceFirst (p : α → Bool) (f : α → List α) : List α → List α
  | [] => []
  | a :: as => if p a then f a ++ as else a :: replaceFirst p f as

/-- The first of some elements of a fragment gives way to others of the fragment, or all elements of the
fragment are changed where they stand. -/
inductive Within (key : α → ItemKey) (file : String) : (List α → List α) → Prop
  | nothing : Within key file id
  | first {p : α → Bool} {f : α → List α} : (∀ a, p a = true → (key a).file = file) →
      (∀ a, p a = true → ∀ b ∈ f a, (key b).file = file) → Within key file (replaceFirst p f)
  | each {f : α → α} : (∀ a, (key (f a)).file = (key a).file) → (∀ a, (key a).file ≠ file → f a = a) →
      Within key file (List.map f)
  | followed {g h : List α → List α} : Within key file g → Within key file h → Within key file (h ∘ g)

theorem replaceFirst_append_of_not {p : α → Bool} {f : α → List α} {as : List α}
    (h : ∀ a ∈ as, p a = false) (l : List α) : replaceFirst p f (as ++ l) = as ++ replaceFirst p f l := by
  induction as with
  | nil => rfl
  | cons a as ih =>
    rw [List.cons_append, replaceFirst, if_neg (by simp [h a List.mem_cons_self]),
      ih fun b hb => h b (List.mem_cons_of_mem _ hb)]
    rfl

theorem replaceFirst_comm {p q : α → Bool} {f g : α → List α} (hpq : ∀ a, p a = true → q a = false)
    (hf : ∀ a, p a = true → ∀ b ∈ f a, q b = false) (hg : ∀ a, q a = true → ∀ b ∈ g a, p b = false)
    (l : List α) : replaceFirst q g (replaceFirst p f l) = replaceFirst p f (replaceFirst q g l) := by
  induction l with
  | nil => rfl
  | cons a l ih =>
    by_cases hp : p a = true
    · simp only [replaceFirst, hp, hpq a hp, if_true, Bool.false_eq_true, if_false]
      exact replaceFirst_append_of_not (hf a hp) l
    · rw [Bool.not_eq_true] at hp
      by_cases hq : q a = true
      · simp only [replaceFirst, hp, hq, if_true, Bool.false_eq_true, if_false]
        exact (replaceFirst_append_of_not (hg a hq) l).symm
      · rw [Bool.not_eq_true] at hq
        simp only [replaceFirst, hp, hq, Bool.false_eq_true, if_false, ih]

theorem replaceFirst_map {p : α → Bool} {f : α → List α} {g : α → α} (hp : ∀ a, p (g a) = p a)
    (hg : ∀ a, p a = true → g a = a) (hf : ∀ a, p a = true → ∀ b ∈ f a, g b = b) (l : List α) :
    replaceFirst p f (l.map g) = (replaceFirst p f l).map g := by
  induction l with
  | nil => rfl
  | cons a l ih =>
    rw [List.map_cons, replaceFirst, replaceFirst, hp]
    split
    · next h => rw [hg a h, List.map_append, List.map_congr_left (hf a h), List.map_id']
    · rw [ih, List.map_cons]

namespace Within

variable {key : α → ItemKey} {file file' : String} {g h : List α → List α}

theorem first_each {p : α → Bool} {f : α → List α} {k : α → α} (hne : file ≠ file')
    (hp : ∀ a, p a = true → (key a).file = file) (hf : ∀ a, p a = true → ∀ b ∈ f a, (key b).file = file)
    (hk : ∀ a, (key (k a)).file = (key a).file) (hid : ∀ a, (key a).file ≠ file' → k a = a)
    (l : List α) : replaceFirst p f (l.map k) = (replaceFirst p f l).map k := by
  have hown : ∀ a, (key a).file = file → k a = a := fun a ha => hid a (ha ▸ hne)
  refine replaceFirst_map (fun a => ?_) (fun a ha => hown a (hp a ha))
    (fun a ha b hb => hown b (hf a ha b hb)) l
  rw [Bool.eq_iff_iff]
  constructor
  · intro h
    rwa [hown a ((hk a).symm.trans (hp _ h))] at h
  · intro h
    rwa [hown a (hp a h)]

/-- Changes in different fragments do not depend on their order. -/
theorem comm (hg : Within key file g) (hh : Within key file' h) (hne : file ≠ file') (l : List α) :
    h (g l) = g (h l) := by
  induction hg generalizing l with
  | nothing => rfl
  | followed _ _ ih₁ ih₂ => exact (ih₂ _).trans (congrArg _ (ih₁ l))
  | first hp hf =>
    induction hh generalizing l with
    | nothing => rfl
    | followed _ _ ih₁ ih₂ => exact (congrArg _ (ih₁ l)).trans (ih₂ _)
    | each hk hid => exact (first_each hne hp hf hk hid l).symm
    | first hq hg' =>
      have hfile : ∀ {p : α → Bool} {file file' : String} (a : α), file ≠ file' →
          (∀ a, p a = true → (key a).file = file') → (key a).file = file → p a = false :=
        fun a hne hp ha => Bool.eq_false_iff.2 fun h => hne (ha.symm.trans (hp a h))
      exact replaceFirst_comm (fun a ha => hfile a hne hq (hp a ha))
        (fun a ha b hb => hfile b hne hq (hf a ha b hb)) (fun a ha b hb => hfile b hne.symm hp (hg' a ha b hb)) l
  | each hk hid =>
    induction hh generalizing l with
    | nothing => rfl
    | followed _ _ ih₁ ih₂ => exact (congrArg _ (ih₁ l)).trans (ih₂ _)
    | first hq hg' => exact first_each hne.symm hq hg' hk hid l
    | each hk' hid' =>
      rw [List.map_map, List.map_map]
      refine List.map_congr_left fun a _ => ?_
      simp only [Function.comp]
      by_cases ha : (key a).file = file
      · rw [hid' a (ha ▸ hne), hid' _ (by rw [hk, ha]; exact hne)]
      · rw [hid a ha, hid _ (by rw [hk']; exact ha)]

theorem mem_iff (hg : Within key file g) {a : α} (ha : (key a).file ≠ file) {l : List α} :
    a ∈ g l ↔ a ∈ l := by
  induction hg generalizing l with
  | nothing => rfl
  | followed _ _ ih₁ ih₂ => exact ih₂.trans ih₁
  | each hk hid =>
    rw [List.mem_map]
    constructor
    · rintro ⟨b, hb, rfl⟩
      rwa [hid b (hk b ▸ ha)]
    · exact fun h => ⟨a, h, hid a ha⟩
  | @first p f hp hf =>
    induction l with
    | nil => rfl
    | cons b l ih =>
      rw [replaceFirst]
      split
      · next hb =>
        rw [List.mem_append, List.mem_cons]
        exact or_congr_left ⟨fun h => absurd (hf b hb a h) ha, fun h => absurd (h ▸ hp b hb) ha⟩
      · rw [List.mem_cons, List.mem_cons, ih]

end Within

end FragmentMerge
