import Mathlib.Data.List.Forall2
import Mathlib.Data.List.Nodup

/-! Lists that are aligned element by element, and lists that are aligned with a selection of another. -/

namespace FragmentMerge

variable {α β γ : Type} {R : α → β → Prop} {S : β → γ → Prop} {T : α → γ → Prop}

theorem forall₂_trans {as : List α} {bs : List β} {cs : List γ}
    (hT : ∀ a b c, R a b → S b c → T a c) (h : List.Forall₂ R as bs) (g : List.Forall₂ S bs cs) :
    List.Forall₂ T as cs := by
  induction h generalizing cs with
  | nil => exact List.forall₂_nil_left_iff.1 g ▸ .nil
  | cons hab _ ih =>
    obtain ⟨_, _, hbc, hrest, rfl⟩ := List.forall₂_cons_left_iff.1 g
    exact .cons (hT _ _ _ hab hbc) (ih hrest)

theorem forall₂_turned {as : List α} {bs : List β} {Q : β → α → Prop} (h : List.Forall₂ R as bs)
    (hQ : ∀ a ∈ as, ∀ b, R a b → Q b a) : List.Forall₂ Q bs as := by
  induction h with
  | nil => exact .nil
  | cons hab _ ih =>
    exact .cons (hQ _ List.mem_cons_self _ hab) (ih fun a ha => hQ a (List.mem_cons_of_mem _ ha))

theorem exists_of_forall₂ {as : List α} {bs : List β} (h : List.Forall₂ R as bs) {b : β}
    (hb : b ∈ bs) : ∃ a ∈ as, R a b := by
  induction h with
  | nil => cases hb
  | cons hab _ ih =>
    rcases List.mem_cons.1 hb with rfl | hb
    · exact ⟨_, List.mem_cons_self, hab⟩
    · obtain ⟨a, ha, hr⟩ := ih hb
      exact ⟨a, List.mem_cons_of_mem _ ha, hr⟩

theorem getElem?_of_forall₂ {as : List α} {bs : List β} (h : List.Forall₂ R as bs) {i : Nat} {b : β}
    (hb : bs[i]? = some b) : ∃ a, as[i]? = some a ∧ R a b := by
  induction h generalizing i with
  | nil => cases hb
  | cons hab _ ih =>
    cases i with
    | zero =>
      obtain rfl := Option.some.inj hb
      exact ⟨_, rfl, hab⟩
    | succ i => exact ih hb

theorem forall₂_filter_trans {p r : α → Bool} {q : β → Bool} {as : List α} {bs : List β} {cs : List γ}
    (hp : ∀ a, p a = false → r a = false) (hq : ∀ a b, R a b → r a = q b)
    (hT : ∀ a b c, R a b → S b c → T a c) (h : List.Forall₂ R (as.filter p) bs)
    (g : List.Forall₂ S (bs.filter q) cs) : List.Forall₂ T (as.filter r) cs := by
  induction as generalizing bs cs with
  | nil =>
    obtain rfl : bs = [] := by simpa using h
    obtain rfl : cs = [] := by simpa using g
    exact .nil
  | cons a as ih =>
    cases ha : p a with
    | false =>
      rw [List.filter_cons_of_neg (by simp [ha])] at h
      rw [List.filter_cons_of_neg (by simp [hp a ha])]
      exact ih h g
    | true =>
      rw [List.filter_cons_of_pos ha] at h
      obtain ⟨b, bs, hab, hrest, rfl⟩ := List.forall₂_cons_left_iff.1 h
      cases hb : q b with
      | false =>
        rw [List.filter_cons_of_neg (by simp [hb])] at g
        rw [List.filter_cons_of_neg (by simp [hq a b hab, hb])]
        exact ih hrest g
      | true =>
        rw [List.filter_cons_of_pos hb] at g
        rw [List.filter_cons_of_pos (by simp [hq a b hab, hb])]
        obtain ⟨c, cs, hbc, hrest', rfl⟩ := List.forall₂_cons_left_iff.1 g
        exact .cons (hT a b c hab hbc) (ih hrest hrest')

theorem mem_zip_iff {as : List α} {bs : List β} {a : α} {b : β} :
    (a, b) ∈ as.zip bs ↔ ∃ i : Nat, as[i]? = some a ∧ bs[i]? = some b := by
  rw [List.mem_iff_getElem?]
  exact exists_congr fun i => List.getElem?_zip_eq_some

theorem zip_right_unique {as : List α} {bs : List β} {a : α} {b b' : β} (hn : as.Nodup)
    (h : (a, b) ∈ as.zip bs) (h' : (a, b') ∈ as.zip bs) : b = b' := by
  obtain ⟨i, ha, hb⟩ := mem_zip_iff.1 h
  obtain ⟨j, ha', hb'⟩ := mem_zip_iff.1 h'
  obtain rfl := (List.getElem?_inj (List.getElem?_eq_some_iff.1 ha).1 hn).1 (ha.trans ha'.symm)
  exact Option.some.inj (hb.symm.trans hb')

theorem exists_left_of_mem {as : List α} {bs : List β} {b : β} (hl : bs.length = as.length)
    (h : b ∈ bs) : ∃ a, (a, b) ∈ as.zip bs := by
  obtain ⟨i, hi, rfl⟩ := List.getElem_of_mem h
  exact ⟨as[i], mem_zip_iff.2 ⟨i, List.getElem?_eq_getElem (hl ▸ hi), List.getElem?_eq_getElem hi⟩⟩

theorem exists_right_of_mem {as : List α} {bs : List β} {a : α} (hl : bs.length = as.length)
    (h : a ∈ as) : ∃ b, (a, b) ∈ as.zip bs := by
  obtain ⟨i, hi, rfl⟩ := List.getElem_of_mem h
  exact ⟨bs[i], mem_zip_iff.2 ⟨i, List.getElem?_eq_getElem hi, List.getElem?_eq_getElem (hl ▸ hi)⟩⟩

theorem mem_zip_map_right {as : List α} {bs : List β} {f : β → γ} {a : α} {c : γ} :
    (a, c) ∈ as.zip (bs.map f) ↔ ∃ b, (a, b) ∈ as.zip bs ∧ f b = c := by
  simp [List.zip_map_right]

theorem mem_zip_self {as : List α} {a : α} (h : a ∈ as) : (a, a) ∈ as.zip as := by
  obtain ⟨i, hi, rfl⟩ := List.getElem_of_mem h
  exact mem_zip_iff.2 ⟨i, List.getElem?_eq_getElem hi, List.getElem?_eq_getElem hi⟩

end FragmentMerge
