import Mathlib.Data.List.Induction
import Mathlib.Data.List.Nodup

/-! The first elements of a list for each key, in the order of the list. A list is taken to grow at its
end, as lists do that are filled one by one: a further element counts if no earlier one has its key. -/

namespace FragmentMerge

variable {α κ : Type} [DecidableEq κ]

/-- The elements whose key no earlier element has. -/
def firstsBy (key : α → κ) (l : List α) : List α := l.eraseDupsBy fun a b => key a == key b

@[simp] theorem firstsBy_nil (key : α → κ) : firstsBy key [] = [] := rfl

theorem firstsBy_cons (key : α → κ) (a : α) (l : List α) :
    firstsBy key (a :: l) = a :: firstsBy key (l.filter fun b => key b ≠ key a) := by
  rw [firstsBy, List.eraseDupsBy_cons, firstsBy]
  simp

theorem eraseDupsBy_loop_concat (r : α → α → Bool) (l bs : List α) (a : α) :
    List.eraseDupsBy.loop r (l ++ [a]) bs =
      if (List.eraseDupsBy.loop r l bs).any (r a) then List.eraseDupsBy.loop r l bs
      else List.eraseDupsBy.loop r l bs ++ [a] := by
  induction l generalizing bs with
  | nil => cases h : bs.any (r a) <;> simp [List.eraseDupsBy.loop, h]
  | cons b l ih =>
    rw [List.cons_append, List.eraseDupsBy.loop, List.eraseDupsBy.loop]
    cases bs.any (r b)
    · exact ih (b :: bs)
    · exact ih bs

/-- What has counted so far decides whether a further element counts. -/
theorem firstsBy_concat_of_firsts (key : α → κ) (l : List α) (a : α) :
    firstsBy key (l ++ [a]) =
      if key a ∈ (firstsBy key l).map key then firstsBy key l else firstsBy key l ++ [a] := by
  have hany : ((firstsBy key l).any fun b => key a == key b) = true ↔ key a ∈ (firstsBy key l).map key := by
    simp only [List.any_eq_true, beq_iff_eq, List.mem_map, eq_comm (a := key a)]
  rw [← if_congr hany rfl rfl]
  exact eraseDupsBy_loop_concat _ l [] a

theorem mem_map_firstsBy {key : α → κ} {l : List α} {k : κ} :
    k ∈ (firstsBy key l).map key ↔ k ∈ l.map key := by
  induction l using List.reverseRecOn with
  | nil => rfl
  | append_singleton l a ih =>
    rw [firstsBy_concat_of_firsts, List.map_append, List.mem_append, List.map_singleton,
      List.mem_singleton, ← ih]
    split
    · next hold => exact ⟨.inl, fun h => h.elim id (· ▸ hold)⟩
    · rw [List.map_append, List.mem_append, List.map_singleton, List.mem_singleton]

theorem firstsBy_concat (key : α → κ) (l : List α) (a : α) :
    firstsBy key (l ++ [a]) = if key a ∈ l.map key then firstsBy key l else firstsBy key l ++ [a] := by
  rw [firstsBy_concat_of_firsts, if_congr mem_map_firstsBy rfl rfl]

theorem nodup_map_firstsBy (key : α → κ) (l : List α) : ((firstsBy key l).map key).Nodup := by
  induction l using List.reverseRecOn with
  | nil => exact List.nodup_nil
  | append_singleton l a ih =>
    rw [firstsBy_concat_of_firsts]
    split
    · exact ih
    · next hnew =>
      rw [List.map_append, List.map_singleton, List.nodup_append]
      refine ⟨ih, List.nodup_singleton _, ?_⟩
      rintro x hx y hy rfl
      exact hnew (List.mem_singleton.1 hy ▸ hx)

end FragmentMerge
