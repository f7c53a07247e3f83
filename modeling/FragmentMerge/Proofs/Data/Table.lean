import FragmentMerge.Data.Table
import Mathlib.Data.List.Induction
import Mathlib.Data.List.Perm.Basic

/-! Look-ups in tables. An insertion changes what is found for its key alone, so a table made from a list
holds the last entry of the list for each key. -/

namespace FragmentMerge.Table

variable {α β : Type}

theorem pairwise_ne (t : Table α) : t.entries.Pairwise fun e e' => e.1 ≠ e'.1 := by
  have h : t.entries.Pairwise fun e e' => e.1 < e'.1 := t.ascending
  exact h.imp fun hlt => String.ne_of_lt hlt

theorem lookup_cons_eq (e : String × α) (es : List (String × α)) (k : String) :
    (e :: es).lookup k = if k = e.1 then some e.2 else es.lookup k := by
  rw [List.lookup_cons]
  by_cases h : k = e.1
  · simp [h]
  · rw [beq_eq_false_iff_ne.2 h, if_neg h]

theorem lookup_insertIn (k k' : String) (v : α) (es : List (String × α)) :
    (insertIn k v es).lookup k' = if k' = k then some v else es.lookup k' := by
  induction es with
  | nil => rw [insertIn, lookup_cons_eq]
  | cons e es ih =>
    rw [insertIn]
    split
    · rw [lookup_cons_eq]
    · next hk =>
      split
      · next hk' =>
        rw [lookup_cons_eq, lookup_cons_eq, ih]
        have hne : k ≠ e.1 := (String.ne_of_lt hk').symm
        grind
      · next hk' =>
        obtain rfl : e.1 = k := String.le_antisymm (String.not_lt.1 hk) (String.not_lt.1 hk')
        rw [lookup_cons_eq, lookup_cons_eq]
        grind

theorem find?_insert (t : Table α) (k k' : String) (v : α) :
    (t.insert k v).find? k' = if k' = k then some v else t.find? k' :=
  lookup_insertIn k k' v t.entries

theorem find?_empty (k : String) : (empty : Table α).find? k = none := rfl

theorem find?_ofList (es : List (String × α)) (k : String) : (ofList es).find? k = es.reverse.lookup k := by
  induction es using List.reverseRecOn with
  | nil => rfl
  | append_singleton es e ih =>
    have hlast : ofList (es ++ [e]) = (ofList es).insert e.1 e.2 := by
      rw [ofList, List.foldl_append]
      rfl
    rw [hlast, find?_insert, ih, List.reverse_concat, lookup_cons_eq]

theorem find?_ofList_map (key : β → String) (entry : String → α) (xs : List β) (k : String) :
    (ofList (xs.map fun x => (key x, entry (key x)))).find? k =
      if k ∈ xs.map key then some (entry k) else none := by
  have hrev : ∀ ys : List β, (ys.map fun x => (key x, entry (key x))).lookup k =
      if k ∈ ys.map key then some (entry k) else none := by
    intro ys
    induction ys with
    | nil => rfl
    | cons y ys ih =>
      rw [List.map_cons, lookup_cons_eq, ih, List.map_cons]
      grind
  rw [find?_ofList, ← List.map_reverse, hrev, List.map_reverse]
  simp

theorem insertIn_perm {k : String} {es : List (String × α)} (v : α) (hk : k ∉ es.map (·.1)) :
    (insertIn k v es).Perm ((k, v) :: es) := by
  induction es with
  | nil => exact .refl _
  | cons e es ih =>
    obtain ⟨hne, hk⟩ := not_or.1 fun h => hk (List.mem_cons.2 h)
    rw [insertIn]
    split
    · exact .refl _
    · split
      · exact ((ih hk).cons e).trans (.swap ..)
      · next h h' => exact absurd (String.le_antisymm (String.not_lt.1 h') (String.not_lt.1 h)) hne

theorem foldl_insert_perm {es : List (String × α)} {t : Table α}
    (hd : ((es ++ t.entries).map (·.1)).Nodup) :
    (es.foldl (fun t (k, v) => t.insert k v) t).entries.Perm (es ++ t.entries) := by
  induction es generalizing t with
  | nil => exact .refl _
  | cons e es ih =>
    have hswap : (es ++ (e :: t.entries)).Perm (e :: es ++ t.entries) := List.perm_middle
    have hk : e.1 ∉ t.entries.map (·.1) := fun hm =>
      (List.nodup_cons.1 hd).1 (List.map_subset _ (List.subset_append_right es t.entries) hm)
    have hinsert : (t.insert e.1 e.2).entries.Perm (e :: t.entries) := insertIn_perm e.2 hk
    have hstep := (hinsert.append_left es).trans hswap
    exact (ih ((hstep.map _).nodup_iff.2 hd)).trans hstep

/-- A table does not depend on the order in which its entries are put in. -/
theorem ofList_of_perm {es : List (String × α)} {t : Table α} (h : es.Perm t.entries) : ofList es = t := by
  have hd : (t.entries.map (·.1)).Nodup := List.pairwise_map.2 t.pairwise_ne
  have hperm : (ofList es).entries.Perm (es ++ []) :=
    foldl_insert_perm (t := empty) (by rw [empty, List.append_nil]; exact (h.map _).nodup_iff.2 hd)
  rw [List.append_nil] at hperm
  refine ext (List.Perm.eq_of_pairwise ?_ (ofList es).ascending t.ascending (hperm.trans h))
  exact fun e f _ _ hlt hgt => absurd (String.lt_trans hlt hgt) (String.lt_irrefl _)

end FragmentMerge.Table
