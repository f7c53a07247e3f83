import FragmentMerge.Proofs.Catalog.Items
import Mathlib.Data.List.Basic

/-! Which pairs are in conflict, and which conflict comes first. An item is in conflict with every later
namesake. The first conflict is the first visible item that has a later namesake, with the first such
namesake. Hiding further items therefore keeps it in front for as long as both its sides stay visible,
and there is no conflict exactly when the visible names are distinct. -/

namespace FragmentMerge.Catalog

theorem foldl_intoGroup (name : String) (ms ks : List ItemKey) (gs : List (String × List ItemKey)) :
    ks.foldl (fun gs k => intoGroup k gs) ((name, ms) :: gs) =
      (name, ms ++ ks.filter (·.name = name)) ::
        (ks.filter (·.name ≠ name)).foldl (fun gs k => intoGroup k gs) gs := by
  induction ks generalizing ms gs with
  | nil => simp
  | cons k ks ih =>
    by_cases hk : name = k.name
    · subst hk
      simp [intoGroup, ih]
    · have hk' : ¬k.name = name := fun h => hk h.symm
      simp [intoGroup, hk, hk', ih]

theorem groups_cons (k : ItemKey) (ks : List ItemKey) :
    groups (k :: ks) = (k.name, k :: ks.filter (·.name = k.name)) ::
      groups (ks.filter (·.name ≠ k.name)) :=
  foldl_intoGroup k.name [k] ks []

theorem nodup_eraseDups : (names : List String) → names.eraseDups.Nodup
  | [] => List.nodup_nil
  | name :: names => by
    rw [List.eraseDups_cons, List.nodup_cons]
    exact ⟨by simp, nodup_eraseDups (names.filter fun n => !n == name)⟩
termination_by names => names.length
decreasing_by exact Nat.lt_succ_of_le (List.length_filter_le _ _)

theorem groups_eq (ks : List ItemKey) : groups ks =
    (ks.map ItemKey.name).eraseDups.map fun name => (name, ks.filter (·.name = name)) := by
  induction h : ks.length using Nat.strongRecOn generalizing ks with
  | ind n ih =>
    cases ks with
    | nil => rfl
    | cons k ks =>
      have hlt : (ks.filter (·.name ≠ k.name)).length < n := by
        have := List.length_filter_le (fun x : ItemKey => decide (x.name ≠ k.name)) ks
        simp only [List.length_cons] at h
        omega
      have hnames : (ks.filter (·.name ≠ k.name)).map ItemKey.name =
          (ks.map ItemKey.name).filter fun name => !name == k.name := by
        rw [List.filter_map]
        refine congrArg _ (List.filter_congr fun x _ => ?_)
        by_cases hx : x.name = k.name <;> simp [hx]
      rw [groups_cons, ih _ hlt _ rfl, hnames, List.map_cons, List.eraseDups_cons, List.map_cons]
      refine congrArg₂ _ (by simp) (List.map_congr_left fun name hname => ?_)
      have hne : name ≠ k.name := by simpa using (List.mem_filter.1 (List.mem_eraseDups.1 hname)).2
      rw [List.filter_filter, List.filter_cons_of_neg (by simpa using hne.symm)]
      refine congrArg _ (List.filter_congr fun x _ => ?_)
      by_cases hx : x.name = name
      · simp [hx, hne]
      · simp [hx]

theorem pairs_groups (ks : List ItemKey) : ((groups ks).flatMap fun g => pairs g.2) =
    (ks.map ItemKey.name).eraseDups.flatMap fun name => pairs (ks.filter (·.name = name)) := by
  rw [groups_eq, List.flatMap_map]

theorem mem_pairs {α : Type} {l : List α} {a b : α} : (a, b) ∈ pairs l ↔ [a, b].Sublist l := by
  induction l with
  | nil => simp [pairs]
  | cons x l ih =>
    rw [pairs, List.mem_append, ih, List.cons_sublist_cons', List.singleton_sublist, List.mem_map, or_comm]
    refine or_congr_right ⟨?_, ?_⟩
    · rintro ⟨y, hy, he⟩
      obtain ⟨rfl, rfl⟩ := Prod.mk.inj he
      exact ⟨rfl, hy⟩
    · rintro ⟨rfl, hb⟩
      exact ⟨b, hb, rfl⟩

theorem name_of_mem_pairs {ks : List ItemKey} {name : String} {p : ItemKey × ItemKey}
    (h : p ∈ pairs (ks.filter (·.name = name))) : p.1.name = name ∧ p.2.name = name := by
  have hsub := (mem_pairs.1 h).subset
  exact ⟨by simpa using (List.mem_filter.1 (hsub (a := p.1) (by simp))).2,
    by simpa using (List.mem_filter.1 (hsub (a := p.2) (by simp))).2⟩

theorem mem_pairs_groups {ks : List ItemKey} {p : ItemKey × ItemKey} :
    p ∈ ((groups ks).flatMap fun g => pairs g.2) ↔ [p.1, p.2].Sublist ks ∧ p.1.name = p.2.name := by
  obtain ⟨a, b⟩ := p
  rw [pairs_groups, List.mem_flatMap]
  constructor
  · rintro ⟨name, -, h⟩
    obtain ⟨ha, hb⟩ := name_of_mem_pairs h
    exact ⟨(mem_pairs.1 h).trans List.filter_sublist, ha.trans hb.symm⟩
  · rintro ⟨hsub, hname⟩
    have hboth : [a, b].filter (·.name = a.name) = [a, b] := by
      simpa using hname.symm
    have hsub' := hsub.filter (·.name = a.name)
    rw [hboth] at hsub'
    exact ⟨a.name, List.mem_eraseDups.2 (List.mem_map_of_mem (hsub.subset (by simp))), mem_pairs.2 hsub'⟩

/-- The first item that has a later namesake, with the first such namesake. -/
def firstPair? : List ItemKey → Option (ItemKey × ItemKey)
  | [] => none
  | k :: ks =>
    match ks.find? (·.name = k.name) with
    | some k' => some (k, k')
    | none => firstPair? ks

theorem head?_pairs_groups (ks : List ItemKey) :
    ((groups ks).flatMap fun g => pairs g.2).head? = firstPair? ks := by
  induction ks with
  | nil => rfl
  | cons k ks ih =>
    rw [groups_cons, List.flatMap_cons, firstPair?]
    cases hf : ks.find? (·.name = k.name) with
    | none =>
      have hnone : ∀ x ∈ ks, ¬x.name = k.name := by simpa using hf
      have hsame : ks.filter (·.name = k.name) = [] :=
        List.filter_eq_nil_iff.2 fun x hx => by simpa using hnone x hx
      have hother : ks.filter (·.name ≠ k.name) = ks :=
        List.filter_eq_self.2 fun x hx => by simpa using hnone x hx
      rw [hsame, hother]
      simpa [pairs] using ih
    | some k' =>
      have hhead : (ks.filter (·.name = k.name)).head? = some k' := by
        rw [List.head?_filter]
        exact hf
      cases hms : ks.filter (·.name = k.name) with
      | nil => simp [hms] at hhead
      | cons m ms =>
        obtain rfl : m = k' := by simpa [hms] using hhead
        simp [pairs]

theorem conflicts_eq_map (c : Catalog) (hidden : List ItemKey) :
    c.conflicts hidden =
      ((groups (c.visibleKeys hidden)).flatMap fun g => pairs g.2).map c.conflictOf := by
  simp [conflicts, List.map_flatMap]

theorem head?_conflicts (c : Catalog) (hidden : List ItemKey) :
    (c.conflicts hidden).head? = (firstPair? (c.visibleKeys hidden)).map c.conflictOf := by
  rw [conflicts_eq_map, List.head?_map, head?_pairs_groups]

theorem kindOf?_of_items {c c' : Catalog} (h : c'.items = c.items) (k : ItemKey) :
    c'.kindOf? k = c.kindOf? k := by
  have hm : ∀ d : Catalog, (d.model? k).isSome = decide ((.model, k) ∈ d.items) := fun d => by
    rw [Bool.eq_iff_iff, decide_eq_true_iff, mem_items_model]
    simp [model?]
  have he : ∀ d : Catalog, (d.enum? k).isSome = decide ((.enum, k) ∈ d.items) := fun d => by
    rw [Bool.eq_iff_iff, decide_eq_true_iff, mem_items_enum]
    simp [enum?]
  simp only [kindOf?, hm, he, h]

theorem conflicts_of_items {c c' : Catalog} (h : c'.items = c.items) (hidden : List ItemKey) :
    c'.conflicts hidden = c.conflicts hidden := by
  have hof : c'.conflictOf = c.conflictOf := funext fun p => by
    simp only [conflictOf, kindOf?_of_items h]
  rw [conflicts_eq_map, conflicts_eq_map, hof, visibleKeys, visibleKeys, keys_eq_map_items,
    keys_eq_map_items, h]

theorem firstPair?_eq_none {ks : List ItemKey} :
    firstPair? ks = none ↔ (ks.map (·.name)).Nodup := by
  induction ks with
  | nil => simp [firstPair?]
  | cons k ks ih =>
    rw [firstPair?, List.map_cons, List.nodup_cons, ← ih]
    cases hf : ks.find? (·.name = k.name) with
    | none =>
      have hnone : ∀ x ∈ ks, ¬x.name = k.name := by simpa using hf
      simpa using fun _ => hnone
    | some k' =>
      have hmem := List.mem_of_find?_eq_some hf
      have hname : k'.name = k.name := by simpa using List.find?_some hf
      simpa using fun h => absurd hname (h k' hmem)

theorem conflicts_eq_nil {c : Catalog} {hidden : List ItemKey} :
    c.conflicts hidden = [] ↔ ((c.visibleKeys hidden).map (·.name)).Nodup := by
  rw [← firstPair?_eq_none, ← List.head?_eq_none_iff, head?_conflicts, Option.map_eq_none_iff]

theorem firstPair?_eq_some {ks : List ItemKey} {a b : ItemKey} (h : firstPair? ks = some (a, b)) :
    a.name = b.name ∧ [a, b].Sublist ks := by
  induction ks with
  | nil => cases h
  | cons k ks ih =>
    rw [firstPair?] at h
    split at h
    · next k' hk' =>
      obtain ⟨rfl, rfl⟩ := Prod.mk.inj (Option.some.inj h)
      have hname : k'.name = k.name := by simpa using List.find?_some hk'
      exact ⟨hname.symm, .cons_cons k (List.singleton_sublist.2 (List.mem_of_find?_eq_some hk'))⟩
    · obtain ⟨hname, hsub⟩ := ih h
      exact ⟨hname, hsub.cons k⟩

/-- The sides of the first conflict are of one name and of two fragments. -/
theorem sides_of_head? {c : Catalog} {hidden : List ItemKey} {x : Conflict} (hn : c.keys.Nodup)
    (h : (c.conflicts hidden).head? = some x) :
    x.right.name = x.left.name ∧ x.right.file ≠ x.left.file := by
  rw [head?_conflicts, Option.map_eq_some_iff] at h
  obtain ⟨⟨a, b⟩, hp, rfl⟩ := h
  obtain ⟨hname, hsub⟩ := firstPair?_eq_some hp
  have hne : a ≠ b := by simpa using (hn.filter _).sublist hsub
  refine ⟨hname.symm, fun hfile => hne ?_⟩
  obtain ⟨f, n⟩ := a
  obtain ⟨g, m⟩ := b
  exact ItemKey.mk.injEq f n g m ▸ ⟨hfile.symm, hname⟩

theorem sides_visible {c : Catalog} {hidden : List ItemKey} {x : Conflict}
    (h : x ∈ c.conflicts hidden) :
    x.left ∈ c.visibleKeys hidden ∧ x.right ∈ c.visibleKeys hidden := by
  rw [conflicts_eq_map, List.mem_map] at h
  obtain ⟨p, hp, rfl⟩ := h
  have hsub := (mem_pairs_groups.1 hp).1
  exact ⟨hsub.subset (by simp [conflictOf]), hsub.subset (by simp [conflictOf])⟩

theorem mem_visibleKeys {c : Catalog} {hidden : List ItemKey} {k : ItemKey} :
    k ∈ c.visibleKeys hidden ↔ k ∈ c.keys ∧ k ∉ hidden := by
  simp [visibleKeys]

theorem firstPair?_filter {p : ItemKey → Bool} {ks : List ItemKey} {a b : ItemKey}
    (h : firstPair? ks = some (a, b)) (ha : p a) (hb : p b) :
    firstPair? (ks.filter p) = some (a, b) := by
  induction ks with
  | nil => simp [firstPair?] at h
  | cons k ks ih =>
    rw [firstPair?] at h
    cases hf : ks.find? (·.name = k.name) with
    | some k' =>
      rw [hf] at h
      obtain ⟨rfl, rfl⟩ := Prod.mk.inj (Option.some.inj h)
      have hf' : (ks.filter p).find? (·.name = k.name) = some k' := by
        have hname := List.find?_some hf
        obtain ⟨pre, post, rfl, hpre⟩ := List.find?_eq_some_iff_append.1 hf |>.2
        simp only [List.filter_append, List.find?_append, List.filter_cons, hb, if_true]
        have hnone : (pre.filter p).find? (·.name = k.name) = none :=
          List.find?_eq_none.2 fun x hx => by simpa using hpre x (List.mem_filter.1 hx).1
        simp [hnone, hname]
      simp [ha, firstPair?, hf']
    | none =>
      rw [hf] at h
      have hrest := ih h
      by_cases hk : p k
      · have hf' : (ks.filter p).find? (·.name = k.name) = none :=
          List.find?_eq_none.2 fun x hx => List.find?_eq_none.1 hf x (List.mem_filter.1 hx).1
        simpa [List.filter_cons, hk, firstPair?, hf'] using hrest
      · simpa [List.filter_cons, hk] using hrest

/-- The first conflict stays the first when more items are hidden, unless one of its sides is. -/
theorem head?_conflicts_of_subset {c : Catalog} {hidden hidden' : List ItemKey} {x : Conflict}
    (hsub : hidden ⊆ hidden') (h : (c.conflicts hidden).head? = some x)
    (hx : x ∈ c.conflicts hidden') : (c.conflicts hidden').head? = some x := by
  obtain ⟨hl, hr⟩ := sides_visible hx
  rw [head?_conflicts, Option.map_eq_some_iff] at h
  obtain ⟨⟨a, b⟩, hp, rfl⟩ := h
  have hvis : c.visibleKeys hidden' = (c.visibleKeys hidden).filter (!hidden'.contains ·) := by
    simp only [visibleKeys, List.filter_filter]
    refine List.filter_congr fun k _ => ?_
    by_cases hk : k ∈ hidden
    · simp [hk, hsub hk]
    · simp [hk]
  have ha : (!hidden'.contains a) = true := by
    simpa [conflictOf] using (mem_visibleKeys.1 hl).2
  have hb : (!hidden'.contains b) = true := by
    simpa [conflictOf] using (mem_visibleKeys.1 hr).2
  rw [head?_conflicts, hvis, firstPair?_filter hp ha hb]
  rfl

end FragmentMerge.Catalog
