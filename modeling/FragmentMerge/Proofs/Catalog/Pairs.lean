import FragmentMerge.Proofs.Catalog.Conflict
import Mathlib.Algebra.BigOperators.Group.List.Basic
import Mathlib.Data.List.Nodup
import Mathlib.Data.Nat.Choose.Basic

/-! All conflicts. Any two visible items of one name are in conflict once, the earlier one on the left, so
a name with `k` bearers has `k * (k - 1) / 2` conflicts. Names come in the order in which they first
appear, and the conflicts of one name in load order. -/

namespace FragmentMerge.Catalog

section Order

variable {α : Type} {l : List α} {a b : α}

theorem sublist_or_sublist (ha : a ∈ l) (hb : b ∈ l) (hne : a ≠ b) :
    [a, b].Sublist l ∨ [b, a].Sublist l := by
  obtain ⟨s, t, rfl⟩ := List.append_of_mem ha
  rcases List.mem_append.1 hb with hb | hb
  · right
    exact (List.singleton_sublist.2 hb).append (List.singleton_sublist.2 List.mem_cons_self)
  · left
    have hb : b ∈ t := (List.mem_cons.1 hb).resolve_left hne.symm
    exact ((List.singleton_sublist.2 hb).cons_cons a).trans (List.sublist_append_right s _)

theorem not_sublist_self (hn : l.Nodup) : ¬ [a, a].Sublist l := by
  intro h
  simpa using hn.sublist h

theorem not_sublist_swap (hn : l.Nodup) (h : [a, b].Sublist l) : ¬ [b, a].Sublist l := by
  intro h'
  induction l with
  | nil => simp at h
  | cons x l ih =>
    rw [List.nodup_cons] at hn
    rw [List.cons_sublist_cons', List.singleton_sublist] at h h'
    rcases h with h | ⟨rfl, hb⟩ <;> rcases h' with h' | ⟨rfl, ha⟩
    · exact ih hn.2 h h'
    · exact hn.1 (h.subset (by simp))
    · exact hn.1 (h'.subset (by simp))
    · exact hn.1 hb

end Order

theorem length_pairs {α : Type} (l : List α) : (pairs l).length = l.length * (l.length - 1) / 2 := by
  induction l with
  | nil => simp [pairs]
  | cons x l ih =>
    rw [pairs, List.length_append, List.length_map, ih, List.length_cons, Nat.triangle_succ, Nat.add_comm]

/-- Pairs come in the order of their first elements, those of one first element in the order of the
second ones. -/
theorem pairwise_pairs {α : Type} (l : List α) : (pairs l).Pairwise fun p q =>
    [p.1, q.1].Sublist l ∨ p.1 = q.1 ∧ [p.2, q.2].Sublist l := by
  induction l with
  | nil => exact .nil
  | cons x l ih =>
    refine List.pairwise_append.2 ⟨?_, ih.imp fun h => ?_, ?_⟩
    · have hl : l.Pairwise fun b c => [b, c].Sublist l := List.pairwise_iff_forall_sublist.2 id
      exact List.pairwise_map.2 (hl.imp fun h => .inr ⟨rfl, h.cons x⟩)
    · exact h.imp (·.cons x) fun h => ⟨h.1, h.2.cons x⟩
    · rintro _ hp ⟨b, c⟩ hq
      obtain ⟨y, -, rfl⟩ := List.mem_map.1 hp
      have hb : b ∈ l := (mem_pairs.1 hq).subset (by simp)
      exact .inl ((List.singleton_sublist.2 hb).cons_cons x)

theorem pairwise_pairs_groups (ks : List ItemKey) :
    ((groups ks).flatMap fun g => pairs g.2).Pairwise fun p q =>
      [p.1.name, q.1.name].Sublist (ks.map ItemKey.name).eraseDups ∨
        p.1.name = q.1.name ∧ ([p.1, q.1].Sublist ks ∨ p.1 = q.1 ∧ [p.2, q.2].Sublist ks) := by
  rw [pairs_groups, List.pairwise_flatMap]
  refine ⟨fun name _ => (pairwise_pairs _).imp_of_mem fun hp hq h => .inr ⟨?_, ?_⟩, ?_⟩
  · rw [(name_of_mem_pairs hp).1, (name_of_mem_pairs hq).1]
  · exact h.imp (·.trans List.filter_sublist) fun h => ⟨h.1, h.2.trans List.filter_sublist⟩
  · refine List.pairwise_iff_forall_sublist.2 fun h p hp q hq => .inl ?_
    rwa [(name_of_mem_pairs hp).1, (name_of_mem_pairs hq).1]

theorem countP_pairs_groups (ks : List ItemKey) (name : String) :
    ((groups ks).flatMap fun g => pairs g.2).countP (fun p => p.1.name = name) =
      ks.countP (·.name = name) * (ks.countP (·.name = name) - 1) / 2 := by
  have hother : ∀ other, other ≠ name → other ∈ (ks.map ItemKey.name).eraseDups →
      (pairs (ks.filter (·.name = other))).countP (fun p => p.1.name = name) = 0 := fun other hne _ =>
    List.countP_eq_zero.2 fun p hp => by simpa [(name_of_mem_pairs hp).1] using hne
  have hown : (pairs (ks.filter (·.name = name))).countP (fun p => p.1.name = name) =
      ks.countP (·.name = name) * (ks.countP (·.name = name) - 1) / 2 := by
    rw [List.countP_eq_length.2 fun p hp => by simpa using (name_of_mem_pairs hp).1, length_pairs,
      List.countP_eq_length_filter]
  rw [pairs_groups, List.countP_flatMap]
  refine (List.sum_map_eq_nsmul_single name _ hother).trans ?_
  by_cases hname : name ∈ (ks.map ItemKey.name).eraseDups
  · rw [List.count_eq_one_of_mem (nodup_eraseDups _) hname]
    exact (Nat.one_mul _).trans hown
  · -- nobody bears the name
    have hnone : ks.countP (·.name = name) = 0 := List.countP_eq_zero.2 fun k hk hkn =>
      hname (List.mem_eraseDups.2 (List.mem_map.2 ⟨k, hk, of_decide_eq_true hkn⟩))
    rw [List.count_eq_zero.2 hname, hnone, Nat.zero_mul, Nat.zero_div]
    exact Nat.zero_mul _

/-- The conflicts that a catalog is to have when some items are hidden. -/
structure AllConflicts (c : Catalog) (hidden : List ItemKey) (xs : List Conflict) : Prop where
  found : ∀ x, x ∈ xs ↔ [x.left, x.right].Sublist (c.visibleKeys hidden) ∧ x.left.name = x.right.name ∧
    (x.kind = .enum ↔ (.enum, x.left) ∈ c.items ∨ (.enum, x.right) ∈ c.items)
  once : ∀ a ∈ c.visibleKeys hidden, ∀ b ∈ c.visibleKeys hidden, a ≠ b → a.name = b.name →
    xs.countP (fun x => x.left = a ∧ x.right = b ∨ x.left = b ∧ x.right = a) = 1
  number : ∀ name, xs.countP (·.name = name) = (c.visibleKeys hidden).countP (·.name = name) *
    ((c.visibleKeys hidden).countP (·.name = name) - 1) / 2
  ordered : xs.Pairwise fun x y =>
    [x.name, y.name].Sublist ((c.visibleKeys hidden).map ItemKey.name).eraseDups ∨
      x.name = y.name ∧ ([x.left, y.left].Sublist (c.visibleKeys hidden) ∨
        x.left = y.left ∧ [x.right, y.right].Sublist (c.visibleKeys hidden))

section Conflicts

variable {c : Catalog} {hidden : List ItemKey} {a b : ItemKey} {x y : Conflict}

theorem kindOf?_eq_enum {k : ItemKey} : c.kindOf? k = some .enum ↔ (.enum, k) ∈ c.items := by
  have he : (c.enum? k).isSome = true ↔ (.enum, k) ∈ c.items := by
    rw [mem_items_enum]
    simp [enum?]
  rw [← he]
  by_cases h : (c.enum? k).isSome
  · simp [kindOf?, h]
  · by_cases g : (c.model? k).isSome <;> simp [kindOf?, h, g]

theorem kind_conflictOf (p : ItemKey × ItemKey) :
    (c.conflictOf p).kind = .enum ↔ (.enum, p.1) ∈ c.items ∨ (.enum, p.2) ∈ c.items := by
  rw [← kindOf?_eq_enum, ← kindOf?_eq_enum, or_iff_not_imp_left]
  simp [conflictOf]

theorem eq_of_sides (hl : x.left = y.left) (hr : x.right = y.right) (hk : x.kind = .enum ↔ y.kind = .enum) :
    x = y := by
  obtain ⟨l, r, kind⟩ := x
  obtain ⟨l', r', kind'⟩ := y
  dsimp only at hl hr hk
  subst hl hr
  cases kind <;> cases kind' <;> simp at hk ⊢

theorem mem_conflicts : x ∈ c.conflicts hidden ↔
    [x.left, x.right].Sublist (c.visibleKeys hidden) ∧ x.left.name = x.right.name ∧
      (x.kind = .enum ↔ (.enum, x.left) ∈ c.items ∨ (.enum, x.right) ∈ c.items) := by
  rw [conflicts_eq_map, List.mem_map]
  constructor
  · rintro ⟨p, hp, rfl⟩
    obtain ⟨hsub, hname⟩ := mem_pairs_groups.1 hp
    exact ⟨hsub, hname, kind_conflictOf p⟩
  · rintro ⟨hsub, hname, hkind⟩
    refine ⟨(x.left, x.right), mem_pairs_groups.2 ⟨hsub, hname⟩, ?_⟩
    exact eq_of_sides rfl rfl ((kind_conflictOf _).trans hkind.symm)

theorem pairwise_conflicts (c : Catalog) (hidden : List ItemKey) : (c.conflicts hidden).Pairwise fun x y =>
    [x.name, y.name].Sublist ((c.visibleKeys hidden).map ItemKey.name).eraseDups ∨
      x.name = y.name ∧ ([x.left, y.left].Sublist (c.visibleKeys hidden) ∨
        x.left = y.left ∧ [x.right, y.right].Sublist (c.visibleKeys hidden)) := by
  rw [conflicts_eq_map]
  exact List.pairwise_map.2 (pairwise_pairs_groups _)

theorem nodup_visibleKeys (hn : c.keys.Nodup) (hidden : List ItemKey) : (c.visibleKeys hidden).Nodup :=
  hn.filter _

theorem nodup_conflicts (hn : c.keys.Nodup) (hidden : List ItemKey) : (c.conflicts hidden).Nodup := by
  apply (pairwise_conflicts c hidden).imp
  rintro x y (h | ⟨-, h | ⟨-, h⟩⟩) rfl
  · exact not_sublist_self (nodup_eraseDups _) h
  · exact not_sublist_self (nodup_visibleKeys hn hidden) h
  · exact not_sublist_self (nodup_visibleKeys hn hidden) h

theorem countP_sides (hn : c.keys.Nodup) (h : [a, b].Sublist (c.visibleKeys hidden))
    (hname : a.name = b.name) :
    (c.conflicts hidden).countP (fun x => x.left = a ∧ x.right = b ∨ x.left = b ∧ x.right = a) = 1 := by
  have hmem : c.conflictOf (a, b) ∈ c.conflicts hidden := mem_conflicts.2 ⟨h, hname, kind_conflictOf _⟩
  have honly : ∀ x ∈ c.conflicts hidden,
      (x.left = a ∧ x.right = b ∨ x.left = b ∧ x.right = a) ↔ x = c.conflictOf (a, b) := by
    intro x hx
    obtain ⟨hsub, -, hkind⟩ := mem_conflicts.1 hx
    constructor
    · rintro (⟨rfl, rfl⟩ | ⟨rfl, rfl⟩)
      · exact eq_of_sides rfl rfl (hkind.trans (kind_conflictOf (x.left, x.right)).symm)
      · exact absurd hsub (not_sublist_swap (nodup_visibleKeys hn hidden) h)
    · rintro rfl
      exact .inl ⟨rfl, rfl⟩
  rw [← List.count_eq_one_of_mem (nodup_conflicts hn hidden) hmem]
  apply List.countP_congr
  intro x hx
  simpa using honly x hx

/-- The conflicts of a catalog with distinct keys are complete, told once, and in order. -/
theorem conflicts_complete (hn : c.keys.Nodup) (hidden : List ItemKey) :
    c.AllConflicts hidden (c.conflicts hidden) := by
  refine ⟨fun x => mem_conflicts, fun a ha b hb hne hname => ?_, fun name => ?_, pairwise_conflicts c hidden⟩
  · rcases sublist_or_sublist ha hb hne with h | h
    · exact countP_sides hn h hname
    · simp only [or_comm (a := _ = a ∧ _)]
      exact countP_sides hn h hname.symm
  · rw [conflicts_eq_map, List.countP_map]
    exact countP_pairs_groups _ name

end Conflicts

/-- Three items of one name, one of them an enum and one hidden, and two items of another name. -/
def crowdedCatalog : Catalog :=
  ⟨"base.prisma", "", "", ["base.prisma", "f", "g", "h"],
    [⟨⟨"f", "A"⟩, [], 1⟩, ⟨⟨"f", "B"⟩, [], 2⟩, ⟨⟨"g", "A"⟩, [], 1⟩, ⟨⟨"h", "A"⟩, [], 1⟩],
    [⟨⟨"base.prisma", "A"⟩, "A", [], 3⟩, ⟨⟨"g", "B"⟩, "B", [], 4⟩]⟩

theorem conflicts_complete_crowded :
    crowdedCatalog.AllConflicts [⟨"h", "A"⟩]
      [⟨⟨"f", "A"⟩, ⟨"g", "A"⟩, .model⟩, ⟨⟨"f", "A"⟩, ⟨"base.prisma", "A"⟩, .enum⟩,
        ⟨⟨"g", "A"⟩, ⟨"base.prisma", "A"⟩, .enum⟩, ⟨⟨"f", "B"⟩, ⟨"g", "B"⟩, .enum⟩] := by
  have h := conflicts_complete (c := crowdedCatalog) (by decide) [⟨"h", "A"⟩]
  rwa [show crowdedCatalog.conflicts [⟨"h", "A"⟩] = _ from rfl] at h

end FragmentMerge.Catalog
