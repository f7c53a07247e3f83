import Mathlib.Logic.Relation
import Mathlib.Data.List.Perm.Subperm
import FragmentMerge.Session.Resolve

/-! The order that renaming rules put on keys. The first rule for a key may rename it to another key of
the same fragment, which may have a rule of its own. Unless such renamings go round in a circle, they end
after at most as many steps as there are rules. -/

namespace FragmentMerge.Rules

def next? (rules : List (ItemKey × Action)) (kind : ItemKind) (k : ItemKey) : Option ItemKey :=
  (rules.find? (·.1 == k)).bind fun e => e.2.newName?.bind fun name =>
    if e.2.kind = kind ∧ name ≠ k.name then some (k.renamed name) else none

def Leads (rules : List (ItemKey × Action)) (kind : ItemKind) (k k' : ItemKey) : Prop :=
  next? rules kind k = some k'

/-- Renamings that lead from a key back to it. -/
def Circular (rules : List (ItemKey × Action)) : Prop :=
  ∃ kind k, Relation.TransGen (Leads rules kind) k k

variable {rules : List (ItemKey × Action)} {kind : ItemKind}

theorem next?_eq_some {k k' : ItemKey} : next? rules kind k = some k' ↔
    ∃ a name, rules.find? (·.1 == k) = some (k, a) ∧ a.newName? = some name ∧ a.kind = kind ∧
      name ≠ k.name ∧ k' = k.renamed name := by
  simp only [next?, Option.bind_eq_some_iff, Option.ite_none_right_eq_some, Option.some.injEq]
  constructor
  · rintro ⟨⟨k₁, a⟩, hf, name, hn, ⟨hkind, hne⟩, rfl⟩
    obtain rfl : k₁ = k := by simpa using List.find?_some hf
    exact ⟨a, name, hf, hn, hkind, hne, rfl⟩
  · rintro ⟨a, name, hf, hn, hkind, hne, rfl⟩
    exact ⟨(k, a), hf, name, hn, ⟨hkind, hne⟩, rfl⟩

/-- The keys that have a next one, from a key on. -/
def trail (rules : List (ItemKey × Action)) (kind : ItemKind) : Nat → ItemKey → List ItemKey
  | 0, _ => []
  | n + 1, k =>
    match next? rules kind k with
    | none => []
    | some k' => k :: trail rules kind n k'

theorem mem_trail {n : Nat} {k x : ItemKey} (h : x ∈ trail rules kind n k) :
    Relation.ReflTransGen (Leads rules kind) k x ∧ x ∈ rules.map Prod.fst := by
  induction n generalizing k with
  | zero => cases h
  | succ n ih =>
    rw [trail] at h
    cases hk : next? rules kind k with
    | none => simp [hk] at h
    | some k' =>
      rw [hk] at h
      rcases List.mem_cons.1 h with rfl | h
      · obtain ⟨a, -, hf, -⟩ := next?_eq_some.1 hk
        exact ⟨.refl, List.mem_map.2 ⟨_, List.mem_of_find?_eq_some hf, rfl⟩⟩
      · exact ⟨.head hk (ih h).1, (ih h).2⟩

theorem nodup_trail (hr : ¬Circular rules) (n : Nat) (k : ItemKey) : (trail rules kind n k).Nodup := by
  induction n generalizing k with
  | zero => exact List.nodup_nil
  | succ n ih =>
    rw [trail]
    cases hk : next? rules kind k with
    | none => exact List.nodup_nil
    | some k' =>
      refine List.nodup_cons.2 ⟨fun hmem => hr ⟨kind, k, ?_⟩, ih k'⟩
      exact .head' hk (mem_trail hmem).1

theorem length_trail_le (hr : ¬Circular rules) (n : Nat) (k : ItemKey) :
    (trail rules kind n k).length ≤ rules.length := by
  have hsub : trail rules kind n k ⊆ rules.map Prod.fst := fun x hx => (mem_trail hx).2
  have h := (List.subperm_of_subset (nodup_trail hr n k) hsub).length_le
  rwa [List.length_map] at h

theorem trail_succ {n : Nat} {k : ItemKey} (h : (trail rules kind n k).length < n) :
    trail rules kind (n + 1) k = trail rules kind n k := by
  induction n generalizing k with
  | zero => omega
  | succ n ih =>
    rw [trail, trail]
    rw [trail] at h
    cases hk : next? rules kind k with
    | none => rfl
    | some k' =>
      simp only [hk, List.length_cons] at h ⊢
      rw [ih (by omega)]

/-- How often an item is renamed by the rules. -/
def rank (rules : List (ItemKey × Action)) (kind : ItemKind) (k : ItemKey) : Nat :=
  (trail rules kind (rules.length + 1) k).length

theorem rank_le (hr : ¬Circular rules) (k : ItemKey) : rank rules kind k ≤ rules.length :=
  length_trail_le hr _ k

theorem rank_next {k k' : ItemKey} (hr : ¬Circular rules) (h : next? rules kind k = some k') :
    rank rules kind k = rank rules kind k' + 1 := by
  have hle : (trail rules kind (rules.length + 1) k).length ≤ rules.length := length_trail_le hr _ k
  rw [rank, ← trail_succ (Nat.lt_succ_of_le hle), trail, h]
  rfl

end FragmentMerge.Rules
