/-! Tables: entries sorted by key, each key once. -/

namespace FragmentMerge

def Ascending (entries : List (String × α)) : Prop := entries.Pairwise fun a b => a.1 < b.1

structure Table (α : Type) where
  entries : List (String × α)
  ascending : Ascending entries

namespace Table

theorem ext {a b : Table α} (h : a.entries = b.entries) : a = b := by
  cases a; cases b; simp_all

instance [DecidableEq α] : DecidableEq (Table α) := fun a b =>
  if h : a.entries = b.entries then isTrue (ext h) else isFalse fun e => h (e ▸ rfl)

instance [Repr α] : Repr (Table α) := ⟨fun t n => reprPrec t.entries n⟩

def empty : Table α := ⟨[], List.Pairwise.nil⟩

instance : Inhabited (Table α) := ⟨empty⟩

def insertIn (k : String) (v : α) : List (String × α) → List (String × α)
  | [] => [(k, v)]
  | e :: es => if k < e.1 then (k, v) :: e :: es
    else if e.1 < k then e :: insertIn k v es
    else (k, v) :: es

theorem mem_insertIn {k : String} {v : α} {es : List (String × α)} {x : String × α}
    (h : x ∈ insertIn k v es) : x = (k, v) ∨ x ∈ es := by
  induction es with
  | nil => simpa [insertIn] using h
  | cons e es ih => grind [insertIn]

theorem ascending_insertIn {k : String} {v : α} {es : List (String × α)} (h : Ascending es) :
    Ascending (insertIn k v es) := by
  induction es with
  | nil => simp [insertIn, Ascending]
  | cons e es ih =>
    unfold Ascending at h ih ⊢
    rw [List.pairwise_cons] at h
    unfold insertIn
    split
    · rename_i hk
      refine List.pairwise_cons.2 ⟨fun x hx => ?_, List.pairwise_cons.2 h⟩
      rcases List.mem_cons.1 hx with rfl | hx
      · exact hk
      · exact String.lt_trans hk (h.1 x hx)
    · split
      · rename_i hk
        refine List.pairwise_cons.2 ⟨fun x hx => ?_, ih h.2⟩
        rcases mem_insertIn hx with rfl | hx
        · exact hk
        · exact h.1 x hx
      · rename_i h1 h2
        have he : e.1 = k := String.le_antisymm (String.not_lt.1 h1) (String.not_lt.1 h2)
        exact List.pairwise_cons.2 ⟨fun x hx => he ▸ h.1 x hx, h.2⟩

def insert (t : Table α) (k : String) (v : α) : Table α :=
  ⟨insertIn k v t.entries, ascending_insertIn t.ascending⟩

def ofList (es : List (String × α)) : Table α := es.foldl (fun t (k, v) => t.insert k v) empty

def find? (t : Table α) (k : String) : Option α := t.entries.lookup k

def keys (t : Table α) : List String := t.entries.map (·.1)

def isEmpty (t : Table α) : Bool := t.entries.isEmpty

end Table

end FragmentMerge
