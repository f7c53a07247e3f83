import FragmentMerge.Session.Replay

/-! Retyping. The type of a column is its base and what modifies the base. So a column retyped to the
base that it has already is the same column, and with another base it keeps the modifiers. -/

namespace FragmentMerge

theorem Text.before?_eq_some_iff {p s r : List Char} : Text.before? p s = some r ↔ s = r ++ p := by
  simp only [Text.before?, Option.map_eq_some_iff, Text.after?_eq_some_iff]
  constructor
  · rintro ⟨t, ht, rfl⟩
    rw [← List.reverse_inj, ht]
    simp
  · rintro rfl
    exact ⟨r.reverse, by simp⟩

namespace Column

theorem prefix_before? (p s : List Char) : (Text.before? p s).getD s <+: s := by
  cases h : Text.before? p s with
  | none => exact List.prefix_rfl
  | some r => exact ⟨p, (Text.before?_eq_some_iff.1 h).symm⟩

theorem prefix_baseOf (type : List Char) : baseOf type <+: type :=
  (prefix_before? ['[', ']'] _).trans (prefix_before? ['?'] type)

theorem baseType_append_typeSuffix (c : Column) : c.baseType ++ c.typeSuffix = c.type := by
  rw [← String.toList_inj, baseType, typeSuffix, String.toList_append, String.toList_ofList,
    String.toList_ofList]
  exact List.prefix_iff_eq_append.1 (prefix_baseOf c.type.toList)

theorem retype_baseType (c : Column) : c.retype c.baseType = c := by
  rw [retype, baseType_append_typeSuffix]

theorem before?_append (p s : List Char) : Text.before? p (s ++ p) = some s :=
  Text.before?_eq_some_iff.2 rfl

theorem before?_of_last {p s : List Char} {c : Char} (h : c ∉ s.getLast?) :
    Text.before? (p ++ [c]) s = none := by
  refine Option.eq_none_iff_forall_not_mem.2 fun r hr => h ?_
  obtain rfl := Text.before?_eq_some_iff.1 hr
  simp [← List.append_assoc]

theorem eq_before?_append (p s : List Char) :
    s = (Text.before? p s).getD s ∨ s = (Text.before? p s).getD s ++ p := by
  cases h : Text.before? p s with
  | none => exact .inl rfl
  | some r => exact .inr (Text.before?_eq_some_iff.1 h)

/-- What can modify a type: brackets, then a question mark. -/
def suffixes : List (List Char) := [[], ['?'], ['[', ']'], ['[', ']', '?']]

theorem eq_baseOf_append (type : List Char) : ∃ s ∈ suffixes, type = baseOf type ++ s := by
  rw [baseOf]
  rcases eq_before?_append ['?'] type with h | h <;>
    rcases eq_before?_append ['[', ']'] ((Text.before? ['?'] type).getD type) with g | g
  · exact ⟨[], by decide, by rw [List.append_nil, ← g, ← h]⟩
  · exact ⟨['[', ']'], by decide, by rw [← g, ← h]⟩
  · exact ⟨['?'], by decide, by rw [← g, ← h]⟩
  · refine ⟨['[', ']', '?'], by decide, ?_⟩
    rw [show ['[', ']', '?'] = ['[', ']'] ++ ['?'] from rfl, ← List.append_assoc, ← g, ← h]

theorem baseOf_append {base s : List Char} (hq : '?' ∉ base.getLast?) (hb : ']' ∉ base.getLast?)
    (hs : s ∈ suffixes) : baseOf (base ++ s) = base := by
  have hquery : Text.before? ['?'] base = none := before?_of_last (p := []) hq
  have hbracket : Text.before? ['[', ']'] base = none := before?_of_last (p := ['[']) hb
  have hlist : Text.before? ['?'] (base ++ ['[', ']']) = none := before?_of_last (p := []) (by simp)
  simp only [suffixes, List.mem_cons, List.not_mem_nil, or_false] at hs
  rcases hs with rfl | rfl | rfl | rfl
  · rw [List.append_nil, baseOf, hquery, Option.getD_none, hbracket, Option.getD_none]
  · rw [baseOf, before?_append, Option.getD_some, hbracket, Option.getD_none]
  · rw [baseOf, hlist, Option.getD_none, before?_append, Option.getD_some]
  · rw [baseOf, show ['[', ']', '?'] = ['[', ']'] ++ ['?'] from rfl, ← List.append_assoc,
      before?_append, Option.getD_some, before?_append, Option.getD_some]

theorem typeSuffix_eq {c : Column} {s : List Char} (h : c.type.toList = baseOf c.type.toList ++ s) :
    c.typeSuffix = String.ofList s := by
  have hdrop : c.type.toList.drop (baseOf c.type.toList).length = s :=
    (congrArg (List.drop _) h).trans List.drop_left
  rw [typeSuffix, hdrop]

/-- A column with a new base has the base and the suffix of the old type. -/
theorem retype_spec (c : Column) {base : String} (hq : '?' ∉ base.toList.getLast?)
    (hb : ']' ∉ base.toList.getLast?) :
    (c.retype base).baseType = base ∧ (c.retype base).typeSuffix = c.typeSuffix := by
  obtain ⟨s, hs, h⟩ := eq_baseOf_append c.type.toList
  have htype : (c.retype base).type.toList = base.toList ++ s := by
    rw [retype, typeSuffix_eq h, String.toList_append, String.toList_ofList]
  have hbase : baseOf (c.retype base).type.toList = base.toList := by
    rw [htype, baseOf_append hq hb hs]
  refine ⟨by rw [baseType, hbase, String.ofList_toList], ?_⟩
  rw [typeSuffix_eq h, typeSuffix_eq (hbase ▸ htype)]

end Column

namespace Catalog

theorem retypeColumn_self (name : String) (col : Column) : retypeColumn name name col = col := by
  unfold retypeColumn
  split
  · next h =>
    simp only [refersTo, Bool.and_eq_true, beq_iff_eq] at h
    rw [← h.2, Column.retype_baseType]
  · rfl

theorem retypeReferences_self (c : Catalog) (k : ItemKey) (all : Bool) :
    c.retypeReferences k k.name all = c := by
  have h : ∀ m : Model, retypeModel k.name k.name m = m := fun m => by
    have hcols : m.columns.map (retypeColumn k.name k.name) = m.columns :=
      (List.map_congr_left fun col _ => retypeColumn_self k.name col).trans (List.map_id _)
    rw [retypeModel, hcols]
  have hmap : c.models.map (fun m => if c.inScope k all m.key.file then retypeModel k.name k.name m
      else m) = c.models := by
    simp [h]
  rw [retypeReferences, hmap]

end Catalog

end FragmentMerge
