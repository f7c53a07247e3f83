import FragmentMerge.Data.Decode
import FragmentMerge.Proofs.Data.Aligned
import FragmentMerge.Proofs.Data.Table

/-! Trees that hold the same, and the values that are read out of them. The order of a table's entries
does not matter, as each is found by its key. The fields of a record are looked up by their names, so the
order in which they come back does not matter either. -/

namespace FragmentMerge.Tree

/-- Two trees that are the same but for the order of the entries in their tables. -/
inductive Alike : Tree → Tree → Prop
  | refl (t : Tree) : Alike t t
  | list {ts us : List Tree} (h : List.Forall₂ Alike ts us) : Alike (.list ts) (.list us)
  | table {es es' fs : List (String × Tree)} (order : es.Perm es') (keys : es'.map (·.1) = fs.map (·.1))
      (values : List.Forall₂ Alike (es'.map (·.2)) (fs.map (·.2))) : Alike (.table es) (.table fs)

def SameEntry (e f : String × Tree) : Prop := e.1 = f.1 ∧ e.2.Alike f.2

theorem SameEntry.refl (e : String × Tree) : SameEntry e e := ⟨rfl, .refl e.2⟩

theorem sameEntries_iff {es fs : List (String × Tree)} : List.Forall₂ SameEntry es fs ↔
    es.map (·.1) = fs.map (·.1) ∧ List.Forall₂ Alike (es.map (·.2)) (fs.map (·.2)) := by
  induction es generalizing fs with
  | nil => cases fs <;> simp
  | cons e es ih =>
    cases fs with
    | nil => simp
    | cons f fs =>
      rw [List.forall₂_cons, ih]
      simp only [List.map_cons, List.cons.injEq, List.forall₂_cons, SameEntry]
      tauto

theorem Alike.of_entries {es es' fs : List (String × Tree)} (order : es.Perm es')
    (h : List.Forall₂ SameEntry es' fs) : Alike (.table es) (.table fs) :=
  .table order (sameEntries_iff.1 h).1 (sameEntries_iff.1 h).2

variable {u : Tree}

theorem Alike.exists_list {ts : List Tree} (h : (Tree.list ts).Alike u) :
    ∃ us, u = .list us ∧ List.Forall₂ Alike ts us := by
  cases h with
  | refl => exact ⟨ts, rfl, List.forall₂_same.2 fun t _ => .refl t⟩
  | list h => exact ⟨_, rfl, h⟩

theorem Alike.exists_table {es : List (String × Tree)} (h : (Tree.table es).Alike u) :
    ∃ es' fs, u = .table fs ∧ es.Perm es' ∧ List.Forall₂ SameEntry es' fs := by
  cases h with
  | refl => exact ⟨es, es, rfl, .refl es, List.forall₂_same.2 fun e _ => .refl e⟩
  | table order keys values => exact ⟨_, _, rfl, order, sameEntries_iff.2 ⟨keys, values⟩⟩

variable {es es' fs : List (String × Tree)} {k : String}

def DistinctKeys (es : List (String × Tree)) : Prop := (es.map (·.1)).Nodup

theorem DistinctKeys.not_mem {e : String × Tree} {es before : List (String × Tree)}
    (hd : DistinctKeys (before ++ e :: es)) : e.1 ∉ before.map (·.1) := fun hm => by
  rw [DistinctKeys, List.map_append, List.map_cons] at hd
  exact List.disjoint_of_nodup_append hd hm List.mem_cons_self

theorem DistinctKeys.ne_of_cons {e f : String × Tree} {es : List (String × Tree)} (hd : DistinctKeys (e :: es))
    (hf : f ∈ es) : f.1 ≠ e.1 := fun hk => (List.nodup_cons.1 hd).1 (List.mem_map.2 ⟨f, hf, hk⟩)

theorem lookup_of_sameEntries (h : List.Forall₂ SameEntry es fs) (k : String) :
    Option.Rel Alike (es.lookup k) (fs.lookup k) := by
  induction h with
  | nil => exact .none
  | cons h _ ih =>
    obtain ⟨hkey, hvalue⟩ := h
    rw [Table.lookup_cons_eq, Table.lookup_cons_eq, ← hkey]
    split
    · exact .some hvalue
    · exact ih

theorem lookup_eq_some_iff (h : DistinctKeys es) {t : Tree} : es.lookup k = some t ↔ (k, t) ∈ es := by
  induction es with
  | nil => simp
  | cons e es ih =>
    obtain ⟨hne, h⟩ := List.nodup_cons.1 h
    rw [Table.lookup_cons_eq, List.mem_cons, Prod.ext_iff]
    split
    · next hk =>
      have hno : (e.1, t) ∉ es := fun hm => hne (List.mem_map.2 ⟨_, hm, rfl⟩)
      simp [hk, hno, eq_comm]
    · next hk => simp [hk, ih h]

theorem lookup_perm (h : DistinctKeys es) (hp : es.Perm es') (k : String) : es'.lookup k = es.lookup k := by
  have hkeys : (es.map (·.1)).Perm (es'.map (·.1)) := hp.map _
  have h' : DistinctKeys es' := hkeys.nodup_iff.1 h
  apply Option.ext
  intro t
  rw [lookup_eq_some_iff h', lookup_eq_some_iff h, hp.mem_iff]

/-- What is found in a table is alike to what is found in a table that it is alike to. -/
theorem Alike.lookup (h : DistinctKeys es) (ha : (Tree.table es).Alike (.table fs)) (k : String) :
    Option.Rel Alike (es.lookup k) (fs.lookup k) := by
  obtain ⟨es', fs', hfs, hp, hsame⟩ := ha.exists_table
  cases hfs
  rw [← lookup_perm h hp]
  exact lookup_of_sameEntries hsame k

end FragmentMerge.Tree

namespace FragmentMerge.Decode

open FragmentMerge.Tree

theorem bind_ok {m : Reading α} {f : α → Reading β} {form : Form} {a : α} (h : m form = .ok a) :
    (m >>= f) form = f a form := by
  change (m form >>= fun a => f a form) = f a form
  rw [h]
  rfl

theorem map_ok {m : Reading α} {f : α → β} {form : Form} {a : α} (h : m form = .ok a) :
    (f <$> m) form = .ok (f a) := by
  change f <$> m form = .ok (f a)
  rw [h]
  rfl

/-- A decoder finds a value in a tree of TOML, whatever the order of the entries in its tables. -/
def Restores (d : Decoder α) (t : Tree) (a : α) : Prop := ∀ u, t.Alike u → d u .toml = .ok a

theorem restores_text (s : String) : Restores text (.text s) s := by
  rintro u ⟨⟩
  rfl

theorem restores_bool (b : Bool) : Restores bool (.bool b) b := by
  rintro u ⟨⟩
  rfl

theorem restores_nat {n limit : Nat} (h : n < limit) : Restores (natBelow limit) (.nat n) n := by
  rintro u ⟨⟩
  have hrange : (decide (0 ≤ (n : Int)) && decide ((n : Int) < limit)) = true := by simp [h]
  rw [Tree.nat, natBelow, if_pos hrange]
  rfl

theorem restores_word {words : List (String × α)} {s : String} {a : α} (h : words.lookup s = some a) :
    Restores (word words) (.text s) a := by
  rintro u ⟨⟩
  unfold word
  dsimp only
  rw [h]
  rfl

theorem mapM_ok {f : α → Reading β} {form : Form} {as : List α} {bs : List β}
    (h : List.Forall₂ (fun a b => f a form = .ok b) as bs) : as.mapM f form = .ok bs := by
  induction h with
  | nil => rfl
  | cons h _ ih =>
    rw [List.mapM_cons, bind_ok h, bind_ok ih]
    rfl

variable {d : Decoder α}

theorem restores_list {tree : α → Tree} {as : List α} (h : ∀ a ∈ as, Restores d (tree a) a) :
    Restores (list d) (.list (as.map tree)) as := by
  intro u hu
  obtain ⟨us, rfl, hus⟩ := hu.exists_list
  rw [List.forall₂_map_left_iff] at hus
  exact mapM_ok (forall₂_turned hus h)

theorem restores_texts (ss : List String) : Restores (list text) (.texts ss) ss :=
  restores_list fun s _ => restores_text s

theorem entry_ok {e f : String × Tree} {a : α} (h : SameEntry e f) (hd : Restores d e.2 a) :
    entry d f .toml = .ok (e.1, a) := by
  rw [entry, bind_ok (hd f.2 h.2), ← h.1]
  rfl

/-- The entries of a table may come back in any order, as the table sorts them again. -/
theorem restores_table (t : Table α) (tree : α → Tree) (h : ∀ e ∈ t.entries, Restores d (tree e.2) e.2) :
    Restores (table d) (.table (t.entries.map fun e => (e.1, tree e.2))) t := by
  intro u hu
  obtain ⟨es', fs, rfl, hperm, hsame⟩ := hu.exists_table
  -- the change of order moves from what was written to what is read
  obtain ⟨ms, hms, hfs⟩ := List.perm_comp_forall₂ hperm hsame
  rw [List.forall₂_map_left_iff] at hms
  have hentries : List.Forall₂ (fun f e => entry d f .toml = .ok e) ms t.entries :=
    forall₂_turned hms fun e he f hf => entry_ok hf (h e he)
  obtain ⟨es, hes, horder⟩ := List.perm_comp_forall₂ hfs.symm hentries
  change (Table.ofList <$> fs.mapM (entry d) : Reading (Table α)) .toml = .ok t
  rw [map_ok (mapM_ok hes), Table.ofList_of_perm horder]

/-- A field that holds what was written. -/
def Holds (fs : Fields) (k : String) (t : Tree) : Prop := ∃ u, fs.entries.lookup k = some u ∧ t.Alike u

/-- Fields that were read from the entries of a record, each found by its name. -/
structure FieldsOf (es : List (String × Tree)) (fs : Fields) : Prop where
  distinct : DistinctKeys es
  found : ∀ k, Option.Rel Alike (es.lookup k) (fs.entries.lookup k)

theorem record_ok {es : List (String × Tree)} {u : Tree} (hd : DistinctKeys es) (hu : (Tree.table es).Alike u)
    (names : List String) : ∃ fs, record names u .toml = .ok fs ∧ FieldsOf es fs := by
  obtain ⟨es', fs, rfl, -⟩ := hu.exists_table
  exact ⟨⟨fs, false⟩, rfl, hd, hu.lookup hd⟩

variable {es : List (String × Tree)} {fs : Fields} {k : String} {t : Tree} {a : α}

theorem FieldsOf.holds_of_lookup (h : FieldsOf es fs) (hk : es.lookup k = some t) : Holds fs k t := by
  have hrel := h.found k
  rw [hk] at hrel
  cases hu : fs.entries.lookup k with
  | none => rw [hu] at hrel; cases hrel
  | some u => rw [hu] at hrel; cases hrel with | some ha => exact ⟨u, hu, ha⟩

theorem FieldsOf.holds (h : FieldsOf es fs) : ∀ e ∈ es, Holds fs e.1 e.2 := fun _ he =>
  h.holds_of_lookup ((lookup_eq_some_iff h.distinct).2 he)

theorem FieldsOf.eq_none (h : FieldsOf es fs) (hk : es.lookup k = none) : fs.entries.lookup k = none := by
  have hrel := h.found k
  rw [hk] at hrel
  cases hu : fs.entries.lookup k with
  | none => rfl
  | some u => rw [hu] at hrel; cases hrel

theorem Holds.field (h : Holds fs k t) (hd : Restores d t a) : field fs k d .toml = .ok a := by
  obtain ⟨u, hu, ha⟩ := h
  rw [Decode.field, hu]
  exact hd u ha

/-- A value that is written down is not replaced by the initial one. -/
theorem Holds.fieldOr (h : Holds fs k t) (hd : Restores d t a) (b : α) : fieldOr fs k d b .toml = .ok a := by
  obtain ⟨u, hu, ha⟩ := h
  rw [Decode.fieldOr, hu]
  exact hd u ha

theorem FieldsOf.optional {o : Option String} (h : FieldsOf es fs) (hk : es.lookup k = o.map .text) :
    optional fs k text .toml = .ok o := by
  cases o with
  | none => rw [Decode.optional, Decode.fieldOr, h.eq_none hk]; rfl
  | some s =>
    refine (h.holds_of_lookup hk).fieldOr ?_ none
    rintro u ⟨⟩
    rfl

end FragmentMerge.Decode
