import FragmentMerge.Session.Replay

/-! The items of a catalog, each with its kind. A removal takes one item out of the list and a renaming
changes the key of one; retyping columns and adding lines leave the list as it is. -/

namespace FragmentMerge.Catalog

theorem takeOut?_eq_some {p : α → Bool} {l l' : List α} {a : α} (h : takeOut? p l = some (a, l')) :
    p a ∧ ∃ pre post, l = pre ++ a :: post ∧ l' = pre ++ post := by
  induction l generalizing l' with
  | nil => simp [takeOut?] at h
  | cons b l ih =>
    by_cases hb : p b
    · simp only [takeOut?, hb, if_true, Option.some.injEq, Prod.mk.injEq] at h
      obtain ⟨rfl, rfl⟩ := h
      exact ⟨hb, [], l, rfl, rfl⟩
    · simp only [takeOut?, hb, Bool.false_eq_true, if_false, Option.map_eq_some_iff, Prod.mk.injEq] at h
      obtain ⟨⟨a', r⟩, hr, rfl, rfl⟩ := h
      obtain ⟨ha, pre, post, rfl, rfl⟩ := ih hr
      exact ⟨ha, b :: pre, post, rfl, rfl⟩

theorem changeFirst?_eq_some {p : α → Bool} {f : α → α} {l l' : List α}
    (h : changeFirst? p f l = some l') :
    ∃ pre a post, p a ∧ l = pre ++ a :: post ∧ l' = pre ++ f a :: post := by
  induction l generalizing l' with
  | nil => simp [changeFirst?] at h
  | cons b l ih =>
    by_cases hb : p b
    · simp only [changeFirst?, hb, if_true, Option.some.injEq] at h
      exact ⟨[], b, l, hb, rfl, h.symm⟩
    · simp only [changeFirst?, hb, Bool.false_eq_true, if_false, Option.map_eq_some_iff] at h
      obtain ⟨r, hr, rfl⟩ := h
      obtain ⟨pre, a, post, ha, rfl, rfl⟩ := ih hr
      exact ⟨b :: pre, a, post, ha, rfl, rfl⟩

theorem changeFirst?_eq_none {p : α → Bool} {f : α → α} {l : List α} :
    changeFirst? p f l = none ↔ ∀ a ∈ l, p a = false := by
  induction l with
  | nil => simp [changeFirst?]
  | cons b l ih => by_cases hb : p b <;> simp [changeFirst?, hb, ih]

/-- The keys of all items with their kinds, models first. -/
def items (c : Catalog) : List (ItemKind × ItemKey) :=
  c.models.map (fun m => (.model, m.key)) ++ c.enums.map (fun e => (.enum, e.key))

theorem keys_eq_map_items (c : Catalog) : c.keys = c.items.map Prod.snd := by
  simp [keys, items, Function.comp_def]

theorem mem_items_model {c : Catalog} {k : ItemKey} :
    (.model, k) ∈ c.items ↔ ∃ m ∈ c.models, m.key = k := by
  simp [items]

theorem mem_items_enum {c : Catalog} {k : ItemKey} :
    (.enum, k) ∈ c.items ↔ ∃ e ∈ c.enums, e.key = k := by
  simp [items]

theorem contains_iff {c : Catalog} {k : ItemKey} : c.contains k = true ↔ k ∈ c.keys := by
  have hm : (c.model? k).isSome = true ↔ ∃ m ∈ c.models, m.key = k := by
    simp [model?]
  have he : (c.enum? k).isSome = true ↔ ∃ e ∈ c.enums, e.key = k := by
    simp [enum?]
  by_cases h : (c.enum? k).isSome
  · simp [contains, kindOf?, keys, h, he.1 h]
  · have h' := mt he.2 h
    by_cases g : (c.model? k).isSome
    · simp [contains, kindOf?, keys, h, g, hm.1 g]
    · have g' := mt hm.2 g
      simpa [contains, kindOf?, keys, h, g] using ⟨by simpa using g', by simpa using h'⟩

theorem isTaken_eq_false {c : Catalog} {k : ItemKey} {name : String} :
    c.isTaken k name = false ↔ name = k.name ∨ k.renamed name ∉ c.keys := by
  rw [← contains_iff]
  simp only [isTaken, declares, ItemKey.renamed, Bool.and_eq_false_iff, bne_eq_false_iff_eq,
    Bool.not_eq_true]

theorem items_remove? {c c' : Catalog} {k : ItemKey} {kind : ItemKind}
    (h : c.remove? k kind = some c') :
    ∃ pre post, c.items = pre ++ (kind, k) :: post ∧ c'.items = pre ++ post := by
  cases kind with
  | model =>
    simp only [remove?, removeModel?, Option.map_map, Option.map_eq_some_iff, Function.comp] at h
    obtain ⟨⟨m, l⟩, hl, rfl⟩ := h
    obtain ⟨hm, pre, post, hpre, rfl⟩ := takeOut?_eq_some hl
    have hk : m.key = k := by simpa using hm
    exact ⟨pre.map (fun m => (.model, m.key)),
      post.map (fun m => (.model, m.key)) ++ c.enums.map (fun e => (.enum, e.key)),
      by simp [items, hpre, hk], by simp [items]⟩
  | enum =>
    simp only [remove?, removeEnum?, Option.map_map, Option.map_eq_some_iff, Function.comp] at h
    obtain ⟨⟨e, l⟩, hl, rfl⟩ := h
    obtain ⟨he, pre, post, hpre, rfl⟩ := takeOut?_eq_some hl
    have hk : e.key = k := by simpa using he
    exact ⟨c.models.map (fun m => (.model, m.key)) ++ pre.map (fun e => (.enum, e.key)),
      post.map (fun e => (.enum, e.key)), by simp [items, hpre, hk], by simp [items]⟩

/-- A removal leaves the heads and the remaining enums as they are. -/
theorem remove?_frame {c c' : Catalog} {k : ItemKey} {kind : ItemKind} (h : c.remove? k kind = some c') :
    c'.base = c.base ∧ c'.generator = c.generator ∧ c'.datasource = c.datasource ∧
      c'.files = c.files ∧ ∀ e ∈ c'.enums, e ∈ c.enums := by
  cases kind with
  | model =>
    simp only [remove?, removeModel?, Option.map_map, Option.map_eq_some_iff, Function.comp] at h
    obtain ⟨⟨m, l⟩, hl, rfl⟩ := h
    exact ⟨rfl, rfl, rfl, rfl, fun e he => he⟩
  | enum =>
    simp only [remove?, removeEnum?, Option.map_map, Option.map_eq_some_iff, Function.comp] at h
    obtain ⟨⟨e, l⟩, hl, rfl⟩ := h
    obtain ⟨-, pre, post, hpre, rfl⟩ := takeOut?_eq_some hl
    refine ⟨rfl, rfl, rfl, rfl, fun e' he => ?_⟩
    rw [hpre]
    rcases List.mem_append.1 he with h | h
    · exact List.mem_append_left _ h
    · exact List.mem_append_right _ (List.mem_cons_of_mem _ h)

theorem rename?_not_taken {c c' : Catalog} {k : ItemKey} {kind : ItemKind} {name : String}
    (h : c.rename? k kind name = some c') : c.isTaken k name = false := by
  by_cases ht : c.isTaken k name
  · simp [rename?, ht] at h
  · simpa using ht

theorem items_rename? {c c' : Catalog} {k : ItemKey} {kind : ItemKind} {name : String}
    (h : c.rename? k kind name = some c') :
    ∃ pre post, c.items = pre ++ (kind, k) :: post ∧ c'.items = pre ++ (kind, k.renamed name) :: post := by
  have ht := rename?_not_taken h
  cases kind with
  | model =>
    simp only [rename?, ht, Bool.false_eq_true, if_false, changeModel?, Option.map_eq_some_iff] at h
    obtain ⟨l, hl, rfl⟩ := h
    obtain ⟨pre, m, post, hm, hpre, rfl⟩ := changeFirst?_eq_some hl
    have hk : m.key = k := by simpa using hm
    exact ⟨pre.map (fun m => (.model, m.key)),
      post.map (fun m => (.model, m.key)) ++ c.enums.map (fun e => (.enum, e.key)),
      by simp [items, hpre, hk], by simp [items]⟩
  | enum =>
    simp only [rename?, ht, Bool.false_eq_true, if_false, changeEnum?, Option.map_eq_some_iff] at h
    obtain ⟨l, hl, rfl⟩ := h
    obtain ⟨pre, e, post, he, hpre, rfl⟩ := changeFirst?_eq_some hl
    have hk : e.key = k := by simpa using he
    exact ⟨c.models.map (fun m => (.model, m.key)) ++ pre.map (fun e => (.enum, e.key)),
      post.map (fun e => (.enum, e.key)), by simp [items, hpre, hk], by simp [items]⟩

theorem rename?_eq_none {c : Catalog} {k : ItemKey} {kind : ItemKind} {name : String}
    (ht : c.isTaken k name = false) : c.rename? k kind name = none ↔ (kind, k) ∉ c.items := by
  cases kind with
  | model => simp [rename?, ht, changeModel?, changeFirst?_eq_none, mem_items_model]
  | enum => simp [rename?, ht, changeEnum?, changeFirst?_eq_none, mem_items_enum]

/-- A renaming keeps the heads; an enum changes no more than its key and its name, which then
agree. -/
theorem rename?_frame {c c' : Catalog} {k : ItemKey} {kind : ItemKind} {name : String}
    (h : c.rename? k kind name = some c') :
    c'.base = c.base ∧ c'.generator = c.generator ∧ c'.datasource = c.datasource ∧
      c'.files = c.files ∧
      ∀ e ∈ c'.enums, e ∈ c.enums ∨ e.name = e.key.name ∧ ∃ d ∈ c.enums, e.values = d.values := by
  have ht := rename?_not_taken h
  cases kind with
  | model =>
    simp only [rename?, ht, Bool.false_eq_true, if_false, changeModel?, Option.map_eq_some_iff] at h
    obtain ⟨l, hl, rfl⟩ := h
    exact ⟨rfl, rfl, rfl, rfl, fun e he => .inl he⟩
  | enum =>
    simp only [rename?, ht, Bool.false_eq_true, if_false, changeEnum?, Option.map_eq_some_iff] at h
    obtain ⟨l, hl, rfl⟩ := h
    obtain ⟨pre, d, post, -, hpre, rfl⟩ := changeFirst?_eq_some hl
    refine ⟨rfl, rfl, rfl, rfl, fun e he => ?_⟩
    simp only [hpre, List.mem_append, List.mem_cons] at he ⊢
    rcases he with he | rfl | he
    · exact .inl (.inl he)
    · exact .inr ⟨rfl, d, .inr (.inl rfl), rfl⟩
    · exact .inl (.inr (.inr he))

theorem map_key_of_keeps {f : Model → Model} (h : ∀ m, (f m).key = m.key) (ms : List Model) :
    (ms.map f).map (fun m => (ItemKind.model, m.key)) = ms.map (fun m => (ItemKind.model, m.key)) := by
  simp [h]

theorem items_retypeReferences (c : Catalog) (k : ItemKey) (name : String) (all : Bool) :
    (c.retypeReferences k name all).items = c.items := by
  have h : ∀ m, (if c.inScope k all m.key.file then retypeModel k.name name m else m).key = m.key :=
    fun m => by split <;> rfl
  rw [items, items, retypeReferences, map_key_of_keeps h]

theorem keys_retypeReferences (c : Catalog) (k : ItemKey) (name : String) (all : Bool) :
    (c.retypeReferences k name all).keys = c.keys := by
  rw [keys_eq_map_items, items_retypeReferences, ← keys_eq_map_items]

theorem items_changeModel? {c c' : Catalog} {k : ItemKey} {f : Model → Model}
    (hf : ∀ m, (f m).key = m.key) (h : c.changeModel? k f = some c') : c'.items = c.items := by
  simp only [changeModel?, Option.map_eq_some_iff] at h
  obtain ⟨l, hl, rfl⟩ := h
  obtain ⟨pre, m, post, -, hpre, rfl⟩ := changeFirst?_eq_some hl
  simp [items, hpre, hf]

end FragmentMerge.Catalog
