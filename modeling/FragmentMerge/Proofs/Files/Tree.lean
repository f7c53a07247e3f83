import FragmentMerge.Files.Disk
import Mathlib.Data.List.Induction

/-! The entries of a disk as a tree: what stands at a way after something has been put or removed, and
what every entry can rely on above it. -/

namespace FragmentMerge

structure Path.IsName (s : String) : Prop where
  filled : s ≠ ""
  dot : s ≠ "."
  up : s ≠ ".."
  slash : '/' ∉ s.toList

instance (s : String) : Decidable (Path.IsName s) :=
  decidable_of_iff (s ≠ "" ∧ s ≠ "." ∧ s ≠ ".." ∧ '/' ∉ s.toList)
    ⟨fun ⟨h, hd, hu, hs⟩ => ⟨h, hd, hu, hs⟩, fun h => ⟨h.filled, h.dot, h.up, h.slash⟩⟩

namespace Disk

variable {d d' : Disk} {way k : List String} {e : Entry} {s : String}

theorem entry?_of_ne_nil (d : Disk) (h : way ≠ []) : d.entry? way = d.entries.lookup way := by
  rw [ entry?, if_neg (by simpa using h)]

theorem lookup_cons_ite (k n : List String) (e : Entry) (es : List (List String × Entry)) :
    ((n, e) :: es).lookup k = if k = n then some e else es.lookup k := by
  rw [List.lookup_cons]
  by_cases h : k = n
  · rw [if_pos h, h, beq_self_eq_true]
  · rw [if_neg h, beq_eq_false_iff_ne.2 h]

theorem lookup_putIn (way k : List String) (e : Entry) (es : List (List String × Entry)) :
    (putIn way e es).lookup k = if k = way then some e else es.lookup k := by
  induction es with
  | nil => rw [putIn, lookup_cons_ite]
  | cons x es ih =>
    obtain ⟨n, c⟩ := x
    rw [putIn]
    by_cases hn : n = way
    · subst hn
      rw [if_pos rfl, lookup_cons_ite, lookup_cons_ite]
      split <;> rfl
    · rw [if_neg hn, lookup_cons_ite, lookup_cons_ite, ih]
      by_cases hk : k = n
      · rw [if_pos hk, if_pos hk, if_neg (hk ▸ hn)]
      · rw [if_neg hk, if_neg hk]

theorem entry?_put (d : Disk) (hw : way ≠ []) (e : Entry) (k : List String) :
    entry? (d.put way e) k = if k = way then some e else d.entry? k := by
  by_cases hk : k = []
  · rw [hk, if_neg (Ne.symm hw)]
    rfl
  · rw [entry?_of_ne_nil _ hk, entry?_of_ne_nil _ hk, put, lookup_putIn]

theorem lookup_filter (p : List String → Bool) (k : List String) (es : List (List String × Entry)) :
    (es.filter fun (n, _) => p n).lookup k = if p k then es.lookup k else none := by
  induction es with
  | nil => simp
  | cons x es ih =>
    obtain ⟨n, c⟩ := x
    rw [List.filter_cons]
    dsimp only
    by_cases hp : p n
    · rw [if_pos hp, lookup_cons_ite, lookup_cons_ite, ih]
      by_cases hk : k = n
      · rw [if_pos hk, if_pos hk, if_pos (hk ▸ hp)]
      · rw [if_neg hk, if_neg hk]
    · rw [if_neg hp, lookup_cons_ite, ih]
      by_cases hk : k = n
      · rw [if_neg (hk ▸ hp), if_neg (hk ▸ hp)]
      · rw [if_neg hk]

theorem entry?_prune (d : Disk) (way : List String) (hk : k ≠ []) :
    entry? (d.prune way) k = if way <+: k then none else d.entry? k := by
  rw [entry?_of_ne_nil _ hk, entry?_of_ne_nil _ hk, prune]
  have h := lookup_filter (fun n => !way.isPrefixOf n) k d.entries
  dsimp only at h ⊢
  rw [h]
  by_cases hp : way <+: k
  · simp [hp, List.isPrefixOf_iff_prefix.2 hp]
  · have : way.isPrefixOf k = false := Bool.eq_false_iff.2 fun h => hp (List.isPrefixOf_iff_prefix.1 h)
    simp [hp, this]

theorem entry?_of_prune (h : entry? (d.prune way) k = some e) : d.entry? k = some e := by
  by_cases hk : k = []
  · rw [hk] at h ⊢
    exact h
  · rw [entry?_prune d way hk] at h
    split at h
    · cases h
    · exact h

theorem put_same (hw : way ≠ []) (h : d.entry? way = some e) : d.put way e = d := by
  rw [entry?_of_ne_nil _ hw] at h
  have hin : ∀ es : List (List String × Entry), es.lookup way = some e → putIn way e es = es := by
    intro es h
    induction es with
    | nil => cases h
    | cons x es ih =>
      obtain ⟨n, c⟩ := x
      rw [putIn]
      by_cases hn : n = way
      · subst hn
        rw [lookup_cons_ite, if_pos rfl] at h
        rw [if_pos rfl, Option.some.inj h]
      · rw [lookup_cons_ite, if_neg (Ne.symm hn)] at h
        rw [if_neg hn, ih h]
  rw [put, hin _ h]

theorem mem_entries (hk : k ≠ []) (h : d.entry? k ≠ none) : ∃ e, (k, e) ∈ d.entries := by
  rw [entry?_of_ne_nil d hk] at h
  obtain ⟨e, he⟩ := Option.ne_none_iff_exists'.1 h
  obtain ⟨a, b, heq, -⟩ := List.lookup_eq_some_iff.1 he
  exact ⟨e, by rw [heq]; simp⟩

/-- The name under which a directory lists what stands at a way. -/
def listed? (way k : List String) : Option String :=
  k.getLast?.bind fun name => if k.dropLast = way then some name else none

theorem listed?_eq_some_iff : listed? way k = some s ↔ k = way ++ [s] := by
  rw [listed?, Option.bind_eq_some_iff]
  constructor
  · rintro ⟨name, hl, hname⟩
    obtain ⟨front, rfl⟩ := List.getLast?_eq_some_iff.1 hl
    simp at hname
    rw [hname.1, hname.2]
  · rintro rfl
    exact ⟨s, by simp⟩

theorem namesIn_eq (d : Disk) (way : List String) :
    d.namesIn way = (d.entries.filterMap fun x => listed? way x.1).mergeSort := by
  rw [namesIn]
  congr 2
  funext ⟨k, _⟩
  dsimp only
  rw [listed?]
  cases k.getLast? <;> rfl

theorem mem_namesIn_iff : s ∈ d.namesIn way ↔ ∃ e, (way ++ [s], e) ∈ d.entries := by
  rw [namesIn_eq, List.mem_mergeSort, List.mem_filterMap]
  constructor
  · rintro ⟨⟨n, e⟩, hmem, hn⟩
    exact ⟨e, listed?_eq_some_iff.1 hn ▸ hmem⟩
  · rintro ⟨e, hmem⟩
    exact ⟨_, hmem, listed?_eq_some_iff.2 rfl⟩

theorem mem_namesIn (h : d.entry? (way ++ [s]) ≠ none) : s ∈ d.namesIn way :=
  mem_namesIn_iff.2 (mem_entries (by simp) h)

theorem entry?_of_mem_namesIn (h : s ∈ d.namesIn way) : d.entry? (way ++ [s]) ≠ none := by
  obtain ⟨e, hmem⟩ := mem_namesIn_iff.1 h
  rw [entry?_of_ne_nil _ (by simp)]
  intro hnone
  simpa using List.lookup_eq_none_iff.1 hnone _ hmem

/-- Entries under proper names, each in a directory. -/
structure IsTree (d : Disk) : Prop where
  names : ∀ {k s}, d.entry? k ≠ none → s ∈ k → Path.IsName s
  parents : ∀ {k s}, d.entry? (k ++ [s]) ≠ none → d.entry? k = some .directory

namespace IsTree

theorem of_entries (h : ∀ x ∈ d.entries, (∀ s ∈ x.1, Path.IsName s) ∧
    d.entry? x.1.dropLast = some .directory) : d.IsTree := by
  refine ⟨fun {k s} hk hs => ?_, fun {k s} hk => ?_⟩
  · obtain ⟨e, he⟩ := mem_entries (List.ne_nil_of_mem hs) hk
    exact (h _ he).1 s hs
  · obtain ⟨e, he⟩ := mem_entries (by simp) hk
    simpa using (h _ he).2

/-- Everything above an entry is a directory. -/
theorem above (h : d.IsTree) (hk : d.entry? k ≠ none) (hw : way <+: k) (hne : way ≠ k) :
    d.entry? way = some .directory := by
  obtain ⟨below, rfl⟩ := hw
  induction below using List.reverseRecOn with
  | nil => exact absurd (List.append_nil way).symm hne
  | append_singleton below s ih =>
    rw [← List.append_assoc] at hk
    have hdir := h.parents hk
    by_cases hb : below = []
    · rwa [hb, List.append_nil] at hdir
    · exact ih (by simp [hdir]) (by simpa using hb)

theorem eq_of_file {c : Content} (h : d.IsTree) (hw : d.entry? way = some (.file c))
    (hk : d.entry? k ≠ none) (hp : way <+: k) : k = way := by
  by_cases hne : way = k
  · exact hne.symm
  · rw [h.above hk hp hne] at hw
    cases hw

theorem put (h : d.IsTree) (hn : ∀ t ∈ way ++ [s], Path.IsName t) (hd : d.entry? way = some .directory)
    (he : d.entry? (way ++ [s]) = some .directory → e = .directory) : (d.put (way ++ [s]) e).IsTree := by
  have hput := d.entry?_put (List.concat_ne_nil s way) e
  refine ⟨fun {k t} hk ht => ?_, fun {k t} hk => ?_⟩
  · rw [hput] at hk
    split at hk
    · next heq => exact hn t (heq ▸ ht)
    · exact h.names hk ht
  · rw [hput] at hk ⊢
    have hdir : d.entry? k = some .directory := by
      split at hk
      · next heq =>
        obtain ⟨rfl, -⟩ := List.append_inj' heq rfl
        exact hd
      · exact h.parents hk
    split
    · next heq => exact congrArg some (he (heq ▸ hdir))
    · exact hdir

theorem prune (h : d.IsTree) (way : List String) : (d.prune way).IsTree := by
  refine ⟨fun {k t} hk ht => ?_, fun {k t} hk => ?_⟩
  · obtain ⟨e, he⟩ := Option.ne_none_iff_exists'.1 hk
    exact h.names (by simp [entry?_of_prune he]) ht
  · obtain ⟨e, he⟩ := Option.ne_none_iff_exists'.1 hk
    have hdir := h.parents (k := k) (s := t) (by simp [entry?_of_prune he])
    by_cases hne : k = []
    · rw [hne]
      rfl
    · rw [entry?_prune d way hne]
      rw [entry?_prune d way (by simp)] at hk
      split at hk
      · exact absurd rfl hk
      · next hp => rw [if_neg fun h => hp (h.trans (List.prefix_append _ _)), hdir]

end IsTree

/-- The directories of a disk are directories of another one. -/
structure Keeps (d d' : Disk) : Prop where
  here : d'.here = d.here
  directory : ∀ {k}, d.entry? k = some .directory → d'.entry? k = some .directory

namespace Keeps

theorem refl (d : Disk) : d.Keeps d := ⟨rfl, id⟩

theorem trans {d'' : Disk} (h : d.Keeps d') (h' : d'.Keeps d'') : d.Keeps d'' :=
  ⟨h'.here.trans h.here, fun hk => h'.directory (h.directory hk)⟩

theorem put (hw : way ≠ []) (he : d.entry? way = some .directory → e = .directory) : d.Keeps (d.put way e) := by
  refine ⟨rfl, fun {k} hk => ?_⟩
  rw [entry?_put d hw]
  split
  · next heq => exact congrArg some (he (heq ▸ hk))
  · exact hk

theorem prune {c : Content} (h : d.IsTree) (hf : d.entry? way = some (.file c)) :
    d.Keeps (d.prune way) := by
  refine ⟨rfl, fun {k} hk => ?_⟩
  by_cases hne : k = []
  · rw [hne]
    rfl
  · rw [entry?_prune d way hne, if_neg fun hp => ?_, hk]
    rw [h.eq_of_file hf (by simp [hk]) hp, hf] at hk
    cases hk

end Keeps

/-- Entries are lost at some ways only, and none comes or changes. -/
structure Loses (spots : List String → Prop) (d d' : Disk) : Prop where
  here : d'.here = d.here
  entry : ∀ k, d'.entry? k = d.entry? k ∨ d'.entry? k = none ∧ spots k

namespace Loses

variable {spots spots' : List String → Prop}

theorem refl (spots : List String → Prop) (d : Disk) : Loses spots d d := ⟨rfl, fun _ => .inl rfl⟩

theorem trans {d'' : Disk} (h : Loses spots d d') (h' : Loses spots d' d'') : Loses spots d d'' := by
  refine ⟨h'.here.trans h.here, fun k => ?_⟩
  rcases h'.entry k with hk | hk
  · exact hk ▸ h.entry k
  · exact .inr hk

theorem mono (h : Loses spots d d') (hs : ∀ k, spots k → spots' k) : Loses spots' d d' :=
  ⟨h.here, fun k => (h.entry k).imp id fun ⟨hk, hspot⟩ => ⟨hk, hs k hspot⟩⟩

theorem same (h : Loses spots d d') (hk : d'.entry? k ≠ none) : d'.entry? k = d.entry? k :=
  (h.entry k).resolve_right fun hc => hk hc.1

theorem some (h : Loses spots d d') (hk : d'.entry? k = some e) : d.entry? k = some e := by
  rw [← hk, h.same (by simp [hk])]

theorem none (h : Loses spots d d') (hk : d.entry? k = none) : d'.entry? k = none := by
  rcases h.entry k with he | ⟨he, -⟩
  · rw [he, hk]
  · exact he

end Loses

/-- No directory is lost, and entries differ at some ways only. -/
structure Alters (spots : List String → Prop) (d d' : Disk) : Prop where
  keeps : d.Keeps d'
  entry : ∀ k, d'.entry? k = d.entry? k ∨ spots k

namespace Alters

variable {spots spots' : List String → Prop}

theorem refl (spots : List String → Prop) (d : Disk) : Alters spots d d := ⟨.refl d, fun _ => .inl rfl⟩

theorem trans {d'' : Disk} (h : Alters spots d d') (h' : Alters spots d' d'') : Alters spots d d'' := by
  refine ⟨h.keeps.trans h'.keeps, fun k => ?_⟩
  rcases h'.entry k with hk | hk
  · exact hk ▸ h.entry k
  · exact .inr hk

theorem mono (h : Alters spots d d') (hs : ∀ k, spots k → spots' k) : Alters spots' d d' :=
  ⟨h.keeps, fun k => (h.entry k).imp id (hs k)⟩

theorem same (h : Alters spots d d') (hk : ¬ spots k) : d'.entry? k = d.entry? k :=
  (h.entry k).resolve_right hk

end Alters

/-- The files at some ways may have other contents; all else is the same. -/
structure Rewritten (changed : List String → Prop) (d d' : Disk) : Prop where
  here : d'.here = d.here
  entry : ∀ k, d'.entry? k = d.entry? k ∨
    changed k ∧ (∃ c, d.entry? k = some (.file c)) ∧ ∃ c, d'.entry? k = some (.file c)

namespace Rewritten

variable {changed : List String → Prop}

theorem refl (changed : List String → Prop) (d : Disk) : Rewritten changed d d := ⟨rfl, fun _ => .inl rfl⟩

theorem symm (h : Rewritten changed d d') : Rewritten changed d' d :=
  ⟨h.here.symm, fun k => (h.entry k).imp Eq.symm fun ⟨hk, hd, hd'⟩ => ⟨hk, hd', hd⟩⟩

theorem trans {d'' : Disk} (h : Rewritten changed d d') (h' : Rewritten changed d' d'') :
    Rewritten changed d d'' := by
  refine ⟨h'.here.trans h.here, fun k => ?_⟩
  rcases h'.entry k with he' | ⟨hk, ⟨c', hc'⟩, hd''⟩
  · rw [he']
    exact h.entry k
  · rcases h.entry k with he | ⟨-, hd, -⟩
    · exact .inr ⟨hk, ⟨c', he ▸ hc'⟩, hd''⟩
    · exact .inr ⟨hk, hd, hd''⟩

theorem mono {changed' : List String → Prop} (h : Rewritten changed d d')
    (hc : ∀ k, changed k → changed' k) : Rewritten changed' d d' :=
  ⟨h.here, fun k => (h.entry k).imp id fun ⟨hk, hd⟩ => ⟨hc k hk, hd⟩⟩

theorem put {c : Content} (hf : d.entry? way = some (.file c)) (hw : way ≠ []) (hc : changed way)
    (c' : Content) : Rewritten changed d (d.put way (.file c')) := by
  refine ⟨rfl, fun k => ?_⟩
  rw [entry?_put d hw]
  split
  · next hk => exact .inr (hk ▸ ⟨hc, ⟨c, hf⟩, c', rfl⟩)
  · exact .inl rfl

theorem same (h : Rewritten changed d d') (hk : ¬ changed k) : d'.entry? k = d.entry? k :=
  (h.entry k).resolve_right fun hc => hk hc.1

theorem keeps (h : Rewritten changed d d') : d.Keeps d' := by
  refine ⟨h.here, fun {k} hk => ?_⟩
  rcases h.entry k with he | ⟨-, ⟨c, hc⟩, -⟩
  · exact he ▸ hk
  · rw [hc] at hk
    cases hk

theorem directory (h : Rewritten changed d d') (hk : d'.entry? k = some .directory) :
    d.entry? k = some .directory := h.symm.keeps.directory hk

theorem present (h : Rewritten changed d d') (hk : d'.entry? k ≠ none) : d.entry? k ≠ none := by
  rcases h.entry k with he | ⟨-, ⟨c, hc⟩, -⟩
  · exact he ▸ hk
  · simp [hc]

theorem tree (h : Rewritten changed d d') (ht : d.IsTree) : d'.IsTree :=
  ⟨fun hk hs => ht.names (h.present hk) hs, fun hk => h.keeps.directory (ht.parents (h.present hk))⟩

end Rewritten

end Disk

end FragmentMerge
