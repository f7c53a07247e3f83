import FragmentMerge.Proofs.Data.Table
import FragmentMerge.Proofs.Features.Materialize
import Mathlib.Data.List.Nodup

/-! Calls that register features. -/

namespace FragmentMerge.Registry

variable {r r' : Registry} {package feature code : String}

theorem register_of_isName (hp : isName package = true) (hf : isName feature = true)
    (hr : feature ∉ reserved) : r.register package feature code = .ok { r with
      packages := r.packages.insert package
        (((r.packages.find? package).getD .empty).insert feature code) } := by
  simp [register, hp, hf, hr]

def code? (r : Registry) (package feature : String) : Option String :=
  (r.packages.find? package).bind (·.find? feature)

/-- An accepted call sets the code of its own feature and of no other one. -/
theorem code?_register (h : r.register package feature code = .ok r') (p f : String) :
    r'.code? p f = if p = package ∧ f = feature then some code else r.code? p f := by
  obtain ⟨-, -, -, rfl⟩ := of_register h
  rw [code?, Table.find?_insert]
  by_cases hp : p = package
  · subst hp
    rw [if_pos rfl, Option.bind_some, Table.find?_insert, code?]
    cases r.packages.find? p with
    | none => simp [Table.find?_empty]
    | some features => simp
  · rw [if_neg hp, if_neg fun h => hp h.1, code?]

theorem find?_of_mem {α : Type} {t : Table α} {k : String} {v : α} (h : (k, v) ∈ t.entries) :
    t.find? k = some v := by
  have hsome : t.find? k ≠ none := fun hnone => by simpa using List.lookup_eq_none_iff.1 hnone _ h
  obtain ⟨v', hv'⟩ := Option.ne_none_iff_exists'.1 hsome
  have hnodup : (t.entries.map Prod.fst).Nodup := List.pairwise_map.2 t.pairwise_ne
  have heq : (k, v') = (k, v) := List.inj_on_of_nodup_map hnodup (find?_mem hv') h rfl
  rw [hv', (Prod.mk.inj heq).2]

theorem mem_keys_iff {α : Type} {t : Table α} {k : String} : k ∈ t.keys ↔ t.find? k ≠ none := by
  constructor
  · intro hk
    obtain ⟨e, he, rfl⟩ := List.mem_map.1 hk
    rw [find?_of_mem he]
    simp
  · intro hk
    obtain ⟨v, hv⟩ := Option.ne_none_iff_exists'.1 hk
    exact List.mem_map_of_mem (find?_mem hv)

theorem code?_of_filled {p : String × Table String} (h : p ∈ r.filled) (f : String) :
    r.code? p.1 f = p.2.find? f := by
  rw [code?, find?_of_mem (mem_packages h)]
  rfl

theorem exists_filled {code : String} (h : r.code? package feature = some code) :
    ∃ features, (package, features) ∈ r.filled ∧ (feature, code) ∈ features.entries := by
  obtain ⟨features, hp, hf⟩ := Option.bind_eq_some_iff.1 h
  have hmem := find?_mem hf
  refine ⟨features, List.mem_filter.2 ⟨find?_mem hp, ?_⟩, hmem⟩
  cases hentries : features.entries with
  | nil => simp [hentries] at hmem
  | cons e es => simp [Table.isEmpty, hentries]

theorem mem_packageNames_iff : package ∈ r.packageNames ↔ ∃ f, r.code? package f ≠ none := by
  rw [packageNames, List.mem_map]
  constructor
  · rintro ⟨p, hp, rfl⟩
    have hfilled : p.2.entries ≠ [] := by simpa [Table.isEmpty] using (List.mem_filter.1 hp).2
    obtain ⟨e, he⟩ := List.exists_mem_of_ne_nil _ hfilled
    exact ⟨e.1, by rw [code?_of_filled hp, find?_of_mem he]; simp⟩
  · rintro ⟨f, hf⟩
    obtain ⟨code, hcode⟩ := Option.ne_none_iff_exists'.1 hf
    obtain ⟨features, hp, -⟩ := exists_filled hcode
    exact ⟨_, hp, rfl⟩

/-- A call that registers a feature. -/
structure Call where
  package : String
  feature : String
  code : String

def Call.isAccepted (c : Call) : Bool :=
  isName c.package && isName c.feature && !reserved.contains c.feature

/-- The registry after some calls. A rejected one changes nothing. -/
def registered (root : String) (calls : List Call) : Registry :=
  calls.foldl (fun r c => (r.register c.package c.feature c.code).toOption.getD r) (new root)

/-- The code in the last accepted call for a feature. -/
def lastCode (calls : List Call) (package feature : String) : Option String :=
  (calls.reverse.find? fun c => c.isAccepted && c.package == package && c.feature == feature).map Call.code

theorem registered_concat (root : String) (calls : List Call) (c : Call) :
    registered root (calls ++ [c]) =
      ((registered root calls).register c.package c.feature c.code).toOption.getD (registered root calls) := by
  rw [registered, List.foldl_append]
  rfl

theorem register_cases (r : Registry) (c : Call) :
    (c.isAccepted = true ∧ ∃ r', r.register c.package c.feature c.code = .ok r') ∨
    (c.isAccepted = false ∧ ∃ e, r.register c.package c.feature c.code = .error e) := by
  unfold register Call.isAccepted
  cases isName c.package <;> cases isName c.feature <;> cases reserved.contains c.feature <;> simp

theorem code?_registered (root : String) (calls : List Call) (p f : String) :
    (registered root calls).code? p f = lastCode calls p f := by
  induction calls using List.reverseRecOn with
  | nil => rfl
  | append_singleton calls c ih =>
    rw [registered_concat, lastCode, List.reverse_concat, List.find?_cons]
    rcases register_cases (registered root calls) c with ⟨hc, r', hr⟩ | ⟨hc, e, hr⟩
    · rw [hr]
      refine (code?_register hr p f).trans ?_
      by_cases hkey : p = c.package ∧ f = c.feature
      · simp [hc, hkey]
      · have hne : (c.package == p && c.feature == f) = false := by
          grind
        rw [if_neg hkey, ih, hc, Bool.true_and, hne]
        rfl
    · rw [hr, hc]
      exact ih

theorem isNamed_registered (root : String) (calls : List Call) : (registered root calls).IsNamed := by
  induction calls using List.reverseRecOn with
  | nil => exact isNamed_new root
  | append_singleton calls c ih =>
    rw [registered_concat]
    rcases register_cases (registered root calls) c with ⟨-, r', hr⟩ | ⟨-, e, hr⟩
    · rw [hr]
      exact isNamed_register ih hr
    · rw [hr]
      exact ih

theorem root_registered (root : String) (calls : List Call) : (registered root calls).root = root := by
  induction calls using List.reverseRecOn with
  | nil => rfl
  | append_singleton calls c ih =>
    rw [registered_concat]
    rcases register_cases (registered root calls) c with ⟨-, r', hr⟩ | ⟨-, e, hr⟩
    · rw [hr]
      obtain ⟨-, -, -, rfl⟩ := of_register hr
      exact ih
    · rw [hr]
      exact ih

theorem mem_featuresOf {x : Feature} :
    x ∈ featuresOf r.filled ↔ r.code? x.package x.name = some x.code := by
  rw [featuresOf, List.mem_flatMap]
  constructor
  · rintro ⟨p, hp, hx⟩
    obtain ⟨e, he, rfl⟩ := List.mem_map.1 hx
    exact (code?_of_filled hp e.1).trans (find?_of_mem he)
  · intro h
    obtain ⟨features, hp, he⟩ := exists_filled h
    exact ⟨_, hp, List.mem_map.2 ⟨_, he, rfl⟩⟩

theorem nodup_featuresOf (r : Registry) : (featuresOf r.filled).Nodup := by
  refine List.nodup_flatMap.2 ⟨fun p hp => ?_, ?_⟩
  · refine List.pairwise_map.2 (p.2.pairwise_ne.imp fun {a b} hab heq => hab ?_)
    exact congrArg Feature.name heq
  · refine (r.packages.pairwise_ne.filter _).imp fun {p q} hpq x hx hx' => hpq ?_
    obtain ⟨e, -, rfl⟩ := List.mem_map.1 hx
    obtain ⟨e', -, heq⟩ := List.mem_map.1 hx'
    exact (congrArg Feature.package heq).symm

end FragmentMerge.Registry
