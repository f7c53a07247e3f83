import FragmentMerge.Features.Plan
import FragmentMerge.Proofs.Features.Materialize
import FragmentMerge.Proofs.Features.Notes
import FragmentMerge.Proofs.Patch.Section

/-! What a plan is built of: the edits of the types from the tables of the configuration, the edit of the
entry file, and a registry whose names can be registered. -/

namespace FragmentMerge.Plan

variable {c : Config} {d d' : Disk} {p : Plan}

def typesPath (c : Config) : String := Path.join (c.path c.output.client) "index.d.ts"

def entryPath (c : Config) : String := Path.join (c.path c.output.client) "index.js"

/-- What an entry sets for the field in its key. -/
def setting? (x : String × String) : Option Field.Setting :=
  (splitKey x.1).toOption.map fun names => ⟨names.1, names.2, x.2⟩

def settings (t : Table String) : List Field.Setting := t.entries.filterMap setting?

theorem exists_of_bind {ε α β : Type} {x : Except ε α} {f : α → Except ε β} {b : β}
    (h : x >>= f = .ok b) : ∃ a, x = .ok a ∧ f a = .ok b := by
  cases x with
  | error e => cases h
  | ok a => exact ⟨a, rfl, h⟩

theorem eq_ok_of_mapError {ε ε' α : Type} {x : Except ε α} {f : ε → ε'} {a : α}
    (h : x.mapError f = .ok a) : x = .ok a := by
  cases x with
  | error e => cases h
  | ok a' =>
    cases h
    rfl

theorem fieldEdits_eq {make : String → String → String → Edit} {t : Table String} {es : List Edit}
    (h : fieldEdits make t = .ok es) : es = (settings t).map fun e => make e.model e.field e.value := by
  rw [fieldEdits] at h
  rw [settings]
  generalize t.entries = entries at h ⊢
  induction entries generalizing es with
  | nil =>
    obtain rfl := Except.ok.inj h
    rfl
  | cons x entries ih =>
    obtain ⟨key, value⟩ := x
    rw [List.mapM_cons] at h
    obtain ⟨e, he, h⟩ := exists_of_bind h
    obtain ⟨rest, hrest, h⟩ := exists_of_bind h
    obtain rfl := Except.ok.inj h
    dsimp only at he
    cases hk : splitKey key with
    | error err =>
      rw [hk] at he
      cases he
    | ok names =>
      obtain ⟨model, field⟩ := names
      rw [hk] at he
      obtain rfl := Except.ok.inj he
      have hsetting : setting? (key, value) = some ⟨model, field, value⟩ := by
        rw [setting?, hk]
        rfl
      rw [List.filterMap_cons_some hsetting, ih hrest]
      rfl

theorem typeEdits_eq {es : List Edit} (h : typeEdits c = .ok es) :
    es = (settings c.fieldTypes).map Field.Setting.typing ++
      (settings c.deprecated).map Field.Setting.noting := by
  obtain ⟨types, ht, h⟩ := exists_of_bind h
  obtain ⟨notes, hn, h⟩ := exists_of_bind h
  rw [← Except.ok.inj h, fieldEdits_eq ht, fieldEdits_eq hn]
  rfl

/-- A registry for the packages of a configuration. -/
def IsRegistryOf (c : Config) (r : Registry) : Prop := r.IsNamed ∧ r.root = c.path c.output.features

theorem isRegistryOf_register {r r' : Registry} {package feature code : String} (h : IsRegistryOf c r)
    (hr : r.register package feature code = .ok r') : IsRegistryOf c r' := by
  have hnamed := Registry.isNamed_register h.1 hr
  obtain ⟨-, -, -, rfl⟩ := Registry.of_register hr
  exact ⟨hnamed, h.2⟩

theorem isRegistryOf_registerLimits {r r' : Registry} (h : IsRegistryOf c r)
    (hr : registerLimits c r = .ok r') : IsRegistryOf c r' := by
  rw [registerLimits] at hr
  split at hr
  · exact Except.ok.inj hr ▸ h
  · exact isRegistryOf_register h (eq_ok_of_mapError hr)

theorem isRegistryOf_registerSearch {r r' : Registry} (h : IsRegistryOf c r)
    (hr : registerSearch c r = .ok r') : IsRegistryOf c r' := by
  rw [registerSearch] at hr
  split at hr
  · exact Except.ok.inj hr ▸ h
  · obtain ⟨schema, -, hr⟩ := exists_of_bind hr
    obtain ⟨keys, -, hr⟩ := exists_of_bind hr
    exact isRegistryOf_register h (eq_ok_of_mapError hr)

def typesPart (c : Config) : List Transaction :=
  let edits := (settings c.fieldTypes).map Field.Setting.typing ++
    (settings c.deprecated).map Field.Setting.noting
  if edits.isEmpty then [] else [⟨typesPath c, edits⟩]

/-- The parts of a plan. Only the edit of the entry file depends on the disk. -/
theorem build_cases (h : build c d = .ok p) : ∃ r, IsRegistryOf c r ∧
    p = ⟨⟨typesPart c ++ entryEdits d r (entryPath c), c.output.extensionMode⟩, r⟩ ∧
    ∀ d', build c d' = .ok ⟨⟨typesPart c ++ entryEdits d' r (entryPath c), c.output.extensionMode⟩, r⟩ := by
  have h₀ := h
  obtain ⟨edits, hedits, h⟩ := exists_of_bind h
  obtain ⟨r₁, hlimits, h⟩ := exists_of_bind h
  obtain ⟨r, hsearch, h⟩ := exists_of_bind h
  have htypes := typeEdits_eq (eq_ok_of_mapError hedits)
  have hr : IsRegistryOf c r := isRegistryOf_registerSearch
    (isRegistryOf_registerLimits ⟨Registry.isNamed_new _, rfl⟩ hlimits) hsearch
  have hall : ∀ d', build c d' = .ok ⟨⟨typesPart c ++ entryEdits d' r (entryPath c), c.output.extensionMode⟩, r⟩ := by
    intro d'
    have hbuild : build c d' = (((typeEdits c).mapError ToolError.config).bind fun edits =>
        (registerLimits c (Registry.new (c.path c.output.features))).bind fun r₁ =>
        (registerSearch c r₁).bind fun r => .ok ⟨⟨(if edits.isEmpty then [] else [⟨typesPath c, edits⟩]) ++
          entryEdits d' r (entryPath c), c.output.extensionMode⟩, r⟩) := rfl
    rw [hbuild, hedits]
    simp only [Except.bind, hlimits, hsearch, htypes]
    rfl
  exact ⟨r, hr, Except.ok.inj (h₀.symm.trans (hall d)), hall⟩

end FragmentMerge.Plan
