import FragmentMerge.Command.Patch
import FragmentMerge.Pattern.Template
import FragmentMerge.Proofs.Command.Work
import FragmentMerge.Proofs.Features.Built
import FragmentMerge.Proofs.Features.Calls
import FragmentMerge.Proofs.Text.Find
import FragmentMerge.Session.Basic

/-! The check of a configuration as a gate. What has passed it can be made into rules, a session, answers
and registered features; the keys of the tables on fields are read by the plan alone. -/

namespace FragmentMerge

namespace Config

variable {c : Config}

theorem require_eq_ok {ok : Bool} {field : String} (h : require ok field = .ok ()) : ok = true := by
  cases ok with
  | true => rfl
  | false => cases h

theorem exists_ofRules [PatternEngine] {rs : List NameRule} {i : Nat} (h : checkRules i rs = .ok ()) :
    ∃ rules, Rules.ofRules i rs = .ok rules := by
  induction rs generalizing i with
  | nil => exact ⟨[], rfl⟩
  | cons r rs ih =>
    have hrule : (∃ rule, Rule.of i r = .ok rule) ∧ checkRules (i + 1) rs = .ok () := by
      obtain ⟨name, pattern, rename, attributes⟩ := r
      rw [checkRules] at h
      cases name with
      | some name =>
        refine ⟨⟨_, rfl⟩, ?_⟩
        cases pattern with
        | none => exact h
        | some p =>
          cases hp : compilePattern p with
          | error e => simp [hp] at h
          | ok m => simpa [hp] using h
      | none =>
        cases pattern with
        | none => cases h
        | some p =>
          cases hp : compilePattern p with
          | error e => simp [hp] at h
          | ok m =>
            exact ⟨⟨_, by simp only [Rule.of, Rule.matcherOf, hp]; rfl⟩, by simpa [hp] using h⟩
    obtain ⟨⟨rule, hr⟩, hrest⟩ := hrule
    obtain ⟨rules, hrs⟩ := ih hrest
    exact ⟨rule :: rules, by rw [Rules.ofRules, hr, hrs]; rfl⟩

/-- What a configuration that passes the check has. -/
structure Sound [PatternEngine] (c : Config) : Prop where
  schema : c.fullText.isEnabled = true → ∃ schema, c.fullText.schema = some schema
  keys : ∃ keys, c.indexedKeys = .ok keys
  relations : ∃ relations, c.relationTable = .ok relations
  parents : ∃ parents, c.extendedTable = .ok parents
  answers : ∃ answers, c.answers = .ok answers
  rules : ∃ rules, Rules.ofConfig c.introspection = .ok rules

theorem sound_of_validate [PatternEngine] (h : c.validate = .ok ()) : c.Sound := by
  obtain ⟨_, -, h⟩ := Plan.exists_of_bind h
  obtain ⟨_, hschema, h⟩ := Plan.exists_of_bind h
  obtain ⟨keys, hkeys, h⟩ := Plan.exists_of_bind h
  obtain ⟨relations, hrelations, h⟩ := Plan.exists_of_bind h
  obtain ⟨parents, hparents, h⟩ := Plan.exists_of_bind h
  obtain ⟨answers, hanswers, h⟩ := Plan.exists_of_bind h
  obtain ⟨_, hrules, -⟩ := Plan.exists_of_bind h
  refine ⟨fun hon => ?_, ⟨keys, hkeys⟩, ⟨relations, hrelations⟩, ⟨parents, hparents⟩,
    ⟨answers, hanswers⟩, exists_ofRules hrules⟩
  have hblank := require_eq_ok hschema
  rw [hon, Bool.true_and] at hblank
  cases hs : c.fullText.schema with
  | none =>
    rw [hs] at hblank
    cases hblank
  | some schema => exact ⟨schema, rfl⟩

theorem Sound.session [PatternEngine] (h : c.Sound) (catalog : Catalog) : ∃ s, Session.ofConfig catalog c = .ok s := by
  obtain ⟨rules, hrules⟩ := h.rules
  obtain ⟨relations, hrelations⟩ := h.relations
  obtain ⟨parents, hparents⟩ := h.parents
  exact ⟨_, by rw [Session.ofConfig, hrules, hrelations, hparents]; rfl⟩

end Config

namespace Plan

variable {c : Config} {d : Disk}

/-- A model and a field with a dot between them. The field may have further dots. -/
def IsFieldKey (key : String) : Prop :=
  ∃ model field : String, key = model ++ "." ++ field ∧ model ≠ "" ∧ field ≠ "" ∧ '.' ∉ model.toList

/-- All that the tables on fields have as keys names a field. -/
def NamesFields (c : Config) : Prop := ∀ key ∈ c.fieldTypes.keys ++ c.deprecated.keys, IsFieldKey key

/-- A step that checks keys: it succeeds exactly if they are well formed. -/
def Checks {α : Type} (r : Except ConfigError α) (holds : Prop) : Prop :=
  ((∃ x, r = .ok x) ∧ holds) ∨ ((∃ e, r = .error (.invalidKey e)) ∧ ¬ holds)

section Steps

variable {α β : Type} {r : Except ConfigError α} {holds holds' : Prop}

theorem Checks.map (h : Checks r holds) (f : α → β) : Checks (r.map f) holds := by
  obtain ⟨⟨x, rfl⟩, hx⟩ | ⟨⟨e, rfl⟩, he⟩ := h
  · exact .inl ⟨⟨f x, rfl⟩, hx⟩
  · exact .inr ⟨⟨e, rfl⟩, he⟩

theorem Checks.bind {f : α → Except ConfigError β} (h : Checks r holds) (hf : ∀ x, Checks (f x) holds') :
    Checks (r >>= f) (holds ∧ holds') := by
  obtain ⟨⟨x, rfl⟩, hx⟩ | ⟨⟨e, rfl⟩, he⟩ := h
  · obtain ⟨⟨y, hy⟩, hrest⟩ | ⟨⟨e, he⟩, hrest⟩ := hf x
    · exact .inl ⟨⟨y, hy⟩, hx, hrest⟩
    · exact .inr ⟨⟨e, he⟩, fun hboth => hrest hboth.2⟩
  · exact .inr ⟨⟨e, rfl⟩, fun hboth => he hboth.1⟩

end Steps

theorem checks_splitKey (key : String) : Checks (splitKey key) (IsFieldKey key) := by
  have hkey : ∀ model field : String, key = model ++ "." ++ field → '.' ∉ model.toList →
      Text.cutFirst? '.' key.toList = some (model.toList, field.toList) := by
    rintro model field rfl hm
    exact Text.cutFirst?_eq_some_iff.2 ⟨by simp, hm⟩
  rw [splitKey]
  cases hcut : Text.cutFirst? '.' key.toList with
  | none =>
    refine .inr ⟨⟨_, rfl⟩, ?_⟩
    rintro ⟨model, field, hk, -, -, hm⟩
    rw [hkey model field hk hm] at hcut
    cases hcut
  | some parts =>
    obtain ⟨model, field⟩ := parts
    dsimp only
    by_cases hempty : model = [] ∨ field = []
    · refine .inr ⟨⟨.emptyPart key, if_pos (by simpa using hempty)⟩, ?_⟩
      rintro ⟨model', field', hk, hm, hf, hdot⟩
      rw [hkey model' field' hk hdot] at hcut
      obtain ⟨rfl, rfl⟩ := Prod.mk.inj (Option.some.inj hcut)
      exact hempty.elim (fun h => hm (by simpa using h)) fun h => hf (by simpa using h)
    · obtain ⟨hs, hdot⟩ := Text.cutFirst?_eq_some_iff.1 hcut
      rw [not_or] at hempty
      refine .inl ⟨⟨_, if_neg (by simpa using hempty)⟩, ?_⟩
      refine ⟨String.ofList model, String.ofList field, ?_, ?_, ?_, ?_⟩
      · rw [← String.toList_inj, hs]
        simp
      · simpa [← String.toList_inj] using hempty.1
      · simpa [← String.toList_inj] using hempty.2
      · simpa using hdot

theorem checks_fieldEdits (make : String → String → String → Edit) (t : Table String) :
    Checks (fieldEdits make t) (∀ key ∈ t.keys, IsFieldKey key) := by
  rw [fieldEdits, Table.keys]
  induction t.entries with
  | nil => exact .inl ⟨⟨[], rfl⟩, by simp⟩
  | cons x entries ih =>
    rw [List.mapM_cons, List.map_cons, List.forall_mem_cons]
    exact ((checks_splitKey x.1).map _).bind fun edit => ih.map (edit :: ·)

theorem checks_typeEdits (c : Config) : Checks (typeEdits c) (NamesFields c) := by
  rw [NamesFields, List.forall_mem_append, typeEdits]
  exact (checks_fieldEdits Field.typeEdit c.fieldTypes).bind fun types =>
    (checks_fieldEdits Field.deprecationEdit c.deprecated).map (types ++ ·)

theorem isName_package : Registry.isName (package c) = true := by
  rw [package]
  split <;> decide

theorem exists_register (c : Config) (r : Registry) (feature code : String)
    (hname : Registry.isName feature = true) (hfree : feature ∉ Registry.reserved) :
    ∃ r', r.register (package c) feature code = .ok r' :=
  ⟨_, Registry.register_of_isName isName_package hname hfree⟩

theorem exists_registerLimits (c : Config) (r : Registry) : ∃ r', registerLimits c r = .ok r' := by
  rw [registerLimits]
  split
  · exact ⟨r, rfl⟩
  · obtain ⟨r', hr⟩ := exists_register c r "staticTake"
      (fill "__LIMITS__" (limits c)
        (if c.output.extensionMode then Code.staticTakeExtension else Code.staticTakeMiddleware))
      (by decide) (by decide)
    refine ⟨r', ?_⟩
    simp only [hr]
    rfl

theorem exists_registerSearch [PatternEngine] (h : c.Sound) (r : Registry) : ∃ r', registerSearch c r = .ok r' := by
  rw [registerSearch]
  cases hon : c.fullText.isEnabled with
  | false => exact ⟨r, rfl⟩
  | true =>
    obtain ⟨schema, hschema⟩ := h.schema hon
    obtain ⟨keys, hkeys⟩ := h.keys
    obtain ⟨r', hr⟩ := exists_register c r "fullTextSearch"
      (fill "__INDEXES__" (.table (searchIndex c schema keys).entries)
        (if c.output.extensionMode then Code.fullTextExtension else Code.fullTextMiddleware))
      (by decide) (by decide)
    refine ⟨r', ?_⟩
    rw [searchSchema, hschema, hkeys]
    simp [Except.mapError, bind, Except.bind, hr]

/-- With a sound configuration, the keys of the tables on fields alone decide whether there is a plan. -/
theorem build_cases_of_sound [PatternEngine] (h : c.Sound) (d : Disk) :
    ((∃ p, build c d = .ok p) ∧ NamesFields c) ∨
      ((∃ e, build c d = .error (.config (.invalidKey e))) ∧ ¬ NamesFields c) := by
  obtain ⟨⟨es, hes⟩, hkeys⟩ | ⟨⟨e, he⟩, hkeys⟩ := checks_typeEdits c
  · obtain ⟨r₁, h₁⟩ := exists_registerLimits c (Registry.new (c.path c.output.features))
    obtain ⟨r, h₂⟩ := exists_registerSearch h r₁
    have hplan : ∃ p, build c d = .ok p := by
      rw [build, hes]
      simp only [Except.mapError, bind, Except.bind, h₁, h₂]
      exact ⟨_, rfl⟩
    exact .inl ⟨hplan, hkeys⟩
  · refine .inr ⟨⟨e, ?_⟩, hkeys⟩
    rw [build, he]
    rfl

end Plan

theorem Plan.execute_ne_config {p : Plan} {d d' : Disk} {e : ToolError} (h : p.execute d = (.error e, d')) :
    ∀ fault, e ≠ .config fault := by
  intro fault
  rw [execute] at h
  split at h
  · cases h
    exact nofun
  · split at h
    · cases h
      exact nofun
    · cases h

namespace Config

open FragmentMerge.Task

variable {c : Config} {w w' : Work}

theorem Sound.of_patch_error [PatternEngine] (h : c.Sound) (hkeys : Plan.NamesFields c) {e : CommandError}
    (hrun : Patch.run c w = .error e w') : ∃ e', e = .postProcess e' ∧ ∀ fault, e' ≠ .config fault := by
  rw [Patch.run] at hrun
  rcases bind_eq_error hrun with hstep | ⟨_, w₁, -, hrun⟩
  · cases hstep
  rcases bind_eq_error hrun with hstep | ⟨d, w₂, -, hrun⟩
  · cases hstep
  rcases bind_eq_error hrun with hstep | ⟨p, w₃, -, hrun⟩
  · obtain ⟨e', he, -⟩ := ofExcept_eq_error hstep
    obtain ⟨⟨p, hp⟩, -⟩ | ⟨-, hno⟩ := Plan.build_cases_of_sound h d
    · cases he.symm.trans hp
    · exact absurd hkeys hno
  rcases bind_eq_error hrun with hstep | ⟨outcome, w₄, -, hrun⟩
  · obtain ⟨e', he, rfl⟩ := onDisk_eq_error hstep
    exact ⟨e', rfl, Plan.execute_ne_config he⟩
  · cases hrun

/-- A configuration that passes the check gives a session for every catalog, answers, and features; it
gives a plan exactly if the tables on fields name fields. A run with a plan cannot fail on it later. -/
theorem validate_gates [PatternEngine] (h : c.validate = .ok ()) :
    (∀ catalog, ∃ s, Session.ofConfig catalog c = .ok s) ∧ (∃ answers, c.answers = .ok answers) ∧
      (∀ d, (∃ p, Plan.build c d = .ok p) ↔ Plan.NamesFields c) ∧
      (∀ d e, Plan.build c d = .error e → ∃ fault, e = .config (.invalidKey fault)) ∧
      (Plan.NamesFields c → ∀ w w' e, Patch.run c w = .error e w' →
        ∃ e', e = .postProcess e' ∧ ∀ fault, e' ≠ .config fault) := by
  have hsound := sound_of_validate h
  refine ⟨hsound.session, hsound.answers, fun d => ?_, fun d e he => ?_,
    fun hkeys w w' e => hsound.of_patch_error hkeys⟩
  · obtain ⟨hp, hkeys⟩ | ⟨⟨fault, hfault⟩, hkeys⟩ := Plan.build_cases_of_sound hsound d
    · exact iff_of_true hp hkeys
    · refine iff_of_false ?_ hkeys
      rintro ⟨p, hp⟩
      cases hfault.symm.trans hp
  · obtain ⟨⟨p, hp⟩, -⟩ | ⟨⟨fault, hfault⟩, -⟩ := Plan.build_cases_of_sound hsound d
    · cases he.symm.trans hp
    · exact ⟨fault, Except.error.inj (he.symm.trans hfault)⟩

/-- A project that gives the column of a key a type. -/
def typed (key : String) : Config :=
  { initial with base := some "base.prisma", fieldTypes := Table.ofList [(key, "Json")] }

theorem validate_gates_typed : (typed "User.bio").validate = .ok () ∧ Plan.NamesFields (typed "User.bio") ∧
    ∀ d, ∃ p, Plan.build (typed "User.bio") d = .ok p := by
  have hvalid : (typed "User.bio").validate = .ok () := by decide
  have hkeys : Plan.NamesFields (typed "User.bio") := by
    intro key hkey
    obtain rfl := List.mem_singleton.1 hkey
    exact ⟨"User", "bio", by decide, by decide, by decide, by decide⟩
  exact ⟨hvalid, hkeys, fun d => ((validate_gates hvalid).2.2.1 d).2 hkeys⟩

/-- The check passes a key without a field, and no plan can be made. -/
theorem validate_passes_model_key : (typed "User").validate = .ok () ∧
    ∀ d, Plan.build (typed "User") d = .error (.config (.invalidKey (.missingColumn "User"))) :=
  ⟨by decide, fun _ => rfl⟩

end Config

end FragmentMerge
