import FragmentMerge.Pattern.Template
import FragmentMerge.Proofs.Command.Merged
import FragmentMerge.Proofs.Command.Work
import FragmentMerge.Proofs.Files.Route

/-! How a merge ends: the document is written and no error is reported, the merge is refused with an error
in the report, it fails before it gets to the document, or the document cannot be written. Only the first and
the last of them touch the disk, and only the first one is a merge of a session. So a merge is all or nothing,
and its result tells whether the document has been written. -/

namespace FragmentMerge.Merge

open FragmentMerge.Task

variable {c : Config} {w w₁ w' : Work} {d d' : Disk} {s : Session} {ds : List Diagnostic}

theorem severity_of_resolve {e : ResolveError} {x : Diagnostic} (h : resolveDiagnostic? s e = some x) :
    x.severity = .error := by
  cases e <;> cases h <;> rfl

theorem severity_of_load {e : LoadError} {x : Diagnostic} (h : loadDiagnostic? e = some x) :
    x.severity = .error := by
  unfold loadDiagnostic? at h
  split at h
  · cases h; rfl
  · cases h; rfl
  · cases h; rfl
  · cases h; rfl
  · cases h

theorem severity_of_mutation {m : Mutation} {x : Diagnostic} (h : mutationDiagnostic? m = some x) :
    x.severity ≠ .error := by
  unfold mutationDiagnostic? at h
  split at h <;> cases h <;> exact fun he => Severity.noConfusion he

theorem severity_of_conflict {xs : List Conflict} {catalog : Catalog} :
    ∀ x ∈ xs.map (conflictDiagnostic catalog), x.severity ≠ .error := by
  intro x hx
  obtain ⟨y, -, rfl⟩ := List.mem_map.1 hx
  exact fun he => Severity.noConfusion he

theorem severity_of_parent : ∀ x ∈ parentWarnings s, x.severity ≠ .error := by
  intro x hx
  obtain ⟨y, -, rfl⟩ := List.mem_map.1 hx
  exact fun he => Severity.noConfusion he

theorem read_writeDocument {path : String} {doc : Document} (h : writeDocument path doc d = (.ok (), d')) :
    d'.read path = .ok (.text doc.text) := by
  unfold writeDocument at h
  extract_lets ready at h
  rcases ready with errno | d₁
  · cases h
  · dsimp only at h
    split at h
    · cases h
    · next hwrite =>
      cases h
      exact Disk.read_write hwrite

/-- A document that can be written is published, without an error in the report. -/
theorem publish_ok (h : writeDocument (c.path c.output.schema) (Document.ofReplay s.current (extraBlocks c))
    w.disk = (.ok (), d)) : ∃ ds w', publish c s w = .ok () w' ∧ w'.disk = d ∧
      Report.Adds ds w.report w'.report ∧ ∀ x ∈ ds, x.severity ≠ .error := by
  obtain ⟨w₁, hw₁, hdisk, hreport⟩ := saying_diagnose (s.current.log.filterMap mutationDiagnostic?) w
  have hwrite : onDisk (.writeDocument (c.path c.output.schema)) (writeDocument (c.path c.output.schema)
      (Document.ofReplay s.current (extraBlocks c))) w₁ = .ok () { w₁ with disk := d } := by
    rw [onDisk, hdisk, h]
  let doc := Document.ofReplay s.current (extraBlocks c)
  obtain ⟨w₂, hw₂, htold₂⟩ := saying_count (f := fun n => { n with
    modelsEmitted := doc.models, enumsEmitted := doc.enums }) (fun _ => rfl) { w₁ with disk := d }
  obtain ⟨w₃, hw₃, htold₃⟩ := saying_print
    (.progress s!"Merged schema written to: {c.path c.output.schema}") w₂
  refine ⟨_, w₃, ?_, (htold₂.trans htold₃).disk, hreport.trans (htold₂.trans htold₃).report, fun x hx => ?_⟩
  · rw [publish, bind_apply, hw₁]
    dsimp only
    rw [bind_apply, hwrite]
    dsimp only
    rw [bind_apply, hw₂]
    exact hw₃
  · obtain ⟨m, -, hm⟩ := List.mem_filterMap.1 (by simpa using hx)
    exact severity_of_mutation hm

theorem publish_error {errno : Errno} (h : writeDocument (c.path c.output.schema)
    (Document.ofReplay s.current (extraBlocks c)) w.disk = (.error errno, d)) :
    ∃ w', publish c s w = .error (.writeDocument (c.path c.output.schema) errno) w' ∧ w'.disk = d := by
  obtain ⟨w₁, hw₁, hdisk, -⟩ := saying_diagnose (s.current.log.filterMap mutationDiagnostic?) w
  have hwrite : onDisk (.writeDocument (c.path c.output.schema)) (writeDocument (c.path c.output.schema)
      (Document.ofReplay s.current (extraBlocks c))) w₁ =
      .error (.writeDocument (c.path c.output.schema) errno) { w₁ with disk := d } := by
    rw [onDisk, hdisk, h]
  refine ⟨{ w₁ with disk := d }, ?_, rfl⟩
  rw [publish, bind_apply, hw₁]
  dsimp only
  rw [bind_apply, hwrite]

section Endings

variable [PatternEngine]

/-- How a merge ends. -/
inductive Ending (c : Config) (w : Work) : EStateM.Result CommandError Work Bool → Prop
  | written (s : Session) (ds : List Diagnostic) (w' : Work) : Merged c w.disk w'.disk s →
      Report.Adds ds w.report w'.report → (∀ x ∈ ds, x.severity ≠ .error) → Ending c w (.ok true w')
  | refused (ds : List Diagnostic) (x : Diagnostic) (w' : Work) : (∀ d s, ¬ Merged c w.disk d s) →
      Work.Says ds w w' → x ∈ ds → x.severity = .error → Ending c w (.ok false w')
  | failed (ds : List Diagnostic) (e : CommandError) (w' : Work) : (∀ d s, ¬ Merged c w.disk d s) →
      Work.Says ds w w' → Ending c w (.error e w')
  | unwritten (doc : Document) (errno : Errno) (w' : Work) : (∀ d s, ¬ Merged c w.disk d s) →
      writeDocument (c.path c.output.schema) doc w.disk = (.error errno, w'.disk) →
      Ending c w (.error (.writeDocument (c.path c.output.schema) errno) w')

/-- What has been said before does not change how a merge ends, as long as it is no error. -/
theorem Ending.after {o : EStateM.Result CommandError Work Bool} (h : Work.Says ds w w₁)
    (hds : ∀ x ∈ ds, x.severity ≠ .error) (ho : Ending c w₁ o) : Ending c w o := by
  obtain ⟨hdisk, hreport⟩ := h
  cases ho with
  | written s ds' w' hm ha hds' =>
    rw [hdisk] at hm
    refine .written s (ds ++ ds') w' hm (hreport.trans ha) fun x hx => ?_
    exact (List.mem_append.1 hx).elim (hds x) (hds' x)
  | refused ds' x w' hnone ha hx he =>
    rw [hdisk] at hnone
    exact .refused (ds ++ ds') x w' hnone (Work.Says.trans ⟨hdisk, hreport⟩ ha) (List.mem_append_right _ hx) he
  | failed ds' e w' hnone ha =>
    rw [hdisk] at hnone
    exact .failed (ds ++ ds') e w' hnone (Work.Says.trans ⟨hdisk, hreport⟩ ha)
  | unwritten doc errno w' hnone hwrite =>
    rw [hdisk] at hnone hwrite
    exact .unwritten doc errno w' hnone hwrite

theorem Ending.of_saying {x : Task Unit} {f : Unit → Task Bool} (hx : Saying ds x)
    (hds : ∀ x ∈ ds, x.severity ≠ .error) (h : ∀ w₁ : Work, w₁.disk = w.disk → Ending c w₁ (f () w₁)) :
    Ending c w ((x >>= f) w) := by
  obtain ⟨w₁, htold, hrun⟩ := hx.bind f w
  rw [hrun]
  exact .after htold hds (h w₁ htold.disk)

theorem publish_ends {catalog : Catalog} {start : Session} {answers : List (ItemKey × Action)}
    {r : Resolution} (hload : c.load w.disk [] = .ok catalog) (hstart : Session.ofConfig catalog c = .ok start)
    (hanswers : c.answers = .ok answers) (hres : start.resolve? (ruleResolver answers) () = some ⟨.ok r, s, ()⟩) :
    Ending c w ((publish c s >>= fun _ => pure true) w) := by
  have hpristine := (of_resolve (Config.kept_load hload) hstart hres).1
  rw [bind_apply]
  rcases hwrite : writeDocument (c.path c.output.schema) (Document.ofReplay s.current (extraBlocks c)) w.disk
    with ⟨errno | _, d⟩
  · obtain ⟨w', hrun, rfl⟩ := publish_error hwrite
    rw [hrun]
    refine .unwritten _ errno w' (fun d s' h => ?_) hwrite
    obtain ⟨r', hr⟩ := h.resolve_eq hload hstart hanswers
    rw [hres] at hr
    cases hr
    have hwritten := h.written
    rw [hwrite] at hwritten
    cases hwritten
  · obtain ⟨ds, w', hrun, rfl, hadds, hds⟩ := publish_ok hwrite
    rw [hrun]
    exact .written s ds w' ⟨hpristine ▸ hload, ⟨start, answers, r, hpristine ▸ hstart, hanswers, hres⟩, hwrite⟩
      hadds hds

theorem settle_ends {catalog : Catalog} (hload : c.load w.disk [] = .ok catalog) :
    Ending c w (settle c catalog w) := by
  rw [settle, ofExcept_bind]
  cases hstart : Session.ofConfig catalog c with
  | error e =>
    refine .failed [] _ _ (fun d s h => ?_) ⟨rfl, .refl _⟩
    obtain ⟨start, answers, r, hs, -⟩ := h.of_load hload
    rw [hstart] at hs
    cases hs
  | ok start =>
    dsimp only
    rw [ofExcept_bind]
    cases hanswers : c.answers with
    | error e =>
      refine .failed [] _ _ (fun d s h => ?_) ⟨rfl, .refl _⟩
      obtain ⟨start, answers, r, -, ha, -⟩ := h.of_load hload
      rw [hanswers] at ha
      cases ha
    | ok answers =>
      refine .of_saying (saying_diagnose _) severity_of_conflict fun w₁ h₁ => ?_
      refine .of_saying (saying_diagnose _) severity_of_parent fun w₂ h₂ => ?_
      refine .of_saying (saying_print _) (by simp) fun w₃ h₃ => ?_
      rw [← h₁, ← h₂, ← h₃] at hload
      have hnone : (∀ r s, start.resolve? (ruleResolver answers) () ≠ some ⟨.ok r, s, ()⟩) →
          ∀ d s, ¬ Merged c w₃.disk d s := fun hno d s h => by
        obtain ⟨r, hr⟩ := h.resolve_eq hload hstart hanswers
        exact hno r s hr
      rcases hres : start.resolve? (ruleResolver answers) () with _ | ⟨e | r, s, _⟩
      · exact .failed [] _ _ (hnone (by simp [hres])) ⟨rfl, .refl _⟩
      · have hnone := hnone (by simp [hres])
        dsimp only
        cases hd : resolveDiagnostic? s e with
        | none => exact .failed [] _ _ hnone ⟨rfl, .refl _⟩
        | some x =>
          exact .refused [x] x _ hnone ⟨rfl, Report.adds_add _ x⟩ List.mem_cons_self (severity_of_resolve hd)
      · dsimp only
        refine .of_saying (saying_count fun _ => rfl) (by simp) fun w₄ h₄ => ?_
        rw [← h₄] at hload
        exact publish_ends hload hstart hanswers hres

theorem run_ends (c : Config) (w : Work) : Ending c w (run c w) := by
  rw [run]
  refine .of_saying (saying_print _) (by simp) fun w₁ h₁ => ?_
  rw [disk_bind]
  cases hload : c.load w₁.disk [] with
  | ok catalog => exact settle_ends hload
  | error e =>
    have hnone : ∀ d s, ¬ Merged c w₁.disk d s := fun d s h => by
      have := h.loaded
      rw [hload] at this
      cases this
    dsimp only
    cases hd : loadDiagnostic? e with
    | none => exact .failed [] _ _ hnone ⟨rfl, .refl _⟩
    | some x =>
      exact .refused [x] x _ hnone ⟨rfl, Report.adds_add _ x⟩ List.mem_cons_self (severity_of_load hd)

theorem merged_of_run (h : run c w = .ok true w') : ∃ s, Merged c w.disk w'.disk s := by
  have hends := run_ends c w
  rw [h] at hends
  cases hends with
  | written s ds _ hs => exact ⟨s, hs⟩

/-- What a merge reports and leaves behind, for each of its results. -/
structure AllOrNothing (c : Config) (w : Work) : Prop where
  succeeds : (∃ w', run c w = .ok true w') ↔ ∃ d s, Merged c w.disk d s
  written : ∀ w', run c w = .ok true w' → w'.report.Clean ∧ ∃ s, Merged c w.disk w'.disk s ∧
    w'.disk.read (c.path c.output.schema) = .ok (.text (Document.ofReplay s.current (extraBlocks c)).text)
  refused : ∀ w', run c w = .ok false w' → w'.disk = w.disk ∧ w'.report.hasErrors = true ∧
    ∃ ds, w'.report.diagnostics = w.report.diagnostics ++ ds ∧ ∃ x ∈ ds, x.severity = .error
  failed : ∀ e w', run c w = .error e w' → w'.disk = w.disk ∨
    ∃ doc errno, e = .writeDocument (c.path c.output.schema) errno ∧
      writeDocument (c.path c.output.schema) doc w.disk = (.error errno, w'.disk)

/-- A merge writes the document and reports no error, or reports one and leaves all files alone; when it
fails, only the writing of the document can have changed a file. -/
theorem run_all_or_nothing {c : Config} {w : Work} (hw : w.report.Clean) : AllOrNothing c w := by
  have hends := run_ends c w
  refine ⟨⟨?_, ?_⟩, ?_, ?_, ?_⟩
  · rintro ⟨w', hrun⟩
    obtain ⟨s, hs⟩ := merged_of_run hrun
    exact ⟨w'.disk, s, hs⟩
  · rintro ⟨d, s, hs⟩
    rcases hrun : run c w with ⟨_ | _, w'⟩ | ⟨e, w'⟩
    · rw [hrun] at hends
      cases hends with
      | refused _ _ _ hnone => exact absurd hs (hnone d s)
    · exact ⟨w', rfl⟩
    · rw [hrun] at hends
      cases hends with
      | failed _ _ _ hnone => exact absurd hs (hnone d s)
      | unwritten _ _ _ hnone => exact absurd hs (hnone d s)
  · intro w' hrun
    rw [hrun] at hends
    cases hends with
    | written s ds _ hs hadds hds => exact ⟨hadds.clean hw hds, s, hs, read_writeDocument hs.written⟩
  · intro w' hrun
    rw [hrun] at hends
    cases hends with
    | refused ds x _ _ htold hx he =>
      exact ⟨htold.disk, htold.report.hasErrors hx he, ds, htold.report.diagnostics, x, hx, he⟩
  · intro e w' hrun
    rw [hrun] at hends
    cases hends with
    | failed ds _ _ _ htold => exact .inl htold.disk
    | unwritten doc errno _ _ hwrite => exact .inr ⟨doc, errno, rfl, hwrite⟩

end Endings

/-- Two user models, with rules for their conflict or without. -/
def divided (resolve : List ResolveRule) : Config :=
  { Config.initial with
    base := some "base"
    fragments := ["a", "b"]
    resolve
    output := { Outputs.initial with schema := "out" } }

def dividedWork : Work :=
  ⟨⟨[], [(["base"], .file (.text "generator g \x7b\n\x7d\ndatasource d \x7b\n\x7d")),
    (["a"], .file (.text "model User \x7b\n  id Int\n\x7d")),
    (["b"], .file (.text "model User \x7b\n  id Int\n\x7d")),
    (["out"], .file (.text "old"))]⟩, Report.start "", []⟩

theorem run_all_or_nothing_divided :
    (∃ w', run (divided []) dividedWork = .ok false w' ∧ w'.disk = dividedWork.disk ∧
        w'.report.hasErrors = true) ∧
      ∃ w' s, run (divided [⟨"a:User", .skip, none, .model⟩]) dividedWork = .ok true w' ∧ w'.report.Clean ∧
        w'.disk.read "out" = .ok (.text (Document.ofReplay s []).text) := by
  have hclean : dividedWork.report.Clean := ⟨rfl, fun d hd => by cases hd⟩
  obtain ⟨w', hrun⟩ : ∃ w', run (divided []) dividedWork = .ok false w' := ⟨_, rfl⟩
  have h := (run_all_or_nothing hclean).refused w' hrun
  obtain ⟨w'', hrun'⟩ : ∃ w', run (divided [⟨"a:User", .skip, none, .model⟩]) dividedWork = .ok true w' :=
    ⟨_, rfl⟩
  obtain ⟨hreport, s, -, hread⟩ := (run_all_or_nothing hclean).written w'' hrun'
  exact ⟨⟨w', hrun, h.1, h.2.1⟩, w'', s.current, hrun', hreport, hread⟩

end FragmentMerge.Merge
