import FragmentMerge.Command.Work

/-! The steps of a command. A step that fails ends the command. A report counts the errors that it lists,
so diagnostics that are no errors keep a clean report clean. -/

namespace FragmentMerge.Task

variable {α β ε : Type} {w w' : Work}

theorem bind_apply (x : Task α) (f : α → Task β) (w : Work) : (x >>= f) w = match x w with
    | .ok a w₁ => f a w₁
    | .error e w₁ => .error e w₁ := by
  show EStateM.bind x f w = _
  unfold EStateM.bind
  cases x w <;> rfl

theorem bind_eq_error {x : Task α} {f : α → Task β} {e : CommandError} (h : (x >>= f) w = .error e w') :
    x w = .error e w' ∨ ∃ a w₁, x w = .ok a w₁ ∧ f a w₁ = .error e w' := by
  rw [bind_apply] at h
  cases hx : x w with
  | error e₁ w₁ =>
    rw [hx] at h
    cases h
    exact .inl rfl
  | ok a w₁ =>
    rw [hx] at h
    exact .inr ⟨a, w₁, rfl, h⟩

theorem disk_bind (f : Disk → Task β) (w : Work) : (disk >>= f) w = f w.disk w := rfl

theorem ofExcept_bind (wrap : ε → CommandError) (r : Except ε α) (f : α → Task β) (w : Work) :
    (ofExcept wrap r >>= f) w = match r with
      | .ok a => f a w
      | .error e => .error (wrap e) w := by
  rw [bind_apply]
  cases r <;> rfl

theorem ofExcept_eq_error {wrap : ε → CommandError} {r : Except ε α} {e : CommandError}
    (h : ofExcept wrap r w = .error e w') : ∃ e', r = .error e' ∧ e = wrap e' := by
  cases r with
  | ok a => cases h
  | error e' =>
    cases h
    exact ⟨e', rfl, rfl⟩

theorem onDisk_eq_error {wrap : ε → CommandError} {f : Disk → Except ε α × Disk} {e : CommandError}
    (h : onDisk wrap f w = .error e w') : ∃ e', f w.disk = (.error e', w'.disk) ∧ e = wrap e' := by
  unfold onDisk at h
  split at h
  · cases h
  · next e' _ hf =>
    cases h
    exact ⟨e', hf, rfl⟩

end FragmentMerge.Task

namespace FragmentMerge

namespace Report

/-- A report without errors, neither counted nor listed. -/
structure Clean (r : Report) : Prop where
  counted : r.hasErrors = false
  listed : ∀ d ∈ r.diagnostics, d.severity ≠ .error

/-- A report to which diagnostics have been added. -/
structure Adds (ds : List Diagnostic) (r r' : Report) : Prop where
  diagnostics : r'.diagnostics = r.diagnostics ++ ds
  errors : r'.summary.errors = r.summary.errors + ds.countP (·.severity = .error)

variable {r r' r'' : Report} {ds ds' : List Diagnostic}

theorem Adds.refl (r : Report) : Adds [] r r := ⟨(List.append_nil _).symm, rfl⟩

theorem Adds.trans (h : Adds ds r r') (g : Adds ds' r' r'') : Adds (ds ++ ds') r r'' := by
  refine ⟨?_, ?_⟩
  · rw [g.diagnostics, h.diagnostics, List.append_assoc]
  · rw [g.errors, h.errors, List.countP_append, Nat.add_assoc]

theorem adds_add (r : Report) (d : Diagnostic) : Adds [d] r (r.add d) := by
  refine ⟨rfl, ?_⟩
  cases hd : d.severity <;> simp [add, Summary.count, hd]

theorem adds_addAll (r : Report) (ds : List Diagnostic) : Adds ds r (r.addAll ds) := by
  induction ds generalizing r with
  | nil => exact .refl r
  | cons d ds ih => exact (adds_add r d).trans (ih (r.add d))

theorem Adds.clean (h : Adds ds r r') (hr : r.Clean) (hds : ∀ d ∈ ds, d.severity ≠ .error) : r'.Clean := by
  have hnone : ds.countP (·.severity = .error) = 0 := List.countP_eq_zero.2 fun d hd => by simpa using hds d hd
  refine ⟨?_, fun d hd => ?_⟩
  · rw [hasErrors, h.errors, hnone, Nat.add_zero]
    exact hr.counted
  · rw [h.diagnostics, List.mem_append] at hd
    exact hd.elim (hr.listed d) (hds d)

theorem Adds.hasErrors (h : Adds ds r r') {d : Diagnostic} (hd : d ∈ ds) (he : d.severity = .error) :
    r'.hasErrors = true := by
  have hpos : 0 < ds.countP (·.severity = .error) := List.countP_pos_iff.2 ⟨d, hd, by simpa using he⟩
  rw [Report.hasErrors, h.errors, bne_iff_ne]
  omega

end Report

/-- Work with diagnostics added and nothing else to tell. -/
structure Work.Says (ds : List Diagnostic) (w w' : Work) : Prop where
  disk : w'.disk = w.disk
  report : Report.Adds ds w.report w'.report

theorem Work.Says.trans {ds ds' : List Diagnostic} {w w' w'' : Work} (h : Says ds w w') (g : Says ds' w' w'') :
    Says (ds ++ ds') w w'' :=
  ⟨g.disk.trans h.disk, h.report.trans g.report⟩

namespace Task

variable {β : Type} {ds : List Diagnostic}

/-- Steps that cannot fail and only add diagnostics. -/
def Saying (ds : List Diagnostic) (x : Task Unit) : Prop := ∀ w, ∃ w', x w = .ok () w' ∧ Work.Says ds w w'

theorem saying_print (l : Line) : Saying [] (print l) := fun _ => ⟨_, rfl, rfl, .refl _⟩

theorem saying_diagnose (ds : List Diagnostic) : Saying ds (diagnose ds) :=
  fun _ => ⟨_, rfl, rfl, Report.adds_addAll _ ds⟩

theorem saying_count {f : Summary → Summary} (hf : ∀ s, (f s).errors = s.errors) : Saying [] (count f) :=
  fun _ => ⟨_, rfl, rfl, (List.append_nil _).symm, hf _⟩

theorem Saying.bind {x : Task Unit} (hx : Saying ds x) (f : Unit → Task β) (w : Work) :
    ∃ w₁, Work.Says ds w w₁ ∧ (x >>= f) w = f () w₁ := by
  obtain ⟨w₁, hw₁, htold⟩ := hx w
  exact ⟨w₁, htold, by rw [bind_apply, hw₁]⟩

end Task

end FragmentMerge
