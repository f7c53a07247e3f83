import FragmentMerge.Proofs.Patch.OneByOne

/-! The extension mode of a batch. It leaves out the edits that skip: the batch does what it does without
these edits, apart from reporting them, and files that only they are for are not looked at. -/

namespace FragmentMerge

def Transaction.staying (t : Transaction) : Transaction := { t with edits := t.edits.filter (!·.skips) }

namespace Batch

open Disk

variable {mode : Bool} {d d' : Disk} {t : Transaction} {ts : List Transaction} {p : String}
  {snaps snaps' : List Snapshot} {reports reports' all all' rest rest' : List EditReport}

/-- Snapshots as they have been read. -/
def Stored (d : Disk) (snaps : List Snapshot) : Prop := ∀ s ∈ snaps, readTarget d s.path = .ok s.stored

theorem Stored.open? {s : Snapshot} (h : Stored d snaps) (ho : open? d p snaps = .ok s) :
    readTarget d s.path = .ok s.stored := by
  rcases open?_cases d p snaps with ⟨x, hx, -, hopen⟩ | ⟨-, hopen⟩
  · obtain rfl := Except.ok.inj (ho.symm.trans hopen)
    exact h s hx
  · rw [ho] at hopen
    cases hr : readTarget d p with
    | error e =>
      rw [hr] at hopen
      cases hopen
    | ok text =>
      rw [hr] at hopen
      cases hopen
      exact hr

theorem Stored.step (h : Stored d snaps)
    (ht : applyTransaction mode d (snaps, reports) t = .ok (snaps', reports')) : Stored d snaps' := by
  cases ha : isActive mode t with
  | false =>
    rw [applyTransaction_idle ha] at ht
    cases ht
    exact h
  | true =>
    rw [applyTransaction_reads ha] at ht
    cases hopen : Batch.open? d t.path snaps with
    | error e =>
      rw [hopen] at ht
      cases ht
    | ok s =>
      rw [hopen] at ht
      cases ht
      intro x hx
      rcases mem_of_mem_close hx with rfl | hx
      · show readTarget d s.path = .ok s.stored
        exact h.open? hopen
      · exact h x hx

theorem Stored.run (h : Stored d snaps)
    (hts : ts.foldlM (applyTransaction mode d) (snaps, reports) = .ok (snaps', reports')) :
    Stored d snaps' := by
  induction ts generalizing snaps reports with
  | nil =>
    cases hts
    exact h
  | cons t ts ih =>
    rw [List.foldlM_cons] at hts
    cases ht : applyTransaction mode d (snaps, reports) t with
    | error e =>
      rw [ht] at hts
      cases hts
    | ok st =>
      rw [ht] at hts
      exact ih (h.step ht) hts

/-- Files can be written one after another, also when some of them are the same. -/
theorem exists_writeEach_of_files {es : List (String × String)} (h : ∀ e ∈ es, ∃ w, AtFile d e.1 w) :
    ∃ d', writeEach es d = .ok d' := by
  induction es generalizing d with
  | nil => exact ⟨d, rfl⟩
  | cons e es ih =>
    obtain ⟨w, hw⟩ := h e List.mem_cons_self
    obtain ⟨d₁, hwrite, hrew, -⟩ := write_at hw e.2
    obtain ⟨d', hrest⟩ := ih (d := d₁) fun f hf =>
      (h f (List.mem_cons_of_mem _ hf)).imp fun k hk => hk.stays hrew
    refine ⟨d', ?_⟩
    rw [writeEach, List.foldlM_cons, hwrite]
    exact hrest

theorem process_of_unread {b : Batch} {e : PatchError}
    (h : b.transactions.foldlM (applyTransaction b.extensionMode d) ([], []) = .error e) :
    b.process d = (.error e, d) := by
  rw [process, h]

/-- Once it has read its files, a batch writes all of them that have changed. -/
theorem process_of_read {b : Batch}
    (h : b.transactions.foldlM (applyTransaction b.extensionMode d) ([], []) = .ok (snaps, reports)) :
    ∃ d', writeEach (changes (inOrder snaps)) d = .ok d' ∧
      b.process d = (.ok ⟨reports, (changes (inOrder snaps)).length⟩, d') := by
  have hstored : Stored d snaps := Stored.run (fun s hs => absurd hs List.not_mem_nil) h
  have hfiles : ∀ e ∈ changes (inOrder snaps), ∃ w, AtFile d e.1 w := by
    intro e he
    obtain ⟨s, hs, -, rfl⟩ := mem_changes.1 he
    exact atFile_of_readTarget (hstored s ((List.mergeSort_perm _ _).mem_iff.1 hs))
  obtain ⟨d', hwrites⟩ := exists_writeEach_of_files hfiles
  refine ⟨d', hwrites, ?_⟩
  rw [process, h]
  simp only [writeAll_of_writeEach hwrites 0, Nat.zero_add]

/-- The result of a batch is settled before it writes. -/
theorem fst_process (b : Batch) (d : Disk) :
    (b.process d).1 = (b.transactions.foldlM (applyTransaction b.extensionMode d) ([], [])).map
      fun st => ⟨st.2, (changes (inOrder st.1)).length⟩ := by
  cases h : b.transactions.foldlM (applyTransaction b.extensionMode d) ([], []) with
  | error e => rw [process_of_unread h]; rfl
  | ok st =>
    obtain ⟨d', -, hprocess⟩ := process_of_read h
    rw [hprocess]
    rfl

/-- A queue without the edits that skip, and without the transactions that have no others. -/
def staying (ts : List Transaction) : List Transaction :=
  (ts.map Transaction.staying).filter (!·.edits.isEmpty)

/-- The edits of a queue with the paths of their files, in the order in which they are reported. -/
def listed (ts : List Transaction) : List (String × Edit) := ts.flatMap fun t => t.edits.map (t.path, ·)

/-- The reports on edits of which those that skip are left out, and the reports on the others alone. -/
inductive LeavesOut : List (String × Edit) → List EditReport → List EditReport → Prop
  | nil : LeavesOut [] [] []
  | skip {p : String} {e : Edit} {es : List (String × Edit)} {all rest : List EditReport}
      (h : e.skips = true) :
      LeavesOut es all rest → LeavesOut ((p, e) :: es) (⟨p, e.name, .skippedMode⟩ :: all) rest
  | stay {p : String} {e : Edit} {es : List (String × Edit)} {all rest : List EditReport}
      (h : e.skips = false) (o : EditOutcome) :
      LeavesOut es all rest → LeavesOut ((p, e) :: es) (⟨p, e.name, o⟩ :: all) (⟨p, e.name, o⟩ :: rest)

theorem LeavesOut.append {es es' : List (String × Edit)} (h : LeavesOut es all rest)
    (h' : LeavesOut es' all' rest') : LeavesOut (es ++ es') (all ++ all') (rest ++ rest') := by
  induction h with
  | nil => exact h'
  | skip hs _ ih => exact .skip hs ih
  | stay hs o _ ih => exact .stay hs o ih

theorem leavesOut_skipped {es : List Edit} (h : ∀ e ∈ es, e.skips = true) (p : String) :
    LeavesOut (es.map (p, ·)) (es.map fun e => ⟨p, e.name, .skippedMode⟩) [] := by
  induction es with
  | nil => exact .nil
  | cons e es ih => exact .skip (h e List.mem_cons_self) (ih fun x hx => h x (List.mem_cons_of_mem _ hx))

theorem applyEdits_staying (content : String) (es : List Edit) (p : String) :
    (applyEdits true content es).2 = (applyEdits false content (es.filter (!·.skips))).2 ∧
      LeavesOut (es.map (p, ·)) ((applyEdits true content es).1.map fun x => ⟨p, x.1, x.2⟩)
        ((applyEdits false content (es.filter (!·.skips))).1.map fun x => ⟨p, x.1, x.2⟩) := by
  induction es generalizing content with
  | nil => exact ⟨rfl, .nil⟩
  | cons e es ih =>
    cases hs : e.skips with
    | true =>
      have hstep : applyEdit true content e = (.skippedMode, content) := by
        simp [applyEdit, isLeftOut, hs]
      rw [List.filter_cons_of_neg (by simp [hs]), applyEdits_cons, hstep]
      obtain ⟨htext, hreports⟩ := ih content
      exact ⟨htext, .skip hs hreports⟩
    | false =>
      have hstep : applyEdit true content e = applyEdit false content e := by
        simp [applyEdit, isLeftOut, hs]
      rw [List.filter_cons_of_pos (by simp [hs]), applyEdits_cons, applyEdits_cons, hstep]
      obtain ⟨htext, hreports⟩ := ih (applyEdit false content e).2
      exact ⟨htext, .stay hs _ hreports⟩

theorem isActive_true_iff : isActive true t = true ↔ ∃ e ∈ t.edits, e.skips = false := by
  simp [isActive]

theorem isActive_true_eq_false_iff : isActive true t = false ↔ ∀ e ∈ t.edits, e.skips = true := by
  simp [isActive]

theorem staying_cons_idle (h : isActive true t = false) (ts : List Transaction) :
    staying (t :: ts) = staying ts := by
  have hempty : t.staying.edits = [] := by
    apply List.filter_eq_nil_iff.2
    intro e he
    simp [isActive_true_eq_false_iff.1 h e he]
  rw [staying, List.map_cons, List.filter_cons_of_neg (by simp [hempty])]
  rfl

theorem staying_cons_active (h : isActive true t = true) (ts : List Transaction) :
    staying (t :: ts) = t.staying :: staying ts := by
  obtain ⟨e, he, hs⟩ := isActive_true_iff.1 h
  have hmem : e ∈ t.staying.edits := List.mem_filter.2 ⟨he, by simp [hs]⟩
  have hne : t.staying.edits ≠ [] := List.ne_nil_of_mem hmem
  rw [staying, List.map_cons, List.filter_cons_of_pos (by simp [hne])]
  rfl

theorem applyTransaction_staying (h : isActive true t = true) (d : Disk) (snaps : List Snapshot)
    (reports reports' : List EditReport) :
    (∃ e, applyTransaction true d (snaps, reports) t = .error e ∧
      applyTransaction false d (snaps, reports') t.staying = .error e) ∨
    ∃ snaps' all rest, applyTransaction true d (snaps, reports) t = .ok (snaps', reports ++ all) ∧
      applyTransaction false d (snaps, reports') t.staying = .ok (snaps', reports' ++ rest) ∧
      LeavesOut (t.edits.map (t.path, ·)) all rest := by
  have hactive : isActive false t.staying = true := rfl
  rw [applyTransaction_reads h, applyTransaction_reads hactive, show t.staying.path = t.path from rfl]
  cases open? d t.path snaps with
  | error e => exact .inl ⟨e, rfl, rfl⟩
  | ok s =>
    obtain ⟨htext, hreports⟩ := applyEdits_staying s.current t.edits t.path
    rw [applyEdits_snd, applyEdits_snd] at htext
    refine .inr ⟨_, _, _, rfl, ?_, hreports⟩
    rw [htext]
    rfl

/-- A queue and the queue of what stays come to the same snapshots, or to the same error. -/
theorem foldlM_staying (d : Disk) (ts : List Transaction) (snaps : List Snapshot)
    (reports reports' : List EditReport) :
    (∃ e, ts.foldlM (applyTransaction true d) (snaps, reports) = .error e ∧
      (staying ts).foldlM (applyTransaction false d) (snaps, reports') = .error e) ∨
    ∃ snaps' all rest, ts.foldlM (applyTransaction true d) (snaps, reports) = .ok (snaps', reports ++ all) ∧
      (staying ts).foldlM (applyTransaction false d) (snaps, reports') = .ok (snaps', reports' ++ rest) ∧
      LeavesOut (listed ts) all rest := by
  induction ts generalizing snaps reports reports' with
  | nil => exact .inr ⟨snaps, [], [], by simp; rfl, by simp; rfl, .nil⟩
  | cons t ts ih =>
    rw [List.foldlM_cons]
    cases ha : isActive true t with
    | false =>
      have hleft := leavesOut_skipped (isActive_true_eq_false_iff.1 ha) t.path
      rw [applyTransaction_idle ha, staying_cons_idle ha]
      rcases ih snaps (reports ++ t.edits.map fun e => ⟨t.path, e.name, .skippedMode⟩) reports' with
        ⟨e, hall, hrest⟩ | ⟨snaps', all, rest, hall, hrest, hleaves⟩
      · exact .inl ⟨e, hall, hrest⟩
      · refine .inr ⟨snaps', _ ++ all, rest, ?_, hrest, hleft.append hleaves⟩
        rw [← List.append_assoc]
        exact hall
    | true =>
      rw [staying_cons_active ha, List.foldlM_cons]
      rcases applyTransaction_staying ha d snaps reports reports' with
        ⟨e, hall, hrest⟩ | ⟨snaps₁, all₁, rest₁, hall₁, hrest₁, hleaves₁⟩
      · rw [hall, hrest]
        exact .inl ⟨e, rfl, rfl⟩
      · rw [hall₁, hrest₁]
        rcases ih snaps₁ (reports ++ all₁) (reports' ++ rest₁) with
          ⟨e, hall, hrest⟩ | ⟨snaps', all, rest, hall, hrest, hleaves⟩
        · exact .inl ⟨e, hall, hrest⟩
        · refine .inr ⟨snaps', all₁ ++ all, rest₁ ++ rest, ?_, ?_, hleaves₁.append hleaves⟩
          · rw [← List.append_assoc]
            exact hall
          · rw [← List.append_assoc]
            exact hrest

/-- What a queue comes to in memory depends on the files that it reads, and on no others. -/
theorem foldlM_congr (h : ∀ t ∈ ts, isActive mode t = true → readTarget d' t.path = readTarget d t.path)
    (st : List Snapshot × List EditReport) :
    ts.foldlM (applyTransaction mode d') st = ts.foldlM (applyTransaction mode d) st := by
  induction ts generalizing st with
  | nil => rfl
  | cons t ts ih =>
    have hstep : applyTransaction mode d' st t = applyTransaction mode d st t := by
      cases ha : isActive mode t with
      | false => rw [applyTransaction_idle ha, applyTransaction_idle ha]
      | true =>
        rw [applyTransaction_reads ha, applyTransaction_reads ha, open?, open?,
          h t List.mem_cons_self ha]
    rw [List.foldlM_cons, List.foldlM_cons, hstep]
    congr 1
    funext st'
    exact ih (fun u hu => h u (List.mem_cons_of_mem _ hu)) st'

/-- A batch in the extension mode ends as the batch of the edits that stay does: with the same error, or with
the same files, as many of which have been written, and the same reports on these edits; those that skip
are reported as skipped at their places. What it ends with does not depend on the files of transactions
all of whose edits skip. -/
theorem process_extensionMode (ts : List Transaction) (d : Disk) :
    ((∃ e, process ⟨ts, true⟩ d = (.error e, d) ∧ process ⟨staying ts, false⟩ d = (.error e, d)) ∨
      ∃ all rest n d', process ⟨ts, true⟩ d = (.ok ⟨all, n⟩, d') ∧
        process ⟨staying ts, false⟩ d = (.ok ⟨rest, n⟩, d') ∧ LeavesOut (listed ts) all rest) ∧
    ∀ d₂, (∀ t ∈ ts, (∃ e ∈ t.edits, e.skips = false) → readTarget d₂ t.path = readTarget d t.path) →
      (process ⟨ts, true⟩ d₂).1 = (process ⟨ts, true⟩ d).1 := by
  refine ⟨?_, fun d₂ hd => ?_⟩
  · rcases foldlM_staying d ts [] [] [] with ⟨e, hall, hrest⟩ | ⟨snaps, all, rest, hall, hrest, hleaves⟩
    · exact .inl ⟨e, process_of_unread hall, process_of_unread hrest⟩
    · -- both write what has changed in the same snapshots
      obtain ⟨d', hwrites, hprocess⟩ := process_of_read (b := ⟨ts, true⟩) hall
      obtain ⟨d'', hwrites', hprocess'⟩ := process_of_read (b := ⟨staying ts, false⟩) hrest
      obtain rfl := Except.ok.inj (hwrites.symm.trans hwrites')
      exact .inr ⟨all, rest, _, d', hprocess, hprocess', hleaves⟩
  · have hread : ∀ t ∈ ts, isActive true t = true → readTarget d₂ t.path = readTarget d t.path :=
      fun t ht ha => hd t ht (isActive_true_iff.1 ha)
    rw [fst_process, fst_process, foldlM_congr hread]

def classic : Edit := (Edit.of "classic" (.join (.literal "start") " classic")).skipping

/-- Two edits of one file that skip, and two that stay; a file for an edit that skips; and a transaction
without edits. -/
def mixed : List Transaction := [
  ⟨"a", [classic, .of "always" (.join (.literal "start") " always")]⟩,
  ⟨"b", [classic]⟩,
  ⟨"c", []⟩,
  ⟨"a", [.of "behind" (.join (.literal "always") " behind"), classic]⟩]

def started (others : List (List String × Entry)) : Disk := ⟨[], (["a"], .file (.text "start")) :: others⟩

def mixedSummary : BatchSummary :=
  ⟨[⟨"a", "classic", .skippedMode⟩, ⟨"a", "always", .applied⟩, ⟨"b", "classic", .skippedMode⟩,
    ⟨"a", "behind", .applied⟩, ⟨"a", "classic", .skippedMode⟩], 1⟩

/-- The result is the same where there is no file `b` and where it is not a text. -/
theorem process_extensionMode_mixed :
    (∃ d', process ⟨mixed, true⟩ (started []) = (.ok mixedSummary, d') ∧
      readTarget d' "a" = .ok "start always behind") ∧
    (process ⟨mixed, true⟩ (started [(["b"], .file (.binary [0xff]))])).1 = .ok mixedSummary := by
  have hfold : mixed.foldlM (applyTransaction true (started [])) ([], []) =
      .ok ([⟨"a", "start", "start always behind"⟩], mixedSummary.reports) := rfl
  have hprocess : ∃ d', process ⟨mixed, true⟩ (started []) = (.ok mixedSummary, d') ∧
      readTarget d' "a" = .ok "start always behind" :=
    ⟨_, process_of_ordered hfold (List.pairwise_singleton _ _) rfl, rfl⟩
  refine ⟨hprocess, ?_⟩
  obtain ⟨d', hresult, -⟩ := hprocess
  have hpaths : ∀ t ∈ mixed, isActive true t = true → t.path = "a" := by decide
  have hread : ∀ t ∈ mixed, (∃ e ∈ t.edits, e.skips = false) →
      readTarget (started [(["b"], .file (.binary [0xff]))]) t.path = readTarget (started []) t.path := by
    intro t ht hstays
    rw [hpaths t ht (isActive_true_iff.2 hstays)]
    rfl
  rw [(process_extensionMode mixed (started [])).2 _ hread, hresult]

end Batch

end FragmentMerge
