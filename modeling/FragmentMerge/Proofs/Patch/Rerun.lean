import FragmentMerge.Proofs.Data.Aligned
import FragmentMerge.Proofs.Patch.Edit
import FragmentMerge.Proofs.Patch.Writes

/-! Batches on files of different paths. Every file that is read ends with the text that its edits make
of it, no other file changes, and a batch whose edits leave these texts as they are writes nothing. -/

namespace FragmentMerge.Batch

open Disk

variable {mode : Bool} {d d' : Disk} {t : Transaction} {ts : List Transaction}
  {snaps snaps' : List Snapshot} {reports reports' : List EditReport}

/-- Whether the file of a transaction is read. -/
def isActive (mode : Bool) (t : Transaction) : Bool := !(mode && t.edits.all (·.skips))

/-- The snapshot of a file after its transaction. -/
def Shows (mode : Bool) (d : Disk) (t : Transaction) (s : Snapshot) : Prop :=
  s.path = t.path ∧ readTarget d t.path = .ok s.stored ∧ s.current = edited mode s.stored t.edits

theorem close_new {s : Snapshot} (h : ∀ x ∈ snaps, samePath s.path x.path = false) :
    close s snaps = snaps ++ [s] := by
  induction snaps with
  | nil => rfl
  | cons x snaps ih =>
    rw [close, if_neg (by simp [h x List.mem_cons_self]), ih fun y hy => h y (List.mem_cons_of_mem _ hy),
      List.cons_append]

theorem open?_new {path : String} (h : ∀ x ∈ snaps, samePath path x.path = false) :
    open? d path snaps = (readTarget d path).map fun text => ⟨path, text, text⟩ := by
  have hnone : snaps.find? (samePath path ·.path) = none :=
    List.find?_eq_none.2 fun x hx => by simp [h x hx]
  rw [open?, hnone]

theorem applyTransaction_idle (h : isActive mode t = false) : applyTransaction mode d (snaps, reports) t =
    .ok (snaps, reports ++ t.edits.map fun e => ⟨t.path, e.name, .skippedMode⟩) := by
  rw [applyTransaction, if_pos (by simpa [isActive] using h)]

theorem applyTransaction_reads (h : isActive mode t = true) :
    applyTransaction mode d (snaps, reports) t = (open? d t.path snaps).map fun s =>
      (close { s with current := edited mode s.current t.edits } snaps,
        reports ++ (applyEdits mode s.current t.edits).1.map fun x => ⟨t.path, x.1, x.2⟩) := by
  have hread : (mode && t.edits.all (·.skips)) = false := by
    cases hall : mode && t.edits.all (·.skips) with
    | false => rfl
    | true => rw [isActive, hall] at h; cases h
  rw [applyTransaction, hread, if_neg Bool.false_ne_true]
  simp only [← applyEdits_snd]

theorem applyTransaction_active (h : isActive mode t = true)
    (hnew : ∀ x ∈ snaps, samePath t.path x.path = false) :
    applyTransaction mode d (snaps, reports) t = (readTarget d t.path).map fun text =>
      (snaps ++ [⟨t.path, text, edited mode text t.edits⟩],
        reports ++ (applyEdits mode text t.edits).1.map fun x => ⟨t.path, x.1, x.2⟩) := by
  rw [applyTransaction_reads h, open?_new hnew]
  cases readTarget d t.path with
  | error e => rfl
  | ok text =>
    have hclose : ∀ current, close ⟨t.path, text, current⟩ snaps = snaps ++ [⟨t.path, text, current⟩] :=
      fun current => close_new (s := ⟨t.path, text, current⟩) hnew
    simp only [Except.map, hclose]

/-- Paths that no two transactions share. -/
def Apart (ts : List Transaction) : Prop := ts.Pairwise fun t u => samePath u.path t.path = false

theorem new_append {more : List Snapshot}
    (h : ∀ t ∈ ts, ∀ x ∈ snaps, samePath t.path x.path = false)
    (h' : ∀ t ∈ ts, ∀ x ∈ more, samePath t.path x.path = false) :
    ∀ t ∈ ts, ∀ x ∈ snaps ++ more, samePath t.path x.path = false :=
  fun t ht x hx => (List.mem_append.1 hx).elim (h t ht x) (h' t ht x)

/-- What transactions on different files come to: a snapshot for each file that is read. -/
theorem of_foldlM (hd : Apart ts) (hnew : ∀ t ∈ ts, ∀ x ∈ snaps, samePath t.path x.path = false)
    (h : ts.foldlM (applyTransaction mode d) (snaps, reports) = .ok (snaps', reports')) :
    ∃ new, snaps' = snaps ++ new ∧ List.Forall₂ (Shows mode d) (ts.filter (isActive mode)) new := by
  induction ts generalizing snaps reports with
  | nil =>
    obtain ⟨rfl, -⟩ := Prod.mk.inj (Except.ok.inj h)
    exact ⟨[], by simp, .nil⟩
  | cons t ts ih =>
    obtain ⟨hfar, hd⟩ := List.pairwise_cons.1 hd
    have hrest := fun u hu => hnew u (List.mem_cons_of_mem _ hu)
    rw [List.foldlM_cons] at h
    cases ha : isActive mode t with
    | false =>
      rw [applyTransaction_idle ha] at h
      rw [List.filter_cons_of_neg (by simp [ha])]
      exact ih hd hrest h
    | true =>
      rw [applyTransaction_active ha (hnew t List.mem_cons_self)] at h
      rw [List.filter_cons_of_pos ha]
      cases hr : readTarget d t.path with
      | error e =>
        rw [hr] at h
        cases h
      | ok text =>
        rw [hr] at h
        have h : ts.foldlM (applyTransaction mode d) (snaps ++ [⟨t.path, text, edited mode text t.edits⟩],
          reports ++ (applyEdits mode text t.edits).1.map fun x => ⟨t.path, x.1, x.2⟩) =
            .ok (snaps', reports') := h
        have hnew : ∀ u ∈ ts, ∀ x ∈ snaps ++ [⟨t.path, text, edited mode text t.edits⟩],
            samePath u.path x.path = false := new_append hrest (by simpa using hfar)
        obtain ⟨new, rfl, hnews⟩ := ih hd hnew h
        exact ⟨⟨t.path, text, edited mode text t.edits⟩ :: new, by simp, .cons ⟨rfl, hr, rfl⟩ hnews⟩

theorem applyTransaction_fixed (reports : List EditReport)
    (hnew : ∀ x ∈ snaps, samePath t.path x.path = false)
    (hfixed : isActive mode t = true → ∃ text, readTarget d t.path = .ok text ∧
      ∀ e ∈ t.edits, isLeftOut mode e = false → e.result text = text) :
    ∃ new more, applyTransaction mode d (snaps, reports) t = .ok (snaps ++ new, reports ++ more) ∧
      (∀ s ∈ new, s.path = t.path ∧ s.current = s.stored) ∧ ∀ x ∈ more, x.outcome ≠ .applied := by
  cases ha : isActive mode t with
  | false =>
    refine ⟨[], t.edits.map fun e => ⟨t.path, e.name, .skippedMode⟩, ?_, by simp, fun x hx => ?_⟩
    · rw [applyTransaction_idle ha, List.append_nil]
    · obtain ⟨e, -, rfl⟩ := List.mem_map.1 hx
      exact fun h => nomatch h
  | true =>
    obtain ⟨text, hr, hedits⟩ := hfixed ha
    obtain ⟨htext, houtcomes⟩ := applyEdits_of_fixed hedits
    rw [applyEdits_snd] at htext
    refine ⟨[⟨t.path, text, text⟩], (applyEdits mode text t.edits).1.map fun x => ⟨t.path, x.1, x.2⟩,
      ?_, by simp, fun x hx => ?_⟩
    · rw [applyTransaction_active ha hnew, hr]
      simp only [Except.map, htext]
    · obtain ⟨o, ho, rfl⟩ := List.mem_map.1 hx
      exact houtcomes o ho

theorem foldlM_fixed (hd : Apart ts) (hnew : ∀ t ∈ ts, ∀ x ∈ snaps, samePath t.path x.path = false)
    (hfixed : ∀ t ∈ ts, isActive mode t = true → ∃ text, readTarget d t.path = .ok text ∧
      ∀ e ∈ t.edits, isLeftOut mode e = false → e.result text = text) :
    ∃ new more, ts.foldlM (applyTransaction mode d) (snaps, reports) = .ok (snaps ++ new, reports ++ more) ∧
      (∀ s ∈ new, s.current = s.stored) ∧ ∀ x ∈ more, x.outcome ≠ .applied := by
  induction ts generalizing snaps reports with
  | nil => exact ⟨[], [], by simp; rfl, by simp, by simp⟩
  | cons t ts ih =>
    obtain ⟨hfar, hd⟩ := List.pairwise_cons.1 hd
    obtain ⟨new₁, more₁, hstep, hsame₁, hmore₁⟩ :=
      applyTransaction_fixed reports (hnew t List.mem_cons_self) (hfixed t List.mem_cons_self)
    have hnew₁ := new_append (fun u hu => hnew u (List.mem_cons_of_mem _ hu))
      fun u hu s hs => (hsame₁ s hs).1 ▸ hfar u hu
    obtain ⟨new, more, hrun, hsame, hmore⟩ := @ih (snaps ++ new₁) (reports ++ more₁) hd hnew₁
      fun u hu => hfixed u (List.mem_cons_of_mem _ hu)
    refine ⟨new₁ ++ new, more₁ ++ more, ?_, fun s hs => ?_, fun x hx => ?_⟩
    · rw [List.foldlM_cons, hstep, ← List.append_assoc, ← List.append_assoc]
      exact hrun
    · exact (List.mem_append.1 hs).elim (fun h => (hsame₁ s h).2) (hsame s)
    · exact (List.mem_append.1 hx).elim (hmore₁ x) (hmore x)

theorem writeAll_same {ss : List Snapshot} (h : ∀ s ∈ ss, s.current = s.stored) (d : Disk) (n : Nat) :
    writeAll ss d n = (.ok n, d) := by
  induction ss with
  | nil => rfl
  | cons s ss ih =>
    rw [writeAll, if_pos (h s List.mem_cons_self)]
    exact ih fun x hx => h x (List.mem_cons_of_mem _ hx)

/-- A batch whose edits leave the texts of their files as they are writes nothing. -/
theorem process_fixed {b : Batch} (hd : Apart b.transactions)
    (hfixed : ∀ t ∈ b.transactions, isActive b.extensionMode t = true → ∃ text,
      readTarget d t.path = .ok text ∧
        ∀ e ∈ t.edits, isLeftOut b.extensionMode e = false → e.result text = text) :
    ∃ s, b.process d = (.ok s, d) ∧ s.filesWritten = 0 ∧ ∀ x ∈ s.reports, x.outcome ≠ .applied := by
  obtain ⟨new, more, hrun, hsame, hmore⟩ : ∃ new more,
      b.transactions.foldlM (applyTransaction b.extensionMode d) ([], []) =
        .ok ([] ++ new, [] ++ more) ∧
      (∀ s ∈ new, s.current = s.stored) ∧ ∀ x ∈ more, x.outcome ≠ .applied :=
    foldlM_fixed hd (by simp) hfixed
  rw [List.nil_append, List.nil_append] at hrun
  have hwrites : writeAll (inOrder new) d 0 = (.ok 0, d) :=
    writeAll_same (fun x hx => hsame x ((List.mergeSort_perm _ _).mem_iff.1 hx)) d 0
  refine ⟨⟨more, 0⟩, ?_, rfl, hmore⟩
  rw [process, hrun]
  simp only [hwrites]

theorem map_path_of_forall₂ (h : List.Forall₂ (Shows mode d) ts snaps) :
    snaps.map (·.path) = ts.map (·.path) := by
  induction h with
  | nil => rfl
  | cons hs _ ih => rw [List.map_cons, List.map_cons, ih, hs.1]

/-- Once all files have been read, the batch is carried out: the files of its transactions get the texts
that their edits make, and no others change. -/
theorem process_of_foldlM {b : Batch} (hd : Apart b.transactions)
    (hways : b.transactions.Pairwise fun t u => Unlike d t.path u.path)
    (hfold : b.transactions.foldlM (applyTransaction b.extensionMode d) ([], []) = .ok (snaps, reports)) :
    ∃ n d', b.process d = (.ok ⟨reports, n⟩, d') ∧
      Rewritten (fun k => ∃ t ∈ b.transactions, AtFile d t.path k) d d' ∧
      ∀ t ∈ b.transactions, isActive b.extensionMode t = true → ∃ text,
        readTarget d t.path = .ok text ∧ readTarget d' t.path = .ok (edited b.extensionMode text t.edits) := by
  obtain ⟨new, hsnaps, hshows⟩ := of_foldlM hd (by simp) hfold
  rw [List.nil_append] at hsnaps
  subst hsnaps
  have hperm : (inOrder snaps).Perm snaps := List.mergeSort_perm _ _
  have hpair : snaps.Pairwise fun x y => Unlike d x.path y.path := by
    have hpaths : ((b.transactions.filter (isActive b.extensionMode)).map (·.path)).Pairwise (Unlike d) :=
      List.pairwise_map.2 (hways.filter _)
    rw [← map_path_of_forall₂ hshows] at hpaths
    exact List.pairwise_map.1 hpaths
  have hread : ∀ x ∈ inOrder snaps, readTarget d x.path = .ok x.stored := by
    intro x hx
    obtain ⟨t, -, hpath, hr, -⟩ := exists_of_forall₂ hshows (hperm.mem_iff.1 hx)
    exact hpath ▸ hr
  obtain ⟨d', hwrites, hrew, hcur⟩ := exists_writeChanges hread
    ((hperm.pairwise_iff fun hxy w hy hx => hxy w hx hy).2 hpair)
  refine ⟨0 + (changes (inOrder snaps)).length, d', ?_, hrew.mono fun k ⟨e, he, hk⟩ => ?_, fun t ht ha => ?_⟩
  · rw [process, hfold]
    simp only [writeAll_of_writeEach hwrites]
  · obtain ⟨x, hx, -, rfl⟩ := mem_changes.1 he
    obtain ⟨t, ht, hpath, -⟩ := exists_of_forall₂ hshows (hperm.mem_iff.1 hx)
    exact ⟨t, (List.mem_filter.1 ht).1, hpath ▸ hk⟩
  · obtain ⟨x, hx, hpath, hr, hedited⟩ := exists_of_forall₂ hshows.flip (List.mem_filter.2 ⟨ht, ha⟩)
    exact ⟨x.stored, hr, hedited ▸ hpath ▸ hcur x (hperm.mem_iff.2 hx)⟩

theorem of_process {b : Batch} {s : BatchSummary} (hd : Apart b.transactions)
    (hways : b.transactions.Pairwise fun t u => Unlike d t.path u.path) (h : b.process d = (.ok s, d')) :
    Rewritten (fun k => ∃ t ∈ b.transactions, AtFile d t.path k) d d' ∧
      ∀ t ∈ b.transactions, isActive b.extensionMode t = true → ∃ text,
        readTarget d t.path = .ok text ∧ readTarget d' t.path = .ok (edited b.extensionMode text t.edits) := by
  cases hfold : b.transactions.foldlM (applyTransaction b.extensionMode d) ([], []) with
  | error e =>
    rw [process, hfold] at h
    cases h
  | ok st =>
    obtain ⟨n, d₁, hprocess, hdone⟩ := process_of_foldlM hd hways hfold
    obtain ⟨-, rfl⟩ := Prod.mk.inj (hprocess.symm.trans h)
    exact hdone

/-- Transactions stop only at a file that cannot be read. -/
theorem foldlM_error {st : List Snapshot × List EditReport} {e : PatchError}
    (h : ts.foldlM (applyTransaction mode d) st = .error e) :
    ∃ t ∈ ts, isActive mode t = true ∧ readTarget d t.path = .error e := by
  induction ts generalizing st with
  | nil => cases h
  | cons t ts ih =>
    have hrest : ∀ {st}, ts.foldlM (applyTransaction mode d) st = .error e →
        ∃ u ∈ t :: ts, isActive mode u = true ∧ readTarget d u.path = .error e := fun h => by
      obtain ⟨u, hu, hstop⟩ := ih h
      exact ⟨u, List.mem_cons_of_mem _ hu, hstop⟩
    rw [List.foldlM_cons] at h
    cases ha : isActive mode t with
    | false =>
      rw [applyTransaction_idle ha] at h
      exact hrest h
    | true =>
      rw [applyTransaction_reads ha, open?] at h
      split at h
      · exact hrest h
      · cases hr : readTarget d t.path with
        | error e' =>
          rw [hr] at h
          exact ⟨t, List.mem_cons_self, ha, hr.trans (congrArg Except.error (Except.error.inj h))⟩
        | ok text =>
          rw [hr] at h
          exact hrest h

theorem of_process_error {b : Batch} {e : PatchError} (hd : Apart b.transactions)
    (hways : b.transactions.Pairwise fun t u => Unlike d t.path u.path) (h : b.process d = (.error e, d')) :
    d' = d ∧ ∃ t ∈ b.transactions, isActive b.extensionMode t = true ∧ readTarget d t.path = .error e := by
  cases hfold : b.transactions.foldlM (applyTransaction b.extensionMode d) ([], []) with
  | error e' =>
    rw [process, hfold] at h
    obtain ⟨he, rfl⟩ := Prod.mk.inj h
    obtain rfl := Except.error.inj he
    exact ⟨rfl, foldlM_error hfold⟩
  | ok st =>
    obtain ⟨n, d₁, hprocess, -⟩ := process_of_foldlM hd hways hfold
    rw [hprocess] at h
    cases h

/-- A batch that has been carried out changes the files of its transactions and no others; if its edits
leave the texts that they have made as they are, it does nothing when it is carried out again. -/
theorem process_again {b : Batch} {s : BatchSummary} (hd : Apart b.transactions)
    (hways : b.transactions.Pairwise fun t u => Unlike d t.path u.path)
    (hfixed : ∀ t ∈ b.transactions, isActive b.extensionMode t = true → ∀ text,
      readTarget d t.path = .ok text → ∀ e ∈ t.edits, isLeftOut b.extensionMode e = false →
      e.result (edited b.extensionMode text t.edits) = edited b.extensionMode text t.edits)
    (h : b.process d = (.ok s, d')) :
    Rewritten (fun k => ∃ t ∈ b.transactions, AtFile d t.path k) d d' ∧
      (∀ t ∈ b.transactions, isActive b.extensionMode t = true → ∃ w, AtFile d' t.path w) ∧
      ∃ s', b.process d' = (.ok s', d') ∧ s'.filesWritten = 0 ∧ ∀ x ∈ s'.reports, x.outcome ≠ .applied := by
  obtain ⟨hrew, htexts⟩ := of_process hd hways h
  refine ⟨hrew, fun t ht ha => ?_, ?_⟩
  · obtain ⟨text, -, hcur⟩ := htexts t ht ha
    exact atFile_of_readTarget hcur
  · -- the texts that are read now are those that the edits have made
    refine process_fixed hd fun t ht ha => ?_
    obtain ⟨text, hr, hcur⟩ := htexts t ht ha
    exact ⟨_, hcur, fun e he hl => hfixed t ht ha text hr e he hl⟩

/-- A batch whose snapshots come in the order in which they are written. -/
theorem process_of_ordered {b : Batch} (h : b.transactions.foldlM (applyTransaction b.extensionMode d)
      ([], []) = .ok (snaps, reports))
    (hs : snaps.Pairwise fun s t => (!Path.before t.path s.path) = true) {n : Nat}
    (hw : writeAll snaps d 0 = (.ok n, d')) : b.process d = (.ok ⟨reports, n⟩, d') := by
  have hsorted : inOrder snaps = snaps := List.mergeSort_of_pairwise hs
  rw [process, h]
  simp only [hsorted, hw]

end FragmentMerge.Batch
