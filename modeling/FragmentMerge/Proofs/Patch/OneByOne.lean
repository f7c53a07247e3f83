import FragmentMerge.Proofs.Patch.Rerun

/-! A batch against its transactions one by one. The batch edits snapshots and writes them in the end; one
by one, each transaction reads its file, edits it and writes it. After any number of transactions the
snapshots hold the texts that then stand on the other disk, so both end with the same files and the same
reports, as long as different paths lead to different files. -/

namespace FragmentMerge

def Entry.bytes? : Entry → Option (List UInt8)
  | .file c => some c.bytes
  | .directory => none

/-- The same directories, and the same files with the same bytes. -/
structure Disk.Alike (d d' : Disk) : Prop where
  here : d'.here = d.here
  entry : ∀ k, (d'.entry? k).map Entry.bytes? = (d.entry? k).map Entry.bytes?

namespace Batch

open Disk

variable {mode : Bool} {d d' e : Disk} {t : Transaction} {ts : List Transaction} {p q : String}
  {s x : Snapshot} {snaps : List Snapshot} {ps : List String}

/-- The transactions whose files are read. -/
def needed (b : Batch) : List Transaction := b.transactions.filter (isActive b.extensionMode)

def Readable (d : Disk) (p : String) : Prop := ∃ text, readTarget d p = .ok text

/-- Carries out transactions one after another, each as a batch of its own. -/
def oneByOne (mode : Bool) : List Transaction → Disk → Except PatchError (List EditReport) × Disk
  | [], d => (.ok [], d)
  | t :: ts, d =>
    match process ⟨[t], mode⟩ d with
    | (.error e, d) => (.error e, d)
    | (.ok s, d) =>
      match oneByOne mode ts d with
      | (.error e, d) => (.error e, d)
      | (.ok reports, d) => (.ok (s.reports ++ reports), d)

def writes (b : Batch) (d : Disk) : List (String × String) :=
  match b.transactions.foldlM (applyTransaction b.extensionMode d) ([], []) with
  | .ok (snaps, _) => changes (inOrder snaps)
  | .error _ => []

/-- Some paths on a disk as a map: the same path is one file, and different paths are different files. -/
structure IsFileMap (d : Disk) (ps : List String) : Prop where
  same : ∀ p ∈ ps, ∀ q ∈ ps, samePath p q = true → Readable d q → Readable d p
  apart : ∀ p ∈ ps, ∀ q ∈ ps, samePath p q = false → Unlike d p q

theorem samePath_iff : samePath p q = true ↔ Path.steps p = Path.steps q := beq_iff_eq

theorem samePath_comm (p q : String) : samePath p q = samePath q p := by
  rw [Bool.eq_iff_iff, samePath_iff, samePath_iff, eq_comm]

theorem samePath_congr (h : samePath p q = true) (r : String) : samePath p r = samePath q r := by
  rw [samePath, samePath, samePath_iff.1 h]

theorem AtFile.same {w w' : List String} (h : AtFile d p w) (h' : AtFile d q w')
    (hs : samePath p q = true) : AtFile d q w := by
  obtain ⟨c, hc⟩ := h
  have ⟨c', hc'⟩ := h'
  exact locate_of_steps (samePath_iff.1 hs) hc hc' ▸ h'

/-- A file is opened at its snapshot, and read if there is none. -/
theorem open?_cases (d : Disk) (p : String) (snaps : List Snapshot) :
    (∃ s ∈ snaps, samePath p s.path = true ∧ open? d p snaps = .ok s) ∨
      ((∀ x ∈ snaps, samePath p x.path = false) ∧
        open? d p snaps = (readTarget d p).map fun text => ⟨p, text, text⟩) := by
  rw [open?]
  cases hf : snaps.find? (samePath p ·.path) with
  | some s => exact .inl ⟨s, List.mem_of_find?_eq_some hf, by simpa using List.find?_some hf, rfl⟩
  | none => exact .inr ⟨fun x hx => by simpa using List.find?_eq_none.1 hf x hx, rfl⟩

theorem mem_of_mem_close (h : x ∈ close s snaps) : x = s ∨ x ∈ snaps := by
  induction snaps with
  | nil => exact .inl (List.mem_singleton.1 h)
  | cons y snaps ih =>
    rw [close] at h
    split at h
    · exact (List.mem_cons.1 h).imp_right (List.mem_cons_of_mem _)
    · rcases List.mem_cons.1 h with rfl | h
      · exact .inr List.mem_cons_self
      · exact (ih h).imp_right (List.mem_cons_of_mem _)

def Distinct (snaps : List Snapshot) : Prop := snaps.Pairwise fun s u => samePath s.path u.path = false

theorem mem_close (hn : Distinct snaps) :
    x ∈ close s snaps ↔ x = s ∨ x ∈ snaps ∧ samePath s.path x.path = false := by
  induction snaps with
  | nil => simp [close]
  | cons y snaps ih =>
    obtain ⟨hfar, hn⟩ := List.pairwise_cons.1 hn
    rw [close]
    cases hs : samePath s.path y.path with
    | true =>
      have hrest : ∀ x ∈ snaps, samePath s.path x.path = false := fun x hx =>
        (samePath_congr hs x.path).trans (hfar x hx)
      rw [if_pos rfl, List.mem_cons, List.mem_cons]
      constructor
      · exact Or.imp_right fun hx => ⟨.inr hx, hrest x hx⟩
      · rintro (rfl | ⟨rfl | hx, hne⟩)
        · exact .inl rfl
        · rw [hs] at hne
          cases hne
        · exact .inr hx
    | false =>
      rw [if_neg Bool.false_ne_true, List.mem_cons, ih hn, List.mem_cons]
      constructor
      · rintro (rfl | rfl | ⟨hx, hne⟩)
        · exact .inr ⟨.inl rfl, hs⟩
        · exact .inl rfl
        · exact .inr ⟨.inr hx, hne⟩
      · rintro (rfl | ⟨rfl | hx, hne⟩)
        · exact .inr (.inl rfl)
        · exact .inl rfl
        · exact .inr (.inr ⟨hx, hne⟩)

theorem Distinct.close (hn : Distinct snaps) (s : Snapshot) : Distinct (close s snaps) := by
  induction snaps with
  | nil => exact List.pairwise_singleton _ _
  | cons y snaps ih =>
    obtain ⟨hfar, hrest⟩ := List.pairwise_cons.1 hn
    rw [Batch.close]
    split
    · next hs => exact List.pairwise_cons.2 ⟨fun x hx => (samePath_congr hs x.path).trans (hfar x hx), hrest⟩
    · next hs =>
      refine List.pairwise_cons.2 ⟨fun x hx => ?_, ih hrest⟩
      rcases (mem_close hrest).1 hx with rfl | ⟨hx, -⟩
      · rw [samePath_comm]
        exact Bool.eq_false_iff.2 hs
      · exact hfar x hx

theorem process_idle (h : isActive mode t = false) : process ⟨[t], mode⟩ d =
    (.ok ⟨t.edits.map fun e => ⟨t.path, e.name, .skippedMode⟩, 0⟩, d) := by
  have hfold : [t].foldlM (applyTransaction mode d) ([], []) =
      .ok ([], [] ++ t.edits.map fun e => ⟨t.path, e.name, .skippedMode⟩) := by
    rw [List.foldlM_cons, applyTransaction_idle h]
    rfl
  exact process_of_ordered hfold .nil rfl

theorem process_active {text : String} (h : isActive mode t = true) (hr : readTarget d t.path = .ok text) :
    ∃ n d', process ⟨[t], mode⟩ d =
        (.ok ⟨(applyEdits mode text t.edits).1.map fun x => ⟨t.path, x.1, x.2⟩, n⟩, d') ∧
      Rewritten (AtFile d t.path) d d' ∧ readTarget d' t.path = .ok (edited mode text t.edits) := by
  have hread : ∀ s ∈ [(⟨t.path, text, edited mode text t.edits⟩ : Snapshot)],
      readTarget d s.path = .ok s.stored := by
    intro s hs
    rw [List.mem_singleton.1 hs]
    exact hr
  obtain ⟨d', hwrites, hrew, hcur⟩ := exists_writeChanges hread (List.pairwise_singleton _ _)
  refine ⟨_, d', process_of_ordered ?_ (List.pairwise_singleton _ _) (writeAll_of_writeEach hwrites 0), ?_,
    hcur _ List.mem_cons_self⟩
  · refine (List.foldlM_cons ..).trans ?_
    rw [applyTransaction_active h (by simp), hr]
    rfl
  · refine hrew.mono fun k ⟨e, he, hk⟩ => ?_
    obtain ⟨s, hs, -, rfl⟩ := mem_changes.1 he
    rw [List.mem_singleton.1 hs] at hk
    exact hk

/-- The snapshots of a batch on one disk, and another disk on which its transactions have been carried out
one by one. -/
structure Follows (ps : List String) (d : Disk) (snaps : List Snapshot) (e : Disk) : Prop where
  distinct : Distinct snaps
  known : ∀ s ∈ snaps, s.path ∈ ps
  stored : ∀ s ∈ snaps, readTarget d s.path = .ok s.stored
  current : ∀ s ∈ snaps, readTarget e s.path = .ok s.current
  rewritten : Rewritten (fun k => ∃ s ∈ snaps, AtFile d s.path k) d e

theorem Follows.nil (ps : List String) (d : Disk) : Follows ps d [] d :=
  ⟨.nil, by simp, by simp, by simp, .refl _ _⟩

theorem Follows.open? (h : Follows ps d snaps e) (hm : IsFileMap d ps) (hp : p ∈ ps) (hr : Readable d p) :
    ∃ s, open? d p snaps = .ok s ∧ samePath p s.path = true ∧ s.path ∈ ps ∧
      readTarget d s.path = .ok s.stored ∧ readTarget e p = .ok s.current := by
  obtain ⟨text, hr⟩ := hr
  obtain ⟨w, hw⟩ := atFile_of_readTarget hr
  rcases open?_cases d p snaps with ⟨s, hs, hsame, hopen⟩ | ⟨hnew, hopen⟩
  · obtain ⟨w', hw'⟩ := atFile_of_readTarget (h.stored s hs)
    have hws := (hw.same hw' hsame).stays h.rewritten
    have hread := hws.read (hw.stays h.rewritten) (h.current s hs)
    exact ⟨s, hopen, hsame, h.known s hs, h.stored s hs, hread⟩
  · rw [hr] at hopen
    refine ⟨⟨p, text, text⟩, hopen, samePath_iff.2 rfl, hp, hr, ?_⟩
    have hstay : e.entry? w = d.entry? w := by
      refine h.rewritten.same ?_
      rintro ⟨s, hs, hk⟩
      exact hm.apart p hp s.path (h.known s hs) (hnew s hs) w hw hk
    rw [(hw.keep h.rewritten.keeps hstay).2, hr]

theorem Follows.close {e' : Disk} {current : String} (h : Follows ps d snaps e) (hm : IsFileMap d ps)
    (hr : Readable d p) (hs : samePath p s.path = true) (hknown : s.path ∈ ps)
    (hstored : readTarget d s.path = .ok s.stored) (hrew : Rewritten (AtFile e p) e e')
    (hcurrent : readTarget e' p = .ok current) :
    Follows ps d (Batch.close { s with current } snaps) e' := by
  obtain ⟨text, hr⟩ := hr
  obtain ⟨w, hw⟩ := atFile_of_readTarget hr
  obtain ⟨w', hw'⟩ := atFile_of_readTarget hstored
  have hws := hw.same hw' hs
  have hmem : ∀ x, x ∈ Batch.close { s with current } snaps ↔
      x = { s with current } ∨ x ∈ snaps ∧ samePath s.path x.path = false := fun x => mem_close h.distinct
  -- only the file at `w` is written
  have hone : ∀ k, AtFile e p k → k = w := fun k hk => hk.unique (hw.stays h.rewritten)
  refine ⟨h.distinct.close _, fun x hx => ?_, fun x hx => ?_, fun x hx => ?_, ?_⟩
  · rcases (hmem x).1 hx with rfl | ⟨hx, -⟩
    · exact hknown
    · exact h.known x hx
  · rcases (hmem x).1 hx with rfl | ⟨hx, -⟩
    · exact hstored
    · exact h.stored x hx
  · rcases (hmem x).1 hx with rfl | ⟨hx, hne⟩
    · exact ((hw.stays h.rewritten).stays hrew).read ((hws.stays h.rewritten).stays hrew) hcurrent
    · obtain ⟨v, hv⟩ := atFile_of_readTarget (h.stored x hx)
      have hstay : e'.entry? v = e.entry? v := by
        refine hrew.same fun hk => ?_
        obtain rfl := hone v hk
        exact hm.apart s.path hknown x.path (h.known x hx) hne v hws hv
      rw [((hv.stays h.rewritten).keep hrew.keeps hstay).2, h.current x hx]
  · have hold : ∀ k, (∃ x ∈ snaps, AtFile d x.path k) →
        ∃ x ∈ Batch.close { s with current } snaps, AtFile d x.path k := by
      rintro k ⟨x, hx, hk⟩
      cases hne : samePath s.path x.path with
      | false => exact ⟨x, (hmem x).2 (.inr ⟨hx, hne⟩), hk⟩
      | true => exact ⟨_, (hmem _).2 (.inl rfl), hk.same hw' (samePath_comm _ _ ▸ hne)⟩
    refine (h.rewritten.mono hold).trans (hrew.mono fun k hk => ?_)
    exact ⟨_, (hmem _).2 (.inl rfl), hone k hk ▸ hws⟩

/-- A transaction does the same to the snapshots and to the other disk. -/
theorem Follows.step (h : Follows ps d snaps e) (hm : IsFileMap d ps)
    (ht : isActive mode t = true → t.path ∈ ps ∧ Readable d t.path) (reports : List EditReport) :
    ∃ snaps' new n e', applyTransaction mode d (snaps, reports) t = .ok (snaps', reports ++ new) ∧
      process ⟨[t], mode⟩ e = (.ok ⟨new, n⟩, e') ∧ Follows ps d snaps' e' := by
  cases ha : isActive mode t with
  | false => exact ⟨snaps, _, 0, e, applyTransaction_idle ha, process_idle ha, h⟩
  | true =>
    obtain ⟨hp, hr⟩ := ht ha
    obtain ⟨s, hopen, hsame, hknown, hstored, hcurrent⟩ := h.open? hm hp hr
    obtain ⟨n, e', hprocess, hrew, hread⟩ := process_active ha hcurrent
    refine ⟨_, _, n, e', ?_, hprocess, h.close hm hr hsame hknown hstored hrew hread⟩
    rw [applyTransaction_reads ha, hopen]
    rfl

theorem Follows.run (h : Follows ps d snaps e) (hm : IsFileMap d ps)
    (hts : ∀ t ∈ ts, isActive mode t = true → t.path ∈ ps ∧ Readable d t.path) (reports : List EditReport) :
    ∃ snaps' new e', ts.foldlM (applyTransaction mode d) (snaps, reports) = .ok (snaps', reports ++ new) ∧
      oneByOne mode ts e = (.ok new, e') ∧ Follows ps d snaps' e' := by
  induction ts generalizing snaps e reports with
  | nil => exact ⟨snaps, [], e, by simp; rfl, rfl, h⟩
  | cons t ts ih =>
    obtain ⟨snaps₁, new₁, n, e₁, happly, hprocess, h₁⟩ := h.step hm (hts t List.mem_cons_self) reports
    obtain ⟨snaps', new, e', hfold, hone, h'⟩ :=
      ih h₁ (fun u hu => hts u (List.mem_cons_of_mem _ hu)) (reports ++ new₁)
    refine ⟨snaps', new₁ ++ new, e', ?_, ?_, h'⟩
    · rw [List.foldlM_cons, happly, ← List.append_assoc]
      exact hfold
    · simp only [oneByOne, hprocess, hone]

/-- The disk after the writes of a batch: each write is of a needed path, and it is there exactly if the
text of this path has changed. -/
structure Writes (b : Batch) (d d' : Disk) : Prop where
  written : writeEach (b.writes d) d = .ok d'
  once : (b.writes d).Pairwise fun e f => samePath e.1 f.1 = false
  needed : ∀ e ∈ b.writes d, ∃ t ∈ b.needed, t.path = e.1
  changed : ∀ t ∈ b.needed,
    (∃ e ∈ b.writes d, samePath t.path e.1 = true) ↔ readTarget d' t.path ≠ readTarget d t.path
  others : Rewritten (fun k => ∃ e ∈ b.writes d, AtFile d e.1 k) d d'

theorem mem_writes {b : Batch} {reports : List EditReport} {e : String × String}
    (h : b.transactions.foldlM (applyTransaction b.extensionMode d) ([], []) = .ok (snaps, reports)) :
    e ∈ b.writes d ↔ ∃ s ∈ snaps, s.current ≠ s.stored ∧ e = (s.path, s.current) := by
  have hperm : (inOrder snaps).Perm snaps := List.mergeSort_perm _ _
  simp only [writes, h, mem_changes, hperm.mem_iff]

theorem Follows.changed_iff {b : Batch} {reports : List EditReport}
    (h : Follows (b.needed.map (·.path)) d snaps e) (hm : IsFileMap d (b.needed.map (·.path)))
    (hfold : b.transactions.foldlM (applyTransaction b.extensionMode d) ([], []) = .ok (snaps, reports))
    (hrew : Rewritten (fun k => ∃ e ∈ b.writes d, AtFile d e.1 k) d d')
    (hcur : ∀ s ∈ snaps, readTarget d' s.path = .ok s.current) (ht : t ∈ b.needed) (hr : Readable d t.path) :
    (∃ e ∈ b.writes d, samePath t.path e.1 = true) ↔ readTarget d' t.path ≠ readTarget d t.path := by
  obtain ⟨text, hread⟩ := hr
  obtain ⟨w, hw⟩ := atFile_of_readTarget hread
  constructor
  · rintro ⟨e, he, hs⟩ hsame
    obtain ⟨s, hsnap, hne, rfl⟩ := (mem_writes hfold).1 he
    obtain ⟨w', hw'⟩ := atFile_of_readTarget (h.stored s hsnap)
    have hws := hw.same hw' hs
    -- both paths are read at one file, before and after
    have hbefore := hws.read hw (h.stored s hsnap)
    have hafter := (hws.stays hrew).read (hw.stays hrew) (hcur s hsnap)
    rw [hbefore, hafter] at hsame
    exact hne (Except.ok.inj hsame)
  · intro hchanged
    by_contra hnone
    refine hchanged (hw.keep hrew.keeps (hrew.same ?_)).2
    rintro ⟨e, he, hk⟩
    obtain ⟨s, hsnap, -, rfl⟩ := (mem_writes hfold).1 he
    refine hm.apart t.path (List.mem_map_of_mem ht) s.path (h.known s hsnap) ?_ w hw hk
    rw [Bool.eq_false_iff]
    exact fun hs => hnone ⟨_, he, hs⟩

/-- The writes of a batch put the current texts of its snapshots in place. -/
theorem Follows.writes {b : Batch} {reports : List EditReport}
    (h : Follows (b.needed.map (·.path)) d snaps e) (hm : IsFileMap d (b.needed.map (·.path)))
    (hr : ∀ t ∈ b.needed, Readable d t.path)
    (hfold : b.transactions.foldlM (applyTransaction b.extensionMode d) ([], []) = .ok (snaps, reports)) :
    ∃ d', b.process d = (.ok ⟨reports, (b.writes d).length⟩, d') ∧ b.Writes d d' ∧
      ∀ s ∈ snaps, readTarget d' s.path = .ok s.current := by
  have hperm : (inOrder snaps).Perm snaps := List.mergeSort_perm _ _
  have hwrites : b.writes d = changes (inOrder snaps) := by rw [Batch.writes, hfold]
  have hdistinct : Distinct (inOrder snaps) :=
    (hperm.pairwise_iff fun hxy => (samePath_comm _ _).trans hxy).2 h.distinct
  have hfar : (inOrder snaps).Pairwise fun s u => Unlike d s.path u.path :=
    hdistinct.imp_of_mem fun hs hu hne =>
      hm.apart _ (h.known _ (hperm.mem_iff.1 hs)) _ (h.known _ (hperm.mem_iff.1 hu)) hne
  obtain ⟨d', hwritten, hrew, hcur⟩ :=
    exists_writeChanges (fun s hs => h.stored s (hperm.mem_iff.1 hs)) hfar
  have hcur : ∀ s ∈ snaps, readTarget d' s.path = .ok s.current := fun s hs => hcur s (hperm.mem_iff.2 hs)
  have hprocess : b.process d = (.ok ⟨reports, (b.writes d).length⟩, d') := by
    rw [process, hfold, hwrites]
    simp only [writeAll_of_writeEach hwritten 0, Nat.zero_add]
  rw [← hwrites] at hwritten hrew
  refine ⟨d', hprocess, ⟨hwritten, ?_, fun e he => ?_, fun t ht => ?_, hrew⟩, hcur⟩
  · rw [hwrites]
    exact List.pairwise_map.2 (hdistinct.filter _)
  · obtain ⟨s, hs, -, rfl⟩ := (mem_writes hfold).1 he
    exact List.mem_map.1 (h.known s hs)
  · exact h.changed_iff hm hfold hrew hcur ht (hr t ht)

theorem alike_of_reads {d₁ d₂ : Disk} (h₁ : Rewritten (fun k => ∃ s ∈ snaps, AtFile d s.path k) d d₁)
    (h₂ : Rewritten (fun k => ∃ s ∈ snaps, AtFile d s.path k) d d₂)
    (hr₁ : ∀ s ∈ snaps, readTarget d₁ s.path = .ok s.current)
    (hr₂ : ∀ s ∈ snaps, readTarget d₂ s.path = .ok s.current) : d₁.Alike d₂ := by
  refine ⟨h₂.here.trans h₁.here.symm, fun k => ?_⟩
  by_cases hk : ∃ s ∈ snaps, AtFile d s.path k
  · obtain ⟨s, hs, hk⟩ := hk
    obtain ⟨c₁, hc₁, hb₁⟩ := (hk.stays h₁).bytes (hr₁ s hs)
    obtain ⟨c₂, hc₂, hb₂⟩ := (hk.stays h₂).bytes (hr₂ s hs)
    simp only [hc₁, hc₂, Option.map_some, Entry.bytes?, hb₁, hb₂]
  · rw [h₁.same hk, h₂.same hk]

theorem readable_of_open? (hm : IsFileMap d ps) (hp : p ∈ ps)
    (hsnaps : ∀ x ∈ snaps, x.path ∈ ps ∧ Readable d x.path) (h : open? d p snaps = .ok s) :
    Readable d p ∧ s.path ∈ ps ∧ Readable d s.path := by
  rcases open?_cases d p snaps with ⟨x, hx, hsame, hopen⟩ | ⟨-, hopen⟩
  · obtain rfl := Except.ok.inj (h.symm.trans hopen)
    obtain ⟨hknown, hr⟩ := hsnaps s hx
    exact ⟨hm.same p hp s.path hknown hsame hr, hknown, hr⟩
  · rw [h] at hopen
    cases hr : readTarget d p with
    | error e =>
      rw [hr] at hopen
      cases hopen
    | ok text =>
      rw [hr] at hopen
      cases hopen
      exact ⟨⟨text, hr⟩, hp, text, hr⟩

theorem readTarget_of_open?_error {e : PatchError} (h : open? d p snaps = .error e) :
    readTarget d p = .error e := by
  rcases open?_cases d p snaps with ⟨x, -, -, hopen⟩ | ⟨-, hopen⟩
  · rw [h] at hopen
    cases hopen
  · rw [h] at hopen
    cases hr : readTarget d p with
    | error e' =>
      rw [hr] at hopen
      cases hopen
      rfl
    | ok text =>
      rw [hr] at hopen
      cases hopen

theorem foldlM_unreadable (hm : IsFileMap d ps) {reports : List EditReport}
    (hsnaps : ∀ x ∈ snaps, x.path ∈ ps ∧ Readable d x.path)
    (hts : ∀ t ∈ ts, isActive mode t = true → t.path ∈ ps)
    (h : ∃ t ∈ ts, isActive mode t = true ∧ ¬ Readable d t.path) :
    ∃ e, ts.foldlM (applyTransaction mode d) (snaps, reports) = .error e ∧
      ∃ t ∈ ts, isActive mode t = true ∧ readTarget d t.path = .error e := by
  induction ts generalizing snaps reports with
  | nil => simp at h
  | cons t ts ih =>
    have ih := fun snaps reports hs hu => @ih snaps reports hs
      (fun u hu => hts u (List.mem_cons_of_mem _ hu)) hu
    obtain ⟨u, hu, hua, hunread⟩ := h
    rw [List.foldlM_cons]
    cases ha : isActive mode t with
    | false =>
      have hu : u ∈ ts := (List.mem_cons.1 hu).resolve_left (by rintro rfl; simp [ha] at hua)
      obtain ⟨e, hfold, v, hv, hve⟩ := ih snaps _ hsnaps ⟨u, hu, hua, hunread⟩
      rw [applyTransaction_idle ha]
      exact ⟨e, hfold, v, List.mem_cons_of_mem _ hv, hve⟩
    | true =>
      rw [applyTransaction_reads ha]
      cases hopen : open? d t.path snaps with
      | error e => exact ⟨e, rfl, t, List.mem_cons_self, ha, readTarget_of_open?_error hopen⟩
      | ok s =>
        obtain ⟨hr, hs⟩ := readable_of_open? hm (hts t List.mem_cons_self ha) hsnaps hopen
        have hu : u ∈ ts := (List.mem_cons.1 hu).resolve_left (by rintro rfl; exact hunread hr)
        have hsnaps' : ∀ x ∈ close { s with current := edited mode s.current t.edits } snaps,
            x.path ∈ ps ∧ Readable d x.path := by
          intro x hx
          rcases mem_of_mem_close hx with rfl | hx
          · exact hs
          · exact hsnaps x hx
        obtain ⟨e, hfold, v, hv, hve⟩ := ih _ _ hsnaps' ⟨u, hu, hua, hunread⟩
        exact ⟨e, hfold, v, List.mem_cons_of_mem _ hv, hve⟩

/-- A batch on a file map. If all files that it needs can be read, it ends with the reports of its
transactions one by one and with the same bytes in all files, and it writes each file once, exactly if its
text has changed. If one of them cannot be read, it fails and nothing has changed. -/
theorem process_oneByOne (b : Batch) (d : Disk) (hm : IsFileMap d (b.needed.map (·.path))) :
    ((∀ t ∈ b.needed, Readable d t.path) →
      ∃ reports d₁ d₂, b.process d = (.ok ⟨reports, (b.writes d).length⟩, d₁) ∧
        oneByOne b.extensionMode b.transactions d = (.ok reports, d₂) ∧ d₁.Alike d₂ ∧ b.Writes d d₁) ∧
    ((∃ t ∈ b.needed, ¬ Readable d t.path) →
      ∃ e, b.process d = (.error e, d) ∧ ∃ t ∈ b.needed, readTarget d t.path = .error e) := by
  have hneeded : ∀ t ∈ b.transactions, isActive b.extensionMode t = true → t ∈ b.needed :=
    fun t ht ha => List.mem_filter.2 ⟨ht, ha⟩
  constructor
  · intro hr
    obtain ⟨snaps, reports, d₂, hfold, hone, h⟩ := (Follows.nil (b.needed.map (·.path)) d).run hm
      (fun t ht ha => ⟨List.mem_map_of_mem (hneeded t ht ha), hr t (hneeded t ht ha)⟩) []
    obtain ⟨d₁, hprocess, hwrites, hcur⟩ := h.writes hm hr hfold
    have hothers := hwrites.others.mono fun k ⟨e, he, hk⟩ => by
      obtain ⟨s, hs, -, rfl⟩ := (mem_writes hfold).1 he
      exact (⟨s, hs, hk⟩ : ∃ s ∈ snaps, AtFile d s.path k)
    exact ⟨reports, d₁, d₂, hprocess, hone, alike_of_reads hothers h.rewritten hcur h.current, hwrites⟩
  · rintro ⟨t, ht, hunread⟩
    obtain ⟨ht, ha⟩ := List.mem_filter.1 ht
    obtain ⟨e, hfold, u, hu, hua, hue⟩ : ∃ e,
        b.transactions.foldlM (applyTransaction b.extensionMode d) ([], []) = .error e ∧
          ∃ u ∈ b.transactions, isActive b.extensionMode u = true ∧ readTarget d u.path = .error e :=
      foldlM_unreadable hm (by simp) (fun u hu hua => List.mem_map_of_mem (hneeded u hu hua))
        ⟨t, ht, ha, hunread⟩
    refine ⟨e, ?_, u, hneeded u hu hua, hue⟩
    rw [process, hfold]

/-- Two files in turn. The second edit of the one finds what the first has put there, and the edits of the
other cancel out. -/
def turns : Batch := ⟨[
  ⟨"a", [.of "two" (.join (.literal "one") " two")]⟩,
  ⟨"b", [.of "there" (.replace (.literal "x") "y")]⟩,
  ⟨"a", [.of "three" (.join (.literal "two") " three")]⟩,
  ⟨"b", [.of "back" (.replace (.literal "y") "x")]⟩], false⟩

def diskWith (others : List (List String × Entry)) : Disk := ⟨[], (["a"], .file (.text "one")) :: others⟩

theorem isFileMap_turns {d : Disk} (ha : AtFile d "a" ["a"]) (hb : ∀ w, AtFile d "b" w → w = ["b"]) :
    IsFileMap d (turns.needed.map (·.path)) := by
  have hps : ∀ p ∈ turns.needed.map (·.path), p = "a" ∨ p = "b" := by decide
  refine ⟨fun p hp q hq hs hr => ?_, fun p hp q hq hs w hw hw' => ?_⟩
  · rcases hps p hp with rfl | rfl <;> rcases hps q hq with rfl | rfl
    · exact hr
    · exact absurd hs (by decide)
    · exact absurd hs (by decide)
    · exact hr
  · rcases hps p hp with rfl | rfl <;> rcases hps q hq with rfl | rfl
    · exact absurd hs (by decide)
    · exact absurd ((hb w hw').symm.trans (hw.unique ha)) (by decide)
    · exact absurd ((hb w hw).symm.trans (hw'.unique ha)) (by decide)
    · exact absurd hs (by decide)

theorem writes_turns :
    turns.writes (diskWith [(["b"], .file (.text "x"))]) = [("a", "one two three")] := by
  have hfold : turns.transactions.foldlM
      (applyTransaction false (diskWith [(["b"], .file (.text "x"))])) ([], []) =
      .ok ([⟨"a", "one", "one two three"⟩, ⟨"b", "x", "x"⟩],
        [⟨"a", "two", .applied⟩, ⟨"b", "there", .applied⟩, ⟨"a", "three", .applied⟩,
          ⟨"b", "back", .applied⟩]) := rfl
  have hsorted : inOrder [⟨"a", "one", "one two three"⟩, ⟨"b", "x", "x"⟩] =
      [⟨"a", "one", "one two three"⟩, ⟨"b", "x", "x"⟩] := List.mergeSort_of_pairwise (by decide)
  rw [writes, show turns.extensionMode = false from rfl, hfold]
  dsimp only
  rw [hsorted]
  rfl

theorem process_oneByOne_turns :
    (∃ reports d₁ d₂, turns.process (diskWith [(["b"], .file (.text "x"))]) = (.ok ⟨reports, 1⟩, d₁) ∧
      oneByOne false turns.transactions (diskWith [(["b"], .file (.text "x"))]) = (.ok reports, d₂) ∧
      d₁.Alike d₂) ∧
    ∃ e, turns.process (diskWith []) = (.error e, diskWith []) := by
  constructor
  · have hm : IsFileMap (diskWith [(["b"], .file (.text "x"))]) (turns.needed.map (·.path)) :=
      isFileMap_turns ⟨_, rfl⟩ fun w hw => hw.unique ⟨_, rfl⟩
    have hps : ∀ t ∈ turns.needed, t.path = "a" ∨ t.path = "b" := by decide
    have hr : ∀ t ∈ turns.needed, Readable (diskWith [(["b"], .file (.text "x"))]) t.path := by
      intro t ht
      rcases hps t ht with h | h
      · exact ⟨"one", by rw [h]; rfl⟩
      · exact ⟨"x", by rw [h]; rfl⟩
    obtain ⟨reports, d₁, d₂, hprocess, hone, halike, -⟩ := (process_oneByOne turns _ hm).1 hr
    rw [writes_turns] at hprocess
    exact ⟨reports, d₁, d₂, hprocess, hone, halike⟩
  · have hm : IsFileMap (diskWith []) (turns.needed.map (·.path)) := by
      refine isFileMap_turns ⟨_, rfl⟩ fun w hw => ?_
      obtain ⟨c, hc⟩ := hw
      cases hc
    have hunread : ∃ t ∈ turns.needed, ¬ Readable (diskWith []) t.path := by
      refine ⟨_, List.mem_cons_of_mem _ List.mem_cons_self, ?_⟩
      rintro ⟨text, h⟩
      cases h
    obtain ⟨e, he, -⟩ := (process_oneByOne turns _ hm).2 hunread
    exact ⟨e, he⟩

end Batch

end FragmentMerge
