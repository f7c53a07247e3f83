import FragmentMerge.Patch.Batch
import FragmentMerge.Proofs.Files.Route
import FragmentMerge.Proofs.Text.Utf8
import Mathlib.Data.List.Pairwise

/-! What a batch writes. The files whose text has changed are written one after another, each once; files
that are not written are read as before. -/

namespace FragmentMerge.Batch

open Disk

variable {d d' : Disk} {p q text : String} {w k : List String}

/-- A path leads to a file. -/
def AtFile (d : Disk) (path : String) (way : List String) : Prop :=
  ∃ c, d.locate path = .ok (.file way c)

theorem AtFile.unique {path : String} {w w' : List String} (h : AtFile d path w) (h' : AtFile d path w') :
    w = w' := by
  obtain ⟨c, hc⟩ := h
  obtain ⟨c', hc'⟩ := h'
  rw [hc] at hc'
  cases hc'
  rfl

theorem atFile_of_readTarget {path text : String} (h : readTarget d path = .ok text) :
    ∃ way, AtFile d path way := by
  rw [readTarget, Disk.read] at h
  cases hl : d.locate path with
  | error e => rw [hl] at h; cases h
  | ok spot =>
    cases spot with
    | file way c => exact ⟨way, c, hl⟩
    | directory way => rw [hl] at h; cases h
    | vacant way b => rw [hl] at h; cases h

theorem AtFile.keep {path : String} {w : List String} (h : AtFile d path w) (hk : d.Keeps d')
    (he : d'.entry? w = d.entry? w) : AtFile d' path w ∧ readTarget d' path = readTarget d path := by
  obtain ⟨c, hc⟩ := h
  have hc' := locate_file hk hc (he.trans (entry?_of_locate_file hc).1)
  exact ⟨⟨c, hc'⟩, by rw [readTarget, readTarget, Disk.read, Disk.read, hc, hc']⟩

theorem AtFile.stays {changed : List String → Prop} (h : AtFile d p w) (hr : Rewritten changed d d') :
    AtFile d' p w := by
  obtain ⟨c, hc⟩ := h
  rcases hr.entry w with he | ⟨-, -, c', hc'⟩
  · exact (AtFile.keep ⟨c, hc⟩ hr.keeps he).1
  · exact ⟨c', locate_file hr.keeps hc hc'⟩

theorem AtFile.read (h : AtFile d p w) (h' : AtFile d q w) (hr : readTarget d p = .ok text) :
    readTarget d q = .ok text := by
  obtain ⟨c, hc⟩ := h
  obtain ⟨c', hc'⟩ := h'
  have he := (entry?_of_locate_file hc).1.symm.trans (entry?_of_locate_file hc').1
  obtain rfl : c = c' := by simpa using he
  rw [readTarget, Disk.read, hc] at hr
  rw [readTarget, Disk.read, hc']
  cases c with
  | text s => exact hr
  | binary bs =>
    dsimp only at hr ⊢
    cases hd : Utf8.decode bs with
    | ok s =>
      rw [hd] at hr
      exact hr
    | error fault =>
      rw [hd] at hr
      cases hr

theorem AtFile.bytes (h : AtFile d p w) (hr : readTarget d p = .ok text) :
    ∃ c, d.entry? w = some (.file c) ∧ c.bytes = Utf8.bytes text := by
  obtain ⟨c, hc⟩ := h
  refine ⟨c, (entry?_of_locate_file hc).1, ?_⟩
  rw [readTarget, Disk.read, hc] at hr
  cases c with
  | text s =>
    cases hr
    rfl
  | binary bs =>
    dsimp only at hr
    split at hr
    · next s hs =>
      cases hr
      exact (Utf8.bytes_of_decode hs).symm
    · cases hr

/-- Two paths that do not lead to one file. -/
def Unlike (d : Disk) (p q : String) : Prop := ∀ w, AtFile d p w → ¬ AtFile d q w

theorem Unlike.symm (h : Unlike d p q) : Unlike d q p := fun w hq hp => h w hp hq

def writeEach (es : List (String × String)) (d : Disk) : Except Errno Disk :=
  es.foldlM (fun d e => d.write e.1 (.text e.2)) d

/-- The paths of the files whose text has changed, with the new texts. -/
def changes (snaps : List Snapshot) : List (String × String) :=
  (snaps.filter fun s => s.current ≠ s.stored).map fun s => (s.path, s.current)

theorem mem_changes {snaps : List Snapshot} {e : String × String} :
    e ∈ changes snaps ↔ ∃ s ∈ snaps, s.current ≠ s.stored ∧ e = (s.path, s.current) := by
  simp only [changes, List.mem_map, List.mem_filter, decide_eq_true_eq, and_assoc, eq_comm (a := e)]

theorem changes_cons (s : Snapshot) (ss : List Snapshot) :
    changes (s :: ss) = if s.current = s.stored then changes ss else (s.path, s.current) :: changes ss := by
  unfold changes
  split
  · next h => rw [List.filter_cons_of_neg (by simpa using h)]
  · next h => rw [List.filter_cons_of_pos (by simpa using h), List.map_cons]

/-- The snapshots are written by the writes of what has changed, each of which counts. -/
theorem writeAll_of_writeEach {ss : List Snapshot} (h : writeEach (changes ss) d = .ok d') (n : Nat) :
    writeAll ss d n = (.ok (n + (changes ss).length), d') := by
  induction ss generalizing d n with
  | nil =>
    cases h
    rfl
  | cons s ss ih =>
    rw [changes_cons] at h ⊢
    rw [writeAll]
    split
    · next hsame =>
      rw [if_pos hsame] at h
      exact ih h n
    · next hsame =>
      rw [if_neg hsame, writeEach, List.foldlM_cons] at h
      cases hw : d.write s.path (.text s.current) with
      | error e =>
        rw [hw] at h
        cases h
      | ok d₁ =>
        rw [hw] at h
        dsimp only
        rw [ih h (n + 1), List.length_cons, Nat.add_right_comm, Nat.add_assoc]

theorem write_at (h : AtFile d p w) (text : String) :
    ∃ d₁, d.write p (.text text) = .ok d₁ ∧ Rewritten (AtFile d p) d d₁ ∧ readTarget d₁ p = .ok text := by
  have ⟨c, hc⟩ := h
  obtain ⟨he, hne, -⟩ := entry?_of_locate_file hc
  have hput := d.entry?_put hne (.file (.text text)) w
  rw [if_pos rfl] at hput
  have hrew : Rewritten (AtFile d p) d (d.put w (.file (.text text))) := .put he hne h _
  have hl := locate_file hrew.keeps hc hput
  exact ⟨_, by rw [Disk.write, hc], hrew, by rw [readTarget, Disk.read, hl]⟩

/-- Writes at different files succeed, and only these files change. -/
theorem exists_writeEach {es : List (String × String)} (hat : ∀ e ∈ es, ∃ w, AtFile d e.1 w)
    (hfar : es.Pairwise fun e f => Unlike d e.1 f.1) :
    ∃ d', writeEach es d = .ok d' ∧ Rewritten (fun k => ∃ e ∈ es, AtFile d e.1 k) d d' ∧
      ∀ e ∈ es, readTarget d' e.1 = .ok e.2 := by
  induction es generalizing d with
  | nil => exact ⟨d, rfl, .refl _ _, by simp⟩
  | cons e es ih =>
    obtain ⟨hfirst, hfar⟩ := List.pairwise_cons.1 hfar
    obtain ⟨w, hw⟩ := hat e List.mem_cons_self
    obtain ⟨d₁, hwrite, hrew₁, hread₁⟩ := write_at hw e.2
    -- the first write leaves all files where they are
    have hmove : ∀ f ∈ es, ∀ k, AtFile d₁ f.1 k → AtFile d f.1 k := by
      intro f hf k hk
      obtain ⟨v, hv⟩ := hat f (List.mem_cons_of_mem _ hf)
      exact (hv.stays hrew₁).unique hk ▸ hv
    obtain ⟨d', hwrites, hrew, hread⟩ := ih (d := d₁)
      (fun f hf => (hat f (List.mem_cons_of_mem _ hf)).imp fun k hk => hk.stays hrew₁)
      (hfar.imp_of_mem fun hf hg hfg k hkf hkg => hfg k (hmove _ hf k hkf) (hmove _ hg k hkg))
    refine ⟨d', ?_, ?_, fun f hf => ?_⟩
    · rw [writeEach, List.foldlM_cons, hwrite]
      exact hwrites
    · refine (hrew₁.mono fun k hk => ?_).trans (hrew.mono fun k ⟨f, hf, hk⟩ => ?_)
      · exact ⟨e, List.mem_cons_self, hk⟩
      · exact ⟨f, List.mem_cons_of_mem _ hf, hmove f hf k hk⟩
    · rcases List.mem_cons.1 hf with rfl | hf
      · have hsame : d'.entry? w = d₁.entry? w :=
          hrew.same fun ⟨g, hg, hk⟩ => hfirst g hg w hw (hmove g hg w hk)
        rw [((hw.stays hrew₁).keep hrew.keeps hsame).2, hread₁]
      · exact hread f hf

theorem exists_writeChanges {ss : List Snapshot} (hread : ∀ s ∈ ss, readTarget d s.path = .ok s.stored)
    (hfar : ss.Pairwise fun s u => Unlike d s.path u.path) :
    ∃ d', writeEach (changes ss) d = .ok d' ∧
      Rewritten (fun k => ∃ e ∈ changes ss, AtFile d e.1 k) d d' ∧
      ∀ s ∈ ss, readTarget d' s.path = .ok s.current := by
  have hfar' : (changes ss).Pairwise fun e f => Unlike d e.1 f.1 :=
    List.pairwise_map.2 (hfar.filter _)
  have hat : ∀ e ∈ changes ss, ∃ w, AtFile d e.1 w := by
    intro e he
    obtain ⟨s, hs, -, rfl⟩ := mem_changes.1 he
    exact atFile_of_readTarget (hread s hs)
  obtain ⟨d', hwrites, hrew, hcur⟩ := exists_writeEach hat hfar'
  refine ⟨d', hwrites, hrew, fun s hs => ?_⟩
  by_cases hsame : s.current = s.stored
  · obtain ⟨w, hw⟩ := atFile_of_readTarget (hread s hs)
    have hstay : d'.entry? w = d.entry? w := by
      refine hrew.same ?_
      rintro ⟨e, he, hk⟩
      obtain ⟨u, hu, hne, rfl⟩ := mem_changes.1 he
      have : Std.Symm fun s u : Snapshot => Unlike d s.path u.path := ⟨fun _ _ h => h.symm⟩
      exact hfar.forall hu hs (by rintro rfl; exact hne hsame) w hk hw
    rw [(hw.keep hrew.keeps hstay).2, hread s hs, hsame]
  · exact hcur _ (mem_changes.2 ⟨s, hs, hsame, rfl⟩)

end FragmentMerge.Batch
