import FragmentMerge.Proofs.Features.Calls
import FragmentMerge.Proofs.Features.Rerun

/-! The client and the package that it loads. A run that finishes keeps them in step. A run that stops at a
file it cannot read has removed the package by then, and the client still loads it. -/

namespace FragmentMerge

theorem Registry.mem_packageNames_iff_features {r : Registry} {package : String} :
    package ∈ r.packageNames ↔ r.features package ≠ [] := by
  rw [packageNames, List.mem_map, features]
  constructor
  · rintro ⟨p, hp, rfl⟩
    have hfilled : p.2.entries ≠ [] := by simpa [Table.isEmpty] using (List.mem_filter.1 hp).2
    rw [find?_of_mem (mem_packages hp)]
    simpa [Table.keys] using hfilled
  · intro h
    cases hfind : r.packages.find? package with
    | none =>
      rw [hfind] at h
      exact absurd rfl h
    | some t =>
      rw [hfind] at h
      refine ⟨(package, t), List.mem_filter.2 ⟨find?_mem hfind, ?_⟩, rfl⟩
      simpa [Table.keys, Table.isEmpty] using h

theorem Registry.Placed.isFile_index {r : Registry} {d d₁ : Disk} (hp : r.Placed d d₁) (hroot : r.root ≠ "")
    {package : String} (hn : Path.IsName package) :
    d₁.isFile (Path.join (r.packageDir package) "index.js") = true ↔ package ∈ r.packageNames := by
  rw [Disk.isFile_eq_true_iff]
  constructor
  · rintro ⟨w, x, hl⟩
    have hdir : r.packageDir package ≠ "" := by
      intro he
      have hnames := Path.names_join r.root hn
      rw [packageDir] at he
      rw [he] at hnames
      simp [Path.segments, Path.names, Path.isIdle] at hnames
    obtain ⟨v, hv⟩ := Disk.locate_above hdir isName_index hl
    obtain ⟨base, hbase⟩ := Disk.locate_above hroot hn hv
    obtain ⟨rfl, hreach, hfolder⟩ := hp.settled.rooted.folder hbase
    obtain ⟨hfits, hspot⟩ := hfolder.spot hn hv
    exact hp.settled.tidy hreach package (Disk.spotAt_eq_directory_iff.1 hspot.symm).1 hfits
  · intro hin
    obtain ⟨q, hq, rfl⟩ := List.mem_map.1 hin
    have hline := hp.settled.inLine q hq
    obtain ⟨hfits, he⟩ := (hline.folder.read_eq_ok_iff isName_index).1 hline.index
    exact ⟨_, _, (Disk.locate_join hline.folder.locate isName_index hfits).trans
      (congrArg Except.ok (Disk.spotAt_eq_file_iff.2 ⟨he, rfl⟩))⟩

namespace Plan

open Disk FragmentMerge.Path

variable {c : Config} {d d₁ d' : Disk} {p : Plan}

/-- A file has a section that loads a package. -/
def HoldsSection (d : Disk) (path : String) : Prop :=
  ∃ text, Batch.readTarget d path = .ok text ∧ Section.locate? sentinel.toList text.toList ≠ none

def packageIndex (c : Config) : String :=
  join (join (c.path c.output.features) middlewarePackage) "index.js"

/-- The client loads the package only if it is there. -/
def InStep (c : Config) (d : Disk) : Prop :=
  HoldsSection d (entryPath c) → d.isFile (packageIndex c) = true

/-- The packages are kept in a directory of their own: the client does not stand in it, nor it below a file
of the client. -/
structure Orderly (c : Config) (d : Disk) : Prop where
  tree : d.IsTree
  home : d.entry? d.here = some .directory
  packagesDown : ".." ∉ segments (c.path c.output.features)
  clientDown : ".." ∉ segments (c.path c.output.client)
  named : c.path c.output.features ≠ ""
  beside : ∀ x, ¬ d.wayTo (c.path c.output.features) ++ [x] <+: d.wayTo (c.path c.output.client)
  above : ¬ d.wayTo (entryPath c) <+: d.wayTo (c.path c.output.features)

theorem wires_iff (p : Plan) : p.wires = true ↔ middlewarePackage ∈ p.registry.packageNames := by
  rw [Registry.mem_packageNames_iff_features, wires]
  simp

theorem isFile_of_readTarget {path text : String} (h : Batch.readTarget d path = .ok text) :
    d.isFile path = true := by
  obtain ⟨w, x, hl⟩ := Batch.atFile_of_readTarget h
  exact isFile_eq_true_iff.2 ⟨w, x, hl⟩

theorem unlike_of_name (c : Config) (d : Disk) : Batch.Unlike d (typesPath c) (entryPath c) := by
  rintro w ⟨x, hx⟩ ⟨y, hy⟩
  have hlast : ∀ {dir name : String}, IsName name → (segments (join dir name)).getLast? = some name := by
    intro dir name hn
    by_cases hd : dir = ""
    · rw [hd, join]
      simp [segments_of_not_mem hn.slash]
    · obtain ⟨ss, hseg, -⟩ := segments_join hd hn.slash
      simp [hseg]
  have htypes := (entry?_of_locate_file hx).2.2
  rw [(entry?_of_locate_file hy).2.2, entryPath, typesPath, hlast Registry.isName_index,
    hlast isName_types] at htypes
  exact absurd (Option.some.inj htypes) (by decide)

/-- A plan that loads no package takes the section out of the entry file, if there is the file. -/
theorem removal_mem (hb : build c d = .ok p) (hw : p.wires = false) (hf : d.isFile (entryPath c) = true) :
    (⟨entryPath c, [removalEdit]⟩ : Transaction) ∈ p.batch.transactions ∧
      Batch.isActive p.batch.extensionMode ⟨entryPath c, [removalEdit]⟩ = true := by
  obtain ⟨r, -, rfl, -⟩ := build_cases hb
  refine ⟨List.mem_append_right _ ?_, by simp [Batch.isActive, removalEdit, Edit.of]⟩
  rw [entryEdits, if_neg (by simpa [wires] using hw), if_pos hf]
  exact List.mem_singleton.2 rfl

theorem batch_apart (hb : build c d = .ok p) (d₁ : Disk) : Batch.Apart p.batch.transactions ∧
    p.batch.transactions.Pairwise fun t u => Batch.Unlike d₁ t.path u.path := by
  obtain ⟨r, -, rfl, -⟩ := build_cases hb
  constructor
  · refine pairwise_transactions fun t ht u hu => ?_
    rw [path_of_mem_entryEdits hu, mem_typesPart ht]
    exact samePath_client c
  · refine pairwise_transactions fun t ht u hu => ?_
    rw [path_of_mem_entryEdits hu, mem_typesPart ht]
    exact unlike_of_name c d₁

section Run

variable {s : MaterializeSummary} (h : Orderly c d) (hb : build c d = .ok p)
  (hm : p.registry.materialize d = .ok s d₁)

include h hb

theorem rooted_of_build :
    p.registry.IsNamed ∧ p.registry.root = c.path c.output.features ∧ p.registry.Rooted d := by
  obtain ⟨r, ⟨hnamed, hroot⟩, rfl, -⟩ := build_cases hb
  refine ⟨hnamed, hroot, h.tree, ?_, hroot ▸ h.packagesDown⟩
  rw [start]
  split
  · rfl
  · exact h.home

theorem client_ne_packageDir {q : String × Table String} (hq : q ∈ p.registry.filled) :
    d.wayTo (c.path c.output.client) ≠ d.wayTo (p.registry.packageDir q.1) := by
  obtain ⟨hnamed, hroot, -⟩ := rooted_of_build h hb
  have hname := Registry.isName_package (hnamed q (Registry.mem_packages hq)).1
  rw [Registry.packageDir, wayTo_join d _ hname, hroot]
  exact fun heq => h.beside q.1 (heq ▸ List.prefix_rfl)

include hm

theorem placed_of_build : p.registry.Placed d d₁ := by
  obtain ⟨hnamed, -, hrooted⟩ := rooted_of_build h hb
  exact Registry.placed_of_materialize hrooted hnamed hm

/-- The entry file of the client is as it was before the packages were brought in line. -/
theorem entry?_entryPath {x : Content} (hfile : d.entry? (d.wayTo (entryPath c)) = some (.file x)) :
    d₁.entry? (d.wayTo (entryPath c)) = some (.file x) := by
  obtain ⟨hnamed, hroot, hrooted⟩ := rooted_of_build h hb
  have hway : d.wayTo (entryPath c) = d.wayTo (c.path c.output.client) ++ ["index.js"] :=
    wayTo_join d _ Registry.isName_index
  have habove := h.above
  rw [hway] at hfile habove ⊢
  obtain ⟨n, d₀, -, -, hloses, hwrote⟩ := Registry.of_materialize hrooted hnamed hm
  have hbase : d₀.wayTo p.registry.root = d.wayTo (c.path c.output.features) := by
    rw [wayTo_eq hloses.here, hroot]
  -- the file is in no directory that is removed
  have hkept : d₀.entry? (d.wayTo (c.path c.output.client) ++ ["index.js"]) = some (.file x) := by
    rcases hloses.entry (d.wayTo (c.path c.output.client) ++ ["index.js"]) with he | ⟨-, y, -, hdir, hpre⟩
    · rw [he, hfile]
    · rw [hroot] at hdir hpre
      rcases List.prefix_concat_iff.1 hpre with heq | hpre
      · rw [heq, hfile] at hdir
        cases hdir
      · exact absurd hpre (h.beside y)
  rw [hwrote.alters.same, hkept]
  -- nor on the way to a package, nor among its files
  rintro ⟨q, hq, htouched⟩
  rw [hbase] at htouched
  rcases htouched with hpre | ⟨y, -, heq⟩
  · rcases List.prefix_concat_iff.1 hpre with heq | hpre
    · have hname := (hnamed q (Registry.mem_packages hq)).1
      rw [← List.singleton_inj.1 (List.append_inj' heq rfl).2] at hname
      exact absurd hname (by decide)
    · exact habove hpre
  · exact h.beside q.1 ((List.append_inj' heq rfl).1 ▸ List.prefix_rfl)

theorem locate_entry_iff {w : List String} {x : Content} :
    d₁.locate (entryPath c) = .ok (.file w x) ↔ d.locate (entryPath c) = .ok (.file w x) := by
  obtain ⟨hnamed, -, -⟩ := rooted_of_build h hb
  have hplaced := placed_of_build h hb hm
  constructor
  · intro hl
    exact (locate_of_placed h.tree hnamed hplaced h.clientDown
      (fun q hq => client_ne_packageDir h hb hq) Registry.isName_index hl).2
  · intro hl
    have hfile := (entry?_of_locate_file hl).1
    obtain ⟨rfl, hstay⟩ := wayTo_of_locate_file (up_not_mem_join Registry.isName_index h.clientDown) hl
    exact hstay hplaced.settled.rooted.tree hplaced.here (entry?_entryPath h hb hm hfile)

theorem readTarget_entry_iff {text : String} :
    Batch.readTarget d₁ (entryPath c) = .ok text ↔ Batch.readTarget d (entryPath c) = .ok text := by
  have hread : ∀ {d d' : Disk}, (∀ w x, d.locate (entryPath c) = .ok (.file w x) →
      d'.locate (entryPath c) = .ok (.file w x)) → Batch.readTarget d (entryPath c) = .ok text →
      Batch.readTarget d' (entryPath c) = .ok text := by
    intro d d' hloc hr
    obtain ⟨w, x, hl⟩ := Batch.atFile_of_readTarget hr
    rw [← hr, Batch.readTarget, Batch.readTarget, Disk.read, Disk.read, hl, hloc w x hl]
  exact ⟨hread fun w x => (locate_entry_iff h hb hm).1, hread fun w x => (locate_entry_iff h hb hm).2⟩

theorem isFile_packageIndex_iff : d₁.isFile (packageIndex c) = true ↔ p.wires = true := by
  obtain ⟨-, hroot, -⟩ := rooted_of_build h hb
  rw [wires_iff, packageIndex, ← hroot]
  exact (placed_of_build h hb hm).isFile_index (hroot ▸ h.named) (by decide)

/-- After the batch the entry file of a client that loads no package is what the removal has made of it. -/
theorem holdsSection_after {b : BatchSummary} (hw : p.wires = false) (hp : p.batch.process d₁ = (.ok b, d')) :
    HoldsSection d' (entryPath c) ↔ ∃ text, Batch.readTarget d (entryPath c) = .ok text ∧
      Section.locate? sentinel.toList (Section.remove sentinel.toList text.toList) ≠ none := by
  obtain ⟨hapart, hunlike⟩ := batch_apart hb d₁
  obtain ⟨hrew, htexts⟩ := Batch.of_process hapart hunlike hp
  have hedited : d.isFile (entryPath c) = true → ∃ text, Batch.readTarget d (entryPath c) = .ok text ∧
      Batch.readTarget d' (entryPath c) = .ok (removalEdit.result text) := by
    intro hf
    obtain ⟨hmem, hactive⟩ := removal_mem hb hw hf
    obtain ⟨text, hr, hcur⟩ := htexts _ hmem hactive
    rw [edited_singleton _ _ (by simp [Batch.isLeftOut, removalEdit, Edit.of])] at hcur
    exact ⟨text, (readTarget_entry_iff h hb hm).1 hr, hcur⟩
  constructor
  · rintro ⟨text', hr', hsection⟩
    have hf : d.isFile (entryPath c) = true := by
      have hf' := isFile_of_readTarget hr'
      rw [hrew.isFile] at hf'
      obtain ⟨w, x, hl⟩ := isFile_eq_true_iff.1 hf'
      exact isFile_eq_true_iff.2 ⟨w, x, (locate_entry_iff h hb hm).1 hl⟩
    obtain ⟨text, hr, hcur⟩ := hedited hf
    obtain rfl := Except.ok.inj (hcur.symm.trans hr')
    exact ⟨text, hr, toList_result_removalEdit text ▸ hsection⟩
  · rintro ⟨text, hr, hsection⟩
    obtain ⟨text', hr', hcur⟩ := hedited (isFile_of_readTarget hr)
    obtain rfl := Except.ok.inj (hr.symm.trans hr')
    exact ⟨_, hcur, (toList_result_removalEdit text).symm ▸ hsection⟩

end Run

/-- A run that finishes keeps the client and its package in step, unless the client has a second section. A
run that stops at a file it cannot read keeps them in step exactly if the client is to load the package, or
has no section. -/
theorem in_step_iff (h : Orderly c d) (hb : build c d = .ok p) :
    (∀ o d', p.execute d = (.ok o, d') → (InStep c d' ↔ p.wires = true ∨
      ∀ text, Batch.readTarget d (entryPath c) = .ok text →
        Section.locate? sentinel.toList (Section.remove sentinel.toList text.toList) = none)) ∧
    ∀ e d', p.execute d = (.error (.patch e), d') →
      (∃ t ∈ p.batch.transactions, Batch.readTarget d' t.path = .error e) ∧
      (InStep c d' ↔ p.wires = true ∨ ¬ HoldsSection d (entryPath c)) := by
  constructor
  · intro o d' he
    rw [execute] at he
    split at he
    · cases he
    · next s d₁ hm =>
      split at he
      · cases he
      · next b d₂ hp =>
        obtain rfl : d₂ = d' := (Prod.mk.inj he).2
        obtain ⟨hapart, hunlike⟩ := batch_apart hb d₁
        have hfile := (Batch.of_process hapart hunlike hp).1.isFile (packageIndex c)
        rw [InStep, hfile, isFile_packageIndex_iff h hb hm]
        cases hw : p.wires with
        | true => simp
        | false =>
          rw [holdsSection_after h hb hm hw hp]
          simp
  · intro e d' he
    rw [execute] at he
    split at he
    · cases he
    · next s d₁ hm =>
      split at he
      · next e' d₂ hp =>
        obtain ⟨herror, rfl⟩ := Prod.mk.inj he
        obtain rfl := ToolError.patch.inj (Except.error.inj herror)
        obtain ⟨hapart, hunlike⟩ := batch_apart hb d₁
        obtain ⟨rfl, t, ht, -, hr⟩ := Batch.of_process_error hapart hunlike hp
        have hsection : HoldsSection d₂ (entryPath c) ↔ HoldsSection d (entryPath c) :=
          exists_congr fun text => and_congr_left' (readTarget_entry_iff h hb hm)
        refine ⟨⟨t, ht, hr⟩, ?_⟩
        rw [InStep, hsection, isFile_packageIndex_iff h hb hm]
        cases p.wires <;> simp
      · cases he

theorem orderly_noted : Orderly noted notedBefore where
  tree := .of_entries (by decide)
  home := rfl
  packagesDown h := absurd (show ".." ∈ ["features"] from h) (by decide)
  clientDown h := absurd (show ".." ∈ ["client"] from h) (by decide)
  named := by decide
  beside x hx := by
    have hle : (["features"] ++ [x]).length ≤ ["client"].length := hx.length_le
    simp at hle
  above := by decide

theorem in_step_noted : Orderly noted notedBefore ∧ build noted notedBefore = .ok notedPlan ∧
    notedPlan.execute notedBefore = (.ok ⟨⟨notedReports, 2⟩, ⟨0, 0, 0, 0⟩⟩, notedAfter) ∧
    InStep noted notedAfter := by
  have hb : build noted notedBefore = .ok notedPlan := rfl
  refine ⟨orderly_noted, hb, execute_noted, ((in_step_iff orderly_noted hb).1 _ _ execute_noted).2 (.inr ?_)⟩
  exact repeatable_noted.single rfl

def parting : Config := clientConfig [("User.z", "Json")] []

def parted (package : List (List String × Entry)) : Disk := ⟨[], [
  (["client"], .directory),
  (["client", "index.js"], .file (.text "run();\n// schemaweave:begin\nload();\n// schemaweave:end\n")),
  (["features"], .directory)] ++ package⟩

/-- A client that loads its package, and no file of types. -/
def partedBefore : Disk := parted [(["features", "middleware"], .directory),
  (["features", "middleware", "index.js"], .file (.text "x"))]

def partingPlan : Plan :=
  ⟨⟨typesPart parting ++ [⟨"client/index.js", [removalEdit]⟩], false⟩, Registry.new "features"⟩

/-- The run removes the package, and stops before it takes the section out of the client. -/
theorem run_parts : InStep parting partedBefore ∧ build parting partedBefore = .ok partingPlan ∧
    partingPlan.execute partedBefore =
      (.error (.patch (.io "client/index.d.ts" "No such file or directory (os error 2)")), parted []) ∧
    ¬ InStep parting (parted []) := by
  have hfile : partedBefore.isFile (packageIndex parting) = true := by decide
  have hgone : (parted []).isFile (packageIndex parting) = false := by decide
  have hsection : HoldsSection (parted []) (entryPath parting) := ⟨_, rfl, by decide⟩
  have hnames : partedBefore.namesIn ["features"] = ["middleware"] := List.mergeSort_singleton _
  have hremove : partingPlan.registry.materialize partedBefore = .ok ⟨0, 0, 0, 1⟩ (parted []) := by
    have hroot : partedBefore.locate "features" = .ok (.directory ["features"]) := by decide
    have hlist : Registry.listNames "features" partedBefore = .ok ["middleware"] partedBefore := by
      rw [Registry.listNames_of_directory hroot, hnames]
    have hdir : partedBefore.locate "features/middleware" = .ok (.directory ["features", "middleware"]) := by
      decide
    have hpruned : partedBefore.removeTree "features/middleware" = .ok (parted []) := by
      rw [Disk.removeTree, hdir]
      rfl
    have hchange : Registry.change "features/middleware" (·.removeTree "features/middleware") partedBefore =
        .ok () (parted []) := Registry.change_of_ok hpruned
    have hjoin : join "features" "middleware" = "features/middleware" := by decide
    have hone : Registry.removePackages "features" [] ["middleware"] partedBefore = .ok 1 (parted []) := by
      rw [Registry.removePackages, Registry.get_bind, hjoin, if_pos (by decide),
        Registry.bind_of_ok hchange]
      rfl
    have hforeign : partingPlan.registry.removeUnregistered partedBefore = .ok 1 (parted []) := by
      rw [Registry.removeUnregistered, Registry.get_bind, if_pos (by decide)]
      exact (Registry.bind_of_ok hlist).trans hone
    rw [Registry.materialize, Registry.bind_of_ok hforeign]
    rfl
  have hstop : partingPlan.batch.process (parted []) =
      (.error (.io "client/index.d.ts" "No such file or directory (os error 2)"), parted []) := rfl
  refine ⟨fun _ => hfile, rfl, ?_, fun h => ?_⟩
  · rw [execute, hremove]
    dsimp only
    rw [hstop]
  · rw [h hsection] at hgone
    cases hgone

end Plan

end FragmentMerge
