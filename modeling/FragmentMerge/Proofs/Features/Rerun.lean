import FragmentMerge.Proofs.Features.Built
import FragmentMerge.Proofs.Patch.Rerun

/-! A plan that is executed a second time. It finds its packages in line and its edits done, and leaves
every file as it is, unless what it puts into a file hides a later edit's place from the first run or
shows it to the second. -/

namespace FragmentMerge.Plan

open Disk FragmentMerge.Path

variable {c : Config} {d d' : Disk} {p : Plan} {r : Registry}

/-- Whether the patched client loads a package. -/
def wires (p : Plan) : Bool := !(p.registry.features middlewarePackage).isEmpty

/-- The run can be repeated: files and paths are in order, and what is configured keeps the marks by which
edits find their places. -/
structure Repeatable (c : Config) (d : Disk) (p : Plan) : Prop where
  tree : d.IsTree
  home : d.entry? d.here = some .directory
  packagesDown : ".." ∉ segments (c.path c.output.features)
  clientDown : ".." ∉ segments (c.path c.output.client)
  apart : ∀ x ∈ p.registry.filled,
    d.wayTo (c.path c.output.client) ≠ d.wayTo (p.registry.packageDir x.1)
  types : c.output.extensionMode = false → ∀ e ∈ settings c.fieldTypes, e.IsType
  notes : c.output.extensionMode = false → ∀ e ∈ settings c.deprecated, e.IsNote
  calm : c.output.extensionMode = false → ∀ text, Batch.readTarget d (typesPath c) = .ok text →
    Field.Calm (settings c.fieldTypes) (fun _ => false) (Text.lines text.toList)
  closed : p.wires = true → ¬ Section.endMark sentinel.toList <:+:
    (epilogue d (p.registry.packageDir middlewarePackage)).toList
  whole : p.wires = true → ∀ text, Batch.readTarget d (entryPath c) = .ok text →
    Section.beginMark sentinel.toList <:+: text.toList →
    Section.locate? sentinel.toList text.toList ≠ none
  single : p.wires = false → ∀ text, Batch.readTarget d (entryPath c) = .ok text →
    Section.locate? sentinel.toList (Section.remove sentinel.toList text.toList) = none

theorem isName_types : IsName "index.d.ts" := ⟨by decide, by decide, by decide, by decide⟩

theorem getLast?_steps_join (dir : String) {name : String} (hn : IsName name) :
    (steps (join dir name)).2.getLast? = some name := by
  have hlast : ∀ ss : List String, (ss ++ [name]).filter (!isIdle ·) = ss.filter (!isIdle ·) ++ [name] :=
    fun ss => names_name hn.idle ss
  obtain ⟨ss, hseg⟩ : ∃ ss, segments (join dir name) = ss ++ [name] := by
    by_cases hd : dir = ""
    · have hjoin : join dir name = name := by rw [join, hd]; simp
      exact ⟨[], by rw [hjoin, segments_of_not_mem hn.slash]; rfl⟩
    · obtain ⟨ss, hjoin, -⟩ := segments_join hd hn.slash
      exact ⟨ss, hjoin⟩
  rw [steps, hseg]
  cases ss with
  | nil =>
    have hrel : isAbsolute (join dir name) = false := by
      rw [isAbsolute_eq, hseg]
      simp
    simp [hrel, hn.filled]
  | cons s ss =>
    rw [List.cons_append]
    dsimp only
    rw [hlast]
    split
    · simp
    · split
      · simp
      · rw [← List.cons_append, List.getLast?_concat]

theorem samePath_client (c : Config) : Batch.samePath (entryPath c) (typesPath c) = false := by
  refine Bool.eq_false_iff.2 fun h => ?_
  have hsteps := congrArg (fun s => s.2.getLast?) (eq_of_beq h)
  dsimp only [entryPath, typesPath] at hsteps
  rw [getLast?_steps_join _ Registry.isName_index, getLast?_steps_join _ isName_types] at hsteps
  exact absurd (Option.some.inj hsteps) (by decide)

theorem mem_typesPart {t : Transaction} (h : t ∈ typesPart c) : t = ⟨typesPath c,
    (settings c.fieldTypes).map Field.Setting.typing ++ (settings c.deprecated).map Field.Setting.noting⟩ := by
  rw [typesPart] at h
  split at h
  · cases h
  · exact List.mem_singleton.1 h

theorem mem_entryEdits {entry : String} {t : Transaction} (h : t ∈ entryEdits d r entry) :
    (!(r.features middlewarePackage).isEmpty) = true ∧
      t = ⟨entry, [epilogueEdit d (r.packageDir middlewarePackage)]⟩ ∨
    (!(r.features middlewarePackage).isEmpty) = false ∧ d.isFile entry = true ∧ t = ⟨entry, [removalEdit]⟩ := by
  rw [entryEdits] at h
  split at h
  · next hw => exact .inl ⟨hw, List.mem_singleton.1 h⟩
  · next hw =>
    split at h
    · next hf => exact .inr ⟨Bool.eq_false_iff.2 hw, hf, List.mem_singleton.1 h⟩
    · cases h

theorem path_of_mem_entryEdits {entry : String} {t : Transaction} (h : t ∈ entryEdits d r entry) :
    t.path = entry := by
  rcases mem_entryEdits h with ⟨-, rfl⟩ | ⟨-, -, rfl⟩ <;> rfl

theorem pairwise_transactions {R : Transaction → Transaction → Prop}
    (h : ∀ t ∈ typesPart c, ∀ u ∈ entryEdits d r (entryPath c), R t u) :
    (typesPart c ++ entryEdits d r (entryPath c)).Pairwise R := by
  refine List.pairwise_append.2 ⟨?_, ?_, h⟩
  · rw [typesPart]
    split <;> simp
  · rw [entryEdits]
    split
    · simp
    · split <;> simp

theorem isSentinel : Section.IsSentinel sentinel.toList :=
  ⟨by simp [Text.IsLine, sentinel], Text.contains_eq_false_iff.1 (by decide)⟩

theorem edited_singleton (mode : Bool) (text : String) {e : Edit} (h : Batch.isLeftOut mode e = false) :
    Batch.edited mode text [e] = e.result text := by
  simp [Batch.edited, h]

theorem toList_result_epilogueEdit (d : Disk) (dir text : String) :
    ((epilogueEdit d dir).result text).toList =
      Section.splice sentinel.toList (epilogue d dir).toList .epilogue text.toList := by
  have hmark : (epilogueEdit d dir).isMarked text.toList = false := rfl
  have hrun : (epilogueEdit d dir).change.run? text.toList =
      some (Section.splice sentinel.toList (epilogue d dir).toList .epilogue text.toList) := rfl
  rw [Edit.toList_result, hmark, if_neg Bool.false_ne_true, hrun, Option.getD_some]

theorem toList_result_removalEdit (text : String) :
    (removalEdit.result text).toList = Section.remove sentinel.toList text.toList := by
  have hmark : removalEdit.isMarked text.toList = false := rfl
  have hrun : removalEdit.change.run? text.toList =
      some (Section.remove sentinel.toList text.toList) := rfl
  rw [Edit.toList_result, hmark, if_neg Bool.false_ne_true, hrun, Option.getD_some]

/-- A file in no directory of a package is the one that was there before. -/
theorem locate_of_placed {d₁ : Disk} {dir name : String} {w : List String} {x : Content} (ht : d.IsTree)
    (hn : r.IsNamed) (hp : r.Placed d d₁) (hup : ".." ∉ segments dir)
    (hapart : ∀ q ∈ r.filled, d.wayTo dir ≠ d.wayTo (r.packageDir q.1)) (hname : IsName name)
    (hl : d₁.locate (join dir name) = .ok (.file w x)) :
    w = d.wayTo dir ++ [name] ∧ d.locate (join dir name) = .ok (.file w x) := by
  obtain ⟨hway, hback⟩ := wayTo_of_locate_file (up_not_mem_join hname hup) hl
  rw [wayTo_eq hp.here, wayTo_join d _ hname] at hway
  refine ⟨hway, hback ht hp.here.symm ?_⟩
  rcases hp.files (entry?_of_locate_file hl).1 with he | ⟨q, hq, y, hy⟩
  · exact he
  · have hq' := Registry.isName_package (hn q (Registry.mem_packages hq)).1
    refine absurd ?_ (hapart q hq)
    rw [Registry.packageDir, wayTo_join d _ hq']
    exact (List.append_inj' (hway.symm.trans hy) rfl).1

section InPlace

variable {d₁ : Disk} (h : Repeatable c d p) (hn : p.registry.IsNamed) (hp : p.registry.Placed d d₁)

include h hn hp

theorem locate_before {name : String} (hname : IsName name) {w : List String} {x : Content}
    (hl : d₁.locate (join (c.path c.output.client) name) = .ok (.file w x)) :
    w = d.wayTo (c.path c.output.client) ++ [name] ∧
      d.locate (join (c.path c.output.client) name) = .ok (.file w x) :=
  locate_of_placed h.tree hn hp h.clientDown h.apart hname hl

theorem readTarget_before {name text : String} (hname : IsName name)
    (hr : Batch.readTarget d₁ (join (c.path c.output.client) name) = .ok text) :
    Batch.readTarget d (join (c.path c.output.client) name) = .ok text := by
  obtain ⟨w, x, hl⟩ := Batch.atFile_of_readTarget hr
  rw [← hr, Batch.readTarget, Batch.readTarget, Disk.read, Disk.read, hl,
    (locate_before h hn hp hname hl).2]

theorem unlike_client : Batch.Unlike d₁ (typesPath c) (entryPath c) := by
  rintro w ⟨x, hx⟩ ⟨y, hy⟩
  have hx := (locate_before h hn hp isName_types hx).1
  rw [(locate_before h hn hp Registry.isName_index hy).1] at hx
  simp at hx

/-- The edits of the types leave the text that they have made as it is. -/
theorem typesPart_fixed {t : Transaction} (ht : t ∈ typesPart c)
    (ha : Batch.isActive c.output.extensionMode t = true) {text : String}
    (hr : Batch.readTarget d₁ t.path = .ok text) {e : Edit} (he : e ∈ t.edits) :
    e.result (Batch.edited c.output.extensionMode text t.edits) =
      Batch.edited c.output.extensionMode text t.edits := by
  obtain rfl := mem_typesPart ht
  have hskips : ((settings c.fieldTypes).map Field.Setting.typing ++
      (settings c.deprecated).map Field.Setting.noting).all (·.skips) = true := by
    refine List.all_eq_true.2 fun x hx => ?_
    rcases List.mem_append.1 hx with hx | hx
    · obtain ⟨y, -, rfl⟩ := List.mem_map.1 hx
      rfl
    · obtain ⟨y, -, rfl⟩ := List.mem_map.1 hx
      rfl
  have hmode : c.output.extensionMode = false := by
    simpa [Batch.isActive, hskips] using ha
  rw [hmode]
  exact Field.typeEdits_fixed (h.types hmode) (h.notes hmode)
    (h.calm hmode text (readTarget_before h hn hp isName_types hr)) e he

theorem entryEdits_fixed {t : Transaction} (ht : t ∈ entryEdits d p.registry (entryPath c)) {mode : Bool}
    {text : String} (hr : Batch.readTarget d₁ t.path = .ok text) {e : Edit} (he : e ∈ t.edits)
    (hl : Batch.isLeftOut mode e = false) :
    e.result (Batch.edited mode text t.edits) = Batch.edited mode text t.edits := by
  rcases mem_entryEdits ht with ⟨hwires, rfl⟩ | ⟨hwires, -, rfl⟩
  · obtain rfl := List.mem_singleton.1 he
    have htext := readTarget_before h hn hp Registry.isName_index hr
    rw [edited_singleton mode text hl]
    refine String.ext ?_
    rw [toList_result_epilogueEdit, toList_result_epilogueEdit]
    exact Section.splice_splice isSentinel (h.closed hwires) (h.whole hwires text htext) _
  · obtain rfl := List.mem_singleton.1 he
    have htext := readTarget_before h hn hp Registry.isName_index hr
    rw [edited_singleton mode text hl]
    refine String.ext ?_
    rw [toList_result_removalEdit, toList_result_removalEdit]
    exact Section.remove_of_none (h.single hwires text htext)

/-- No package keeps its files where the client has its own. -/
theorem owned_apart {q : String × Table String} (hq : q ∈ p.registry.filled) (y : String) :
    ¬ ∃ t ∈ typesPart c ++ entryEdits d p.registry (entryPath c),
      Batch.AtFile d₁ t.path (d₁.wayTo p.registry.root ++ [q.1] ++ [y]) := by
  rintro ⟨t, ht, x, hx⟩
  have hq' := Registry.isName_package (hn q (Registry.mem_packages hq)).1
  have hway : ∃ name, d₁.wayTo p.registry.root ++ [q.1] ++ [y] =
      d.wayTo (c.path c.output.client) ++ [name] := by
    rcases List.mem_append.1 ht with ht | ht
    · obtain rfl := mem_typesPart ht
      exact ⟨_, (locate_before h hn hp isName_types hx).1⟩
    · rw [path_of_mem_entryEdits ht] at hx
      exact ⟨_, (locate_before h hn hp Registry.isName_index hx).1⟩
  obtain ⟨name, hname⟩ := hway
  refine h.apart q hq ?_
  rw [Registry.packageDir, wayTo_join d _ hq', ← wayTo_eq hp.here p.registry.root]
  exact (List.append_inj' hname rfl).1.symm

theorem entryEdits_again {changed : List String → Prop} (hr : Rewritten changed d₁ d')
    (hfiles : ∀ t ∈ entryEdits d p.registry (entryPath c),
      Batch.isActive c.output.extensionMode t = true → ∃ w, Batch.AtFile d' t.path w) :
    entryEdits d' p.registry (entryPath c) = entryEdits d p.registry (entryPath c) := by
  have hhere : d'.here = d.here := hr.here.trans hp.here
  by_cases hw : (!(p.registry.features middlewarePackage).isEmpty) = true
  · have hepilogue : epilogueEdit d' (p.registry.packageDir middlewarePackage) =
        epilogueEdit d (p.registry.packageDir middlewarePackage) := by
      rw [epilogueEdit, epilogueEdit, epilogue, epilogue, hereText, hereText, hhere]
    rw [entryEdits, entryEdits, if_pos hw, if_pos hw, hepilogue]
  · have hfile : d'.isFile (entryPath c) = d.isFile (entryPath c) := by
      cases hf : d.isFile (entryPath c) with
      | true =>
        have ht : (⟨entryPath c, [removalEdit]⟩ : Transaction) ∈
            entryEdits d p.registry (entryPath c) := by
          rw [entryEdits, if_neg hw, hf]
          exact List.mem_singleton.2 rfl
        obtain ⟨w, x, hx⟩ := hfiles _ ht (by simp [Batch.isActive, removalEdit, Edit.of])
        exact isFile_eq_true_iff.2 ⟨w, x, hx⟩
      | false =>
        refine Bool.eq_false_iff.2 fun hf' => ?_
        rw [hr.isFile] at hf'
        obtain ⟨w, x, hx⟩ := isFile_eq_true_iff.1 hf'
        have hl := (locate_before h hn hp Registry.isName_index hx).2
        rw [entryPath, isFile, hl] at hf
        cases hf
    rw [entryEdits, entryEdits, if_neg hw, if_neg hw, hfile]

end InPlace

theorem execute_of_ok {d₁ : Disk} {features : MaterializeSummary} {patches : BatchSummary}
    (hm : p.registry.materialize d = .ok features d₁) (hb : p.batch.process d₁ = (.ok patches, d')) :
    p.execute d = (.ok ⟨patches, features⟩, d') := by
  rw [execute, hm]
  dsimp only
  rw [hb]

/-- A plan that can be repeated does nothing the second time: the plan that is built on the files it has
left is the same, applies no edit, writes and removes no feature, and changes no file. -/
theorem execute_again {o : PlanOutcome} (hb : build c d = .ok p) (he : p.execute d = (.ok o, d'))
    (h : Repeatable c d p) : build c d' = .ok p ∧ ∃ o', p.execute d' = (.ok o', d') ∧
      (∀ x ∈ o'.patches.reports, x.outcome ≠ .applied) ∧ o'.patches.filesWritten = 0 ∧
      o'.features.written = 0 ∧ o'.features.removed = 0 := by
  obtain ⟨r, ⟨hnamed, hroot⟩, hp, hall⟩ := build_cases hb
  obtain rfl : r = p.registry := by rw [hp]
  have hbatch : p.batch = ⟨typesPart c ++ entryEdits d p.registry (entryPath c), c.output.extensionMode⟩ :=
    congrArg Plan.batch hp
  rw [execute] at he
  split at he
  · cases he
  · next features d₁ hm =>
    split at he
    · cases he
    · next patches d₂ hprocess =>
      obtain rfl : d₂ = d' := (Prod.mk.inj he).2
      have hstart : d.entry? (d.start p.registry.root) = some .directory := by
        rw [start]
        split
        · rfl
        · exact h.home
      have hplaced := Registry.placed_of_materialize ⟨h.tree, hstart, hroot ▸ h.packagesDown⟩ hnamed hm
      -- the batch has changed the files of the client only, and its edits are done
      rw [hbatch] at hprocess
      have hcross : ∀ t ∈ typesPart c, ∀ u ∈ entryEdits d p.registry (entryPath c),
          Batch.samePath u.path t.path = false ∧ Batch.Unlike d₁ t.path u.path := by
        intro t ht u hu
        rw [path_of_mem_entryEdits hu, mem_typesPart ht]
        exact ⟨samePath_client c, unlike_client h hnamed hplaced⟩
      obtain ⟨hrewritten, hfiles, patches', hagain, hwritten, happlied⟩ := Batch.process_again
        (b := ⟨typesPart c ++ entryEdits d p.registry (entryPath c), c.output.extensionMode⟩)
        (pairwise_transactions fun t ht u hu => (hcross t ht u hu).1)
        (pairwise_transactions fun t ht u hu => (hcross t ht u hu).2)
        (fun t ht ha text hr e he hl => by
          rcases List.mem_append.1 ht with ht | ht
          · exact typesPart_fixed h hnamed hplaced ht ha hr he
          · exact entryEdits_fixed h hnamed hplaced ht hr he hl) hprocess
      have hsettled : p.registry.Settled d₂ := hplaced.settled.rewritten hnamed hrewritten
        fun q hq y _ => owned_apart h hnamed hplaced hq y
      obtain ⟨features', hmaterialize, hnone, hremoved⟩ := Registry.materialize_of_settled hsettled
      have hentry := entryEdits_again h hnamed hplaced hrewritten
        fun t ht => hfiles t (List.mem_append_right _ ht)
      refine ⟨?_, ⟨patches', features'⟩, ?_, happlied, hwritten, hnone, hremoved⟩
      · rw [hall d₂, hentry, ← hp]
      · exact execute_of_ok hmaterialize (hbatch ▸ hagain)

def clientConfig (types deprecated : List (String × String)) : Config :=
  { Config.initial with
    fieldTypes := Table.ofList types
    deprecated := Table.ofList deprecated
    output := { Outputs.initial with client := "client", features := "features" } }

def clientDisk (types : String) (files : List (String × String)) : Disk :=
  ⟨[], (["client"], .directory) :: (["client", "index.d.ts"], .file (.text types)) ::
    files.map fun f => (["client", f.1], .file (.text f.2))⟩

def noted : Config := clientConfig [("User.z", "\x7b y: Json \x7d")] [("User.b", "use z")]

def notedBefore : Disk := clientDisk
  "export type User = \x7b\n  b: string\n  z: \x7b x: number \x7d\n\x7d\n"
  [("index.js", "run();\n// schemaweave:begin\nload();\n// schemaweave:end\n")]

def notedAfter : Disk := clientDisk
  "export type User = \x7b\n  /** @deprecated use z (User.b) */\n  b: string\n  z: \x7b y: Json \x7d\n\x7d\n"
  [("index.js", "run();\n")]

def notedPlan : Plan :=
  ⟨⟨typesPart noted ++ [⟨"client/index.js", [removalEdit]⟩], false⟩, Registry.new "features"⟩

def notedReports : List EditReport := [
  ⟨"client/index.d.ts", "field type User.z", .applied⟩,
  ⟨"client/index.d.ts", "deprecate User.b", .applied⟩,
  ⟨"client/index.js", "client epilogue removal", .applied⟩]

theorem repeatable_noted : Repeatable noted notedBefore notedPlan where
  tree := .of_entries (by decide)
  home := rfl
  packagesDown h := absurd (show ".." ∈ ["features"] from h) (by decide)
  clientDown h := absurd (show ".." ∈ ["client"] from h) (by decide)
  apart := by decide
  types _ := by decide
  notes _ := by decide
  calm _ text h := by
    obtain rfl := Except.ok.inj h
    decide
  closed h := absurd h (by decide)
  whole h := absurd h (by decide)
  single _ text h := by
    obtain rfl := Except.ok.inj h
    rfl

theorem execute_noted :
    notedPlan.execute notedBefore = (.ok ⟨⟨notedReports, 2⟩, ⟨0, 0, 0, 0⟩⟩, notedAfter) := by
  have hfold : notedPlan.batch.transactions.foldlM
      (Batch.applyTransaction notedPlan.batch.extensionMode notedBefore) ([], []) =
      .ok ([⟨"client/index.d.ts",
          "export type User = \x7b\n  b: string\n  z: \x7b x: number \x7d\n\x7d\n",
          "export type User = \x7b\n  /** @deprecated use z (User.b) */\n  b: string\n  z: \x7b y: Json \x7d\n\x7d\n"⟩,
        ⟨"client/index.js", "run();\n// schemaweave:begin\nload();\n// schemaweave:end\n", "run();\n"⟩],
        notedReports) := rfl
  have hedits : notedPlan.batch.process notedBefore = (.ok ⟨notedReports, 2⟩, notedAfter) :=
    Batch.process_of_ordered hfold (by decide) rfl
  exact execute_of_ok rfl hedits

theorem execute_again_noted : Repeatable noted notedBefore notedPlan ∧
    build noted notedAfter = .ok notedPlan ∧
    ∃ o, notedPlan.execute notedAfter = (.ok o, notedAfter) ∧
      (∀ x ∈ o.patches.reports, x.outcome ≠ .applied) ∧ o.patches.filesWritten = 0 ∧
      o.features.written = 0 ∧ o.features.removed = 0 :=
  have hb : build noted notedBefore = .ok notedPlan := rfl
  ⟨repeatable_noted, execute_again hb execute_noted repeatable_noted⟩

def nested : Config := clientConfig [("User.b", "X"), ("User.z", "Json")] []

/-- The object type of a field hides the line of the next field. -/
def nestedBefore : String := "export type User = \x7b\n  z: \x7b x: number \x7d\n  b: string\n\x7d"

def nestedOnce : String := "export type User = \x7b\n  z: Json\n  b: string\n\x7d"

def nestedTwice : String := "export type User = \x7b\n  z: Json\n  b: X\n\x7d"

def nestedPlan : Plan := ⟨⟨typesPart nested, false⟩, Registry.new "features"⟩

theorem execute_nested {before after : String} {reports : List EditReport}
    (hfold : nestedPlan.batch.transactions.foldlM
      (Batch.applyTransaction false (clientDisk before [])) ([], []) =
      .ok ([⟨"client/index.d.ts", before, after⟩], reports))
    (hwrite : Batch.writeAll [⟨"client/index.d.ts", before, after⟩] (clientDisk before []) 0 =
      (.ok 1, clientDisk after [])) :
    nestedPlan.execute (clientDisk before []) =
      (.ok ⟨⟨reports, 1⟩, ⟨0, 0, 0, 0⟩⟩, clientDisk after []) := by
  have hedits : nestedPlan.batch.process (clientDisk before []) =
      (.ok ⟨reports, 1⟩, clientDisk after []) :=
    Batch.process_of_ordered hfold (List.pairwise_singleton _ _) hwrite
  exact execute_of_ok rfl hedits

/-- The second run applies an edit for which the first has found no place. -/
theorem second_run_retypes : ∃ o o',
    build nested (clientDisk nestedBefore []) = .ok nestedPlan ∧
    nestedPlan.execute (clientDisk nestedBefore []) = (.ok o, clientDisk nestedOnce []) ∧
    build nested (clientDisk nestedOnce []) = .ok nestedPlan ∧
    nestedPlan.execute (clientDisk nestedOnce []) = (.ok o', clientDisk nestedTwice []) ∧
    (∃ x ∈ o'.patches.reports, x.outcome = .applied) ∧ o'.patches.filesWritten = 1 ∧
    clientDisk nestedTwice [] ≠ clientDisk nestedOnce [] := by
  have hfirst : nestedPlan.execute (clientDisk nestedBefore []) =
      (.ok ⟨⟨[⟨"client/index.d.ts", "field type User.b", .anchorMissing⟩,
        ⟨"client/index.d.ts", "field type User.z", .applied⟩], 1⟩, ⟨0, 0, 0, 0⟩⟩,
        clientDisk nestedOnce []) := execute_nested rfl rfl
  have hsecond : nestedPlan.execute (clientDisk nestedOnce []) =
      (.ok ⟨⟨[⟨"client/index.d.ts", "field type User.b", .applied⟩,
        ⟨"client/index.d.ts", "field type User.z", .alreadyApplied⟩], 1⟩, ⟨0, 0, 0, 0⟩⟩,
        clientDisk nestedTwice []) := execute_nested rfl rfl
  refine ⟨_, _, rfl, hfirst, rfl, hsecond, ⟨_, List.mem_cons_self, rfl⟩, rfl, fun h => ?_⟩
  have htypes := congrArg (fun d => Disk.entry? d ["client", "index.d.ts"]) h
  exact absurd htypes (by decide)

end FragmentMerge.Plan
