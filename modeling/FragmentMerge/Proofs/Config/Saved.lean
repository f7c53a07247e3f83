import FragmentMerge.Config.File
import FragmentMerge.Proofs.Files.Route
import FragmentMerge.Proofs.Toml.Document

/-! Configurations that are saved. Each part of a configuration is read back from the tree that it is written
as: what is absent stays absent, and no initial value takes the place of one that was written. Only a number
of passes beyond the largest signed word keeps a configuration from being written. -/

namespace FragmentMerge

open Decode Toml FragmentMerge.Tree

section Legible

variable {d : Nat}

theorem legible_text (s : String) : Legible d (.text s) := by cases d <;> trivial

theorem legible_bool (b : Bool) : Legible d (.bool b) := by cases d <;> trivial

theorem inRange_nat (n : Nat) : inRange n = if n < Nat.pow 2 63 then some (n : Int) else none := by
  rw [inRange]
  generalize Nat.pow 2 63 = m
  refine if_congr ?_ rfl rfl
  simp only [Bool.and_eq_true, decide_eq_true_eq]
  omega

theorem legible_nat {n : Nat} (h : n < Nat.pow 2 63) : Legible d (.nat n) := by
  have hrange : inRange n = some (n : Int) := by rw [inRange_nat, if_pos h]
  cases d <;> exact hrange

theorem legible_list {tree : α → Tree} {as : List α} (h : ∀ a ∈ as, Legible d (tree a)) :
    Legible (d + 1) (.list (as.map tree)) := List.forall_mem_map.2 h

theorem legible_texts (ss : List String) : Legible (d + 1) (.texts ss) :=
  legible_list fun s _ => legible_text s

theorem legible_table (t : Table α) (tree : α → Tree) (h : ∀ e ∈ t.entries, Legible d (tree e.2)) :
    Legible (d + 1) (.table (t.entries.map fun e => (e.1, tree e.2))) := by
  refine ⟨?_, List.forall_mem_map.2 h⟩
  rw [DistinctKeys, List.map_map]
  exact List.pairwise_map.2 t.pairwise_ne

theorem legible_record {es : List (String × Tree)} :
    Legible (d + 1) (.table es) ↔ (es.map (·.1)).Nodup ∧ ∀ e ∈ es, Legible d e.2 := Iff.rfl

end Legible

theorem ResolveRule.legible_tree (r : ResolveRule) : Legible 1 r.tree := by
  rw [ResolveRule.tree, legible_record]
  cases r.name <;> simp [presentEntry, legible_text]

theorem NameRule.legible_tree (r : NameRule) : Legible 2 r.tree := by
  rw [NameRule.tree, legible_record]
  cases r.name <;> cases r.pattern <;> cases r.rename <;> simp [presentEntry, legible_text, legible_texts]

theorem NameRules.legible_tree {r : NameRules} (h : r.maxPasses < Nat.pow 2 63) : Legible 4 r.tree := by
  have hrules : Legible 3 (.list (r.rules.map NameRule.tree)) := legible_list fun r _ => r.legible_tree
  rw [NameRules.tree, legible_record]
  simp [legible_nat h, hrules]

theorem ExtraGenerator.legible_tree (g : ExtraGenerator) : Legible 1 g.tree := by
  rw [ExtraGenerator.tree, legible_record]
  cases g.output <;> simp [presentEntry, legible_text, legible_bool]

theorem IndexField.legible_tree (f : IndexField) : Legible 1 f.tree := by
  rw [IndexField.tree, legible_record]
  simp [legible_text]

theorem FullText.legible_tree (t : FullText) : Legible 4 t.tree := by
  have hindexes : Legible 3 (.table (t.indexes.entries.map fun e => (e.1, .list (e.2.map IndexField.tree)))) :=
    legible_table t.indexes (fun fs => .list (fs.map IndexField.tree)) fun e _ =>
      legible_list fun f _ => f.legible_tree
  rw [FullText.tree, legible_record]
  cases t.schema <;> simp [presentEntry, legible_text, hindexes]

theorem Outputs.legible_tree (o : Outputs) : Legible 1 o.tree := by
  rw [Outputs.tree, legible_record]
  cases o.generateCommand <;> simp [presentEntry, legible_text, legible_bool]

namespace Config

theorem legible_tree {c : Config} (h : c.introspection.maxPasses < Nat.pow 2 63) : Legible 5 c.tree := by
  have htexts : ∀ t : Table String, Legible 1 (.textTable t.entries) := fun t =>
    legible_table t .text fun e _ => legible_text e.2
  have hresolve : Legible 2 (.list (c.resolve.map ResolveRule.tree)) := legible_list fun r _ => r.legible_tree
  have hgenerators : Legible 2 (.list (c.generators.map ExtraGenerator.tree)) :=
    legible_list fun g _ => g.legible_tree
  have htake : Legible 1 (.table (c.staticTake.entries.map fun e => (e.1, .nat e.2.toNat))) :=
    legible_table c.staticTake (fun n => .nat n.toNat) fun e _ =>
      legible_nat (Nat.lt_trans e.2.toNat_lt (by decide))
  rw [Config.tree, legible_record]
  cases c.base <;>
    simp [presentEntry, legible_text, legible_bool, legible_texts, (htexts _).mono, hresolve.mono,
      hgenerators.mono, NameRules.legible_tree h, FullText.legible_tree, c.output.legible_tree.mono, htake.mono]

end Config

theorem ResolveRule.restores_tree (r : ResolveRule) : Restores ofTree r.tree r := by
  intro u hu
  have hword : ResolveKind.words.lookup r.action.text = some r.action := by cases r.action <;> rfl
  have hitem : ItemKind.words.lookup r.kind.text = some r.kind := by cases r.kind <;> rfl
  obtain ⟨fs, hfs, h⟩ := record_ok r.legible_tree.1 hu ["target", "action", "name", "kind"]
  have hname := h.optional (k := "name") (o := r.name) (by cases r.name <;> rfl)
  have hholds := h.holds
  simp only [List.forall_mem_append, List.forall_mem_cons] at hholds
  obtain ⟨⟨⟨htarget, haction, -⟩, -⟩, hkind, -⟩ := hholds
  unfold ofTree
  rw [bind_ok hfs, bind_ok (htarget.field (restores_text r.target)),
    bind_ok (haction.field (restores_word hword)), bind_ok hname,
    bind_ok (hkind.fieldOr (restores_word hitem) .model)]
  rfl

theorem NameRule.restores_tree (r : NameRule) : Restores ofTree r.tree r := by
  intro u hu
  obtain ⟨fs, hfs, h⟩ := record_ok r.legible_tree.1 hu ["name", "pattern", "rename", "attributes"]
  have hname := h.optional (k := "name") (o := r.name)
    (by cases r.name <;> cases r.pattern <;> cases r.rename <;> rfl)
  have hpattern := h.optional (k := "pattern") (o := r.pattern)
    (by cases r.name <;> cases r.pattern <;> cases r.rename <;> rfl)
  have hrename := h.optional (k := "rename") (o := r.rename)
    (by cases r.name <;> cases r.pattern <;> cases r.rename <;> rfl)
  have hattributes : Holds fs "attributes" (.texts r.attributes) :=
    h.holds ("attributes", .texts r.attributes) (by simp)
  unfold ofTree
  rw [bind_ok hfs, bind_ok hname, bind_ok hpattern, bind_ok hrename,
    bind_ok (hattributes.fieldOr (restores_texts r.attributes) [])]
  rfl

theorem NameRules.restores_tree {r : NameRules} (h : r.maxPasses < Nat.pow 2 63) :
    Restores ofTree r.tree r := by
  intro u hu
  have hnat : Restores (natBelow (Nat.pow 2 64)) (.nat r.maxPasses) r.maxPasses :=
    restores_nat (Nat.lt_trans h (by decide))
  have hlist : Restores (list NameRule.ofTree) (.list (r.rules.map NameRule.tree)) r.rules :=
    restores_list fun r _ => r.restores_tree
  obtain ⟨fs, hfs, h⟩ := record_ok (legible_tree h).1 hu ["max_passes", "rules"]
  have hholds := h.holds
  simp only [List.forall_mem_cons] at hholds
  obtain ⟨hpasses, hrules, -⟩ := hholds
  unfold ofTree
  rw [bind_ok hfs, bind_ok (hpasses.fieldOr hnat initial.maxPasses), bind_ok (hrules.fieldOr hlist [])]
  rfl

theorem ExtraGenerator.restores_tree (g : ExtraGenerator) : Restores ofTree g.tree g := by
  intro u hu
  obtain ⟨fs, hfs, h⟩ := record_ok g.legible_tree.1 hu ["name", "provider", "output", "enabled"]
  have houtput := h.optional (k := "output") (o := g.output) (by cases g.output <;> rfl)
  have hholds := h.holds
  simp only [List.forall_mem_append, List.forall_mem_cons] at hholds
  obtain ⟨⟨⟨hname, hprovider, -⟩, -⟩, henabled, -⟩ := hholds
  unfold ofTree
  rw [bind_ok hfs, bind_ok (hname.field (restores_text g.name)),
    bind_ok (hprovider.field (restores_text g.provider)), bind_ok houtput,
    bind_ok (henabled.fieldOr (restores_bool g.enabled) true)]
  rfl

theorem IndexField.restores_tree (f : IndexField) : Restores ofTree f.tree f := by
  intro u hu
  obtain ⟨fs, hfs, h⟩ := record_ok f.legible_tree.1 hu ["name", "weight"]
  have hholds := h.holds
  simp only [List.forall_mem_cons] at hholds
  obtain ⟨hname, hweight, -⟩ := hholds
  unfold ofTree
  rw [bind_ok hfs, bind_ok (hname.field (restores_text f.name)),
    bind_ok (hweight.fieldOr (restores_text f.weight) "A")]
  rfl

theorem FullText.restores_tree (t : FullText) : Restores ofTree t.tree t := by
  intro u hu
  have htable := restores_table t.indexes (fun fs => .list (fs.map IndexField.tree)) fun e _ =>
    restores_list fun f _ => f.restores_tree
  obtain ⟨fs, hfs, h⟩ := record_ok t.legible_tree.1 hu ["schema", "language", "indexes"]
  have hschema := h.optional (k := "schema") (o := t.schema) (by cases t.schema <;> rfl)
  have hholds := h.holds
  simp only [List.forall_mem_append, List.forall_mem_cons] at hholds
  obtain ⟨-, hlanguage, hindexes, -⟩ := hholds
  unfold ofTree
  rw [bind_ok hfs, bind_ok hschema, bind_ok (hlanguage.fieldOr (restores_text t.language) initial.language),
    bind_ok (hindexes.fieldOr htable .empty)]
  rfl

theorem Outputs.restores_tree (o : Outputs) : Restores ofTree o.tree o := by
  intro u hu
  obtain ⟨fs, hfs, h⟩ := record_ok o.legible_tree.1 hu
    ["schema", "client", "features", "extension_mode", "generate_command"]
  have hcommand := h.optional (k := "generate_command") (o := o.generateCommand)
    (by cases o.generateCommand <;> rfl)
  have hholds := h.holds
  simp only [List.forall_mem_append, List.forall_mem_cons] at hholds
  obtain ⟨⟨hschema, hclient, hfeatures, hmode, -⟩, -⟩ := hholds
  unfold ofTree
  rw [bind_ok hfs, bind_ok (hschema.fieldOr (restores_text o.schema) initial.schema),
    bind_ok (hclient.fieldOr (restores_text o.client) initial.client),
    bind_ok (hfeatures.fieldOr (restores_text o.features) initial.features),
    bind_ok (hmode.fieldOr (restores_bool o.extensionMode) false), bind_ok hcommand]
  rfl

namespace Config

theorem restores_word32 (n : UInt32) : Restores word32 (.nat n.toNat) n := by
  intro u hu
  have hnat : Restores (natBelow (Nat.pow 2 32)) (.nat n.toNat) n.toNat := restores_nat n.toNat_lt
  unfold word32
  rw [map_ok (hnat u hu), UInt32.ofNat_toNat]

theorem restores_textTable (t : Table String) : Restores (table text) (.textTable t.entries) t :=
  restores_table t .text fun e _ => restores_text e.2

theorem restores_tree {c : Config} (h : c.introspection.maxPasses < Nat.pow 2 63) :
    Restores ofTree c.tree { c with root := "" } := by
  intro u hu
  have hrules : Restores (list ResolveRule.ofTree) (.list (c.resolve.map ResolveRule.tree)) c.resolve :=
    restores_list fun r _ => r.restores_tree
  have hextra : Restores (list ExtraGenerator.ofTree) (.list (c.generators.map ExtraGenerator.tree))
      c.generators := restores_list fun g _ => g.restores_tree
  have hlimits := restores_table c.staticTake (fun n => .nat n.toNat) fun e _ => restores_word32 e.2
  obtain ⟨fs, hfs, hes⟩ := record_ok (legible_tree h).1 hu fieldNames
  have hbase := hes.optional (k := "base") (o := c.base) (by cases c.base <;> rfl)
  have hholds := hes.holds
  simp only [List.forall_mem_append, List.forall_mem_cons] at hholds
  obtain ⟨-, hfragments, hexclude, hcrossFile, hrelations, hextended, hresolve, hintrospection, hgenerators,
    hfullText, hfieldTypes, hdeprecated, htake, houtput, -⟩ := hholds
  unfold ofTree
  rw [bind_ok hfs, bind_ok hbase, bind_ok (hfragments.fieldOr (restores_texts c.fragments) []),
    bind_ok (hexclude.fieldOr (restores_texts c.exclude) []),
    bind_ok (hcrossFile.fieldOr (restores_bool c.crossFile) false),
    bind_ok (hrelations.fieldOr (restores_textTable c.relations) .empty),
    bind_ok (hextended.fieldOr (restores_textTable c.extended) .empty),
    bind_ok (hresolve.fieldOr hrules []),
    bind_ok (hintrospection.fieldOr (NameRules.restores_tree h) .initial),
    bind_ok (hgenerators.fieldOr hextra []),
    bind_ok (hfullText.fieldOr c.fullText.restores_tree .initial),
    bind_ok (hfieldTypes.fieldOr (restores_textTable c.fieldTypes) .empty),
    bind_ok (hdeprecated.fieldOr (restores_textTable c.deprecated) .empty),
    bind_ok (htake.fieldOr hlimits .empty),
    bind_ok (houtput.fieldOr c.output.restores_tree .initial)]
  rfl

/-- The number of passes is the only value that a document may be unable to hold. -/
theorem exists_write_iff {c : Config} :
    (∃ s, c.write = .ok s) ↔ c.introspection.maxPasses < Nat.pow 2 63 := by
  constructor
  · rintro ⟨s, hs⟩
    rw [write] at hs
    cases hwrite : write? c.tree with
    | none => rw [hwrite] at hs; cases hs
    | some s' =>
      -- the number stands on a line of its own below the header of its table
      rw [tree, write?] at hwrite
      obtain ⟨_, _, hwrite⟩ := Option.bind_eq_some_iff.1 hwrite
      obtain ⟨below, hbelow, -⟩ := Option.bind_eq_some_iff.1 hwrite
      obtain ⟨ls, hls⟩ := exists_section_of_below hbelow
        (e := ("introspection", c.introspection.tree)) (by simp) rfl
      rw [NameRules.tree, section?] at hls
      obtain ⟨plain, hplain, -⟩ := Option.bind_eq_some_iff.1 hls
      obtain ⟨n, hn⟩ := exists_inline_of_plain hplain
        (e := ("max_passes", .nat c.introspection.maxPasses)) List.mem_cons_self rfl
      rw [Tree.nat, inline?] at hn
      obtain ⟨i, hi, -⟩ := Option.map_eq_some_iff.1 hn
      rw [inRange_nat] at hi
      exact (Option.ite_none_right_eq_some.1 hi).1
  · intro h
    obtain ⟨s, u, hs, -⟩ := exists_document ((legible_tree h).mono (by decide)) rfl
    exact ⟨s, by rw [write, hs]⟩

theorem parse_write {c : Config} {s : String} (h : c.write = .ok s) : parse s = .ok { c with root := "" } := by
  have hpasses := exists_write_iff.1 ⟨s, h⟩
  obtain ⟨s', u, hs, hu, halike⟩ := exists_document ((legible_tree hpasses).mono (by decide)) rfl
  rw [write, hs] at h
  obtain rfl := Except.ok.inj h
  rw [parse, hu]
  change (ofTree u .toml).mapError _ = _
  rw [restores_tree hpasses u halike]
  rfl

theorem save_eq_ok_iff {c : Config} {d d' : Disk} {path : String} :
    c.save d path = .ok d' ↔ ∃ s, c.write = .ok s ∧ d.write path (.text s) = .ok d' := by
  constructor
  · intro h
    rw [save] at h
    split at h
    · cases h
    · next s hs =>
      refine ⟨s, hs, ?_⟩
      cases hd : d.write path (.text s) with
      | error e => rw [hd] at h; cases h
      | ok e => rw [hd] at h; exact congrArg Except.ok (Except.ok.inj h)
  · rintro ⟨s, hs, hd⟩
    rw [save, hs]
    dsimp only
    rw [hd]
    rfl

/-- What a path leads to decides whether a file can be written, not what is written. -/
theorem exists_write_of_write {d d' : Disk} {path : String} {x : Content} (h : d.write path x = .ok d')
    (y : Content) : ∃ e, d.write path y = .ok e := by
  rw [Disk.write] at h ⊢
  split at h
  · exact ⟨_, rfl⟩
  · exact ⟨_, rfl⟩
  all_goals cases h

theorem exists_save_iff {c : Config} {d : Disk} {path : String} : (∃ d', c.save d path = .ok d') ↔
    c.introspection.maxPasses < Nat.pow 2 63 ∧ ∃ d', d.write path (.text "") = .ok d' := by
  constructor
  · rintro ⟨d', h⟩
    obtain ⟨s, hs, hd⟩ := save_eq_ok_iff.1 h
    exact ⟨exists_write_iff.1 ⟨s, hs⟩, exists_write_of_write hd _⟩
  · rintro ⟨hpasses, d', hd⟩
    obtain ⟨s, hs⟩ := exists_write_iff.2 hpasses
    obtain ⟨e, he⟩ := exists_write_of_write hd (.text s)
    exact ⟨e, save_eq_ok_iff.2 ⟨s, hs, he⟩⟩

/-- A configuration that has been saved is read back from the text of the file with every value in its place,
present or absent, but for the root, which a file has from its path. The same holds of any tree with the
content of the configuration, in whatever order its tables have come back. Only a number of passes that is too
large, and a path at which no file can be written, keep a configuration from being saved. -/
theorem survives_save (c : Config) (d : Disk) (path : String) :
    (∀ d', c.save d path = .ok d' →
      (∃ s, d'.readText path = .ok s ∧ parse s = .ok { c with root := "" }) ∧
        ofFile d' path = .ok { c with root := rootOf d' path } ∧
        ∀ u, c.tree.Alike u → ofTree u .toml = .ok { c with root := "" }) ∧
      ((∃ d', c.save d path = .ok d') ↔
        c.introspection.maxPasses < Nat.pow 2 63 ∧ ∃ d', d.write path (.text "") = .ok d') := by
  refine ⟨fun d' h => ?_, exists_save_iff⟩
  obtain ⟨s, hs, hd⟩ := save_eq_ok_iff.1 h
  have htext : d'.readText path = .ok s := by rw [Disk.readText, Disk.read_write hd]
  refine ⟨⟨s, htext, parse_write hs⟩, ?_, restores_tree (exists_write_iff.1 ⟨s, hs⟩)⟩
  rw [ofFile, htext]
  change (parse s).map _ = _
  rw [parse_write hs]
  rfl

/-- A base, an answer without a name and a limit, saved and read back. -/
theorem survives_save_answer :
    let c : Config := { initial with
      base := some "base.prisma", resolve := [⟨"blog.prisma:User", .skip, none, .enum⟩],
      staticTake := .insert .empty "User" 20 }
    ∃ d s, c.save (.home []) "weave.toml" = .ok d ∧ d.readText "weave.toml" = .ok s ∧ parse s = .ok c := by
  intro c
  obtain ⟨hrestored, hsaved⟩ := survives_save c (.home []) "weave.toml"
  obtain ⟨d, hd⟩ := hsaved.2 ⟨by decide, _, rfl⟩
  obtain ⟨⟨s, hs, hparse⟩, -⟩ := hrestored d hd
  exact ⟨d, s, hd, hs, hparse⟩

end Config

end FragmentMerge
