import FragmentMerge.Proofs.Document.Declarations

/-! Documents that are loaded again. When the lines of a document are read as they were written and no
name comes twice, loading gives back the heads, the models with the columns of the document, and the enums;
and the document of what was loaded differs in the names of the fragments only. -/

namespace FragmentMerge.Document

/-- A replay whose lines stand in its document as they are. -/
structure Plain (r : Replay) : Prop where
  nonblank : ∀ d ∈ declarations r, ∀ l ∈ d.lines, Text.trim l.toList ≠ []
  unbroken : ∀ d ∈ declarations r, ∀ l ∈ d.lines, '\n' ∉ l.toList
  enclosed : ∀ d ∈ declarations r, ∀ l ∈ d.lines, Block.SelfContained l
  parsed : ∀ m ∈ visibleModels r, ∀ col ∈ columnsOf r m, Column.parse col.format = col

theorem parse_trimmed (l : String) : Column.parse (Text.trimmed l) = Column.parse l := by
  rw [Column.parse, Column.parse, Text.trimmed, String.toList_ofList, Text.trim_trim]

theorem trimmed_of_trim {l : String} (h : Text.trim l.toList = l.toList) : Text.trimmed l = l := by
  rw [Text.trimmed, h, String.ofList_toList]

theorem modelDeclaration_mem {r : Replay} {m : Model} (h : m ∈ visibleModels r) :
    modelDeclaration r m ∈ declarations r :=
  List.mem_append_left _ (List.mem_map.2 ⟨m, h, rfl⟩)

theorem enumDeclaration_mem {r : Replay} {e : EnumItem} (h : e ∈ visibleEnums r) :
    enumDeclaration e ∈ declarations r :=
  List.mem_append_right _ (List.mem_map.2 ⟨e, h, rfl⟩)

theorem lines_modelDeclaration (r : Replay) (m : Model) :
    (modelDeclaration r m).lines = (columnsOf r m).map Column.format := rfl

theorem mem_declarations {r : Replay} {d : Declaration} (h : d ∈ declarations r) :
    (∃ m ∈ visibleModels r, modelDeclaration r m = d) ∨ ∃ e ∈ visibleEnums r, enumDeclaration e = d := by
  rw [declarations, List.mem_append, List.mem_map, List.mem_map] at h
  exact h

theorem key_of_declaration {r : Replay} (hw : r.catalog.WellKeyed) {d : Declaration}
    (h : d ∈ declarations r) : ⟨d.file, d.name⟩ ∈ r.catalog.keys := by
  rcases mem_declarations h with ⟨m, hm, rfl⟩ | ⟨e, he, rfl⟩
  · exact List.mem_append_left _ (List.mem_map.2 ⟨m, (List.mem_filter.1 hm).1, rfl⟩)
  · have hmem := (List.mem_filter.1 he).1
    have hkey : (⟨e.key.file, e.name⟩ : ItemKey) = e.key := by rw [hw.named e hmem]
    rw [enumDeclaration, hkey]
    exact List.mem_append_right _ (List.mem_map.2 ⟨e, hmem, rfl⟩)

theorem legible_declarations {r : Replay} (hw : r.catalog.WellKeyed) (hr : r.catalog.Readable)
    (hp : Plain r) : ∀ d ∈ declarations r, d.Legible := by
  intro d hd
  refine ⟨?_, hr.names _ (key_of_declaration hw hd), hp.unbroken d hd, hp.nonblank d hd,
    hp.enclosed d hd⟩
  rcases mem_declarations hd with ⟨m, -, rfl⟩ | ⟨e, -, rfl⟩
  · exact .inl rfl
  · exact .inr rfl

/-- A model without the place where it stands. -/
def contents (m : Model) : ItemKey × List Column := (m.key, m.columns)

def enumContents (e : EnumItem) : ItemKey × String × List String := (e.key, e.name, e.values)

theorem filter_keyword_self {ds : List Declaration} {keyword : String}
    (h : ∀ d ∈ ds, d.keyword = keyword) : ds.filter (·.keyword == keyword) = ds := by
  rw [List.filter_eq_self]
  intro d hd
  simp [h d hd]

theorem filter_keyword_other {ds : List Declaration} {keyword other : String}
    (h : ∀ d ∈ ds, d.keyword = keyword) (hne : keyword ≠ other) :
    ds.filter (·.keyword == other) = [] := by
  rw [List.filter_eq_nil_iff]
  intro d hd
  simp [h d hd, hne]

theorem keyword_models (r : Replay) :
    ∀ d ∈ (visibleModels r).map (modelDeclaration r), d.keyword = "model" := by
  intro d hd
  obtain ⟨m, -, rfl⟩ := List.mem_map.1 hd
  rfl

theorem keyword_enums (r : Replay) : ∀ d ∈ (visibleEnums r).map enumDeclaration, d.keyword = "enum" := by
  intro d hd
  obtain ⟨e, -, rfl⟩ := List.mem_map.1 hd
  rfl

theorem filter_declarations_model (r : Replay) :
    (declarations r).filter (·.keyword == "model") = (visibleModels r).map (modelDeclaration r) := by
  rw [declarations, List.filter_append, filter_keyword_self (keyword_models r),
    filter_keyword_other (keyword_enums r) (by decide), List.append_nil]

theorem filter_declarations_enum (r : Replay) :
    (declarations r).filter (·.keyword == "enum") = (visibleEnums r).map enumDeclaration := by
  rw [declarations, List.filter_append, filter_keyword_other (keyword_models r) (by decide),
    filter_keyword_self (keyword_enums r), List.nil_append]

theorem filter_blocks {r : Replay} {bs : List Block}
    (h : bs.map Block.unplaced = (declarations r).map Declaration.asBlock) (keyword : String) :
    (bs.filter (·.keyword == keyword)).map Block.unplaced =
      ((declarations r).filter (·.keyword == keyword)).map Declaration.asBlock := by
  have hbs := congrArg (List.filter (·.keyword == keyword)) h
  rw [List.filter_map, List.filter_map] at hbs
  exact hbs

theorem bodyLines_asBlock {d : Declaration} (h : d.Legible) :
    d.asBlock.bodyLines = d.lines.map Text.trimmed :=
  Block.bodyLines_indented rfl h.unbroken h.nonblank

theorem contents_models {r : Replay} (hp : Plain r) (hl : ∀ d ∈ declarations r, d.Legible)
    {bs : List Block} (h : bs.map Block.unplaced = (declarations r).map Declaration.asBlock)
    (file : String) :
    ((bs.filter (·.keyword == "model")).map (Block.model file)).map contents =
      (visibleModels r).map fun m => (⟨file, m.key.name⟩, columnsOf r m) := by
  have hplace : contents ∘ Block.model file = (contents ∘ Block.model file) ∘ Block.unplaced := rfl
  rw [List.map_map, hplace, ← List.map_map, filter_blocks h, filter_declarations_model, List.map_map,
    List.map_map]
  refine List.map_congr_left fun m hm => ?_
  have hlines : (modelDeclaration r m).asBlock.bodyLines.map Column.parse = columnsOf r m := by
    rw [bodyLines_asBlock (hl _ (modelDeclaration_mem hm)), lines_modelDeclaration, List.map_map,
      List.map_map]
    refine (List.map_congr_left fun col hcol => ?_).trans (List.map_id _)
    rw [Function.comp_apply, Function.comp_apply, parse_trimmed]
    exact hp.parsed m hm col hcol
  simp only [Function.comp_apply, contents, Block.model, hlines]
  rfl

theorem contents_enums {r : Replay} (hr : r.catalog.Readable) (hl : ∀ d ∈ declarations r, d.Legible)
    {bs : List Block} (h : bs.map Block.unplaced = (declarations r).map Declaration.asBlock)
    (file : String) :
    ((bs.filter (·.keyword == "enum")).map (Block.enumItem file)).map enumContents =
      (visibleEnums r).map fun e => (⟨file, e.name⟩, e.name, e.values) := by
  have hplace : enumContents ∘ Block.enumItem file =
      (enumContents ∘ Block.enumItem file) ∘ Block.unplaced := rfl
  rw [List.map_map, hplace, ← List.map_map, filter_blocks h, filter_declarations_enum, List.map_map,
    List.map_map]
  refine List.map_congr_left fun e he => ?_
  have hval : ∀ v ∈ e.values, Text.trimmed v = v := by
    intro v hv
    exact trimmed_of_trim (hr.values e (List.mem_filter.1 he).1 v hv)
  have hlines : (enumDeclaration e).asBlock.bodyLines = e.values := by
    rw [bodyLines_asBlock (hl _ (enumDeclaration_mem he))]
    exact (List.map_congr_left hval).trans (List.map_id _)
  simp only [Function.comp_apply, enumContents, Block.enumItem, hlines]
  rfl

theorem declarations_start (c : Catalog) :
    declarations (.start c []) =
      (c.models.map contents).map (fun p => ⟨"model", p.1.file, p.1.name, p.2.map Column.format⟩) ++
        (c.enums.map enumContents).map fun p => ⟨"enum", p.1.file, p.2.1, p.2.2⟩ := by
  have hm : visibleModels (.start c []) = c.models := List.filter_eq_self.2 fun m _ => rfl
  have he : visibleEnums (.start c []) = c.enums := List.filter_eq_self.2 fun e _ => rfl
  have hcols : ∀ m, columnsOf (.start c []) m = m.columns := by
    intro m
    have hred : ∀ col ∈ m.columns, redirect (.start c []) m.key col = col := by
      intro col _
      rw [redirect]
      split <;> rfl
    exact (List.map_congr_left hred).trans (List.map_id _)
  rw [declarations, hm, he, List.map_map, List.map_map]
  refine congrArg (· ++ _) (List.map_congr_left fun m _ => ?_)
  rw [modelDeclaration, hcols]
  rfl

/-- A catalog that holds what the document of a replay declares, in one file. -/
structure Holds (file : String) (r : Replay) (c : Catalog) : Prop where
  generator : c.generator = r.catalog.generator
  datasource : c.datasource = r.catalog.datasource
  models : c.models.map contents = (visibleModels r).map fun m => (⟨file, m.key.name⟩, columnsOf r m)
  enums : c.enums.map enumContents =
    (visibleEnums r).map fun e => (⟨file, e.name⟩, e.name, e.values)

theorem Holds.declarations {file : String} {r : Replay} {c : Catalog} (h : Holds file r c) :
    declarations (.start c []) = (declarations r).map fun d => { d with file } := by
  rw [declarations_start, h.models, h.enums, Document.declarations, List.map_append, List.map_map,
    List.map_map, List.map_map, List.map_map]
  rfl

theorem Holds.text {file : String} {r : Replay} {c : Catalog} (h : Holds file r c) :
    (ofReplay (.start c []) []).text = labelled (fun _ => file) r := by
  have hg : (Replay.start c []).catalog.generator = r.catalog.generator := h.generator
  have hd : (Replay.start c []).catalog.datasource = r.catalog.datasource := h.datasource
  rw [text_eq_labelled, labelled, labelled, hg, hd, h.declarations, List.map_map]
  rfl

/-- Loading a document of different names gives what it declares. -/
theorem load_ofReplay {r : Replay} (hw : r.catalog.WellKeyed) (hr : r.catalog.Readable)
    (hg : Catalog.Head "generator" r.catalog.generator)
    (hd : Catalog.Head "datasource" r.catalog.datasource) (hp : Plain r)
    (hnodup : ((declarations r).map Declaration.name).Nodup)
    (hfile : ∀ d ∈ declarations r, '\n' ∉ d.file.toList) (file : String) :
    ∃ c, Catalog.ofFragments (fun _ => false) [⟨file, (ofReplay r []).text⟩] = .ok c ∧
      Holds file r c := by
  have hl := legible_declarations hw hr hp
  obtain ⟨g, s, bs, hbs, hgk, hgt, hsk, hst, hmap⟩ := extract_labelled hg hd hl hfile
  have hkey : ∀ b ∈ bs, b.keyword = "model" ∨ b.keyword = "enum" := by
    intro b hb
    have hmem : b.unplaced ∈ (declarations r).map Declaration.asBlock :=
      hmap ▸ List.mem_map_of_mem hb
    obtain ⟨d, hdm, hdb⟩ := List.mem_map.1 hmem
    have hk : d.keyword = b.keyword := congrArg Block.keyword hdb
    exact hk ▸ (hl d hdm).keyword
  have hnames : bs.map Block.name = (declarations r).map Declaration.name := by
    have hmap' := congrArg (List.map Block.name) hmap
    rw [List.map_map, List.map_map] at hmap'
    exact hmap'
  have hge : g.text.isEmpty = false := hgt ▸ Catalog.isEmpty_of_head hg
  have hse : s.text.isEmpty = false := hst ▸ Catalog.isEmpty_of_head hd
  rw [text_eq_labelled]
  exact ⟨_, Catalog.ofFragments_fresh hbs hgk hge hsk hse hkey (hnames ▸ hnodup),
    hgt, hst, contents_models hp hl hmap file, contents_enums hr hl hmap file⟩

end FragmentMerge.Document
