import FragmentMerge.Document
import FragmentMerge.Proofs.Catalog.Conflict
import FragmentMerge.Proofs.Catalog.Keys
import FragmentMerge.Proofs.Catalog.Readable

/-! What a document declares: each visible model and each visible enum, under the names of their keys.
The sections of a document are read one by one: the comments give nothing, the heads give the blocks that
they once were, and each declaration gives a block with its name and its lines. Loaded as one fragment,
the heads are taken, and since no name comes twice each declaration gives the item that it declares. -/

namespace FragmentMerge.Document

structure Declaration where
  keyword : String
  file : String
  name : String
  lines : List String

def Declaration.text (d : Declaration) : String := block d.keyword d.file d.name d.lines

def modelDeclaration (r : Replay) (m : Model) : Declaration :=
  ⟨"model", m.key.file, m.key.name, (columnsOf r m).map Column.format⟩

def enumDeclaration (e : EnumItem) : Declaration := ⟨"enum", e.key.file, e.name, e.values⟩

def declarations (r : Replay) : List Declaration :=
  (visibleModels r).map (modelDeclaration r) ++ (visibleEnums r).map enumDeclaration

theorem text_ofReplay (r : Replay) (blocks : List String) :
    (ofReplay r blocks).text =
      "\n\n".intercalate ([headerLine, r.catalog.generator, r.catalog.datasource] ++
        (declarations r).map Declaration.text ++ blocks.map Text.trimmed) ++ "\n" := by
  have hm : modelBlock r = Declaration.text ∘ modelDeclaration r := rfl
  have he : enumBlock = Declaration.text ∘ enumDeclaration := rfl
  simp only [ofReplay, declarations, hm, he, List.map_append, List.map_map, List.append_assoc]

/-- The document with other fragments named above its declarations. -/
def labelled (label : Declaration → String) (r : Replay) : String :=
  "\n\n".intercalate ([headerLine, r.catalog.generator, r.catalog.datasource] ++
    (declarations r).map fun d => block d.keyword (label d) d.name d.lines) ++ "\n"

theorem text_eq_labelled (r : Replay) : (ofReplay r []).text = labelled Declaration.file r := by
  rw [text_ofReplay, List.map_nil, List.append_nil]
  rfl

theorem names_declarations {r : Replay} (h : r.catalog.WellKeyed) :
    (declarations r).map Declaration.name = (r.catalog.visibleKeys r.hidden).map ItemKey.name := by
  have hm : (visibleModels r).map (fun m => m.key.name) =
      ((r.catalog.models.map (·.key)).filter (!r.hidden.contains ·)).map ItemKey.name := by
    rw [List.filter_map, List.map_map]
    rfl
  have he : (visibleEnums r).map EnumItem.name =
      ((r.catalog.enums.map (·.key)).filter (!r.hidden.contains ·)).map ItemKey.name := by
    rw [List.filter_map, List.map_map]
    exact List.map_congr_left fun e hmem => h.named e (List.mem_filter.1 hmem).1
  rw [Catalog.visibleKeys, Catalog.keys, List.filter_append, List.map_append, ← hm, ← he,
    declarations, List.map_append, List.map_map, List.map_map]
  rfl

/-- Without conflicts no name is declared twice. -/
theorem nodup_declarations {r : Replay} (hw : r.catalog.WellKeyed) (h : r.conflicts = []) :
    ((declarations r).map Declaration.name).Nodup := by
  rw [names_declarations hw]
  exact Catalog.conflicts_eq_nil.1 h

/-- A declaration whose name and lines are read as they were written. -/
structure Declaration.Legible (d : Declaration) : Prop where
  keyword : d.keyword = "model" ∨ d.keyword = "enum"
  name : Block.IsName d.name.toList
  unbroken : ∀ l ∈ d.lines, '\n' ∉ l.toList
  nonblank : ∀ l ∈ d.lines, Text.trim l.toList ≠ []
  enclosed : ∀ l ∈ d.lines, Block.SelfContained l

def Declaration.asBlock (d : Declaration) : Block :=
  { keyword := d.keyword, name := d.name, body := String.ofList ('\n' :: Block.indentedChars d.lines),
    text := String.ofList (d.keyword.toList ++ [' '] ++ d.name.toList ++ [' '] ++ ['\x7b'] ++
      '\n' :: Block.indentedChars d.lines ++ ['\x7d']),
    line := 0 }

theorem toList_indented (lines : List String) :
    (indented lines).toList = Block.indentedChars lines := by
  have hline : "\n".toList = ['\n'] := rfl
  have hindent : "  ".toList = [' ', ' '] := rfl
  simp only [indented, String.toList_join, List.flatMap_map, String.toList_append, hindent, hline,
    List.cons_append, List.nil_append, Block.indentedChars]

theorem toList_block (file : String) (d : Declaration) :
    (block d.keyword file d.name d.lines).toList =
      "// source: ".toList ++ file.toList ++ '\n' :: d.asBlock.text.toList := by
  have hline : "\n".toList = ['\n'] := rfl
  have hgap : " ".toList = [' '] := rfl
  have hopen : " \x7b\n".toList = [' ', '\x7b', '\n'] := rfl
  have hclose : "\x7d".toList = ['\x7d'] := rfl
  unfold block
  simp only [Declaration.asBlock, String.toList_append, String.toList_ofList, toList_indented, hline,
    hgap, hopen, hclose, List.append_assoc, List.cons_append, List.nil_append]

theorem block?_asBlock {d : Declaration} (h : d.Legible) (line : Nat) (tail : List Char) :
    Block.block? line (d.asBlock.text.toList ++ tail) = some ({ d.asBlock with line }, tail) := by
  obtain ⟨hne, hkey, hlower⟩ : d.keyword.toList ≠ [] ∧
      d.keyword.toList.all Block.isKeywordChar = true ∧
      String.ofList (d.keyword.toList.map Char.toLower) = d.keyword := by
    rcases h.keyword with hk | hk
    · rw [hk]
      decide
    · rw [hk]
      decide
  have hspace : ∀ c ∈ [' '], Block.isSpace c = true := by simp [Block.isSpace]
  have hp : Block.Pieces d.keyword.toList [' '] d.name.toList [' '] :=
    ⟨⟨hne, List.all_eq_true.1 hkey⟩, ⟨by simp, hspace⟩, h.name, hspace⟩
  have hhead := Block.header?_pieces hp ('\n' :: Block.indentedChars d.lines ++ '\x7d' :: tail)
  have hbody : Block.scanBody .code 1 ('\n' :: Block.indentedChars d.lines ++ '\x7d' :: tail) =
      some ('\n' :: Block.indentedChars d.lines, tail) := by
    have hstart : Block.scanThrough .code 1 ([] ++ ['\n']) = some (.code, 1) := by decide
    have h₁ := Block.scanBody_through hstart (Block.indentedChars d.lines ++ '\x7d' :: tail)
    rw [Block.scanBody_indented h.enclosed] at h₁
    exact h₁
  have htext : d.asBlock.text.toList ++ tail = d.keyword.toList ++ ([' '] ++ (d.name.toList ++
      ([' '] ++ '\x7b' :: ('\n' :: Block.indentedChars d.lines ++ '\x7d' :: tail)))) := by
    simp [Declaration.asBlock]
  rw [htext, Block.block?, hhead, Option.bind_some, hbody, Option.map_some, hlower]
  simp [Declaration.asBlock]

theorem reads_declaration {d : Declaration} (h : d.Legible) {file : String} (hf : '\n' ∉ file.toList) :
    Block.Reads (block d.keyword file d.name d.lines).toList [d.asBlock] := by
  rw [toList_block]
  have hsource : Block.Reads ("// source: ".toList ++ file.toList) [] := by
    refine Block.reads_line ?_ fun tail => ?_
    · rw [List.mem_append, not_or]
      exact ⟨by decide, hf⟩
    · exact Block.header?_eq_none (by decide) (by decide)
  exact hsource.append (Block.reads_block (block?_asBlock h))

theorem reads_head {keyword text : String} (h : Catalog.Head keyword text) :
    ∃ b : Block, b.keyword = keyword ∧ b.text = text ∧ Block.Reads text.toList [b] := by
  obtain ⟨b, ⟨line, s, rest, hb⟩, rfl, rfl⟩ := h
  exact ⟨b, rfl, rfl, Block.reads_block (Block.block?_again hb)⟩

theorem reads_sections {ss : List (String × List Block)}
    (h : ∀ p ∈ ss, Block.Reads p.1.toList p.2) :
    Block.Reads ("\n\n".intercalate (ss.map Prod.fst)).toList (ss.flatMap Prod.snd) := by
  induction ss with
  | nil => exact Block.reads_empty
  | cons p ss ih =>
    have hp := h p List.mem_cons_self
    have hss := ih fun q hq => h q (List.mem_cons_of_mem _ hq)
    cases ss with
    | nil => simpa using hp
    | cons q ss =>
      have hall := hp.append (Block.reads_empty.append hss)
      rw [List.map_cons, String.intercalate_cons_of_ne_nil (by simp)]
      simpa using hall

/-- The sections of a document with the blocks that they are read as. -/
def sections (label : Declaration → String) (r : Replay) (g s : Block) : List (String × List Block) :=
  (headerLine, []) :: (r.catalog.generator, [g]) :: (r.catalog.datasource, [s]) ::
    (declarations r).map fun d => (block d.keyword (label d) d.name d.lines, [d.asBlock])

theorem toList_labelled (label : Declaration → String) (r : Replay) (g s : Block) :
    (labelled label r).toList =
      ("\n\n".intercalate ((sections label r g s).map Prod.fst)).toList ++ ['\n'] := by
  rw [labelled, String.toList_append, sections, List.map_cons, List.map_cons, List.map_cons,
    List.map_map]
  rfl

theorem blocks_sections (label : Declaration → String) (r : Replay) (g s : Block) :
    (sections label r g s).flatMap Prod.snd =
      g :: s :: (declarations r).map Declaration.asBlock := by
  rw [sections, List.flatMap_cons, List.flatMap_cons, List.flatMap_cons, List.flatMap_map,
    List.map_eq_flatMap]
  rfl

theorem extract_labelled {r : Replay} (hg : Catalog.Head "generator" r.catalog.generator)
    (hd : Catalog.Head "datasource" r.catalog.datasource) (hl : ∀ d ∈ declarations r, d.Legible)
    {label : Declaration → String} (hf : ∀ d ∈ declarations r, '\n' ∉ (label d).toList) :
    ∃ g s bs, Block.extract (labelled label r) = .ok (g :: s :: bs) ∧
      g.keyword = "generator" ∧ g.text = r.catalog.generator ∧
      s.keyword = "datasource" ∧ s.text = r.catalog.datasource ∧
      bs.map Block.unplaced = (declarations r).map Declaration.asBlock := by
  obtain ⟨g, hgk, hgt, hg⟩ := reads_head hg
  obtain ⟨s, hsk, hst, hs⟩ := reads_head hd
  have hheader : Block.Reads headerLine.toList [] :=
    Block.reads_line (by decide) fun tail => Block.header?_eq_none (by decide) (by decide)
  have hall : ∀ p ∈ sections label r g s, Block.Reads p.1.toList p.2 := by
    intro p hp
    rw [sections, List.mem_cons, List.mem_cons, List.mem_cons, List.mem_map] at hp
    rcases hp with rfl | rfl | rfl | ⟨d, hd, rfl⟩
    · exact hheader
    · exact hg
    · exact hs
    · exact reads_declaration (hl d hd) (hf d hd)
  obtain ⟨bs, hbs, hmap⟩ := (reads_sections hall).extract (toList_labelled label r g s)
  rw [blocks_sections, List.map_cons, List.map_cons, List.map_map] at hmap
  obtain ⟨g', bs, rfl, hg', hmap⟩ := List.map_eq_cons_iff.1 hmap
  obtain ⟨s', bs, rfl, hs', hmap⟩ := List.map_eq_cons_iff.1 hmap
  have hkg := congrArg Block.keyword hg'
  have htg := congrArg Block.text hg'
  have hks := congrArg Block.keyword hs'
  have hts := congrArg Block.text hs'
  exact ⟨g', s', bs, hbs, hkg.trans hgk, htg.trans hgt, hks.trans hsk, hts.trans hst, hmap⟩

end FragmentMerge.Document

namespace FragmentMerge

def Block.model (file : String) (b : Block) : Model :=
  ⟨⟨file, b.name⟩, b.bodyLines.map Column.parse, b.line⟩

def Block.enumItem (file : String) (b : Block) : EnumItem := ⟨⟨file, b.name⟩, b.name, b.bodyLines, b.line⟩

namespace Catalog

theorem addBlocks_fresh {file : String} {isBase : Bool} {bs : List Block} {c : Catalog}
    (hkey : ∀ b ∈ bs, b.keyword = "model" ∨ b.keyword = "enum") (hnodup : (bs.map Block.name).Nodup)
    (hfree : ∀ b ∈ bs, ⟨file, b.name⟩ ∉ c.keys) :
    bs.foldl (addBlock (fun _ => false) file isBase) c =
      { c with
        models := c.models ++ (bs.filter (·.keyword == "model")).map (Block.model file)
        enums := c.enums ++ (bs.filter (·.keyword == "enum")).map (Block.enumItem file) } := by
  induction bs generalizing c with
  | nil => simp
  | cons b bs ih =>
    rw [List.map_cons, List.nodup_cons] at hnodup
    have hb : c.contains ⟨file, b.name⟩ = false := by
      rw [← Bool.not_eq_true, contains_iff]
      exact hfree b List.mem_cons_self
    have hne : ∀ x ∈ bs, (⟨file, x.name⟩ : ItemKey) ≠ ⟨file, b.name⟩ := by
      intro x hx he
      exact hnodup.1 (List.mem_map.2 ⟨x, hx, (ItemKey.mk.inj he).2⟩)
    have hrest := fun x hx => hkey x (List.mem_cons_of_mem _ hx)
    rw [List.foldl_cons]
    rcases hkey b List.mem_cons_self with hk | hk
    · have hadd : c.addBlock (fun _ => false) file isBase b = c.addModel ⟨file, b.name⟩ b := by
        simp [addBlock, hk, hb]
      rw [hadd, ih hrest hnodup.2]
      · simp [addModel, Block.model, hk]
      · intro x hx hmem
        rcases mem_keys_addModel.1 hmem with he | hmem
        · exact hne x hx he
        · exact hfree x (List.mem_cons_of_mem _ hx) hmem
    · have hadd : c.addBlock (fun _ => false) file isBase b = c.addEnum ⟨file, b.name⟩ b := by
        simp [addBlock, hk, hb]
      rw [hadd, ih hrest hnodup.2]
      · simp [addEnum, Block.enumItem, hk]
      · intro x hx hmem
        rcases mem_keys_addEnum.1 hmem with he | hmem
        · exact hne x hx he
        · exact hfree x (List.mem_cons_of_mem _ hx) hmem

theorem isEmpty_of_head {keyword text : String} (h : Head keyword text) : text.isEmpty = false := by
  obtain ⟨b, ⟨line, s, rest, hb⟩, -, rfl⟩ := h
  obtain ⟨hd, body, -, -, rfl⟩ := Block.block?_eq_some hb
  rw [← Bool.not_eq_true, String.isEmpty_iff, ← String.toList_eq_nil_iff, String.toList_ofList]
  simp

/-- A fragment of two heads and blocks of different names, loaded as a base. -/
theorem ofFragments_fresh {file text : String} {g s : Block} {bs : List Block}
    (h : Block.extract text = .ok (g :: s :: bs))
    (hg : g.keyword = "generator") (hgt : g.text.isEmpty = false)
    (hs : s.keyword = "datasource") (hst : s.text.isEmpty = false)
    (hkey : ∀ b ∈ bs, b.keyword = "model" ∨ b.keyword = "enum") (hnodup : (bs.map Block.name).Nodup) :
    ofFragments (fun _ => false) [⟨file, text⟩] = .ok
      { base := file, generator := g.text, datasource := s.text, files := [file],
        models := (bs.filter (·.keyword == "model")).map (Block.model file),
        enums := (bs.filter (·.keyword == "enum")).map (Block.enumItem file) } := by
  have hheads : (g :: s :: bs).foldl (addBlock (fun _ => false) file true) ((empty file).addFile file) =
      bs.foldl (addBlock (fun _ => false) file true)
        ⟨file, g.text, s.text, [file], [], []⟩ := by
    simp [addBlock, addFile, empty, hg, hs]
  rw [addBlocks_fresh hkey hnodup (by simp [keys])] at hheads
  simp only [ofFragments, Fragment.source, List.map_cons, List.map_nil, ofSources, addSource,
    Except.bind, bind, addFragment, h, hheads, List.foldlM_nil, pure, Except.pure, checkHeads, hgt, hst]
  simp

end Catalog

end FragmentMerge
