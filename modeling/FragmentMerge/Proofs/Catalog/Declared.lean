import FragmentMerge.Proofs.Data.Firsts
import FragmentMerge.Proofs.Document.Declarations
import FragmentMerge.Proofs.Schema.Column
import FragmentMerge.Proofs.Text.Find

/-! Loading as a whole. A catalog holds the items that the fragments declare, in the order of the
fragments and of their texts; of the declarations with one key, models and enums alike, the first counts.
Exclusion leaves out keys and changes nothing else, so it may as well come after loading. The heads are the
first ones of the base, whatever is excluded. -/

namespace FragmentMerge

def Block.kind? (b : Block) : Option ItemKind :=
  if b.keyword = "model" then some .model else if b.keyword = "enum" then some .enum else none

def Block.headText (keyword : String) (bs : List Block) : String :=
  ((bs.find? (·.keyword == keyword)).map Block.text).getD ""

/-- A block that declares an item of its fragment. -/
structure Declared where
  file : String
  kind : ItemKind
  block : Block
  deriving DecidableEq, Repr

namespace Declared

def key (d : Declared) : ItemKey := ⟨d.file, d.block.name⟩

def of? (file : String) (b : Block) : Option Declared := b.kind?.map fun kind => ⟨file, kind, b⟩

end Declared

namespace Fragment

def blocks (f : Fragment) : List Block := (Block.extract f.text).toOption.getD []

def declared (f : Fragment) : List Declared := f.blocks.filterMap (Declared.of? f.id)

end Fragment

namespace Catalog

variable {excluded : ItemKey → Bool} {base g s : String} {files : List String} {ds : List Declared}

/-- The catalog of a base with its heads, after fragments that declare all of `ds`. -/
def assembled (excluded : ItemKey → Bool) (base generator datasource : String) (files : List String)
    (ds : List Declared) : Catalog :=
  let kept := (firstsBy Declared.key ds).filter fun d => !excluded d.key
  { base, generator, datasource, files := firstsBy id files,
    models := (kept.filter (·.kind = .model)).map fun d => d.block.model d.file,
    enums := (kept.filter (·.kind = .enum)).map fun d => d.block.enumItem d.file }

/-- The catalog of what fragments declare first. -/
def declaredBy (excluded : ItemKey → Bool) (base : Fragment) (rest : List Fragment) : Catalog :=
  assembled excluded base.id (Block.headText "generator" base.blocks)
    (Block.headText "datasource" base.blocks) ((base :: rest).map Fragment.id)
    ((base :: rest).flatMap Fragment.declared)

/-- Leaves out the items with excluded keys. -/
def without (excluded : ItemKey → Bool) (c : Catalog) : Catalog :=
  { c with
    models := c.models.filter fun m => !excluded m.key
    enums := c.enums.filter fun e => !excluded e.key }

theorem assembled_without (excluded : ItemKey → Bool) (base g s : String) (files : List String)
    (ds : List Declared) :
    (assembled (fun _ => false) base g s files ds).without excluded =
      assembled excluded base g s files ds := by
  simp [without, assembled, List.filter_map, List.filter_filter, Function.comp_def, Bool.and_comm,
    Block.model, Block.enumItem, Declared.key]

theorem contains_assembled {k : ItemKey} : (assembled excluded base g s files ds).contains k = true ↔
    excluded k = false ∧ k ∈ ds.map Declared.key := by
  have hkept : k ∈ (assembled excluded base g s files ds).keys ↔
      ∃ d ∈ firstsBy Declared.key ds, excluded d.key = false ∧ d.key = k := by
    simp only [keys, assembled, List.map_map, List.mem_append, List.mem_map, List.mem_filter]
    constructor
    · rintro (⟨d, ⟨⟨hd, hk⟩, -⟩, rfl⟩ | ⟨d, ⟨⟨hd, hk⟩, -⟩, rfl⟩)
      · exact ⟨d, hd, by simpa using hk, rfl⟩
      · exact ⟨d, hd, by simpa using hk, rfl⟩
    · rintro ⟨d, hd, hk, rfl⟩
      cases hkind : d.kind with
      | model => exact .inl ⟨d, ⟨⟨hd, by simpa using hk⟩, by simpa using hkind⟩, rfl⟩
      | enum => exact .inr ⟨d, ⟨⟨hd, by simpa using hk⟩, by simpa using hkind⟩, rfl⟩
  rw [contains_iff, hkept, ← mem_map_firstsBy, List.mem_map]
  constructor
  · rintro ⟨d, hd, hk, rfl⟩
    exact ⟨hk, d, hd, rfl⟩
  · rintro ⟨hk, d, hd, rfl⟩
    exact ⟨d, hd, hk, rfl⟩

theorem assembled_addFile (file : String) :
    (assembled excluded base g s files ds).addFile file =
      assembled excluded base g s (files ++ [file]) ds := by
  have hfirst : file ∈ (firstsBy id files).map id ↔ id file ∈ files.map id := mem_map_firstsBy
  have hold : (assembled excluded base g s files ds).files.contains file = true ↔
      id file ∈ files.map id := by
    rw [List.contains_iff_mem, ← hfirst, List.map_id, assembled]
  rw [addFile]
  split
  · next h => simp only [assembled, firstsBy_concat, if_pos (hold.1 h)]
  · next h => simp only [assembled, firstsBy_concat, if_neg (mt hold.2 h)]

/-- A further declaration counts unless it is excluded or its key is taken. -/
theorem assembled_concat (d : Declared) : assembled excluded base g s files (ds ++ [d]) =
    if excluded d.key || (assembled excluded base g s files ds).contains d.key then
      assembled excluded base g s files ds
    else match d.kind with
      | .model => (assembled excluded base g s files ds).addModel d.key d.block
      | .enum => (assembled excluded base g s files ds).addEnum d.key d.block := by
  by_cases hold : d.key ∈ ds.map Declared.key
  · have htaken : (excluded d.key || (assembled excluded base g s files ds).contains d.key) = true := by
      cases hx : excluded d.key with
      | true => rfl
      | false => exact contains_assembled.2 ⟨hx, hold⟩
    rw [if_pos htaken]
    simp only [assembled, firstsBy_concat, if_pos hold]
  · have hfree : (assembled excluded base g s files ds).contains d.key = false := by
      rw [← Bool.not_eq_true, contains_assembled]
      exact fun h => hold h.2
    rw [hfree, Bool.or_false]
    simp only [assembled, firstsBy_concat, if_neg hold, List.filter_append, List.map_append,
      List.filter_singleton]
    cases hx : excluded d.key with
    | true => simp
    | false =>
      cases hkind : d.kind <;>
        simp [hkind, addModel, addEnum, Block.model, Block.enumItem, Declared.key]

def nextHead (keyword : String) (isBase : Bool) (head : String) (b : Block) : String :=
  if b.keyword = keyword ∧ isBase = true ∧ head.isEmpty = true then b.text else head

theorem assembled_addBlock (file : String) (isBase : Bool) (b : Block) :
    (assembled excluded base g s files ds).addBlock excluded file isBase b =
      assembled excluded base (nextHead "generator" isBase g b) (nextHead "datasource" isBase s b) files
        (ds ++ (Declared.of? file b).toList) := by
  by_cases hg : b.keyword = "generator"
  · have hd : Declared.of? file b = none := by simp [Declared.of?, Block.kind?, hg]
    simp only [addBlock, nextHead, hg, hd]
    cases isBase <;> cases hempty : g.isEmpty <;> simp [assembled, hempty]
  by_cases hs : b.keyword = "datasource"
  · have hd : Declared.of? file b = none := by simp [Declared.of?, Block.kind?, hs]
    simp only [addBlock, nextHead, hs, hd]
    cases isBase <;> cases hempty : s.isEmpty <;> simp [assembled, hempty]
  by_cases hm : b.keyword = "model"
  · have hd : Declared.of? file b = some ⟨file, .model, b⟩ := by simp [Declared.of?, Block.kind?, hm]
    rw [hd, Option.toList_some, assembled_concat]
    simp [addBlock, nextHead, hm, Declared.key]
  by_cases he : b.keyword = "enum"
  · have hd : Declared.of? file b = some ⟨file, .enum, b⟩ := by simp [Declared.of?, Block.kind?, he]
    rw [hd, Option.toList_some, assembled_concat]
    simp [addBlock, nextHead, he, Declared.key]
  · have hd : Declared.of? file b = none := by simp [Declared.of?, Block.kind?, hm, he]
    simp [addBlock, nextHead, hg, hs, hm, he, hd]

theorem assembled_addBlocks (file : String) (isBase : Bool) (bs : List Block) :
    bs.foldl (addBlock excluded file isBase) (assembled excluded base g s files ds) =
      assembled excluded base (bs.foldl (nextHead "generator" isBase) g)
        (bs.foldl (nextHead "datasource" isBase) s) files (ds ++ bs.filterMap (Declared.of? file)) := by
  induction bs generalizing g s ds with
  | nil => simp
  | cons b bs ih =>
    rw [List.foldl_cons, assembled_addBlock, ih, List.append_assoc, List.foldl_cons, List.foldl_cons]
    cases h : Declared.of? file b <;> simp [h]

theorem foldl_nextHead_rest (keyword head : String) (bs : List Block) :
    bs.foldl (nextHead keyword false) head = head := by
  induction bs with
  | nil => rfl
  | cons b bs ih => simpa [nextHead] using ih

theorem foldl_nextHead_base {keyword : String} {bs : List Block} (h : ∀ b ∈ bs, b.Found) (head : String) :
    bs.foldl (nextHead keyword true) head =
      if head.isEmpty then Block.headText keyword bs else head := by
  induction bs generalizing head with
  | nil =>
    rw [List.foldl_nil]
    split
    · next hempty => exact String.isEmpty_iff.1 hempty
    · rfl
  | cons b bs ih =>
    have hb : b.text.isEmpty = false := isEmpty_of_head ⟨b, h b List.mem_cons_self, rfl, rfl⟩
    rw [List.foldl_cons, ih fun x hx => h x (List.mem_cons_of_mem b hx)]
    by_cases hk : b.keyword = keyword
    · cases hempty : head.isEmpty <;> simp [nextHead, Block.headText, hk, hempty, hb]
    · simp [nextHead, Block.headText, hk]

theorem assembled_addFragment {f : Fragment} (h : ∃ bs, Block.extract f.text = .ok bs) (isBase : Bool) :
    (assembled excluded base g s files ds).addFragment excluded isBase f =
      .ok (assembled excluded base (f.blocks.foldl (nextHead "generator" isBase) g)
        (f.blocks.foldl (nextHead "datasource" isBase) s) (files ++ [f.id]) (ds ++ f.declared)) := by
  obtain ⟨bs, hbs⟩ := h
  have hblocks : f.blocks = bs := by rw [Fragment.blocks, hbs]; rfl
  simp only [addFragment, hbs, assembled_addFile, assembled_addBlocks, Fragment.declared, hblocks]

theorem addSource_source (c : Catalog) (isBase : Bool) (f : Fragment) :
    c.addSource excluded isBase f.source = c.addFragment excluded isBase f := rfl

theorem assembled_addFragments {fs : List Fragment}
    (h : ∀ f ∈ fs, ∃ bs, Block.extract f.text = .ok bs) :
    (fs.map Fragment.source).foldlM (addSource excluded false) (assembled excluded base g s files ds) =
      .ok (assembled excluded base g s (files ++ fs.map Fragment.id)
        (ds ++ fs.flatMap Fragment.declared)) := by
  induction fs generalizing files ds with
  | nil => simp [pure, Except.pure]
  | cons f fs ih =>
    have hf : (assembled excluded base g s files ds).addFragment excluded false f =
        .ok (assembled excluded base g s (files ++ [f.id]) (ds ++ f.declared)) := by
      rw [assembled_addFragment (h f List.mem_cons_self), foldl_nextHead_rest, foldl_nextHead_rest]
    rw [List.map_cons, List.foldlM_cons, addSource_source, hf]
    exact (ih fun x hx => h x (List.mem_cons_of_mem f hx)).trans (by simp)

theorem headText_nonempty {keyword : String} {bs : List Block} (h : ∀ b ∈ bs, b.Found)
    (hex : ∃ b ∈ bs, b.keyword = keyword) : (Block.headText keyword bs).isEmpty = false := by
  obtain ⟨b, hb, hk⟩ := hex
  cases hfind : bs.find? (·.keyword == keyword) with
  | none => exact absurd (List.find?_eq_none.1 hfind b hb) (by simp [hk])
  | some x =>
    rw [Block.headText, hfind]
    exact isEmpty_of_head ⟨x, h x (List.mem_of_find?_eq_some hfind), rfl, rfl⟩

/-- Loading gives what the fragments declare first. -/
theorem ofFragments_eq {base : Fragment} {rest : List Fragment}
    (hread : ∀ f ∈ base :: rest, ∃ bs, Block.extract f.text = .ok bs)
    (hg : ∃ b ∈ base.blocks, b.keyword = "generator")
    (hs : ∃ b ∈ base.blocks, b.keyword = "datasource") (excluded : ItemKey → Bool) :
    ofFragments excluded (base :: rest) = .ok (declaredBy excluded base rest) := by
  obtain ⟨hbase, hrest⟩ := List.forall_mem_cons.1 hread
  have hfound : ∀ b ∈ base.blocks, b.Found := by
    obtain ⟨bs, hbs⟩ := hbase
    rw [Fragment.blocks, hbs]
    exact Block.found_of_extract hbs
  have hempty : empty base.id = assembled excluded base.id "" "" [] [] := rfl
  have hfirst : (empty base.id).addSource excluded true base.source =
      .ok (assembled excluded base.id (Block.headText "generator" base.blocks)
        (Block.headText "datasource" base.blocks) [base.id] base.declared) := by
    have hblank : "".isEmpty = true := String.isEmpty_iff.2 rfl
    rw [hempty, addSource_source, assembled_addFragment hbase, foldl_nextHead_base hfound,
      foldl_nextHead_base hfound, if_pos hblank, if_pos hblank, List.nil_append, List.nil_append]
  have hall : (rest.map Fragment.source).foldlM (addSource excluded false)
      (assembled excluded base.id (Block.headText "generator" base.blocks)
        (Block.headText "datasource" base.blocks) [base.id] base.declared) =
      .ok (declaredBy excluded base rest) := assembled_addFragments hrest
  have hheads : (declaredBy excluded base rest).checkHeads = .ok (declaredBy excluded base rest) := by
    rw [checkHeads]
    simp only [declaredBy, assembled, headText_nonempty hfound hg, headText_nonempty hfound hs]
    rfl
  rw [ofFragments, List.map_cons, ofSources]
  calc
    _ = (((empty base.id).addSource excluded true base.source).bind fun c =>
          ((rest.map Fragment.source).foldlM (addSource excluded false) c).bind checkHeads) := rfl
    _ = .ok (declaredBy excluded base rest) := by
      rw [hfirst, Except.bind, hall, Except.bind, hheads]

end Catalog

namespace Config

/-- The texts that a pattern stands for: itself, and those with some text in place of its star. -/
def Covers (pattern text : List Char) : Prop :=
  pattern = text ∨ ∃ before mid after, pattern = before ++ '*' :: after ∧ text = before ++ mid ++ after

theorem cutFirst?_star {pattern before after : List Char} (h : pattern.count '*' ≤ 1)
    (hp : pattern = before ++ '*' :: after) : Text.cutFirst? '*' pattern = some (before, after) := by
  refine Text.cutFirst?_eq_some_iff.2 ⟨hp, ?_⟩
  rw [hp, List.count_append, List.count_cons_self] at h
  exact List.count_eq_zero.1 (by omega)

theorem covers_star_iff {before after text : List Char} (h : (before ++ '*' :: after).count '*' ≤ 1) :
    Covers (before ++ '*' :: after) text ↔ ∃ mid, text = before ++ (mid ++ after) := by
  constructor
  · rintro (rfl | ⟨b, mid, a, hp, rfl⟩)
    · exact ⟨['*'], rfl⟩
    · obtain ⟨rfl, rfl⟩ : before = b ∧ after = a := by
        simpa using (cutFirst?_star h rfl).symm.trans (cutFirst?_star h hp)
      exact ⟨mid, List.append_assoc ..⟩
  · rintro ⟨mid, rfl⟩
    exact .inr ⟨before, mid, after, rfl, (List.append_assoc ..).symm⟩

theorem globMatches_iff {pattern : List Char} (h : pattern.count '*' ≤ 1) (text : List Char) :
    globMatches pattern text = true ↔ Covers pattern text := by
  rw [globMatches]
  split
  · next hlone =>
    have hp : pattern = [] ++ '*' :: [] := by
      rcases (by simpa using hlone : pattern = ['*'] ∨ pattern = ['*', '*']) with rfl | rfl
      · rfl
      · simp at h
    exact iff_of_true rfl (.inr ⟨[], text, [], hp, by simp⟩)
  · split
    · next hcut =>
      rw [beq_iff_eq]
      refine ⟨.inl, fun hc => hc.elim id ?_⟩
      rintro ⟨before, mid, after, hp, -⟩
      rw [cutFirst?_star h hp] at hcut
      cases hcut
    · next before after hcut =>
      obtain ⟨rfl, -⟩ := Text.cutFirst?_eq_some_iff.1 hcut
      rw [covers_star_iff h]
      cases hafter : Text.after? before text with
      | none =>
        refine iff_of_false Bool.false_ne_true ?_
        rintro ⟨mid, rfl⟩
        rw [Text.after?_self] at hafter
        cases hafter
      | some rest =>
        obtain rfl := Text.after?_eq_some_iff.1 hafter
        simp only [Text.endsWith, Option.isSome_iff_exists, Text.before?_eq_some_iff,
          List.append_cancel_left_eq]

theorem isExcluded_iff {c : Config} (h : ∀ p ∈ c.exclude, p.toList.count '*' ≤ 1) (k : ItemKey) :
    c.isExcluded k = true ↔ ∃ p ∈ c.exclude, Covers p.toList k.text.toList := by
  rw [isExcluded, List.any_eq_true]
  exact exists_congr fun p => and_congr_right fun hp => globMatches_iff (h p hp) _

end Config

namespace Catalog

/-- Of the declarations with one key the first counts, and an exclusion is a filter: the same comes of
loading everything and leaving out the keys that a pattern covers. -/
theorem ofFragments_declared (c : Config) {base : Fragment} {rest : List Fragment}
    (hread : ∀ f ∈ base :: rest, ∃ bs, Block.extract f.text = .ok bs)
    (hg : ∃ b ∈ base.blocks, b.keyword = "generator")
    (hs : ∃ b ∈ base.blocks, b.keyword = "datasource")
    (hstar : ∀ p ∈ c.exclude, p.toList.count '*' ≤ 1) :
    ofFragments c.isExcluded (base :: rest) = .ok (declaredBy c.isExcluded base rest) ∧
      (ofFragments (fun _ => false) (base :: rest)).map (without c.isExcluded) =
        .ok (declaredBy c.isExcluded base rest) ∧
      ∀ k, c.isExcluded k = true ↔ ∃ p ∈ c.exclude, Config.Covers p.toList k.text.toList := by
  refine ⟨ofFragments_eq hread hg hs _, ?_, Config.isExcluded_iff hstar⟩
  rw [ofFragments_eq hread hg hs, Except.map, declaredBy, assembled_without, declaredBy]

def partedBase : Fragment :=
  ⟨"base", "generator g \x7b\n\x7d\ndatasource d \x7b\n\x7d\nmodel P \x7b\n  a Int\n\x7d"⟩

/-- A fragment in two parts. The second one gives two keys again, one of them for another kind of item. -/
def partedRest : List Fragment :=
  [⟨"f", "enum S \x7b\n  A\n\x7d\nmodel OldP \x7b\n  a Int\n\x7d\nmodel P \x7b\n  a Int\n\x7d"⟩,
    ⟨"f", "model S \x7b\n  a Int\n\x7d\nmodel Q \x7b\n  b Int\n\x7d\nmodel P \x7b\n  b Int\n\x7d"⟩]

def excludingOld : Config := { Config.initial with exclude := ["base:P", "f:Old*"] }

theorem ofFragments_declared_parted :
    ofFragments excludingOld.isExcluded (partedBase :: partedRest) = .ok
        { base := "base", generator := "generator g \x7b\n\x7d", datasource := "datasource d \x7b\n\x7d",
          files := ["base", "f"],
          models :=
            [⟨⟨"f", "P"⟩, [⟨"a", "Int", []⟩], 7⟩, ⟨⟨"f", "Q"⟩, [⟨"b", "Int", []⟩], 4⟩],
          enums := [⟨⟨"f", "S"⟩, "S", ["A"], 1⟩] } ∧
      (∃ p ∈ excludingOld.exclude, Config.Covers p.toList "f:OldP".toList) := by
  have hread : ∀ f ∈ partedBase :: partedRest, ∃ bs, Block.extract f.text = .ok bs := by
    simp only [partedRest, List.forall_mem_cons]
    exact ⟨⟨_, rfl⟩, ⟨_, rfl⟩, ⟨_, rfl⟩, by simp⟩
  have h := ofFragments_declared excludingOld hread (by decide) (by decide) (by decide)
  exact ⟨h.1.trans rfl, (h.2.2 ⟨"f", "OldP"⟩).1 (by decide)⟩

end Catalog

end FragmentMerge
