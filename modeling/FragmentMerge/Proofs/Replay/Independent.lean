import FragmentMerge.Proofs.Data.Within
import FragmentMerge.Proofs.Replay.Repeated
import FragmentMerge.Session.Basic

/-! Actions in different fragments. A skip, or a renaming that only its own fragment follows, looks at the
items of one fragment and changes no others; remaps, replacements and links follow both renamings even
where one entry names both targets. So two such actions can be carried out in either order, whatever
comes before and after them. -/

namespace FragmentMerge

/-- A skip, or a renaming that is followed in the fragment of its target only. -/
def Action.isLocal : Action → Bool
  | skip _ => true
  | rename _ _ => true
  | renameAll _ _ => false
  | remap _ _ _ => false

namespace Catalog

variable {α : Type} {p : α → Bool}

theorem takeOut?_eq (l : List α) :
    (takeOut? p l).map Prod.snd = if l.any p then some (replaceFirst p (fun _ => []) l) else none := by
  induction l with
  | nil => rfl
  | cons a l ih =>
    rw [takeOut?, replaceFirst, List.any_cons]
    cases hp : p a with
    | true => simp
    | false =>
      simp only [Bool.false_eq_true, if_false, Bool.false_or, Option.map_map]
      rw [show (Prod.snd ∘ fun x : α × List α => (x.1, a :: x.2)) = (a :: ·) ∘ Prod.snd from rfl,
        ← Option.map_map, ih]
      split <;> rfl

theorem changeFirst?_eq (f : α → α) (l : List α) :
    changeFirst? p f l = if l.any p then some (replaceFirst p (fun a => [f a]) l) else none := by
  induction l with
  | nil => rfl
  | cons a l ih =>
    rw [changeFirst?, replaceFirst, List.any_cons, ih]
    cases hp : p a with
    | true => simp
    | false =>
      simp only [Bool.false_eq_true, if_false, Bool.false_or]
      split <;> rfl

def finds (c : Catalog) (e : ItemKey × Action) : Bool :=
  c.items.contains (e.2.kind, e.1) && e.2.newName?.all fun name => !c.isTaken e.1 name

/-- What a local action makes of the models when it finds its target. -/
def editModels (k : ItemKey) : Action → List Model → List Model
  | .skip .model => replaceFirst (·.key == k) fun _ => []
  | .rename name .model =>
    List.map (fun m => if m.key.file == k.file then retypeModel k.name name m else m) ∘
      replaceFirst (·.key == k) fun m => [{ m with key := k.renamed name }]
  | .rename name .enum =>
    List.map fun m => if m.key.file == k.file then retypeModel k.name name m else m
  | _ => id

def editEnums (k : ItemKey) : Action → List EnumItem → List EnumItem
  | .skip .enum => replaceFirst (·.key == k) fun _ => []
  | .rename name .enum => replaceFirst (·.key == k) fun e => [{ e with key := k.renamed name, name }]
  | _ => id

def edit (c : Catalog) (e : ItemKey × Action) : Catalog :=
  { c with models := editModels e.1 e.2 c.models, enums := editEnums e.1 e.2 c.enums }

theorem within_retype (k : ItemKey) (name : String) : Within Model.key k.file
    (List.map fun m => if m.key.file == k.file then retypeModel k.name name m else m) := by
  refine .each (fun m => ?_) fun m hm => if_neg (by simpa using hm)
  split <;> rfl

theorem within_editModels (k : ItemKey) (a : Action) : Within Model.key k.file (editModels k a) := by
  have hkey : ∀ m : Model, (m.key == k) = true → m.key.file = k.file := fun m h => by
    rw [eq_of_beq h]
  unfold editModels
  split
  · exact .first hkey fun _ _ _ h => absurd h List.not_mem_nil
  · refine .followed (.first hkey fun m _ d hd => ?_) (within_retype k _)
    rw [List.mem_singleton.1 hd]
    rfl
  · exact within_retype k _
  · exact .nothing

theorem within_editEnums (k : ItemKey) (a : Action) : Within EnumItem.key k.file (editEnums k a) := by
  have hkey : ∀ e : EnumItem, (e.key == k) = true → e.key.file = k.file := fun e h => by
    rw [eq_of_beq h]
  unfold editEnums
  split
  · exact .first hkey fun _ _ _ h => absurd h List.not_mem_nil
  · refine .first hkey fun e _ d hd => ?_
    rw [List.mem_singleton.1 hd]
    rfl
  · exact .nothing

variable {c : Catalog} {x y : ItemKey × Action}

theorem edit_comm (hfile : x.1.file ≠ y.1.file) : (c.edit x).edit y = (c.edit y).edit x := by
  have hmodels := (within_editModels x.1 x.2).comm (within_editModels y.1 y.2) hfile c.models
  have henums := (within_editEnums x.1 x.2).comm (within_editEnums y.1 y.2) hfile c.enums
  simp only [edit, hmodels, henums]

theorem mem_items_edit {i : ItemKind × ItemKey} (hi : i.2.file ≠ y.1.file) :
    i ∈ (c.edit y).items ↔ i ∈ c.items := by
  obtain ⟨kind, k⟩ := i
  cases kind with
  | model =>
    rw [mem_items_model, mem_items_model]
    refine exists_congr fun m => and_congr_left fun hm => ?_
    exact (within_editModels y.1 y.2).mem_iff (by rw [hm]; exact hi)
  | enum =>
    rw [mem_items_enum, mem_items_enum]
    refine exists_congr fun e => and_congr_left fun he => ?_
    exact (within_editEnums y.1 y.2).mem_iff (by rw [he]; exact hi)

theorem mem_keys_edit {k : ItemKey} (hk : k.file ≠ y.1.file) : k ∈ (c.edit y).keys ↔ k ∈ c.keys := by
  rw [keys_eq_map_items, keys_eq_map_items, List.mem_map, List.mem_map]
  refine exists_congr fun i => and_congr_left fun hi => mem_items_edit ?_
  rw [hi]
  exact hk

/-- What an action finds does not depend on other fragments. -/
theorem finds_edit (hfile : x.1.file ≠ y.1.file) : (c.edit y).finds x = c.finds x := by
  have htaken : ∀ name, (c.edit y).isTaken x.1 name = c.isTaken x.1 name := by
    intro name
    have hkey : (x.1.renamed name).file ≠ y.1.file := hfile
    rw [← Bool.not_inj_iff, Bool.eq_iff_iff, Bool.not_eq_true', Bool.not_eq_true', isTaken_eq_false,
      isTaken_eq_false, mem_keys_edit hkey]
  have hitem : (c.edit y).items.contains (x.2.kind, x.1) = c.items.contains (x.2.kind, x.1) := by
    rw [Bool.eq_iff_iff, List.contains_iff_mem, List.contains_iff_mem, mem_items_edit hfile]
  simp only [finds, hitem, htaken]

theorem any_model_key (c : Catalog) (k : ItemKey) :
    (c.models.any fun m => m.key == k) = c.items.contains (.model, k) := by
  rw [Bool.eq_iff_iff, List.any_eq_true, List.contains_iff_mem, mem_items_model]
  simp only [beq_iff_eq]

theorem any_enum_key (c : Catalog) (k : ItemKey) :
    (c.enums.any fun e => e.key == k) = c.items.contains (.enum, k) := by
  rw [Bool.eq_iff_iff, List.any_eq_true, List.contains_iff_mem, mem_items_enum]
  simp only [beq_iff_eq]

theorem remove?_eq (c : Catalog) (k : ItemKey) (kind : ItemKind) :
    c.remove? k kind = if c.finds (k, .skip kind) then some (c.edit (k, .skip kind)) else none := by
  have hfinds : c.finds (k, .skip kind) = c.items.contains (kind, k) := Bool.and_true _
  rw [hfinds]
  cases kind with
  | model =>
    have hremove : c.remove? k .model =
        ((takeOut? (·.key == k) c.models).map Prod.snd).map fun ms => { c with models := ms } := by
      rw [remove?, removeModel?]
      cases takeOut? (·.key == k) c.models <;> rfl
    rw [hremove, takeOut?_eq, any_model_key]
    split <;> rfl
  | enum =>
    have hremove : c.remove? k .enum =
        ((takeOut? (·.key == k) c.enums).map Prod.snd).map fun es => { c with enums := es } := by
      rw [remove?, removeEnum?]
      cases takeOut? (·.key == k) c.enums <;> rfl
    rw [hremove, takeOut?_eq, any_enum_key]
    split <;> rfl

theorem inScope_own (c : Catalog) (k : ItemKey) (file : String) :
    c.inScope k false file = (file == k.file) := by
  simp [inScope]

theorem rename?_eq (c : Catalog) (k : ItemKey) (name : String) (kind : ItemKind) :
    (c.rename? k kind name).map (fun d => d.retypeReferences k name false) =
      if c.finds (k, .rename name kind) then some (c.edit (k, .rename name kind)) else none := by
  have hfinds : c.finds (k, .rename name kind) =
      (c.items.contains (kind, k) && !c.isTaken k name) := rfl
  rw [hfinds]
  cases ht : c.isTaken k name with
  | true => simp [rename?, ht]
  | false =>
    cases kind with
    | model =>
      simp only [rename?, ht, changeModel?, changeFirst?_eq, any_model_key, Bool.not_false, Bool.and_true,
        Bool.false_eq_true, if_false]
      split
      · simp [retypeReferences, inScope_own, edit, editModels, editEnums]
      · rfl
    | enum =>
      simp only [rename?, ht, changeEnum?, changeFirst?_eq, any_enum_key, Bool.not_false, Bool.and_true,
        Bool.false_eq_true, if_false]
      split
      · simp [retypeReferences, inScope_own, edit, editModels, editEnums]
      · rfl

end Catalog

namespace Replay

theorem Agree.symm {r r' : Replay} (h : Agree r r') : Agree r' r :=
  ⟨h.catalog.symm, h.remaps.symm, h.shadows.symm, h.extended.symm⟩

theorem Agree.trans {r r' r'' : Replay} (h : Agree r r') (h' : Agree r' r'') : Agree r r'' :=
  ⟨h'.catalog.trans h.catalog, h'.remaps.trans h.remaps, h'.shadows.trans h.shadows,
    h'.extended.trans h.extended⟩

def followed (r : Replay) (e : ItemKey × Action) : Replay :=
  match e.2.newName? with
  | some name => r.followAll e.1 (e.1.renamed name)
  | none => r

def edited (r : Replay) (e : ItemKey × Action) : Replay :=
  { r.followed e with catalog := r.catalog.edit e }

def carriedOut (r : Replay) (e : ItemKey × Action) : Replay :=
  if r.catalog.finds e then r.edited e else r

theorem agree_carriedOut (r : Replay) {e : ItemKey × Action} (he : e.2.isLocal = true) :
    Agree (r.carriedOut e) (r.act e) := by
  obtain ⟨k, a⟩ := e
  cases a with
  | skip kind =>
    have hremove := Catalog.remove?_eq r.catalog k kind
    simp only [act, skip, hremove, carriedOut]
    split
    · exact agree_note _ _
    · exact agree_note _ _
  | rename name kind =>
    have hrename := Catalog.rename?_eq r.catalog k name kind
    have hact : r.act (k, .rename name kind) = r.rename k (.rename name kind) name false := rfl
    rw [hact, carriedOut]
    cases hc : r.catalog.rename? k kind name with
    | none =>
      obtain ⟨m, hm⟩ := rename_of_none (a := .rename name kind) hc false
      rw [hc, Option.map_none] at hrename
      rw [hm]
      split
      · next hfinds => simp [hfinds] at hrename
      · exact agree_note r m
    | some c =>
      obtain ⟨m, hm⟩ := rename_of_some (a := .rename name kind) hc false
      rw [hc, Option.map_some] at hrename
      rw [hm]
      split
      · next hfinds =>
        rw [if_pos hfinds, Option.some.injEq] at hrename
        rw [edited, ← hrename]
        exact agree_note (r.renamed c k name false) m
      · next hfinds => simp [hfinds] at hrename
  | renameAll name kind => cases he
  | remap source target kind => cases he

theorem follow_comm {k k' : ItemKey} (hfile : k.file ≠ k'.file) (name name' : String) (x : ItemKey) :
    follow k' (k'.renamed name') (follow k (k.renamed name) x) =
      follow k (k.renamed name) (follow k' (k'.renamed name') x) := by
  have hne : k ≠ k' := fun h => hfile (h ▸ rfl)
  have hk : k.renamed name ≠ k' := fun h => hfile (h ▸ rfl)
  have hk' : k'.renamed name' ≠ k := fun h => hfile (h ▸ rfl)
  by_cases hx : x = k
  · simp [follow, hx, hne, hk]
  · by_cases hx' : x = k'
    · simp [follow, hx', hne.symm, hk']
    · simp [follow, hx, hx']

theorem followAll_comm (r : Replay) {k k' : ItemKey} (hfile : k.file ≠ k'.file) (name name' : String) :
    (r.followAll k (k.renamed name)).followAll k' (k'.renamed name') =
      (r.followAll k' (k'.renamed name')).followAll k (k.renamed name) := by
  have hcomm := follow_comm hfile name name'
  have hkeep : ∀ {k : ItemKey} {name : String} (l : Links) (x : ItemKey),
      (l.map fun e => (e.1, follow k (k.renamed name) e.2)).filter (fun e => e.1 != x) =
        (l.filter fun e => e.1 != x).map fun e => (e.1, follow k (k.renamed name) e.2) :=
    fun l x => List.filter_map
  simp only [followAll, Replay.mk.injEq, List.map_map, true_and, and_true]
  refine ⟨?_, ?_, ?_⟩
  · refine List.map_congr_left fun e _ => ?_
    simp only [Function.comp, followColumn, hcomm]
  · simp only [hkeep, List.map_map, List.filter_filter]
    rw [List.filter_congr fun e _ => Bool.and_comm _ _]
    refine List.map_congr_left fun e _ => ?_
    simp only [Function.comp, hcomm]
  · refine List.map_congr_left fun e _ => ?_
    simp only [Function.comp, hcomm]

variable {r : Replay} {x y : ItemKey × Action}

theorem followed_edited (r : Replay) (x y : ItemKey × Action) :
    (r.edited x).followed y = { (r.followed x).followed y with catalog := r.catalog.edit x } := by
  unfold followed
  split <;> rfl

theorem followed_comm (hfile : x.1.file ≠ y.1.file) : (r.followed x).followed y = (r.followed y).followed x := by
  unfold followed
  cases x.2.newName? with
  | none => rfl
  | some name =>
    cases y.2.newName? with
    | none => rfl
    | some name' => exact followAll_comm r hfile name name'

theorem edited_comm (hfile : x.1.file ≠ y.1.file) : (r.edited x).edited y = (r.edited y).edited x := by
  have hcatalog : (r.edited x).catalog.edit y = (r.edited y).catalog.edit x := Catalog.edit_comm hfile
  rw [edited, hcatalog, followed_edited, followed_comm hfile]
  conv => rhs; rw [edited, followed_edited]

theorem finds_edited (hfile : x.1.file ≠ y.1.file) : (r.edited y).catalog.finds x = r.catalog.finds x :=
  Catalog.finds_edit hfile

theorem carriedOut_comm (hfile : x.1.file ≠ y.1.file) :
    (r.carriedOut x).carriedOut y = (r.carriedOut y).carriedOut x := by
  by_cases hx : r.catalog.finds x = true
  · by_cases hy : r.catalog.finds y = true
    · have hx' := (finds_edited hfile).trans hx
      have hy' := (finds_edited hfile.symm).trans hy
      simp only [carriedOut, if_pos hx, if_pos hy, if_pos hx', if_pos hy', edited_comm hfile]
    · have hy' := fun h => hy ((finds_edited hfile.symm).symm.trans h)
      simp only [carriedOut, if_pos hx, if_neg hy, if_neg hy']
  · by_cases hy : r.catalog.finds y = true
    · have hx' := fun h => hx ((finds_edited hfile).symm.trans h)
      simp only [carriedOut, if_neg hx, if_pos hy, if_neg hx']
    · simp only [carriedOut, if_neg hx, if_neg hy]

/-- Two local actions in different fragments can be carried out in either order. -/
theorem act_comm (hx : x.2.isLocal = true) (hy : y.2.isLocal = true) (hfile : x.1.file ≠ y.1.file) :
    Agree ((r.act x).act y) ((r.act y).act x) := by
  have hxy : Agree ((r.carriedOut x).carriedOut y) ((r.act x).act y) :=
    (agree_carriedOut _ hy).trans ((agree_carriedOut r hx).act y)
  have hyx : Agree ((r.carriedOut y).carriedOut x) ((r.act y).act x) :=
    (agree_carriedOut _ hx).trans ((agree_carriedOut r hy).act x)
  rw [carriedOut_comm hfile] at hxy
  exact hxy.symm.trans hyx

theorem run_comm (hx : x.2.isLocal = true) (hy : y.2.isLocal = true) (hfile : x.1.file ≠ y.1.file)
    (c : Catalog) (links : Links) (before after : List (ItemKey × Action))
    (attributes : List (String × String)) :
    Agree (run c links (before ++ x :: y :: after) attributes)
      (run c links (before ++ y :: x :: after) attributes) := by
  have hstep := act_comm (r := before.foldl act (start c links)) hx hy hfile
  have h := (hstep.foldl after).addAttributes attributes
  simpa only [run, List.foldl_append, List.foldl_cons] using h

theorem Agree.conflicts {r r' : Replay} (h : Agree r r') : r'.conflicts = r.conflicts := by
  rw [Replay.conflicts, Replay.conflicts, hidden, hidden, h.catalog, h.shadows, h.extended]

end Replay

namespace Session

/-- Two skips or plain renamings in different fragments that are next to each other in a queue can be
swapped: the replay ends with the same catalog, remaps, replacements and links, and the same conflicts. -/
theorem replay_swapped (s : Session) (before after : List (ItemKey × Action)) {x y : ItemKey × Action}
    (hx : x.2.isLocal = true) (hy : y.2.isLocal = true) (hfile : x.1.file ≠ y.1.file) :
    let s₁ := { s with queue := before ++ x :: y :: after }.replay
    let s₂ := { s with queue := before ++ y :: x :: after }.replay
    Replay.Agree s₁.current s₂.current ∧ s₂.conflicts = s₁.conflicts := by
  have h := Replay.run_comm hx hy hfile s.pristine s.links before after s.attributes
  exact ⟨h, h.conflicts⟩

def bridged : Catalog :=
  { base := "base", generator := "", datasource := "", files := ["base", "f", "g", "h"],
    models := [
      ⟨⟨"f", "User"⟩, [⟨"id", "Int", ["@id"]⟩], 1⟩,
      ⟨⟨"f", "Post"⟩, [⟨"author", "User?", ["@relation"]⟩, ⟨"reply", "Post", []⟩], 4⟩,
      ⟨⟨"g", "User"⟩, [⟨"id", "Int", ["@id"]⟩], 1⟩,
      ⟨⟨"h", "Article"⟩, [⟨"id", "Int", ["@id"]⟩], 1⟩],
    enums := [⟨⟨"h", "Member"⟩, "Member", [], 4⟩] }

def bridging : ItemKey × Action :=
  (⟨"f", "Post"⟩, .remap ⟨⟨"f", "Post"⟩, "author"⟩ ⟨"g", "User"⟩ .model)

def toArticle : ItemKey × Action := (⟨"f", "Post"⟩, .rename "Article" .model)

def toMember : ItemKey × Action := (⟨"g", "User"⟩, .rename "Member" .model)

def leaving : ItemKey × Action := (⟨"h", "Member"⟩, .skip .enum)

def bridgedBy (queue : List (ItemKey × Action)) : Session := { new bridged with queue }.replay

theorem replay_swapped_bridged :
    (bridgedBy [bridging, toArticle, toMember, leaving]).current.remaps =
        [(⟨⟨"f", "Article"⟩, "author"⟩, ⟨"g", "Member"⟩)] ∧
      (bridgedBy [bridging, toArticle, toMember, leaving]).conflicts =
        [⟨⟨"f", "Article"⟩, ⟨"h", "Article"⟩, .model⟩] ∧
      Replay.Agree (bridgedBy [bridging, toArticle, toMember, leaving]).current
        (bridgedBy [bridging, toMember, toArticle, leaving]).current ∧
      (bridgedBy [bridging, toMember, toArticle, leaving]).conflicts =
        (bridgedBy [bridging, toArticle, toMember, leaving]).conflicts := by
  have h := replay_swapped (new bridged) [bridging] [leaving] (x := toArticle) (y := toMember) rfl rfl
    (by decide)
  exact ⟨rfl, by decide, h.1, h.2⟩

end Session

end FragmentMerge
