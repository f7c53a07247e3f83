import FragmentMerge.Proofs.Toml.Value

/-! Documents. A tree of tables that is written as a document is read back, whatever is in it: the
entries on lines of their own come first in each table, and those with headers follow, which is all that
changes. What the whole document looks like for each content of one table is a function, and a change of
the table changes the document through it. -/

namespace FragmentMerge.Toml

variable {path : List String} {k : String} {before : Entries}

theorem lookup_append_new {n : Node} {es : Entries} (h : es.lookup k = none) :
    (es ++ [(k, n)]).lookup k = some n := by
  rw [List.lookup_append, h, Option.none_or, List.lookup_cons_self]

theorem put_append_new {n n' : Node} {es : Entries} (h : es.lookup k = none) :
    put k n (es ++ [(k, n')]) = es ++ [(k, n)] := by
  induction es with
  | nil => rw [List.nil_append, put, if_pos rfl, List.nil_append]
  | cons e es ih =>
    rw [Table.lookup_cons_eq] at h
    split at h
    · cases h
    · next hk => rw [List.cons_append, put, if_neg (Ne.symm hk), ih h, List.cons_append]

theorem changeAt_append (made : Origin) (f : Origin → Entries → Option Entries) (p q : List String)
    (o : Origin) (es : Entries) :
    changeAt made f (p ++ q) o es = changeAt made (changeAt made f q) p o es := by
  induction p generalizing o es with
  | nil => rfl
  | cons k p ih =>
    have hih : changeAt made f (p ++ q) = changeAt made (changeAt made f q) p := by
      funext o es
      exact ih o es
    rw [List.cons_append, changeAt, changeAt, hih]

theorem changeLast_append (f : Entries → Option Entries) (items : List Entries) (es : Entries) :
    changeLast f (items ++ [es]) = (f es).map fun es => items ++ [es] := by
  induction items with
  | nil => rfl
  | cons i items ih =>
    obtain ⟨j, js, hj⟩ : ∃ j js, items ++ [es] = j :: js := by
      cases items <;> exact ⟨_, _, rfl⟩
    rw [List.cons_append, hj, changeLast, ← hj, ih, Option.map_map]
    · rfl
    · simp

/-- A document with a hole at a path, for the entries of the table there. -/
structure Frame (path : List String) (whole : Entries → Entries) : Prop where
  change : ∀ f es, changeAt .passed f path .header (whole es) = (f .header es).map whole

variable {whole : Entries → Entries}

theorem Frame.root : Frame [] id := ⟨fun f es => by rw [changeAt, Option.map_id_fun]; rfl⟩

theorem Frame.table (h : Frame path whole) (hk : before.lookup k = none) :
    Frame (path ++ [k]) fun es => whole (before ++ [(k, .table .header es)]) := by
  constructor
  intro f es
  rw [changeAt_append, h.change, changeAt, lookup_append_new hk]
  dsimp only
  rw [if_neg (by simp), changeAt, Option.map_map]
  congr 1
  funext sub
  rw [Function.comp_apply, put_append_new hk]

theorem Frame.item (h : Frame path whole) (hk : before.lookup k = none) (done : List Entries) :
    Frame (path ++ [k]) fun es => whole (before ++ [(k, .tables (done ++ [es]))]) := by
  constructor
  intro f es
  rw [changeAt_append, h.change, changeAt, lookup_append_new hk]
  dsimp only
  rw [changeLast_append, changeAt, Option.map_map, Option.map_map]
  congr 1
  funext sub
  rw [Function.comp_apply, Function.comp_apply, put_append_new hk]

theorem splitPath_append (path : List String) (k : String) : splitPath (path ++ [k]) = some (path, k) := by
  cases path with
  | nil => rfl
  | cons k' path =>
    rw [List.cons_append, splitPath, ← List.cons_append, List.dropLast_concat, List.getLastD_concat]

theorem Frame.assign (h : Frame path whole) (hk : before.lookup k = none) (t : Tree) :
    Draft.assign ⟨whole before, path⟩ [k] t = some ⟨whole (before ++ [(k, .value t)]), path⟩ := by
  rw [Draft.assign, h.change, assign_new hk]
  rfl

theorem Frame.openTable (h : Frame path whole) (hk : before.lookup k = none) :
    openTable (path ++ [k]) (whole before) = some (whole (before ++ [(k, .table .header [])])) := by
  rw [Toml.openTable, splitPath_append, Option.bind_some]
  refine (h.change _ before).trans ?_
  rw [hk, put_of_lookup_eq_none hk]
  rfl

/-- The entries before a key and an array of tables under it, which is there as soon as it has one. -/
def withTables (before : Entries) (k : String) (items : List Entries) : Entries :=
  if items = [] then before else before ++ [(k, .tables items)]

theorem Frame.openItem (h : Frame path whole) (hk : before.lookup k = none) (items : List Entries) :
    openItem (path ++ [k]) (whole (withTables before k items)) =
      some (whole (withTables before k (items ++ [[]]))) := by
  rw [Toml.openItem, splitPath_append, Option.bind_some]
  refine (h.change _ _).trans ?_
  have hdone : withTables before k (items ++ [[]]) = before ++ [(k, .tables (items ++ [[]]))] :=
    if_neg (by simp)
  cases items with
  | nil =>
    rw [hdone, withTables, if_pos rfl, hk, put_of_lookup_eq_none hk]
    rfl
  | cons i items =>
    rw [hdone, withTables, if_neg (by simp), lookup_append_new hk]
    exact congrArg (fun es => some (whole es)) (put_append_new hk)

open FragmentMerge.Tree

variable {here : List String}

def document (ls : List String) : List Char := ls.flatMap fun l => l.toList ++ ['\n']

/-- Lines that take the reader from one draft to another, whatever follows them. -/
inductive Reads : Draft → List String → Draft → Prop
  | nil (d : Draft) : Reads d [] d
  | cons {d e f : Draft} {l : String} {ls : List String}
      (line : ∀ r, line? d (l.toList ++ '\n' :: r) = some (e, r)) (rest : Reads e ls f) : Reads d (l :: ls) f

theorem Reads.append {d e f : Draft} {ls ms : List String} (h : Reads d ls e) (h' : Reads e ms f) :
    Reads d (ls ++ ms) f := by
  induction h with
  | nil => exact h'
  | cons line _ ih => exact .cons line (ih h')

theorem linesWithin_document {d e : Draft} {ls : List String} (h : Reads d ls e) {n : Nat}
    (hn : ls.length < n) : linesWithin n d (document ls) = some e := by
  induction h generalizing n with
  | nil d =>
    obtain ⟨n, rfl⟩ : ∃ m, n = m + 1 := ⟨n - 1, by omega⟩
    rfl
  | @cons d e f l ls line rest ih =>
    obtain ⟨n, rfl⟩ : ∃ m, n = m + 1 := ⟨n - 1, by omega⟩
    have htext : document (l :: ls) = l.toList ++ '\n' :: document ls := by simp [document]
    rw [linesWithin, htext, if_neg (by simp), line]
    exact ih (Nat.lt_of_succ_lt_succ hn)

theorem length_le_document (ls : List String) : ls.length ≤ (document ls).length := by
  induction ls with
  | nil => exact Nat.le_refl _
  | cons l ls ih =>
    rw [document, List.flatMap_cons, ← document, List.length_append, List.length_append, List.length_cons,
      List.length_singleton]
    omega

theorem lineEnd?_newline (r : List Char) : lineEnd? ('\n' :: r) = some r := rfl

theorem lineEnd?_of_opens {s : List Char} (h : Opens s) : lineEnd? s = none := by
  rw [lineEnd?, h.spaces, h.skipComment]
  split
  · obtain ⟨c, s, hs, -⟩ := h
    cases hs
  · exact h.newline?

theorem line?_of_entry {d : Draft} {s : List Char} (h : Opens s) (hs : ∀ u, s ≠ '[' :: u) :
    line? d s = (pair? value? s).bind fun (path, t, r) => (lineEnd? r).bind fun r =>
      (d.assign path t).bind fun d => some (d, r) := by
  unfold line?
  rw [h.spaces]
  split
  · exact absurd rfl (hs _)
  · exact absurd rfl (hs _)
  · rw [lineEnd?_of_opens h]
    rfl

theorem line?_of_header {d : Draft} {s : List Char} (hs : ∀ u, s ≠ '[' :: u) :
    line? d ('[' :: s) = (key? s).bind fun (path, r) => (headerEnd? [']'] r).bind fun r =>
      (openTable path d.root).bind fun root => some (⟨root, path⟩, r) := by
  have hspaces : spaces ('[' :: s) = '[' :: s := rfl
  unfold line?
  rw [hspaces]
  split
  · next heq => exact absurd (List.cons.inj heq).2 (hs _)
  · next heq =>
    cases heq
    rfl
  · next hno => exact absurd rfl (hno s)

theorem line?_of_item (d : Draft) (s : List Char) :
    line? d ('[' :: '[' :: s) = (key? s).bind fun (path, r) => (headerEnd? [']', ']'] r).bind fun r =>
      (openItem path d.root).bind fun root => some (⟨root, path⟩, r) := rfl

theorem pathText_cases (k : String) (path : List String) : ∃ c s, pathText (k :: path) = c :: s ∧ c ≠ '[' := by
  obtain ⟨c, s, hs, hc⟩ := writeKey_cases k
  refine ⟨c, s ++ path.flatMap fun k => '.' :: (writeKey k).toList, ?_, ?_⟩
  · rw [pathText, List.map_cons, Text.intercalate_cons, hs, List.flatMap_map]
    rfl
  · rintro rfl
    exact absurd hc (by decide)

theorem key?_header (hlen : path.length + 1 < depthLimit) (r : List Char) :
    key? (pathText (path ++ [k]) ++ ']' :: r) = some (path ++ [k], ']' :: r) :=
  key?_pathText (by simp) (by simpa using hlen) (fun c hc => by cases hc; rfl) (fun u hu => nomatch hu)

theorem reads_entry (h : Frame path whole) {e : String × Tree} (hk : before.lookup e.1 = none) {l : String}
    (hl : SpellsEntry value? l.toList e) :
    Reads ⟨whole before, path⟩ [l] ⟨whole (before ++ [(e.1, .value e.2)]), path⟩ := by
  refine .cons (fun r => ?_) (.nil _)
  have hbracket : ∀ u, l.toList ++ '\n' :: r ≠ '[' :: u := by
    obtain ⟨s, hs, -⟩ := hl
    obtain ⟨c, s', hc, hne⟩ := pathText_cases e.1 []
    rw [pathText_singleton] at hc
    rw [hs, hc]
    exact fun u hu => hne (List.cons.inj hu).1
  rw [line?_of_entry (hl.opens.append _) hbracket, pair?_spelled hl (Ends.cons (by decide) r), Option.bind_some]
  dsimp only
  rw [lineEnd?_newline, Option.bind_some, h.assign hk, Option.bind_some]

theorem reads_header (h : Frame path whole) (hk : before.lookup k = none)
    (hlen : path.length + 1 < depthLimit) :
    Reads ⟨whole before, here⟩ ["[" ++ header (path ++ [k]) ++ "]"]
      ⟨whole (before ++ [(k, .table .header [])]), path ++ [k]⟩ := by
  refine .cons (fun r => ?_) (.nil _)
  have htext : ("[" ++ header (path ++ [k]) ++ "]").toList ++ '\n' :: r =
      '[' :: (pathText (path ++ [k]) ++ ']' :: '\n' :: r) := by
    rw [String.toList_append, String.toList_append, toList_header]
    simp
  have hend : headerEnd? [']'] (']' :: '\n' :: r) = some r := rfl
  rw [htext, line?_of_header, key?_header hlen, Option.bind_some]
  · dsimp only
    rw [hend, Option.bind_some, h.openTable hk, Option.bind_some]
  · obtain ⟨k', path', hp⟩ := List.exists_cons_of_ne_nil (show path ++ [k] ≠ [] by simp)
    obtain ⟨c, s, hs, hc⟩ := pathText_cases k' path'
    rw [hp, hs]
    exact fun u hu => hc (List.cons.inj hu).1

theorem reads_item (here : List String) (h : Frame path whole) (hk : before.lookup k = none)
    (hlen : path.length + 1 < depthLimit) (done : List Entries) :
    Reads ⟨whole (withTables before k done), here⟩ ["[[" ++ header (path ++ [k]) ++ "]]"]
      ⟨whole (withTables before k (done ++ [[]])), path ++ [k]⟩ := by
  refine .cons (fun r => ?_) (.nil _)
  have htext : ("[[" ++ header (path ++ [k]) ++ "]]").toList ++ '\n' :: r =
      '[' :: '[' :: (pathText (path ++ [k]) ++ ']' :: ']' :: '\n' :: r) := by
    rw [String.toList_append, String.toList_append, toList_header]
    simp
  have hend : headerEnd? [']', ']'] (']' :: ']' :: '\n' :: r) = some r := rfl
  rw [htext, line?_of_item, key?_header hlen, Option.bind_some]
  dsimp only
  rw [hend, Option.bind_some, h.openItem hk, Option.bind_some]

variable {d : Nat} {es : List (String × Tree)}

theorem lookup_append_of_ne {k' : String} (h : k' ≠ k) (n : Node) (before : Entries) :
    (before ++ [(k, n)]).lookup k' = before.lookup k' := by
  rw [List.lookup_append, Table.lookup_cons_eq, if_neg h, List.lookup_nil, Option.or_none]

/-- The entries of a table that are written on lines of their own. -/
def plainEntries (es : List (String × Tree)) : List (String × Tree) := es.filter fun e => !hasHeader e.2

/-- The entries of a table that are written under headers. -/
def headedEntries (es : List (String × Tree)) : List (String × Tree) := es.filter fun e => hasHeader e.2

theorem exists_plain (before : Entries) (h : Frame path whole) (hd : DistinctKeys es)
    (hes : ∀ e ∈ es, Legible d e.2) (hdepth : d < depthLimit) (hnew : ∀ e ∈ es, before.lookup e.1 = none) :
    ∃ ls, plain? es = some ls ∧
      Reads ⟨whole before, path⟩ ls ⟨whole (before ++ valueNodes (plainEntries es)), path⟩ := by
  induction es generalizing before with
  | nil =>
    refine ⟨[], rfl, ?_⟩
    rw [plainEntries, List.filter_nil, valueNodes, List.map_nil, List.append_nil]
    exact .nil _
  | cons e es ih =>
    obtain ⟨k, t⟩ := e
    have htail := (List.nodup_cons.1 hd).2
    have hes' : ∀ e ∈ es, Legible d e.2 := fun e he => hes e (List.mem_cons_of_mem _ he)
    by_cases hheader : hasHeader t = true
    · obtain ⟨ls, hls, hreads⟩ := ih before htail hes' fun e he => hnew e (List.mem_cons_of_mem _ he)
      refine ⟨ls, by rw [plain?, if_pos hheader, hls], ?_⟩
      rwa [plainEntries, List.filter_cons_of_neg (by simp [hheader])]
    · have hvalue := (hes (k, t) List.mem_cons_self).mono (Nat.le_sub_one_of_lt hdepth)
      obtain ⟨s, hs, hspells⟩ := exists_inline hvalue
      have hk : before.lookup k = none := hnew (k, t) List.mem_cons_self
      obtain ⟨ls, hls, hreads⟩ := ih (before ++ [(k, .value t)]) htail hes' fun e he => by
        rw [lookup_append_of_ne (hd.ne_of_cons he)]
        exact hnew e (List.mem_cons_of_mem _ he)
      have hline : SpellsEntry value? (writeKey k ++ " = " ++ s).toList (k, t) := by
        refine ⟨s.toList, ?_, hspells⟩
        rw [String.toList_append, String.toList_append, List.append_assoc]
        rfl
      refine ⟨(writeKey k ++ " = " ++ s) :: ls, by rw [plain?, if_neg hheader, hs, hls]; rfl, ?_⟩
      have hsplit : valueNodes (plainEntries ((k, t) :: es)) =
          (k, .value t) :: valueNodes (plainEntries es) := by
        rw [plainEntries, List.filter_cons_of_pos (by simp [hheader])]
        rfl
      rw [hsplit, List.append_cons]
      exact (reads_entry h hk hline).append hreads

/-- What is written under the header of a tree is read back as one entry of the table above. -/
def SectionsRead (d : Nat) : Prop :=
  ∀ {path k whole before t} here, Frame path whole → before.lookup k = none → Legible d t → hasHeader t = true →
    path.length + 1 + d ≤ depthLimit → ∃ ls n here', section? (path ++ [k]) t = some ls ∧ t.Alike n.tree ∧
      Reads ⟨whole before, here⟩ ls ⟨whole (before ++ [(k, n)]), here'⟩

theorem treesOf_cons (k : String) (n : Node) (es : Entries) :
    treesOf ((k, n) :: es) = (k, n.tree) :: treesOf es := by
  rw [treesOf]

theorem treesOf_append (es fs : Entries) : treesOf (es ++ fs) = treesOf es ++ treesOf fs := by
  induction es with
  | nil => rfl
  | cons e es ih =>
    obtain ⟨k, n⟩ := e
    rw [List.cons_append, treesOf_cons, treesOf_cons, ih, List.cons_append]

theorem exists_below (before : Entries) (here : List String) (hsections : SectionsRead d)
    (h : Frame path whole) (hd : DistinctKeys es) (hes : ∀ e ∈ es, Legible d e.2) (hlen : path.length + 1 + d ≤ depthLimit)
    (hnew : ∀ e ∈ es, hasHeader e.2 = true → before.lookup e.1 = none) :
    ∃ ls ns here', below? path es = some ls ∧ List.Forall₂ SameEntry (headedEntries es) (treesOf ns) ∧
      Reads ⟨whole before, here⟩ ls ⟨whole (before ++ ns), here'⟩ := by
  induction es generalizing before here with
  | nil => exact ⟨[], [], here, rfl, .nil, by rw [List.append_nil]; exact .nil _⟩
  | cons e es ih =>
    obtain ⟨k, t⟩ := e
    have htail := (List.nodup_cons.1 hd).2
    have hes' : ∀ e ∈ es, Legible d e.2 := fun e he => hes e (List.mem_cons_of_mem _ he)
    by_cases hheader : hasHeader t = true
    · have hk : before.lookup k = none := hnew (k, t) List.mem_cons_self hheader
      obtain ⟨ls, n, here₁, hls, hn, hreads⟩ :=
        hsections here h hk (hes (k, t) List.mem_cons_self) hheader hlen
      obtain ⟨ms, ns, here₂, hms, hns, hrest⟩ := ih (before ++ [(k, n)]) here₁ htail hes'
        fun e he hh => by
          rw [lookup_append_of_ne (hd.ne_of_cons he)]
          exact hnew e (List.mem_cons_of_mem _ he) hh
      refine ⟨ls ++ ms, (k, n) :: ns, here₂, by rw [below?, if_pos hheader, hls, hms]; rfl, ?_, ?_⟩
      · rw [headedEntries, List.filter_cons_of_pos (by exact hheader), treesOf_cons]
        exact .cons ⟨rfl, hn⟩ hns
      · rw [List.append_cons]
        exact hreads.append hrest
    · obtain ⟨ls, ns, here', hls, hns, hreads⟩ :=
        ih before here htail hes' fun e he => hnew e (List.mem_cons_of_mem _ he)
      refine ⟨ls, ns, here', by rw [below?, if_neg hheader, hls], ?_, hreads⟩
      rwa [headedEntries, List.filter_cons_of_neg (by exact hheader)]

theorem lookup_plainEntries_eq_none (hd : DistinctKeys es) {e : String × Tree} (he : e ∈ es)
    (hheader : hasHeader e.2 = true) : (valueNodes (plainEntries es)).lookup e.1 = none := by
  refine lookup_valueNodes_eq_none fun hm => ?_
  obtain ⟨f, hf, hk⟩ := List.mem_map.1 hm
  obtain ⟨hf, hplain⟩ := List.mem_filter.1 hf
  obtain rfl := List.inj_on_of_nodup_map hd hf he hk
  rw [hheader] at hplain
  cases hplain

theorem exists_body (hsections : SectionsRead d) (h : Frame path whole) (hd : DistinctKeys es)
    (hes : ∀ e ∈ es, Legible d e.2) (hlen : path.length + 1 + d ≤ depthLimit) :
    ∃ plain below ns here', plain? es = some plain ∧ below? path es = some below ∧
      (Tree.table es).Alike (.table (treesOf ns)) ∧
      Reads ⟨whole [], path⟩ (plain ++ below) ⟨whole ns, here'⟩ := by
  obtain ⟨plain, hplain, hreads⟩ := exists_plain [] h hd hes (by omega) fun e he => rfl
  rw [List.nil_append] at hreads
  obtain ⟨below, ns, here', hbelow, hns, hreads'⟩ := exists_below _ path hsections h hd hes hlen
    fun e he hh => lookup_plainEntries_eq_none hd he hh
  refine ⟨plain, below, valueNodes (plainEntries es) ++ ns, here', hplain, hbelow, ?_, hreads.append hreads'⟩
  rw [treesOf_append, treesOf_valueNodes]
  have hperm : es.Perm (plainEntries es ++ headedEntries es) :=
    (List.perm_append_comm.trans (List.filter_append_perm (fun e : String × Tree => hasHeader e.2) es)).symm
  exact .of_entries hperm (List.rel_append (List.forall₂_same.2 fun e _ => SameEntry.refl e) hns)

/-- The tables of an array, each under a doubled header of its own. -/
theorem exists_items (here : List String) (hsections : SectionsRead d) (h : Frame path whole)
    (hk : before.lookup k = none) {ts : List Tree} (hts : ∀ t ∈ ts, isTable t = true ∧ Legible d t)
    (hlen : path.length + 2 + d ≤ depthLimit) (done : List Entries) :
    ∃ ls items here', sections? (path ++ [k]) ts = some ls ∧ List.Forall₂ Alike ts (tablesOf items) ∧
      Reads ⟨whole (withTables before k done), here⟩ ls
        ⟨whole (withTables before k (done ++ items)), here'⟩ := by
  induction ts generalizing done here with
  | nil => exact ⟨[], [], here, rfl, .nil, by rw [List.append_nil]; exact .nil _⟩
  | cons t ts ih =>
    obtain ⟨htable, hlegible⟩ := hts t List.mem_cons_self
    cases t with
    | table es =>
      obtain ⟨hd, hes⟩ := hlegible.succ
      have hframe := h.item hk done
      have hhole : ∀ es, withTables before k (done ++ [es]) = before ++ [(k, .tables (done ++ [es]))] :=
        fun es => if_neg (by simp)
      have hheader := reads_item here h hk (by omega) done
      obtain ⟨plain, below, ns, here₁, hplain, hbelow, halike, hbody⟩ :=
        exists_body hsections hframe hd hes (by rw [List.length_append, List.length_singleton]; omega)
      rw [hhole []] at hheader
      rw [← hhole ns] at hbody
      obtain ⟨ls, items, here₂, hls, hitems, hrest⟩ :=
        ih here₁ (fun u hu => hts u (List.mem_cons_of_mem _ hu)) (done ++ [ns])
      refine ⟨_, ns :: items, here₂, by rw [sections?, hplain, hbelow, hls]; rfl, .cons halike hitems, ?_⟩
      have hdone : done ++ ns :: items = done ++ [ns] ++ items := List.append_cons ..
      rw [hdone]
      exact (hheader.append hbody).append hrest
    | null | bool | int | float | date | text | list => cases htable

theorem sectionsRead (d : Nat) : SectionsRead d := by
  -- what stands under a header is less deep than the tree of the header
  induction d with
  | zero =>
    intro path k whole before t here h hk hlegible hheader
    cases t with
    | bool | int | text => cases hheader
    | null | float | date | list | table => exact hlegible.elim
  | succ d ih =>
    intro path k whole before t here h hk hlegible hheader hlen
    cases t with
    | bool | int | text => cases hheader
    | null | float | date => exact hlegible.elim
    | table es =>
      obtain ⟨plain, below, ns, here', hplain, hbelow, halike, hbody⟩ := exists_body ih (h.table hk) hlegible.1
        hlegible.2 (by rw [List.length_append, List.length_singleton]; omega)
      refine ⟨_, .table .header ns, here', by rw [section?, hplain, hbelow]; rfl, ?_, ?_⟩
      · rwa [Node.tree]
      · exact (reads_header h hk (by omega)).append hbody
    | list ts =>
      have htables : ∀ t ∈ ts, isTable t = true := by
        cases ts with
        | nil => cases hheader
        | cons t ts => exact List.all_eq_true.1 hheader
      obtain ⟨ls, items, here', hls, hitems, hreads⟩ := exists_items here ih h hk
        (fun t ht => ⟨htables t ht, hlegible t ht⟩) (by omega) []
      refine ⟨ls, .tables items, here', by rw [section?, hls], ?_, ?_⟩
      · rw [Node.tree]
        exact .list hitems
      · have hne : items ≠ [] := by
          rintro rfl
          cases hitems
          cases hheader
        rwa [withTables, if_pos rfl, List.nil_append, withTables, if_neg hne] at hreads

theorem line?_mark (d : Draft) (s : List Char) : line? d ('\uFEFF' :: s) = none := rfl

/-- A document that can be read line by line does not start with a mark. -/
theorem Reads.skipMark {d e : Draft} {ls : List String} (h : Reads d ls e) :
    skipMark (document ls) = document ls := by
  unfold Toml.skipMark
  split
  · next s heq =>
    cases h with
    | nil => cases heq
    | @cons d e f l ls line =>
      have hread := line []
      cases hl : l.toList with
      | nil =>
        rw [document, List.flatMap_cons, hl] at heq
        cases heq
      | cons c cs =>
        rw [document, List.flatMap_cons, hl] at heq
        obtain rfl : c = '\uFEFF' := (List.cons.inj heq).1
        rw [hl, List.cons_append, line?_mark] at hread
        cases hread
  · rfl

theorem toList_join_lines (ls : List String) : (String.join (ls.map (· ++ "\n"))).toList = document ls := by
  rw [String.toList_join, document, List.flatMap_map]
  congr 1
  funext l
  rw [String.toList_append]
  rfl

/-- A document is read back as a tree with the same content. -/
theorem exists_document {t : Tree} (h : Legible depthLimit t) (htable : isTable t = true) :
    ∃ s u, write? t = some s ∧ read? s = some u ∧ t.Alike u := by
  cases t with
  | table es =>
    obtain ⟨plain, below, ns, here, hplain, hbelow, halike, hreads⟩ :=
      exists_body (sectionsRead (depthLimit - 1)) Frame.root h.1 h.2 (by decide)
    have hread : linesWithin ((document (plain ++ below)).length + 1) ⟨[], []⟩ (document (plain ++ below)) =
        some ⟨ns, here⟩ := linesWithin_document hreads (Nat.lt_succ_of_le (length_le_document _))
    refine ⟨_, _, by rw [write?, hplain, hbelow]; rfl, ?_, halike⟩
    rw [read?, toList_join_lines, hreads.skipMark]
    exact congrArg (Option.map _) hread
  | null | bool | int | float | date | text | list => cases htable

theorem exists_inline_of_plain {ls : List String} (h : plain? es = some ls) {e : String × Tree} (he : e ∈ es)
    (hheader : hasHeader e.2 = false) : ∃ s, inline? e.2 = some s := by
  induction es generalizing ls with
  | nil => cases he
  | cons f es ih =>
    rw [plain?] at h
    rcases List.mem_cons.1 he with rfl | he
    · rw [if_neg (by rw [hheader]; exact Bool.false_ne_true)] at h
      obtain ⟨s, hs, -⟩ := Option.bind_eq_some_iff.1 h
      exact ⟨s, hs⟩
    · split at h
      · exact ih h he
      · obtain ⟨_, _, h⟩ := Option.bind_eq_some_iff.1 h
        obtain ⟨ss, hss, -⟩ := Option.bind_eq_some_iff.1 h
        exact ih hss he

theorem exists_section_of_below {ls : List String} (h : below? path es = some ls) {e : String × Tree}
    (he : e ∈ es) (hheader : hasHeader e.2 = true) : ∃ ls, section? (path ++ [e.1]) e.2 = some ls := by
  induction es generalizing ls with
  | nil => cases he
  | cons f es ih =>
    rw [below?] at h
    rcases List.mem_cons.1 he with rfl | he
    · rw [if_pos hheader] at h
      obtain ⟨ls, hls, -⟩ := Option.bind_eq_some_iff.1 h
      exact ⟨ls, hls⟩
    · split at h
      · obtain ⟨_, _, h⟩ := Option.bind_eq_some_iff.1 h
        obtain ⟨ss, hss, -⟩ := Option.bind_eq_some_iff.1 h
        exact ih hss he
      · exact ih h he

end FragmentMerge.Toml
