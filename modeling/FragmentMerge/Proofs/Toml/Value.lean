import FragmentMerge.Proofs.Data.Tree
import FragmentMerge.Proofs.Toml.Scalar

/-! Values on one line. A tree that is written on the line of its key is read back from it, with all lists and
tables in it in their order, up to the depth that the reader goes to. -/

namespace FragmentMerge.Toml

open Text FragmentMerge.Tree

/-- A tree that has a form in TOML, in which no table has a key twice and lists and tables are nested at most
`d` deep. -/
def Legible : Nat → Tree → Prop
  | _, .bool _ => True
  | _, .int i => inRange i = some i
  | _, .text _ => True
  | d + 1, .list ts => ∀ t ∈ ts, Legible d t
  | d + 1, .table es => DistinctKeys es ∧ ∀ e ∈ es, Legible d e.2
  | _, _ => False

theorem Legible.succ {d : Nat} {t : Tree} (h : Legible d t) : Legible (d + 1) t := by
  induction d generalizing t with
  | zero => cases t <;> first | exact h | exact h.elim
  | succ d ih =>
    cases t with
    | list ts => exact fun t ht => ih (h t ht)
    | table es => exact ⟨h.1, fun e he => ih (h.2 e he)⟩
    | bool | int | text => exact h
    | null | float | date => exact h.elim

theorem Legible.mono {d d' : Nat} {t : Tree} (h : Legible d t) (hle : d ≤ d') : Legible d' t := by
  induction hle with
  | refl => exact h
  | step _ ih => exact ih.succ

/-- Characters that end an item or stand between items. -/
def breaks : List Char := [' ', '\t', '\n', '\r', '#', ',', ']', '\x7d']

/-- A text that starts with a character that is no break. -/
def Opens (s : List Char) : Prop := ∃ c r, s = c :: r ∧ c ∉ breaks

theorem Opens.append {s : List Char} (h : Opens s) (r : List Char) : Opens (s ++ r) := by
  obtain ⟨c, s, rfl, hc⟩ := h
  exact ⟨c, s ++ r, rfl, hc⟩

theorem Opens.spaces {s : List Char} (h : Opens s) : spaces s = s := by
  obtain ⟨c, s, rfl, hc⟩ := h
  rw [Toml.spaces, List.dropWhile_cons_of_neg]
  intro hs
  rw [isSpace, Bool.or_eq_true, beq_iff_eq, beq_iff_eq] at hs
  rcases hs with rfl | rfl <;> exact hc (by decide)

theorem Opens.skipComment {s : List Char} (h : Opens s) : skipComment s = s := by
  obtain ⟨c, s, rfl, hc⟩ := h
  unfold Toml.skipComment
  split
  · next heq => exact absurd ((List.cons.inj heq).1 ▸ hc) (by decide)
  · rfl

theorem Opens.newline? {s : List Char} (h : Opens s) : newline? s = none := by
  obtain ⟨c, s, rfl, hc⟩ := h
  unfold Toml.newline?
  split
  · next heq => exact absurd ((List.cons.inj heq).1 ▸ hc) (by decide)
  · next heq => exact absurd ((List.cons.inj heq).1 ▸ hc) (by decide)
  · rfl

theorem gap_eq {w s : List Char} (h : Opens s) (hw : spaces w = s) : gap w = s := by
  cases w with
  | nil =>
    obtain ⟨c, s, rfl, -⟩ := h
    cases hw
  | cons d w => rw [gap, List.length_cons, gapWithin, hw, h.skipComment, h.newline?]

theorem writeKey_cases (k : String) : ∃ c s, (writeKey k).toList = c :: s ∧ (isBare c = true ∨ c = '"') := by
  rw [writeKey]
  split
  · exact ⟨_, _, toList_quote k, .inr rfl⟩
  · next hbare =>
    obtain ⟨hne, hall⟩ := isBare_of_bare (Bool.eq_false_iff.2 hbare)
    obtain ⟨c, s, hc⟩ := List.exists_cons_of_ne_nil hne
    exact ⟨c, s, hc, .inl (hall c (hc ▸ List.mem_cons_self))⟩

theorem opens_writeKey (k : String) : Opens (writeKey k).toList := by
  have hbreaks : ∀ c ∈ breaks, ¬ (isBare c = true ∨ c = '"') := by
    simp only [breaks, List.forall_mem_cons, List.not_mem_nil, false_imp_iff, implies_true]
    decide
  obtain ⟨c, s, hs, hc⟩ := writeKey_cases k
  exact ⟨c, s, hs, fun hm => hbreaks c hm hc⟩

/-- The text of a key with dots in it. -/
def pathText (path : List String) : List Char :=
  ['.'].intercalate (path.map fun k => (writeKey k).toList)

theorem toList_header (path : List String) : (header path).toList = pathText path := by
  rw [header, String.toList_intercalate, List.map_map]
  rfl

theorem keyWithin_last {n : Nat} {s : List Char} {k : String} {r : List Char}
    (h : simpleKey? (spaces s) = some (k, r)) (hdot : ∀ u, spaces r ≠ '.' :: u) :
    keyWithin (n + 1) s = some ([k], spaces r) := by
  rw [keyWithin, h]
  dsimp only
  split
  · next u heq => exact absurd heq (hdot u)
  · rfl

theorem keyWithin_dot {n : Nat} {s : List Char} {k : String} {r : List Char}
    (h : simpleKey? (spaces s) = some (k, '.' :: r)) :
    keyWithin (n + 1) s = (keyWithin n r).map fun (ks, r) => (k :: ks, r) := by
  rw [keyWithin, h]
  rfl

/-- A dotted key is read up to what can neither stand in a key nor go on with one. -/
theorem keyWithin_pathText {n : Nat} {path : List String} (hne : path ≠ []) (hn : path.length ≤ n)
    {r : List Char} (hbare : ∀ c, r.head? = some c → isBare c = false) (hdot : ∀ u, spaces r ≠ '.' :: u) :
    keyWithin n (pathText path ++ r) = some (path, spaces r) := by
  induction path generalizing n with
  | nil => exact absurd rfl hne
  | cons k path ih =>
    obtain ⟨n, rfl⟩ : ∃ m, n = m + 1 := ⟨n - 1, by rw [List.length_cons] at hn; omega⟩
    cases path with
    | nil =>
      refine keyWithin_last ?_ hdot
      rw [pathText, List.map_singleton, List.intercalate_singleton, ((opens_writeKey k).append r).spaces,
        simpleKey?_writeKey hbare]
    | cons k' path =>
      have hcons : pathText (k :: k' :: path) ++ r =
          (writeKey k).toList ++ '.' :: (pathText (k' :: path) ++ r) := by
        simp [pathText, List.intercalate_cons_cons]
      have hkey : simpleKey? (spaces (pathText (k :: k' :: path) ++ r)) =
          some (k, '.' :: (pathText (k' :: path) ++ r)) := by
        rw [hcons, ((opens_writeKey k).append _).spaces]
        exact simpleKey?_writeKey (fun c hc => by cases hc; rfl) k
      rw [keyWithin_dot hkey, ih (by simp) (Nat.le_of_succ_le_succ hn)]
      rfl

theorem key?_pathText {path : List String} (hne : path ≠ []) (hn : path.length < depthLimit) {r : List Char}
    (hbare : ∀ c, r.head? = some c → isBare c = false) (hdot : ∀ u, spaces r ≠ '.' :: u) :
    key? (pathText path ++ r) = some (path, spaces r) :=
  keyWithin_pathText hne (Nat.le_sub_one_of_lt hn) hbare hdot

theorem pathText_singleton (k : String) : pathText [k] = (writeKey k).toList := List.intercalate_singleton

/-- A reader of values reads a text as a tree, whatever follows that cannot belong to it. -/
def Spells (read : List Char → Option (Tree × List Char)) (s : List Char) (t : Tree) : Prop :=
  Opens s ∧ ∀ r, Ends r → read (s ++ r) = some (t, r)

variable {read : List Char → Option (Tree × List Char)} {d : Nat}

theorem valueWithin_of_word {c : Char} (hc : c ∉ ['[', '\x7b', '"', '\'']) (s : List Char) :
    valueWithin d (c :: s) = scalar? (c :: s) := by
  simp only [List.mem_cons, List.not_mem_nil, or_false, not_or] at hc
  obtain ⟨hlist, htable, hquote, hsingle⟩ := hc
  unfold valueWithin
  split
  · next heq => exact absurd (List.cons.inj heq).1 hlist
  · next heq => exact absurd (List.cons.inj heq).1 htable
  · next heq =>
    cases heq
    rw [if_neg (by simp [hquote, hsingle])]
  · next heq => cases heq

theorem spells_bool (d : Nat) (b : Bool) :
    Spells (valueWithin d) (if b then "true" else "false").toList (.bool b) := by
  refine ⟨?_, fun r hr => ?_⟩
  · cases b <;> exact ⟨_, _, rfl, by decide⟩
  · rw [← scalar?_bool b hr]
    cases b <;> exact valueWithin_of_word (by decide) _

theorem numeral_cases (i : Int) : ∃ c s, numeral i = c :: s ∧ (isDigit c = true ∨ c = '-') := by
  cases hs : numeral i with
  | nil =>
    rw [numeral] at hs
    split at hs
    · cases hs
    · exact absurd hs Nat.toDigits_ne_nil
  | cons c s => exact ⟨c, s, rfl, mem_numeral (hs ▸ List.mem_cons_self)⟩

theorem spells_int (d : Nat) {i : Int} (hi : inRange i = some i) :
    Spells (valueWithin d) (toString i).toList (.int i) := by
  obtain ⟨c, s, hc, hdigit⟩ := numeral_cases i
  have hmarks : ∀ c ∈ breaks ++ ['[', '\x7b', '"', '\''], ¬ (isDigit c = true ∨ c = '-') := by
    simp only [breaks, List.cons_append, List.nil_append, List.forall_mem_cons, List.not_mem_nil, false_imp_iff,
      implies_true]
    decide
  rw [toList_toString]
  refine ⟨⟨c, s, hc, fun hm => hmarks c (List.mem_append_left _ hm) hdigit⟩, fun r hr => ?_⟩
  rw [← scalar?_numeral hi hr, hc]
  exact valueWithin_of_word (fun hm => hmarks c (List.mem_append_right _ hm) hdigit) _

theorem valueWithin_of_quote (s : List Char) : valueWithin d ('"' :: s) =
    (string? ('"' :: s)).map fun (t, r) => (.text (String.ofList t), r) := by
  cases d <;> rfl

theorem spells_text (d : Nat) (s : String) : Spells (valueWithin d) (quote s).toList (.text s) := by
  refine ⟨⟨_, _, toList_quote s, by decide⟩, fun r hr => ?_⟩
  have hread := string?_quote hr s
  rw [toList_quote, List.cons_append] at hread ⊢
  rw [valueWithin_of_quote, hread]
  simp

def listed (ss : List (List Char)) : List Char := [',', ' '].intercalate ss

def further (ss : List (List Char)) : List Char := ss.flatMap fun s => ',' :: ' ' :: s

theorem listed_cons (s : List Char) (ss : List (List Char)) : listed (s :: ss) = s ++ further ss :=
  intercalate_cons [',', ' '] s ss

theorem further_cons (s : List Char) (ss : List (List Char)) :
    further (s :: ss) = ',' :: ' ' :: (s ++ further ss) := rfl

theorem length_le_further (ss : List (List Char)) : ss.length ≤ (further ss).length := by
  induction ss with
  | nil => exact Nat.le_refl _
  | cons s ss ih =>
    rw [further_cons, List.length_cons, List.length_cons, List.length_cons, List.length_append]
    omega

theorem length_le_listed (ss : List (List Char)) : ss.length ≤ (listed ss).length + 1 := by
  cases ss with
  | nil => exact Nat.zero_le _
  | cons s ss =>
    have hle := length_le_further ss
    rw [listed_cons, List.length_append, List.length_cons]
    omega

theorem itemsWithin_end {n : Nat} {w r : List Char} (hw : gap w = ']' :: r) :
    itemsWithin read (n + 1) w = some ([], r) := by
  rw [itemsWithin, hw]
  rfl

theorem itemsWithin_item {n : Nat} {w s r : List Char} {t : Tree} (hw : gap w = s) (hs : Opens s)
    (hread : read s = some (t, r)) : itemsWithin read (n + 1) w =
      match gap r with
      | ']' :: r => some ([t], r)
      | ',' :: r => (itemsWithin read n r).map fun (ts, r) => (t :: ts, r)
      | _ => none := by
  obtain ⟨c, s, rfl, hc⟩ := hs
  rw [itemsWithin, hw]
  split
  · next heq => exact absurd ((List.cons.inj heq).1 ▸ hc) (by decide)
  · generalize read (c :: s) = o at hread
    subst hread
    rfl

theorem itemsWithin_listed {ss : List (List Char)} {ts : List Tree} (h : List.Forall₂ (Spells read) ss ts)
    {n : Nat} (hn : ss.length < n) {w r : List Char} (hw : gap w = listed ss ++ ']' :: r) :
    itemsWithin read n w = some (ts, r) := by
  induction h generalizing n w with
  | nil =>
    obtain ⟨n, rfl⟩ : ∃ m, n = m + 1 := ⟨n - 1, by omega⟩
    exact itemsWithin_end hw
  | @cons s t ss ts hs hrest ih =>
    obtain ⟨n, rfl⟩ : ∃ m, n = m + 1 := ⟨n - 1, by omega⟩
    rw [listed_cons, List.append_assoc] at hw
    cases hrest with
    | nil => exact itemsWithin_item hw (hs.1.append _) (hs.2 _ (Ends.cons (by decide) r))
    | @cons s' t' ss ts hs' hrest =>
      have hopens : Opens (listed (s' :: ss) ++ ']' :: r) := listed_cons s' ss ▸ (hs'.1.append _).append _
      have hmore : itemsWithin read n (' ' :: (listed (s' :: ss) ++ ']' :: r)) = some (t' :: ts, r) :=
        ih (by simpa using hn) (gap_eq hopens hopens.spaces)
      have hitem := itemsWithin_item (n := n) hw (hs.1.append _) (hs.2 _ (Ends.cons (by decide) _))
      have hcomma : further (s' :: ss) ++ ']' :: r = ',' :: ' ' :: (listed (s' :: ss) ++ ']' :: r) := by
        rw [further_cons, listed_cons, List.cons_append, List.cons_append]
      rw [hitem, hcomma]
      exact congrArg (Option.map _) hmore

theorem spells_list {ss : List (List Char)} {ts : List Tree}
    (h : List.Forall₂ (Spells (valueWithin d)) ss ts) :
    Spells (valueWithin (d + 1)) ('[' :: (listed ss ++ [']'])) (.list ts) := by
  refine ⟨⟨_, _, rfl, by decide⟩, fun r hr => ?_⟩
  have hlength := length_le_listed ss
  have hgap : gap (listed ss ++ ']' :: r) = listed ss ++ ']' :: r := by
    cases h with
    | nil => rfl
    | @cons s t ss ts hs hrest =>
      have hopens : Opens (listed (s :: ss) ++ ']' :: r) := listed_cons s ss ▸ (hs.1.append _).append _
      exact gap_eq hopens hopens.spaces
  have hlist : ∀ s, valueWithin (d + 1) ('[' :: s) =
      (itemsWithin (valueWithin d) (s.length + 1) s).map fun (ts, r) => (.list ts, r) := fun s => rfl
  rw [List.cons_append, List.append_assoc, List.singleton_append, hlist,
    itemsWithin_listed h (by rw [List.length_append, List.length_cons]; omega) hgap]
  rfl

/-- An entry of a table, as it is written behind a brace or on a line. -/
def SpellsEntry (read : List Char → Option (Tree × List Char)) (l : List Char) (e : String × Tree) : Prop :=
  ∃ s, l = (writeKey e.1).toList ++ ' ' :: '=' :: ' ' :: s ∧ Spells read s e.2

theorem SpellsEntry.opens {l : List Char} {e : String × Tree} (h : SpellsEntry read l e) : Opens l := by
  obtain ⟨s, rfl, -⟩ := h
  exact (opens_writeKey e.1).append _

theorem pair?_spelled {l : List Char} {e : String × Tree} (h : SpellsEntry read l e) {r : List Char}
    (hr : Ends r) : pair? read (l ++ r) = some ([e.1], e.2, r) := by
  obtain ⟨s, rfl, hs, hread⟩ := h
  have hkey : key? ((writeKey e.1).toList ++ ' ' :: '=' :: ' ' :: (s ++ r)) =
      some ([e.1], '=' :: ' ' :: (s ++ r)) := by
    rw [← pathText_singleton]
    exact key?_pathText (by simp) (by rw [List.length_singleton]; decide) (fun c hc => by cases hc; rfl)
      (fun u hu => nomatch hu)
  have hspaces : spaces (' ' :: (s ++ r)) = s ++ r := (hs.append r).spaces
  rw [pair?, List.append_assoc, List.cons_append, List.cons_append, List.cons_append, hkey]
  simp [expect?, hspaces, hread r hr]

theorem put_of_lookup_eq_none {k : String} {n : Node} {es : Entries} (h : es.lookup k = none) :
    put k n es = es ++ [(k, n)] := by
  induction es with
  | nil => rfl
  | cons e es ih =>
    rw [Table.lookup_cons_eq] at h
    split at h
    · cases h
    · next hk => rw [put, if_neg (Ne.symm hk), ih h, List.cons_append]

theorem assign_new {k : String} {n : Node} {es : Entries} (h : es.lookup k = none) :
    assign [k] n .header es = some (es ++ [(k, n)]) := by
  have hpath : splitPath [k] = some ([], k) := rfl
  rw [assign, hpath, Option.bind_some]
  dsimp only
  rw [changeAt, if_neg (by decide), h]
  exact congrArg some (put_of_lookup_eq_none h)

/-- The entries of a table whose trees are values on the lines of their keys. -/
def valueNodes (es : List (String × Tree)) : Entries := es.map fun e => (e.1, .value e.2)

theorem treesOf_valueNodes (es : List (String × Tree)) : treesOf (valueNodes es) = es := by
  induction es with
  | nil => rfl
  | cons e es ih => rw [valueNodes, List.map_cons, ← valueNodes, treesOf, ih, Node.tree]

theorem lookup_valueNodes_eq_none {es : List (String × Tree)} {k : String} (h : k ∉ es.map (·.1)) :
    (valueNodes es).lookup k = none := by
  induction es with
  | nil => rfl
  | cons e es ih =>
    rw [List.map_cons, List.mem_cons, not_or] at h
    rw [valueNodes, List.map_cons, Table.lookup_cons_eq, if_neg h.1]
    exact ih h.2

theorem pairsWithin_space (n : Nat) (es : Entries) (s : List Char) :
    pairsWithin read n es (' ' :: s) = pairsWithin read n es s := by
  cases n <;> rfl

theorem pairsWithin_entry {n : Nat} {es : List (String × Tree)} {l r : List Char} {e : String × Tree}
    (h : SpellsEntry read l e) (hr : Ends r) (hnew : e.1 ∉ es.map (·.1)) :
    pairsWithin read (n + 1) (valueNodes es) (l ++ r) =
      match spaces r with
      | '\x7d' :: r => some (valueNodes (es ++ [e]), r)
      | ',' :: r => pairsWithin read n (valueNodes (es ++ [e])) r
      | _ => none := by
  have hassign : assign [e.1] (.value e.2) .header (valueNodes es) = some (valueNodes (es ++ [e])) := by
    rw [assign_new (lookup_valueNodes_eq_none hnew), valueNodes, valueNodes, List.map_append]
    rfl
  rw [pairsWithin, pair?_spelled h hr]
  refine (congrArg (Option.bind · _) hassign).trans ?_
  rfl

theorem pairsWithin_listed (before : List (String × Tree)) {l : List Char} {ls : List (List Char)}
    {e : String × Tree} {es : List (String × Tree)} (h : SpellsEntry read l e)
    (hs : List.Forall₂ (SpellsEntry read) ls es) (hd : DistinctKeys (before ++ e :: es)) {n : Nat}
    (hn : ls.length < n) (r : List Char) :
    pairsWithin read n (valueNodes before) (listed (l :: ls) ++ ' ' :: '\x7d' :: r) =
      some (valueNodes (before ++ e :: es), r) := by
  induction hs generalizing l e n before with
  | nil =>
    obtain ⟨n, rfl⟩ : ∃ m, n = m + 1 := ⟨n - 1, by omega⟩
    rw [listed_cons, List.append_assoc]
    exact pairsWithin_entry h (Ends.cons (by decide) _) hd.not_mem
  | @cons l' e' ls es h' hs ih =>
    obtain ⟨n, rfl⟩ : ∃ m, n = m + 1 := ⟨n - 1, by omega⟩
    have hcomma : further (l' :: ls) ++ ' ' :: '\x7d' :: r =
        ',' :: ' ' :: (listed (l' :: ls) ++ ' ' :: '\x7d' :: r) := by
      rw [further_cons, listed_cons, List.cons_append, List.cons_append]
    have happend : before ++ e :: e' :: es = before ++ [e] ++ e' :: es := by simp
    have hmore := ih (before ++ [e]) h' (happend ▸ hd) (Nat.lt_of_succ_lt_succ hn)
    rw [listed_cons, List.append_assoc, pairsWithin_entry h (by rw [hcomma]; exact Ends.cons (by decide) _)
      hd.not_mem, hcomma, happend, ← hmore, ← pairsWithin_space n]
    rfl

theorem valueWithin_of_brace {s : List Char} (h : Opens s) : valueWithin (d + 1) ('\x7b' :: ' ' :: s) =
    (pairsWithin (valueWithin d) (s.length + 2) [] s).map fun p => (.table (treesOf p.1), p.2) := by
  obtain ⟨c, s, rfl, hc⟩ := h
  have hspaces : spaces (' ' :: c :: s) = c :: s := Opens.spaces ⟨c, s, rfl, hc⟩
  rw [valueWithin]
  dsimp only
  rw [hspaces]
  split
  · next heq => exact absurd ((List.cons.inj heq).1 ▸ hc) (by decide)
  · rfl

/-- A table on one line keeps its entries in their order. -/
theorem spells_table {ls : List (List Char)} {es : List (String × Tree)}
    (h : List.Forall₂ (SpellsEntry (valueWithin d)) ls es) (hd : DistinctKeys es) :
    Spells (valueWithin (d + 1)) ('\x7b' :: ' ' :: (listed ls ++ [' ', '\x7d'])) (.table es) := by
  refine ⟨⟨_, _, rfl, by decide⟩, fun r hr => ?_⟩
  rw [List.cons_append, List.cons_append, List.append_assoc]
  cases h with
  | nil => rfl
  | @cons l e ls es h hs =>
    have hopens : Opens (listed (l :: ls) ++ ' ' :: '\x7d' :: r) :=
      listed_cons l ls ▸ (h.opens.append _).append _
    have hlength : ls.length < (listed (l :: ls) ++ ' ' :: '\x7d' :: r).length + 2 := by
      have hle := length_le_listed (l :: ls)
      rw [List.length_cons] at hle
      rw [List.length_append]
      omega
    have hpairs := pairsWithin_listed [] h hs hd hlength r
    rw [List.nil_append] at hpairs
    refine (valueWithin_of_brace hopens).trans ((congrArg (Option.map _) hpairs).trans ?_)
    exact congrArg (fun es => some (Tree.table es, r)) (treesOf_valueNodes (e :: es))

theorem exists_inlineItems {P : List Char → Tree → Prop} {ts : List Tree}
    (h : ∀ t ∈ ts, ∃ s, inline? t = some s ∧ P s.toList t) :
    ∃ ss, inlineItems? ts = some ss ∧ List.Forall₂ P (ss.map String.toList) ts := by
  induction ts with
  | nil => exact ⟨[], rfl, .nil⟩
  | cons t ts ih =>
    obtain ⟨s, hs, hp⟩ := h t List.mem_cons_self
    obtain ⟨ss, hss, hps⟩ := ih fun u hu => h u (List.mem_cons_of_mem _ hu)
    refine ⟨s :: ss, ?_, .cons hp hps⟩
    rw [inlineItems?, hs, hss]
    rfl

theorem exists_inlineEntries {es : List (String × Tree)}
    (h : ∀ e ∈ es, ∃ s, inline? e.2 = some s ∧ Spells read s.toList e.2) :
    ∃ ls, inlineEntries? es = some ls ∧ List.Forall₂ (SpellsEntry read) (ls.map String.toList) es := by
  induction es with
  | nil => exact ⟨[], rfl, .nil⟩
  | cons e es ih =>
    obtain ⟨s, hs, hread⟩ := h e List.mem_cons_self
    obtain ⟨ls, hls, hreads⟩ := ih fun u hu => h u (List.mem_cons_of_mem _ hu)
    refine ⟨(writeKey e.1 ++ " = " ++ s) :: ls, ?_, .cons ⟨s.toList, ?_, hread⟩ hreads⟩
    · rw [inlineEntries?, hs, hls]
      rfl
    · rw [String.toList_append, String.toList_append, List.append_assoc]
      rfl

/-- What is written on one line is read back. -/
theorem exists_inline {t : Tree} (h : Legible d t) :
    ∃ s, inline? t = some s ∧ Spells (valueWithin d) s.toList t := by
  induction d generalizing t with
  | zero =>
    cases t with
    | bool b => exact ⟨_, rfl, spells_bool 0 b⟩
    | int i => exact ⟨_, by rw [inline?, h, Option.map_some], spells_int 0 h⟩
    | text s => exact ⟨_, rfl, spells_text 0 s⟩
    | null | float | date | list | table => exact h.elim
  | succ d ih =>
    cases t with
    | bool b => exact ⟨_, rfl, spells_bool _ b⟩
    | int i => exact ⟨_, by rw [inline?, h, Option.map_some], spells_int _ h⟩
    | text s => exact ⟨_, rfl, spells_text _ s⟩
    | list ts =>
      obtain ⟨ss, hss, hreads⟩ := exists_inlineItems fun t ht => ih (h t ht)
      refine ⟨_, by rw [inline?, hss, Option.map_some], ?_⟩
      rw [String.toList_append, String.toList_append, String.toList_intercalate]
      exact spells_list hreads
    | table es =>
      obtain ⟨ls, hls, hreads⟩ := exists_inlineEntries fun e he => ih (h.2 e he)
      refine ⟨_, by rw [inline?, hls, Option.map_some], ?_⟩
      rw [String.toList_append, String.toList_append, String.toList_intercalate]
      exact spells_table hreads h.1
    | null | float | date => exact h.elim

end FragmentMerge.Toml
