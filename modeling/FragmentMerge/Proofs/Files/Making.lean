import FragmentMerge.Proofs.Files.Folder

/-! Changes that succeed. Directories can be made along a path that ends in a name, as long as no file
stands on the way; a file can be written where no directory stands. Each way has one entry, before and
after. -/

namespace FragmentMerge

namespace Path

variable {p : String}

theorem ofSegments_segments (p : String) : ofSegments (segments p) = p := by
  have hlist : (segments p).map String.toList = p.toList.splitOn '/' := by
    rw [segments, List.map_map]
    exact (List.map_congr_left fun l _ => String.toList_ofList).trans (List.map_id _)
  rw [ofSegments, ← String.toList_inj, String.toList_intercalate, hlist]
  exact List.intercalate_splitOn '/'

theorem ofSegments_append {as bs : List String} (ha : as ≠ []) (hb : bs ≠ []) :
    ofSegments (as ++ bs) = ofSegments as ++ "/" ++ ofSegments bs := by
  obtain ⟨b, bs, rfl⟩ := List.exists_cons_of_ne_nil hb
  have hcons : ∀ x y : String, ∀ zs, ofSegments (x :: y :: zs) = x ++ "/" ++ ofSegments (y :: zs) :=
    fun x y zs => String.intercalate_cons_cons
  induction as with
  | nil => exact absurd rfl ha
  | cons a as ih =>
    cases as with
    | nil => exact (hcons a b bs).trans (by rw [ofSegments, ofSegments, String.intercalate_singleton])
    | cons a' as =>
      have h := ih (by simp)
      rw [List.cons_append] at h
      rw [List.cons_append, List.cons_append, hcons, hcons, h]
      simp only [String.append_assoc]

def EndsInName (p : String) : Prop :=
  (∃ ss s, segments p = ss ++ [s] ∧ isIdle s = false) ∨ names (segments p) = []

theorem trimEnd_cases (s : String) (ss : List String) :
    trimEnd (s :: ss) = [s] ∨ ∃ us u, trimEnd (s :: ss) = us ++ [u] ∧ isIdle u = false := by
  rw [trimEnd]
  have hhead := List.head?_dropWhile_not isIdle ss.reverse
  cases hdrop : ss.reverse.dropWhile isIdle with
  | nil => exact .inl rfl
  | cons u us =>
    rw [hdrop] at hhead
    exact .inr ⟨s :: us.reverse, u, by simp, hhead⟩

theorem endsInName_of_segments {s : String} {ss : List String} (h : segments p = trimEnd (s :: ss)) :
    EndsInName p := by
  rcases trimEnd_cases s ss with hone | ⟨us, u, hlast, hu⟩
  · cases hs : isIdle s with
    | true => exact .inr (by rw [h, hone]; simp [names, hs])
    | false => exact .inl ⟨[], s, h.trans hone, hs⟩
  · exact .inl ⟨us, u, h.trans hlast, hu⟩

theorem trimEnd_prefix (ss : List String) : trimEnd ss <+: ss := by
  cases ss with
  | nil => exact List.prefix_rfl
  | cons s ss =>
    rw [trimEnd, List.cons_prefix_cons]
    refine ⟨rfl, ?_⟩
    have hsuffix := List.reverse_prefix.2 (List.dropWhile_suffix (l := ss.reverse) isIdle)
    rwa [List.reverse_reverse] at hsuffix

structure Above (p up : String) : Prop where
  parent : parent? p = some up
  filled : up ≠ ""
  absolute : isAbsolute up = isAbsolute p
  names : names (segments up) = (names (segments p)).dropLast
  ends : EndsInName up
  text : up.toList <+: p.toList

theorem parent?_of_trimEnd {t s : String} {ts : List String} (h : trimEnd (segments p) = t :: (ts ++ [s])) :
    (trimEnd (t :: ts) = [""] ∧ parent? p = some "/") ∨
      (trimEnd (t :: ts) ≠ [""] ∧ parent? p = some (ofSegments (trimEnd (t :: ts)))) := by
  have hfront : (t :: (ts ++ [s])).dropLast = t :: ts := by
    rw [← List.cons_append, List.dropLast_concat]
  obtain ⟨x, xs, hx⟩ : ∃ x xs, ts ++ [s] = x :: xs := List.exists_cons_of_ne_nil (by simp)
  rw [hx] at h hfront
  rw [parent?, h]
  dsimp only
  rw [hfront]
  split
  · next hroot => exact .inl ⟨hroot, rfl⟩
  · next hroot => exact .inr ⟨hroot, rfl⟩

/-- A path that ends in a name is that name alone, or stands below another path. -/
theorem parent?_cases {s : String} {ss : List String} (hseg : segments p = ss ++ [s]) (hs : isIdle s = false) :
    (ss = [] ∧ parent? p = some "") ∨ ∃ up, Above p up := by
  have hfilled : s ≠ "" := fun h => by simp [isIdle, h] at hs
  cases ss with
  | nil =>
    refine .inl ⟨rfl, ?_⟩
    rw [parent?, hseg]
    simp [trimEnd, hfilled]
  | cons t ts =>
    right
    have htrim : trimEnd (segments p) = t :: (ts ++ [s]) := by simp [hseg, trimEnd, hs]
    have hnames : names (trimEnd (t :: ts)) = (names (segments p)).dropLast := by
      rw [names_trimEnd, hseg, names_name hs, List.dropLast_concat]
    obtain ⟨us, hus⟩ : ∃ us, trimEnd (t :: ts) = t :: us := ⟨_, rfl⟩
    obtain ⟨rest, hrest⟩ := trimEnd_prefix (t :: ts)
    have hparent := parent?_of_trimEnd htrim
    rw [hus] at hparent hnames hrest
    rcases hparent with ⟨hroot, hparent⟩ | ⟨hroot, hparent⟩
    · -- the path stands below the root itself
      obtain ⟨rfl, rfl⟩ := List.cons.inj hroot
      have habs : isAbsolute p = true := by
        obtain ⟨x, xs, hx⟩ : ∃ x xs, ts ++ [s] = x :: xs := List.exists_cons_of_ne_nil (by simp)
        rw [isAbsolute_of_trimEnd (htrim.trans (by rw [hx]))]
        rfl
      obtain ⟨cs, hcs⟩ := List.head?_eq_some_iff.1 (eq_of_beq habs)
      exact ⟨"/", hparent, by decide, habs.symm, hnames, .inr rfl, cs, by simp [hcs]⟩
    · have hslash : ∀ x ∈ t :: us, '/' ∉ x.toList := fun x hx =>
        not_mem_of_mem_segments (hseg ▸ List.mem_append_left _ (hrest ▸ List.mem_append_left _ hx))
      have hup : segments (ofSegments (t :: us)) = t :: us := segments_ofSegments (by simp) hslash
      have hne : ofSegments (t :: us) ≠ "" := by
        intro he
        rw [he] at hup
        exact hroot hup.symm
      have habs : isAbsolute (ofSegments (t :: us)) = isAbsolute p :=
        ((names_parent? hparent).resolve_left hne).1
      have htext : ofSegments (t :: us) ++ "/" ++ ofSegments (rest ++ [s]) = p := by
        rw [← ofSegments_append (by simp) (by simp), ← List.append_assoc, hrest, ← hseg, ofSegments_segments]
      refine ⟨ofSegments (t :: us), hparent, hne, habs, by rw [hup, hnames], ?_, ?_⟩
      · exact endsInName_of_segments (hup.trans hus.symm)
      · rw [← htext, String.toList_append, String.toList_append, List.append_assoc]
        exact List.prefix_append _ _

end Path

namespace Disk

open FragmentMerge.Path

variable {d d' : Disk} {p dir name : String} {way : List String} {c : Content}

/-- Each way has one entry. -/
def Distinct (d : Disk) : Prop := (d.entries.map Prod.fst).Nodup

theorem mem_putIn {way k : List String} {e : Entry} {es : List (List String × Entry)} :
    k ∈ (putIn way e es).map Prod.fst ↔ k = way ∨ k ∈ es.map Prod.fst := by
  induction es with
  | nil => simp [putIn]
  | cons x es ih =>
    obtain ⟨n, e'⟩ := x
    rw [putIn]
    split
    · next hn =>
      subst hn
      simp
    · rw [List.map_cons, List.map_cons, List.mem_cons, ih, List.mem_cons]
      exact or_left_comm

theorem Distinct.put (h : d.Distinct) (way : List String) (e : Entry) : (d.put way e).Distinct := by
  unfold Distinct Disk.put at *
  dsimp only
  generalize d.entries = es at h
  induction es with
  | nil => simp [putIn]
  | cons x es ih =>
    obtain ⟨n, e'⟩ := x
    rw [List.map_cons, List.nodup_cons] at h
    rw [putIn]
    split
    · next hn =>
      subst hn
      exact List.nodup_cons.2 h
    · next hn =>
      refine List.nodup_cons.2 ⟨fun hm => ?_, ih h.2⟩
      exact (mem_putIn.1 hm).elim hn h.1

theorem Distinct.prune (h : d.Distinct) (way : List String) : (d.prune way).Distinct :=
  List.Nodup.sublist (List.filter_sublist.map _) h

theorem Distinct.namesIn (h : d.Distinct) (way : List String) : (d.namesIn way).Nodup := by
  rw [namesIn_eq, (List.mergeSort_perm _ _).nodup_iff]
  refine List.pairwise_filterMap.2 ((List.pairwise_map.1 h).imp fun {a b} hab s hs t ht heq => hab ?_)
  rw [listed?_eq_some_iff.1 hs, listed?_eq_some_iff.1 ht, heq]

/-- A path along which directories can be made. -/
structure Open (d : Disk) (p : String) : Prop where
  tree : d.IsTree
  start : d.entry? (d.start p) = some .directory
  up : ".." ∉ segments p
  usable : IsUsable p
  sizes : ∀ s ∈ names (segments p), s.utf8ByteSize ≤ nameLimit
  clear : ∀ k, k <+: d.wayTo p → d.entry? k = none ∨ d.entry? k = some .directory
  ends : EndsInName p

theorem locate_of_usable (h : IsUsable p) : d.locate p = d.walk (d.start p) (segments p) := by
  rw [locate, if_neg (by simpa using h.filled), if_neg (by simpa using h.clean), if_neg (Nat.not_lt.2 h.short)]
  rfl

/-- Along names that no file stands in the way of, a walk comes to the directory or to nothing. -/
theorem walk_clear {ss : List String} (hup : ".." ∉ ss) (hsizes : ∀ s ∈ names ss, s.utf8ByteSize ≤ nameLimit)
    (hclear : ∀ k, k <+: way ++ names ss → d.entry? k = none ∨ d.entry? k = some .directory) :
    d.walk way ss = .ok (.directory (way ++ names ss)) ∨
      ((∃ w b, d.walk way ss = .ok (.vacant w b)) ∨ d.walk way ss = .error .notFound) := by
  induction ss using List.reverseRecOn with
  | nil => exact .inl (by rw [names, List.filter_nil, List.append_nil]; rfl)
  | append_singleton ss s ih =>
    rw [walk_concat]
    have hfront : names ss <+: names (ss ++ [s]) := by
      rw [names_append]
      exact List.prefix_append _ _
    rcases ih (fun h => hup (List.mem_append_left _ h)) (fun x hx => hsizes x (hfront.subset hx))
        (fun k hk => hclear k (hk.trans ((List.prefix_append_right_inj _).2 hfront))) with hdir | hnone
    · simp only [hdir, Except.bind]
      cases hi : isIdle s with
      | true => exact .inl (by rw [step, if_pos hi, names_idle hi])
      | false =>
        rw [names_name hi] at hsizes hclear ⊢
        rw [step_below hi (hsizes s (by simp)) fun h => hup (by simp [h]), List.append_assoc]
        rcases hclear _ List.prefix_rfl with he | he
        · exact .inr (.inl ⟨way ++ (names ss ++ [s]), false, by rw [spotAt, he]⟩)
        · exact .inl (by rw [spotAt, he])
    · right
      rcases hnone with ⟨w, b, hw⟩ | herr
      · simp only [hw, Except.bind, step]
        split
        · exact .inl ⟨w, true, rfl⟩
        · exact .inr rfl
      · simp only [herr, Except.bind]
        exact .inr trivial

theorem Open.cases (h : d.Open p) {ss : List String} {s : String} (hseg : segments p = ss ++ [s])
    (hs : isIdle s = false) : d.locate p = .ok (.directory (d.wayTo p)) ∨
      (d.locate p = .ok (.vacant (d.wayTo p) false) ∧
        d.walk (d.start p) ss = .ok (.directory (d.start p ++ names ss))) ∨
      (d.locate p = .error .notFound ∧ ∀ w, d.walk (d.start p) ss ≠ .ok (.directory w)) := by
  have hup : ".." ∉ ss ∧ s ≠ ".." := by
    have := h.up
    rw [hseg] at this
    exact ⟨fun hm => this (List.mem_append_left _ hm), fun he => this (by simp [he])⟩
  have hway : d.wayTo p = d.start p ++ names ss ++ [s] := by rw [wayTo, hseg, names_name hs, List.append_assoc]
  have hclear := h.clear
  have hsizes := h.sizes
  rw [hseg, names_name hs] at hsizes
  have hlocate : d.locate p = (d.walk (d.start p) ss).bind fun spot => d.step spot s := by
    rw [locate_of_usable h.usable, hseg, walk_concat]
  rw [hlocate, hway]
  rcases walk_clear hup.1 (fun x hx => hsizes x (List.mem_append_left _ hx))
      (fun k hk => hclear k (hway ▸ hk.trans (List.prefix_append _ _))) with hdir | hnone
  · simp only [hdir, Except.bind]
    rw [step_below hs (hsizes s (by simp)) hup.2]
    rcases hclear _ List.prefix_rfl with he | he
    · rw [hway] at he
      exact .inr (.inl ⟨by rw [spotAt, he], trivial⟩)
    · rw [hway] at he
      exact .inl (by rw [spotAt, he])
  · refine .inr (.inr ?_)
    have hfilled : s ≠ "" := fun he => by simp [isIdle, he] at hs
    rcases hnone with ⟨w, b, hw⟩ | herr
    · simp [hw, Except.bind, step, hfilled]
    · simp [herr, Except.bind]

theorem locate_of_entry (ht : d.IsTree) (hup : ".." ∉ segments p) (hu : IsUsable p)
    (hsizes : ∀ s ∈ names (segments p), s.utf8ByteSize ≤ nameLimit)
    (he : d.entry? (d.wayTo p) = some .directory) : d.locate p = .ok (.directory (d.wayTo p)) := by
  rw [locate_of_usable hu]
  refine (walk_down_iff hup).2 ⟨rfl, hsizes, fun ks hks _ => ?_⟩
  by_cases hall : d.start p ++ ks = d.wayTo p
  · rw [hall, he]
  · have hsome : d.entry? (d.wayTo p) ≠ none := by simp [he]
    exact ht.above hsome ((List.prefix_append_right_inj _).2 hks) hall

theorem Open.grown (h : d.Open p) (hg : Grown (d.start p) (names (segments p)) d d') : d'.Open p := by
  have hstart := start_eq hg.keeps.here p
  refine ⟨hg.tree, hstart ▸ hg.keeps.directory h.start, h.up, h.usable, h.sizes, fun k hk => ?_, h.ends⟩
  rcases hg.new k with he | ⟨he, -⟩
  · exact he ▸ h.clear k (wayTo_eq hg.keeps.here p ▸ hk)
  · exact .inr he

/-- One directory is made, or is there, unless the one above it is missing. -/
theorem Open.make (h : d.Open p) (hd : d.Distinct) {ss : List String} {s : String}
    (hseg : segments p = ss ++ [s]) (hs : isIdle s = false) :
    (∃ d', (d.makeDirectory p = .ok d' ∨
        d' = d ∧ d.makeDirectory p = .error .alreadyExists ∧ d.isDirectory p = true) ∧
      d'.Distinct ∧ d'.locate p = .ok (.directory (d.wayTo p))) ∨
    (d.makeDirectory p = .error .notFound ∧ ∀ w, d.walk (d.start p) ss ≠ .ok (.directory w)) := by
  rcases h.cases hseg hs with hdir | ⟨hvacant, -⟩ | ⟨hnone, hwalk⟩
  · exact .inl ⟨d, .inr ⟨rfl, by rw [makeDirectory, hdir], by rw [isDirectory, hdir]⟩, hd, hdir⟩
  · have hmake : d.makeDirectory p = .ok (d.put (d.wayTo p) .directory) := by rw [makeDirectory, hvacant]
    have hg := grown_makeDirectory h.tree h.start h.up hmake
    have hway : d.wayTo p ≠ [] := by
      rw [wayTo, hseg, names_name hs]
      simp
    have hentry : Disk.entry? (d.put (d.wayTo p) .directory) (d.wayTo p) = some .directory := by
      rw [entry?_put d hway, if_pos rfl]
    exact .inl ⟨_, .inl hmake, hd.put _ _, locate_of_entry hg.tree h.up h.usable h.sizes hentry⟩
  · exact .inr ⟨by rw [makeDirectory, hnone], hwalk⟩

theorem Open.above (h : d.Open p) {up : String} (ha : Above p up) (hne : names (segments p) ≠ []) :
    d.Open up ∧ up.length < p.length := by
  have hfront : names (segments up) <+: names (segments p) := ha.names ▸ List.dropLast_prefix _
  have hstart : d.start up = d.start p := by rw [Disk.start, Disk.start, ha.absolute]
  have hup : ".." ∉ segments up := up_not_mem_iff.1 fun hm => up_not_mem_iff.2 h.up (hfront.subset hm)
  obtain ⟨rest, hrest⟩ := ha.text
  have hp : p = up ++ String.ofList rest := String.ext (by simp [hrest])
  refine ⟨⟨h.tree, hstart ▸ h.start, hup, ⟨ha.filled, fun hm => h.usable.clean (ha.text.subset hm), ?_⟩,
    fun s hs => h.sizes s (hfront.subset hs), fun k hk => h.clear k (hk.trans ?_), ha.ends⟩, ?_⟩
  · refine Nat.le_trans ?_ h.usable.short
    rw [hp, String.utf8ByteSize_append]
    exact Nat.le_add_right _ _
  · rw [wayTo, wayTo, hstart]
    exact (List.prefix_append_right_inj _).2 hfront
  · -- the two paths differ, as they have different names
    have hle : up.length ≤ p.length := by
      rw [← String.length_toList, ← String.length_toList]
      exact ha.text.length_le
    refine Nat.lt_of_le_of_ne hle fun hlen => ?_
    rw [← String.length_toList, ← String.length_toList] at hlen
    have heq : up = p := String.ext (ha.text.eq_of_length hlen)
    have hnames := congrArg List.length ha.names
    rw [heq, List.length_dropLast] at hnames
    have := List.length_pos_iff.2 hne
    omega

theorem exists_makeDirectoriesWithin (h : d.Open p) (hd : d.Distinct) {n : Nat} (hn : p.length < n) :
    ∃ d', makeDirectoriesWithin n d p = .ok d' ∧ d'.Distinct ∧
      d'.locate p = .ok (.directory (d.wayTo p)) := by
  induction n generalizing p with
  | zero => cases hn
  | succ n ih =>
    rw [makeDirectoriesWithin, if_neg (by simpa using h.usable.filled)]
    rcases h.ends with ⟨ss, s, hseg, hs⟩ | hnil
    · have hne : names (segments p) ≠ [] := by simp [hseg, names_name hs]
      rcases h.make hd hseg hs with ⟨d', hmade | ⟨rfl, hthere, hisdir⟩, hdone⟩ | ⟨hmissing, hwalk⟩
      · exact ⟨d', by rw [hmade], hdone⟩
      · exact ⟨d', by rw [hthere, hisdir]; rfl, hdone⟩
      · rcases parent?_cases hseg hs with ⟨rfl, -⟩ | ⟨up, ha⟩
        · exact absurd rfl (hwalk (d.start p))
        · obtain ⟨hopen, hshort⟩ := h.above ha hne
          obtain ⟨d₁, hmake, hd₁, hloc⟩ := ih hopen (by omega)
          have hstart : d.start up = d.start p := by rw [Disk.start, Disk.start, ha.absolute]
          have hfront : names (segments up) <+: names (segments p) := ha.names ▸ List.dropLast_prefix _
          have hgrown := (hstart ▸ grown_makeDirectories hopen.tree hopen.start hopen.up hmake).mono hfront
          rcases (h.grown hgrown).make hd₁ hseg hs with ⟨d', hcase, hdist, hdir⟩ | ⟨-, hnowhere⟩
          · rw [wayTo_eq hgrown.keeps.here p] at hdir
            refine ⟨d', ?_, hdist, hdir⟩
            rw [hmissing, ha.parent]
            rcases hcase with hmade | ⟨rfl, hthere, hisdir⟩
            · simp only [hmake, hmade]
            · simp only [hmake, hthere, hisdir, if_true]
          · -- the directory above is there now
            have hwalk := (locate_eq_ok_iff.1 hloc).2
            rw [start_eq hgrown.keeps.here, hstart, walk_down_iff hopen.up, ha.names, hseg, names_name hs,
              List.dropLast_concat] at hwalk
            have hup : ".." ∉ ss := fun hm => h.up (hseg ▸ List.mem_append_left _ hm)
            rw [start_eq hgrown.keeps.here] at hnowhere
            exact absurd ((walk_down_iff hup).2 hwalk) (hnowhere _)
    · have hway : d.wayTo p = d.start p := by rw [wayTo, hnil, List.append_nil]
      have hloc := locate_of_entry h.tree h.up h.usable h.sizes (hway ▸ h.start)
      refine ⟨d, ?_, hd, hloc⟩
      simp only [makeDirectory, isDirectory, hloc, if_true]

theorem exists_makeDirectories (h : d.Open p) (hd : d.Distinct) :
    ∃ d', d.makeDirectories p = .ok d' ∧ d'.Distinct ∧ d'.locate p = .ok (.directory (d.wayTo p)) :=
  exists_makeDirectoriesWithin h hd (Nat.lt_succ_self _)

namespace Folder

/-- A file can be written where no directory stands. -/
theorem exists_write (h : d.Folder dir way) (hn : IsName name) (hf : Fits dir name)
    (he : d.entry? (way ++ [name]) ≠ some .directory) (c : Content) :
    d.write (join dir name) c = .ok (d.put (way ++ [name]) (.file c)) := by
  rw [Disk.write, locate_join h.locate hn hf, spotAt]
  cases hentry : d.entry? (way ++ [name]) with
  | none => rfl
  | some e =>
    cases e with
    | file c' => rfl
    | directory => exact absurd hentry he

theorem exists_removeFile (h : d.Folder dir way) (hn : IsName name) (hf : Fits dir name)
    (he : d.entry? (way ++ [name]) = some (.file c)) :
    d.removeFile (join dir name) = .ok (d.prune (way ++ [name])) := by
  rw [Disk.removeFile, locate_join h.locate hn hf, spotAt_eq_file_iff.2 ⟨he, rfl⟩]

theorem exists_removeTree (h : d.Folder dir way) (hn : IsName name)
    (hd : d.isDirectory (join dir name) = true) :
    d.removeTree (join dir name) = .ok (d.prune (way ++ [name])) := by
  obtain ⟨hf, he⟩ := (h.isDirectory_iff hn).1 hd
  rw [Disk.removeTree, locate_join h.locate hn hf, spotAt_eq_directory_iff.2 ⟨he, rfl⟩]

end Folder

end Disk

end FragmentMerge
