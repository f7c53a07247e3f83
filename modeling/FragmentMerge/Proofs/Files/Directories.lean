import FragmentMerge.Proofs.Files.Route

/-! Paths that never step up, and the directories that are made along a path. Such a path leads down by
its names, so what is made along it is known from the path alone. -/

namespace FragmentMerge

namespace Path

def names (ss : List String) : List String := ss.filter (!isIdle ·)

theorem names_append (ss ts : List String) : names (ss ++ ts) = names ss ++ names ts := List.filter_append ..

theorem names_idle {s : String} (h : isIdle s = true) (ss : List String) : names (ss ++ [s]) = names ss := by
  simp [names, h]

theorem names_name {s : String} (h : isIdle s = false) (ss : List String) :
    names (ss ++ [s]) = names ss ++ [s] := by
  simp [names, h]

theorem not_mem_of_mem_splitOn {sep : Char} {s l : List Char} (h : l ∈ s.splitOn sep) : sep ∉ l := by
  induction s generalizing l with
  | nil =>
    obtain rfl := List.mem_singleton.1 h
    simp
  | cons c s ih =>
    rw [List.splitOn_cons_eq_if_modifyHead] at h
    split at h
    · rcases List.mem_cons.1 h with rfl | h
      · simp
      · exact ih h
    · next hc =>
      cases hs : s.splitOn sep with
      | nil => exact absurd hs (List.splitOn_ne_nil _ _)
      | cons x xs =>
        rw [hs, List.modifyHead_cons] at h
        rcases List.mem_cons.1 h with rfl | h
        · have hx := ih (l := x) (by simp [hs])
          have hc : sep ≠ c := fun he => hc (by simp [he])
          simp [hx, hc]
        · exact ih (by simp [hs, h])

theorem not_mem_of_mem_segments {p s : String} (h : s ∈ segments p) : '/' ∉ s.toList := by
  obtain ⟨l, hl, rfl⟩ := List.mem_map.1 h
  rw [String.toList_ofList]
  exact not_mem_of_mem_splitOn hl

theorem isName_of_mem_names {p s : String} (hup : ".." ∉ segments p) (h : s ∈ names (segments p)) :
    IsName s := by
  obtain ⟨hs, hi⟩ := List.mem_filter.1 h
  have hi : s ≠ "" ∧ s ≠ "." := by simpa [isIdle] using hi
  exact ⟨hi.1, hi.2, fun he => hup (he ▸ hs), not_mem_of_mem_segments hs⟩

theorem segments_ofSegments {ss : List String} (hne : ss ≠ []) (h : ∀ s ∈ ss, '/' ∉ s.toList) :
    segments (ofSegments ss) = ss := by
  induction ss with
  | nil => exact absurd rfl hne
  | cons s ss ih =>
    have hs := segments_of_not_mem (h s List.mem_cons_self)
    cases ss with
    | nil => rw [ofSegments, String.intercalate_singleton, hs]
    | cons t ss =>
      rw [ofSegments, String.intercalate_cons_cons, segments_append_slash, hs]
      exact congrArg (s :: ·) (ih (by simp) fun x hx => h x (List.mem_cons_of_mem _ hx))

theorem names_reverse_dropWhile (ss : List String) :
    names (ss.reverse.dropWhile isIdle).reverse = names ss := by
  induction ss using List.reverseRecOn with
  | nil => rfl
  | append_singleton ss s ih =>
    rw [List.reverse_append, List.reverse_singleton, List.singleton_append]
    cases hs : isIdle s with
    | true => rw [List.dropWhile_cons_of_pos hs, ih, names_idle hs]
    | false => rw [List.dropWhile_cons_of_neg (by simp [hs]), List.reverse_cons, List.reverse_reverse]

theorem names_trimEnd (ss : List String) : names (trimEnd ss) = names ss := by
  cases ss with
  | nil => rfl
  | cons s ss =>
    have h := names_reverse_dropWhile ss
    rw [trimEnd, ← List.singleton_append, ← List.singleton_append (l := ss), names_append, names_append, h]

theorem mem_of_mem_trimEnd {ss : List String} {s : String} (h : s ∈ trimEnd ss) : s ∈ ss := by
  cases ss with
  | nil => exact h
  | cons t ss =>
    rcases List.mem_cons.1 h with rfl | h
    · exact List.mem_cons_self
    · rw [List.mem_reverse] at h
      exact List.mem_cons_of_mem _ (List.mem_reverse.1 ((List.dropWhile_suffix _).subset h))

/-- A path starts at the root when its first segment is empty and not the only one. -/
theorem isAbsolute_eq (p : String) :
    isAbsolute p = ((segments p).head? == some "" && decide (1 < (segments p).length)) := by
  rw [isAbsolute, segments]
  cases p.toList with
  | nil => rfl
  | cons c s =>
    obtain ⟨x, xs, hx⟩ := List.exists_cons_of_ne_nil (List.splitOn_ne_nil '/' s)
    rw [List.splitOn_cons_eq_if_modifyHead, hx]
    by_cases hc : c = '/'
    · simp [hc]
    · have hne : (String.ofList (c :: x) == "") = false := by simp
      have hhead : ((x :: xs).modifyHead (c :: ·)).map String.ofList =
          String.ofList (c :: x) :: xs.map String.ofList := rfl
      have hfirst : (some (String.ofList (c :: x)) == some "") = false := hne
      rw [if_neg (by simpa using hc), hhead, List.head?_cons, List.head?_cons, hfirst, Bool.false_and]
      simpa using hc

theorem isAbsolute_ofSegments {s : String} {ss : List String} (h : ∀ t ∈ s :: ss, '/' ∉ t.toList)
    (hne : s :: ss ≠ [""]) : isAbsolute (ofSegments (s :: ss)) = (s == "") := by
  rw [isAbsolute_eq, segments_ofSegments (by simp) h, List.head?_cons, Option.some_beq_some]
  cases hs : s == "" with
  | false => rfl
  | true =>
    obtain rfl := eq_of_beq hs
    cases ss with
    | nil => exact absurd rfl hne
    | cons t ss => rfl

theorem isAbsolute_of_trimEnd {p s t : String} {ts : List String}
    (h : trimEnd (segments p) = s :: t :: ts) : isAbsolute p = (s == "") := by
  cases hseg : segments p with
  | nil => simp [hseg, trimEnd] at h
  | cons x xs =>
    rw [hseg, trimEnd] at h
    obtain ⟨rfl, hrest⟩ := List.cons.inj h
    cases xs with
    | nil => cases hrest
    | cons y ys => rw [isAbsolute_eq, hseg]; simp

theorem names_parent? {p up : String} (h : parent? p = some up) :
    up = "" ∨ isAbsolute up = isAbsolute p ∧ names (segments up) <+: names (segments p) := by
  have hnames := names_trimEnd (segments p)
  have hslash : ∀ s ∈ trimEnd (segments p), '/' ∉ s.toList :=
    fun s hs => not_mem_of_mem_segments (mem_of_mem_trimEnd hs)
  unfold parent? at h
  cases hts : trimEnd (segments p) with
  | nil => rw [hts] at h; cases h
  | cons s ts =>
    cases ts with
    | nil =>
      rw [hts] at h
      dsimp only at h
      split at h
      · cases h
      · exact .inl (Option.some.inj h).symm
    | cons t ts =>
      rw [hts] at h hslash hnames
      rw [isAbsolute_of_trimEnd hts, ← hnames]
      have hfront : names (trimEnd (s :: t :: ts).dropLast) <+: names (s :: t :: ts) := by
        rw [names_trimEnd]
        exact (List.dropLast_prefix _).filter _
      have hslash : ∀ x ∈ trimEnd (s :: t :: ts).dropLast, '/' ∉ x.toList :=
        fun x hx => hslash x (List.dropLast_subset _ (mem_of_mem_trimEnd hx))
      obtain ⟨us, hus⟩ : ∃ us, trimEnd (s :: t :: ts).dropLast = s :: us := ⟨_, rfl⟩
      dsimp only at h
      rw [hus] at h hfront hslash
      right
      split at h
      · next heq =>
        obtain ⟨rfl, rfl⟩ := List.cons.inj heq
        obtain rfl := Option.some.inj h
        exact ⟨rfl, List.nil_prefix⟩
      · next hne =>
        obtain rfl := Option.some.inj h
        refine ⟨isAbsolute_ofSegments hslash fun he => ?_, ?_⟩
        · obtain ⟨rfl, rfl⟩ := List.cons.inj he
          exact hne rfl
        · rw [segments_ofSegments (by simp) hslash]
          exact hfront

theorem up_not_mem_iff {ss : List String} : ".." ∉ names ss ↔ ".." ∉ ss := by
  simp [names, isIdle]

theorem names_join (dir : String) {name : String} (hn : IsName name) :
    names (segments (join dir name)) = names (segments dir) ++ [name] := by
  by_cases hd : dir = ""
  · have hjoin : join dir name = name := by rw [join, hd]; simp
    rw [hjoin, hd, segments_of_not_mem hn.slash]
    exact names_name hn.idle []
  · obtain ⟨ss, hjoin, hdir⟩ := segments_join hd hn.slash
    have hss : names (segments dir) = names ss := by
      rcases hdir with hdir | hdir
      · rw [hdir]
      · rw [hdir, names_idle rfl]
    rw [hjoin, names_name hn.idle, hss]

theorem up_not_mem_join {dir name : String} (hn : IsName name) (hup : ".." ∉ segments dir) :
    ".." ∉ segments (join dir name) := by
  rw [← up_not_mem_iff, names_join dir hn]
  intro h
  rcases List.mem_append.1 h with h | h
  · exact up_not_mem_iff.2 hup h
  · exact hn.up (List.mem_singleton.1 h).symm

end Path

namespace Disk

open FragmentMerge.Path

variable {d d' : Disk} {p : String} {w way ss : List String}

theorem start_join (d : Disk) (dir : String) {name : String} (hn : IsName name) :
    d.start (join dir name) = d.start dir := by
  by_cases hd : dir = ""
  · have hjoin : join dir name = name := by rw [join, hd]; simp
    have hempty : isAbsolute "" = false := rfl
    rw [hjoin, hd, start, start, isAbsolute_eq_false hn.slash, hempty]
  · rw [start, start, isAbsolute_join hd hn.slash]

theorem walk_idle_iff {s : String} (hi : isIdle s = true) :
    d.walk way (ss ++ [s]) = .ok (.directory w) ↔ d.walk way ss = .ok (.directory w) := by
  constructor
  · intro h
    obtain ⟨spot, hspot, hstep⟩ := walk_concat_ok h
    obtain ⟨v, rfl, ⟨-, rfl⟩ | ⟨hn, -⟩⟩ := step_eq_directory hstep
    · exact hspot
    · rw [hi] at hn
      cases hn
  · intro h
    rw [walk_concat, h]
    show d.step (.directory w) s = _
    rw [step, if_pos hi]

theorem walk_name_iff {s : String} (hi : isIdle s = false) (hs : s ≠ "..") :
    d.walk way (ss ++ [s]) = .ok (.directory w) ↔ ∃ v, d.walk way ss = .ok (.directory v) ∧
      s.utf8ByteSize ≤ nameLimit ∧ d.entry? (v ++ [s]) = some .directory ∧ w = v ++ [s] := by
  constructor
  · intro h
    obtain ⟨spot, hspot, hstep⟩ := walk_concat_ok h
    obtain ⟨v, rfl, ⟨hn, -⟩ | ⟨-, hsize, ⟨rfl, -⟩ | ⟨-, rfl, he⟩⟩⟩ := step_eq_directory hstep
    · rw [hi] at hn
      cases hn
    · exact absurd rfl hs
    · exact ⟨v, hspot, hsize, he, rfl⟩
  · rintro ⟨v, hv, hsize, he, rfl⟩
    rw [walk_concat, hv]
    show d.step (.directory v) s = _
    rw [step_below hi hsize hs, spotAt_eq_directory_iff.2 ⟨he, rfl⟩]

/-- A path without steps up leads to a directory when all its names do. -/
theorem walk_down_iff (hup : ".." ∉ ss) : d.walk way ss = .ok (.directory w) ↔
    w = way ++ names ss ∧ (∀ s ∈ names ss, s.utf8ByteSize ≤ nameLimit) ∧
    ∀ ks, ks <+: names ss → ks ≠ [] → d.entry? (way ++ ks) = some .directory := by
  induction ss using List.reverseRecOn generalizing w with
  | nil =>
    have hwalk : d.walk way [] = .ok (.directory way) := rfl
    simp [hwalk, names, eq_comm]
  | append_singleton ss s ih =>
    have hss : ".." ∉ ss := fun h => hup (List.mem_append_left _ h)
    have hs : s ≠ ".." := fun h => hup (h ▸ List.mem_append_right _ List.mem_cons_self)
    cases hi : isIdle s with
    | true => rw [walk_idle_iff hi, ih hss, names_idle hi]
    | false =>
      rw [walk_name_iff hi hs, names_name hi]
      constructor
      · rintro ⟨v, hv, hsize, he, rfl⟩
        obtain ⟨rfl, hsizes, hdirs⟩ := (ih hss).1 hv
        refine ⟨by simp, fun x hx => ?_, fun ks hks hne => ?_⟩
        · rcases List.mem_append.1 hx with hx | hx
          · exact hsizes x hx
          · exact List.mem_singleton.1 hx ▸ hsize
        · rcases List.prefix_concat_iff.1 hks with rfl | hks
          · rwa [← List.append_assoc]
          · exact hdirs ks hks hne
      · rintro ⟨rfl, hsizes, hdirs⟩
        have hwalk := (ih (w := way ++ names ss) hss).2 ⟨rfl, fun x hx => hsizes x (List.mem_append_left _ hx),
          fun ks hks => hdirs ks (hks.trans (List.prefix_append _ _))⟩
        have he := hdirs _ (List.prefix_refl _) (by simp)
        rw [← List.append_assoc] at he ⊢
        exact ⟨_, hwalk, hsizes s (by simp), he, rfl⟩

/-- Where a path without steps up leads. -/
def wayTo (d : Disk) (p : String) : List String := d.start p ++ names (segments p)

theorem wayTo_eq (h : d'.here = d.here) (p : String) : d'.wayTo p = d.wayTo p := by
  rw [wayTo, start_eq h, wayTo]

theorem wayTo_join (d : Disk) (dir : String) {name : String} (hn : IsName name) :
    d.wayTo (join dir name) = d.wayTo dir ++ [name] := by
  rw [wayTo, start_join d dir hn, names_join dir hn, wayTo, List.append_assoc]

theorem wayTo_of_locate_file {c : Content} (hup : ".." ∉ segments p) (h : d.locate p = .ok (.file w c)) :
    w = d.wayTo p ∧ ∀ {d' : Disk}, d'.IsTree → d'.here = d.here → d'.entry? w = some (.file c) →
      d'.locate p = .ok (.file w c) := by
  obtain ⟨hu, hw⟩ := locate_eq_ok_iff.1 h
  obtain ⟨ss, s, hseg⟩ := segments_eq_concat p
  rw [hseg] at hw hup
  obtain ⟨spot, hspot, hstep⟩ := walk_concat_ok hw
  obtain ⟨v, rfl, hi, hs, hup', rfl, -⟩ := step_eq_file hstep
  obtain ⟨hv, hsizes, -⟩ := (walk_down_iff fun hm => hup (List.mem_append_left _ hm)).1 hspot
  refine ⟨by rw [wayTo, hseg, names_name hi, hv, List.append_assoc], fun {d'} ht hhere he => ?_⟩
  have hwalk : d'.walk (d.start p) ss = .ok (.directory v) := by
    refine (walk_down_iff fun hm => hup (List.mem_append_left _ hm)).2 ⟨hv, hsizes, fun ks hks _ => ?_⟩
    have hpre : d.start p ++ ks <+: v ++ [s] :=
      ((List.prefix_append_right_inj _).2 hks).trans (hv ▸ List.prefix_append _ _)
    refine ht.above (by simp [he]) hpre fun heq => ?_
    have hle := hks.length_le
    have hlen := congrArg List.length heq
    simp only [hv, List.length_append, List.length_singleton] at hlen
    omega
  refine locate_eq_ok_iff.2 ⟨hu, ?_⟩
  rw [start_eq hhere, hseg, walk_concat, hwalk]
  show d'.step (.directory v) s = _
  rw [step_below hi hs hup', spotAt_eq_file_iff.2 ⟨he, rfl⟩]

theorem walk_vacant {b : Bool} (h : d.walk way ss = .ok (.vacant w b)) :
    ∃ ts s v, ts ++ [s] <+: ss ∧ d.walk way ts = .ok (.directory v) ∧ w = v ++ [s] ∧
      isIdle s = false ∧ d.entry? w = none := by
  induction ss using List.reverseRecOn generalizing b with
  | nil => cases h
  | append_singleton ss s ih =>
    obtain ⟨spot, hspot, hstep⟩ := walk_concat_ok h
    cases spot with
    | file v c => cases hstep
    | vacant v b' =>
      rw [step] at hstep
      split at hstep
      · cases hstep
        obtain ⟨ts, t, v, hpre, rest⟩ := ih hspot
        exact ⟨ts, t, v, hpre.trans (List.prefix_append _ _), rest⟩
      · cases hstep
    | directory v =>
      rw [step] at hstep
      split at hstep
      · cases hstep
      · next hi =>
        split at hstep
        · cases hstep
        · split at hstep
          · cases hstep
          · have hspotAt := Except.ok.inj hstep
            rw [spotAt] at hspotAt
            split at hspotAt
            · cases hspotAt
            · cases hspotAt
            · next he =>
              cases hspotAt
              exact ⟨ss, s, v, List.prefix_rfl, hspot, rfl, Bool.eq_false_iff.2 hi, he⟩

/-- What is new on a disk are directories along names from one way on. -/
structure Grown (base ns : List String) (d d' : Disk) : Prop where
  tree : d'.IsTree
  keeps : d.Keeps d'
  new : ∀ k, d'.entry? k = d.entry? k ∨ d'.entry? k = some .directory ∧ ∃ ks, ks <+: ns ∧ k = base ++ ks

namespace Grown

variable {base ns ns' : List String} {d'' : Disk}

theorem refl (h : d.IsTree) (base ns : List String) : Grown base ns d d :=
  ⟨h, .refl d, fun _ => .inl rfl⟩

theorem trans (h : Grown base ns d d') (h' : Grown base ns d' d'') : Grown base ns d d'' := by
  refine ⟨h'.tree, h.keeps.trans h'.keeps, fun k => ?_⟩
  rcases h'.new k with hk | hk
  · rw [hk]
    exact h.new k
  · exact .inr hk

theorem mono (h : Grown base ns d d') (hn : ns <+: ns') : Grown base ns' d d' :=
  ⟨h.tree, h.keeps, fun k => (h.new k).imp id fun ⟨hk, ks, hks, he⟩ => ⟨hk, ks, hks.trans hn, he⟩⟩

end Grown

theorem grown_makeDirectory (ht : d.IsTree) (hstart : d.entry? (d.start p) = some .directory)
    (hup : ".." ∉ segments p) (h : d.makeDirectory p = .ok d') :
    Grown (d.start p) (names (segments p)) d d' := by
  rw [makeDirectory] at h
  split at h
  · next w b hloc =>
    obtain rfl := Except.ok.inj h
    obtain ⟨ts, s, v, hpre, hts, rfl, hi, hnone⟩ := walk_vacant (locate_eq_ok_iff.1 hloc).2
    have hupts : ".." ∉ ts := fun hm => hup (hpre.subset (List.mem_append_left _ hm))
    obtain ⟨rfl, -⟩ := (walk_down_iff hupts).1 hts
    have hdir := entry?_of_walk ht hstart hts
    have hnames : names ts ++ [s] <+: names (segments p) := by
      rw [← names_name hi]
      exact hpre.filter _
    have hname : IsName s := isName_of_mem_names hup (hnames.subset (by simp))
    have hnew : ∀ t ∈ d.start p ++ names ts ++ [s], IsName t := by
      intro t ht'
      rcases List.mem_append.1 ht' with ht' | ht'
      · exact ht.names (by simp [hdir]) ht'
      · exact List.mem_singleton.1 ht' ▸ hname
    refine ⟨ht.put hnew hdir fun _ => rfl, .put (by simp) fun _ => rfl, fun k => ?_⟩
    rw [entry?_put d (by simp)]
    split
    · next heq => exact .inr ⟨rfl, names ts ++ [s], hnames, by rw [heq, List.append_assoc]⟩
    · exact .inl rfl
  · cases h
  · cases h

theorem makeDirectoriesWithin_empty {n : Nat} (h : makeDirectoriesWithin n d "" = .ok d') : d' = d := by
  cases n with
  | zero => cases h
  | succ n =>
    rw [makeDirectoriesWithin, if_pos (by decide)] at h
    exact (Except.ok.inj h).symm

/-- Making directories along a path without steps up makes them along its names. -/
theorem grown_makeDirectories (ht : d.IsTree) (hstart : d.entry? (d.start p) = some .directory)
    (hup : ".." ∉ segments p) {n : Nat} (h : makeDirectoriesWithin n d p = .ok d') :
    Grown (d.start p) (names (segments p)) d d' := by
  induction n generalizing p d' with
  | zero => cases h
  | succ n ih =>
    rw [makeDirectoriesWithin] at h
    split at h
    · exact Except.ok.inj h ▸ .refl ht _ _
    · split at h
      · next hmake => exact Except.ok.inj h ▸ grown_makeDirectory ht hstart hup hmake
      · split at h
        · cases h
        · next up hparent =>
          split at h
          · cases h
          · next d₁ hrest =>
            have hgrown : Grown (d.start p) (names (segments p)) d d₁ := by
              rcases names_parent? hparent with rfl | ⟨habs, hnames⟩
              · rw [makeDirectoriesWithin_empty hrest]
                exact .refl ht _ _
              · have hs : d.start up = d.start p := by rw [start, start, habs]
                have hupup : ".." ∉ segments up :=
                  up_not_mem_iff.1 fun hm => up_not_mem_iff.2 hup (hnames.subset hm)
                exact hs ▸ (ih (hs ▸ hstart) hupup hrest).mono hnames
            have hs := start_eq hgrown.keeps.here p
            split at h
            · next hmake =>
              have := grown_makeDirectory hgrown.tree (hs ▸ hgrown.keeps.directory hstart) hup hmake
              exact Except.ok.inj h ▸ hgrown.trans (hs ▸ this)
            · split at h
              · exact Except.ok.inj h ▸ hgrown
              · cases h
      · split at h
        · exact Except.ok.inj h ▸ .refl ht _ _
        · cases h

theorem makeDirectories_of_directory (h : d.locate p = .ok (.directory w)) : d.makeDirectories p = .ok d := by
  have hmake : d.makeDirectory p = .error .alreadyExists := by rw [makeDirectory, h]
  rw [makeDirectories, makeDirectoriesWithin, hmake, isDirectory, h]
  split <;> rfl

end Disk

end FragmentMerge
