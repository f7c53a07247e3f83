import FragmentMerge.Proofs.Files.Tree

/-! Where paths lead. A path that leads somewhere goes through directories only, so it leads to the same
place on every disk that has these directories. -/

namespace FragmentMerge

namespace Path

variable {dir name p : String}

theorem isAbsolute_append (h : dir ≠ "") (s : String) : isAbsolute (dir ++ s) = isAbsolute dir := by
  have hne : dir.toList ≠ [] := by simpa using h
  obtain ⟨c, cs, hc⟩ := List.exists_cons_of_ne_nil hne
  simp [isAbsolute, hc]

theorem isAbsolute_eq_false (h : '/' ∉ name.toList) : isAbsolute name = false := by
  rw [isAbsolute]
  cases hn : name.toList with
  | nil => rfl
  | cons c cs =>
    have hc : c ≠ '/' := fun he => h (by simp [hn, he])
    simpa using hc

theorem segments_of_not_mem (h : '/' ∉ name.toList) : segments name = [name] := by
  rw [segments, List.splitOn_eq_singleton h]
  simp

theorem segments_append_slash (p q : String) : segments (p ++ "/" ++ q) = segments p ++ segments q := by
  have h : (p ++ "/" ++ q).toList = p.toList ++ '/' :: q.toList := by simp
  rw [segments, h, List.splitOn_append_cons_self, List.map_append]
  rfl

/-- A path joined with a name has the segments of both, but for an empty one at the end of the path. -/
theorem segments_join (hd : dir ≠ "") (hn : '/' ∉ name.toList) :
    ∃ ss, segments (join dir name) = ss ++ [name] ∧ (segments dir = ss ∨ segments dir = ss ++ [""]) := by
  have hrel := isAbsolute_eq_false hn
  rw [join, hrel, Bool.false_or, if_neg (by simpa using hd)]
  split
  · next hlast =>
    obtain ⟨front, hfront⟩ := List.getLast?_eq_some_iff.1 (eq_of_beq hlast)
    have hdir : dir = String.ofList front ++ "/" ++ "" := String.ext (by simp [hfront])
    refine ⟨segments (String.ofList front), ?_, .inr ?_⟩
    · have : dir ++ name = String.ofList front ++ "/" ++ name := String.ext (by simp [hfront])
      rw [this, segments_append_slash, segments_of_not_mem hn]
    · rw [hdir, segments_append_slash]
      rfl
  · exact ⟨segments dir, by rw [segments_append_slash, segments_of_not_mem hn], .inl rfl⟩

theorem isAbsolute_join (hd : dir ≠ "") (hn : '/' ∉ name.toList) :
    isAbsolute (join dir name) = isAbsolute dir := by
  have hrel := isAbsolute_eq_false hn
  rw [join, hrel, Bool.false_or, if_neg (by simpa using hd)]
  split
  · exact isAbsolute_append hd name
  · rw [String.append_assoc]
    exact isAbsolute_append hd _

/-- A path that the system accepts as one. -/
structure IsUsable (p : String) : Prop where
  filled : p ≠ ""
  clean : '\x00' ∉ p.toList
  short : p.utf8ByteSize ≤ Disk.pathLimit

theorem IsUsable.above (h : IsUsable (join dir name)) (hdir : dir ≠ "") (hn : IsName name) : IsUsable dir := by
  obtain ⟨rest, hrest⟩ : ∃ rest, join dir name = dir ++ rest := by
    rw [join, isAbsolute_eq_false hn.slash, Bool.false_or, if_neg (by simpa using hdir)]
    split
    · exact ⟨name, rfl⟩
    · exact ⟨"/" ++ name, String.append_assoc⟩
  refine ⟨hdir, fun hm => h.clean ?_, Nat.le_trans ?_ h.short⟩
  · rw [hrest, String.toList_append]
    exact List.mem_append_left _ hm
  · rw [hrest, String.utf8ByteSize_append]
    exact Nat.le_add_right _ _

/-- A name that can be looked up below a path. -/
structure Fits (dir name : String) : Prop where
  usable : IsUsable (join dir name)
  short : name.utf8ByteSize ≤ Disk.nameLimit

instance (p : String) : Decidable (IsUsable p) :=
  decidable_of_iff (p ≠ "" ∧ '\x00' ∉ p.toList ∧ p.utf8ByteSize ≤ Disk.pathLimit)
    ⟨fun ⟨h, hc, hs⟩ => ⟨h, hc, hs⟩, fun h => ⟨h.filled, h.clean, h.short⟩⟩

instance (dir name : String) : Decidable (Fits dir name) :=
  decidable_of_iff (IsUsable (join dir name) ∧ name.utf8ByteSize ≤ Disk.nameLimit)
    ⟨fun ⟨h, hs⟩ => ⟨h, hs⟩, fun h => ⟨h.usable, h.short⟩⟩

theorem IsName.idle {s : String} (h : IsName s) : isIdle s = false := by
  simp [isIdle, h.filled, h.dot]

def moves (p : String) : List String := (segments p).filter (!isIdle ·)

theorem steps_fst (p : String) : (steps p).1 = isAbsolute p := by
  unfold steps
  have hne : segments p ≠ [] := by simp [segments, List.splitOn_ne_nil]
  split
  · next h => exact absurd h hne
  · cases isAbsolute p <;> rfl

/-- They are among its steps, which may start with a dot. -/
theorem moves_eq (p : String) : moves p = (steps p).2.filter (!isIdle ·) := by
  have habs : isAbsolute p = true → ∃ q, segments p = "" :: segments q := by
    intro h
    obtain ⟨cs, hcs⟩ := List.head?_eq_some_iff.1 (eq_of_beq h)
    have hp : p = "" ++ "/" ++ String.ofList cs := String.ext (by simp [hcs])
    exact ⟨String.ofList cs, by rw [hp, segments_append_slash]; rfl⟩
  unfold moves steps
  split
  · next h => rw [h]
  · next s ss h =>
    rw [h]
    by_cases ha : isAbsolute p = true
    · obtain ⟨q, hq⟩ := habs ha
      obtain ⟨rfl, -⟩ := List.cons.inj (h.symm.trans hq)
      rw [if_pos ha, List.filter_cons_of_neg (by decide), List.filter_filter]
      simp
    · rw [if_neg ha]
      dsimp only
      split
      · next he => rw [List.filter_cons_of_neg (by simp [isIdle, he]), List.filter_filter]; simp
      · rw [List.filter_cons, List.filter_cons, List.filter_filter]; simp

end Path

namespace Disk

open FragmentMerge.Path

variable {d d' : Disk} {p dir name s : String} {w way : List String} {spot : Spot} {c c' : Content}

def start (d : Disk) (p : String) : List String := if isAbsolute p then [] else d.here

/-- Where segments lead from a directory. -/
def walk (d : Disk) (way ss : List String) : Except Errno Spot := ss.foldlM d.step (.directory way)

theorem locate_eq_ok_iff :
    d.locate p = .ok spot ↔ IsUsable p ∧ d.walk (d.start p) (segments p) = .ok spot := by
  rw [locate]
  constructor
  · intro h
    split at h
    · cases h
    · next hne =>
      split at h
      · cases h
      · next hclean =>
        split at h
        · cases h
        · next hshort => exact ⟨⟨by simpa using hne, by simpa using hclean, Nat.not_lt.1 hshort⟩, h⟩
  · rintro ⟨h, hw⟩
    rw [if_neg (by simpa using h.filled), if_neg (by simpa using h.clean), if_neg (Nat.not_lt.2 h.short)]
    exact hw

theorem walk_concat (d : Disk) (way ss : List String) (s : String) :
    d.walk way (ss ++ [s]) = (d.walk way ss).bind fun spot => d.step spot s := by
  rw [walk, List.foldlM_append]
  cases h : d.walk way ss with
  | error e =>
    rw [walk] at h
    rw [h]
    rfl
  | ok spot =>
    rw [walk] at h
    rw [h]
    show List.foldlM d.step spot [s] = d.step spot s
    simp

theorem walk_concat_ok {ss : List String} {target : Spot} (h : d.walk way (ss ++ [s]) = .ok target) :
    ∃ spot, d.walk way ss = .ok spot ∧ d.step spot s = .ok target := by
  rw [walk_concat] at h
  cases hw : d.walk way ss with
  | error e =>
    rw [hw] at h
    cases h
  | ok spot =>
    rw [hw] at h
    exact ⟨spot, rfl, h⟩

theorem step_name (h : IsName s) (hs : s.utf8ByteSize ≤ nameLimit) (way : List String) :
    d.step (.directory way) s = .ok (d.spotAt (way ++ [s])) := by
  rw [step, if_neg (by simp [h.idle]), if_neg (Nat.not_lt.2 hs), if_neg h.up]

theorem spotAt_eq_directory_iff : d.spotAt w = .directory way ↔ d.entry? w = some .directory ∧ w = way := by
  rw [spotAt]
  split <;> simp_all

theorem spotAt_eq_file_iff : d.spotAt w = .file way c ↔ d.entry? w = some (.file c) ∧ w = way := by
  rw [spotAt]
  split
  · simp_all
  · next h =>
    rw [h]
    simp only [Spot.file.injEq, Option.some.injEq, Entry.file.injEq]
    exact and_comm
  · simp_all

theorem spotAt_eq_vacant_iff : d.spotAt w = .vacant way false ↔ w = way ∧ d.entry? w = none := by
  rw [spotAt]
  split <;> simp_all

theorem step_eq_directory (h : d.step spot s = .ok (.directory w)) : ∃ v, spot = .directory v ∧
    ((isIdle s = true ∧ w = v) ∨ (isIdle s = false ∧ s.utf8ByteSize ≤ nameLimit ∧
      ((s = ".." ∧ w = v.dropLast) ∨ (s ≠ ".." ∧ w = v ++ [s] ∧ d.entry? w = some .directory)))) := by
  cases spot with
  | file v c => cases h
  | vacant v b =>
    rw [step] at h
    split at h <;> cases h
  | directory v =>
    refine ⟨v, rfl, ?_⟩
    rw [step] at h
    split at h
    · next hi =>
      cases h
      exact .inl ⟨hi, rfl⟩
    · next hi =>
      have hi := Bool.eq_false_iff.2 hi
      split at h
      · cases h
      · next hs =>
        have hs := Nat.not_lt.1 hs
        split at h
        · next hup =>
          cases h
          exact .inr ⟨hi, hs, .inl ⟨hup, rfl⟩⟩
        · next hup =>
          obtain ⟨he, rfl⟩ := spotAt_eq_directory_iff.1 (Except.ok.inj h)
          exact .inr ⟨hi, hs, .inr ⟨hup, rfl, he⟩⟩

theorem step_eq_file (h : d.step spot s = .ok (.file w c)) : ∃ v, spot = .directory v ∧
    isIdle s = false ∧ s.utf8ByteSize ≤ nameLimit ∧ s ≠ ".." ∧ w = v ++ [s] ∧
    d.entry? w = some (.file c) := by
  cases spot with
  | file v c => cases h
  | vacant v b =>
    rw [step] at h
    split at h <;> cases h
  | directory v =>
    refine ⟨v, rfl, ?_⟩
    rw [step] at h
    split at h
    · cases h
    · next hi =>
      split at h
      · cases h
      · next hs =>
        split at h
        · cases h
        · next hup =>
          obtain ⟨he, rfl⟩ := spotAt_eq_file_iff.1 (Except.ok.inj h)
          exact ⟨Bool.eq_false_iff.2 hi, Nat.not_lt.1 hs, hup, rfl, he⟩

theorem step_eq_vacant (h : d.step spot s = .ok (.vacant w false)) : ∃ v, spot = .directory v ∧
    isIdle s = false ∧ s.utf8ByteSize ≤ nameLimit ∧ s ≠ ".." ∧ w = v ++ [s] ∧ d.entry? w = none := by
  cases spot with
  | file v c => cases h
  | vacant v b =>
    rw [step] at h
    split at h <;> cases h
  | directory v =>
    refine ⟨v, rfl, ?_⟩
    rw [step] at h
    split at h
    · cases h
    · next hi =>
      split at h
      · cases h
      · next hs =>
        split at h
        · cases h
        · next hup =>
          obtain ⟨rfl, he⟩ := spotAt_eq_vacant_iff.1 (Except.ok.inj h)
          exact ⟨Bool.eq_false_iff.2 hi, Nat.not_lt.1 hs, hup, rfl, he⟩

theorem step_below (hi : isIdle s = false) (hs : s.utf8ByteSize ≤ nameLimit) (hup : s ≠ "..")
    (way : List String) : d.step (.directory way) s = .ok (d.spotAt (way ++ [s])) := by
  rw [step, if_neg (by simp [hi]), if_neg (Nat.not_lt.2 hs), if_neg hup]

theorem walk_directory (hk : d.Keeps d') {ss : List String} (h : d.walk way ss = .ok (.directory w)) :
    d'.walk way ss = .ok (.directory w) := by
  induction ss using List.reverseRecOn generalizing w with
  | nil => exact h
  | append_singleton ss s ih =>
    obtain ⟨spot, hspot, hstep⟩ := walk_concat_ok h
    obtain ⟨v, rfl, hcase⟩ := step_eq_directory hstep
    rw [walk_concat, ih hspot]
    show d'.step (.directory v) s = _
    rcases hcase with ⟨hi, rfl⟩ | ⟨hi, hs, ⟨rfl, rfl⟩ | ⟨hup, rfl, he⟩⟩
    · rw [step, if_pos hi]
    · rw [step, if_neg (by simp [hi]), if_neg (Nat.not_lt.2 hs), if_pos rfl]
    · rw [step_below hi hs hup, spotAt_eq_directory_iff.2 ⟨hk.directory he, rfl⟩]

theorem start_eq (h : d'.here = d.here) (p : String) : d'.start p = d.start p := by
  rw [start, start, h]

/-- A path to a directory leads there as long as the directories are kept. -/
theorem locate_directory (hk : d.Keeps d') (h : d.locate p = .ok (.directory w)) :
    d'.locate p = .ok (.directory w) := by
  obtain ⟨hu, hw⟩ := locate_eq_ok_iff.1 h
  exact locate_eq_ok_iff.2 ⟨hu, start_eq hk.here p ▸ walk_directory hk hw⟩

theorem segments_eq_concat (p : String) : ∃ ss s, segments p = ss ++ [s] := by
  have hne : segments p ≠ [] := by simp [segments, List.splitOn_ne_nil]
  exact ⟨_, _, (List.dropLast_concat_getLast hne).symm⟩

/-- A path that ends in a name below a directory leads to a file in this place. -/
theorem locate_below {ss : List String} {v : List String} (hk : d.Keeps d') (hu : IsUsable p)
    (hseg : segments p = ss ++ [s]) (hspot : d.walk (d.start p) ss = .ok (.directory v))
    (hi : isIdle s = false) (hs : s.utf8ByteSize ≤ nameLimit) (hup : s ≠ "..")
    (he : d'.entry? (v ++ [s]) = some (.file c')) : d'.locate p = .ok (.file (v ++ [s]) c') := by
  refine locate_eq_ok_iff.2 ⟨hu, ?_⟩
  rw [start_eq hk.here, hseg, walk_concat, walk_directory hk hspot]
  show d'.step (.directory v) s = _
  rw [step_below hi hs hup, spotAt_eq_file_iff.2 ⟨he, rfl⟩]

theorem locate_file (hk : d.Keeps d') (h : d.locate p = .ok (.file w c))
    (he : d'.entry? w = some (.file c')) : d'.locate p = .ok (.file w c') := by
  obtain ⟨hu, hw⟩ := locate_eq_ok_iff.1 h
  obtain ⟨ss, s, hseg⟩ := segments_eq_concat p
  rw [hseg] at hw
  obtain ⟨spot, hspot, hstep⟩ := walk_concat_ok hw
  obtain ⟨v, rfl, hi, hs, hup, rfl, -⟩ := step_eq_file hstep
  exact locate_below hk hu hseg hspot hi hs hup he

theorem locate_vacant (hk : d.Keeps d') (h : d.locate p = .ok (.vacant w false))
    (he : d'.entry? w = some (.file c')) : d'.locate p = .ok (.file w c') := by
  obtain ⟨hu, hw⟩ := locate_eq_ok_iff.1 h
  obtain ⟨ss, s, hseg⟩ := segments_eq_concat p
  rw [hseg] at hw
  obtain ⟨spot, hspot, hstep⟩ := walk_concat_ok hw
  obtain ⟨v, rfl, hi, hs, hup, rfl, -⟩ := step_eq_vacant hstep
  exact locate_below hk hu hseg hspot hi hs hup he

theorem isFile_eq_true_iff : d.isFile p = true ↔ ∃ w c, d.locate p = .ok (.file w c) := by
  rw [isFile]
  constructor
  · intro h
    split at h
    · exact ⟨_, _, ‹_›⟩
    · cases h
  · rintro ⟨w, c, h⟩
    rw [h]

theorem entry?_of_locate_file (h : d.locate p = .ok (.file w c)) :
    d.entry? w = some (.file c) ∧ w ≠ [] ∧ w.getLast? = (segments p).getLast? := by
  obtain ⟨-, hw⟩ := locate_eq_ok_iff.1 h
  obtain ⟨ss, s, hseg⟩ := segments_eq_concat p
  rw [hseg] at hw
  obtain ⟨spot, -, hstep⟩ := walk_concat_ok hw
  obtain ⟨v, -, -, -, -, rfl, he⟩ := step_eq_file hstep
  exact ⟨he, by simp, by simp [hseg]⟩

theorem entry?_of_locate_vacant (h : d.locate p = .ok (.vacant w false)) : d.entry? w = none ∧ w ≠ [] := by
  obtain ⟨-, hw⟩ := locate_eq_ok_iff.1 h
  obtain ⟨ss, s, hseg⟩ := segments_eq_concat p
  rw [hseg] at hw
  obtain ⟨spot, -, hstep⟩ := walk_concat_ok hw
  obtain ⟨v, -, -, -, -, rfl, he⟩ := step_eq_vacant hstep
  exact ⟨he, by simp⟩

/-- What has been written can be read. -/
theorem read_write (h : d.write p c = .ok d') : d'.read p = .ok c := by
  have hput : ∀ {w}, w ≠ [] → entry? (d.put w (.file c)) w = some (.file c) := fun hne => by
    rw [entry?_put d hne, if_pos rfl]
  rw [Disk.write] at h
  split at h
  · next w c' hl =>
    obtain rfl := Except.ok.inj h
    obtain ⟨he, hne, -⟩ := entry?_of_locate_file hl
    have hkeeps : d.Keeps (d.put w (.file c)) := .put hne fun hd => by simp [he] at hd
    rw [Disk.read, locate_file hkeeps hl (hput hne)]
  · next w hl =>
    obtain rfl := Except.ok.inj h
    obtain ⟨he, hne⟩ := entry?_of_locate_vacant hl
    have hkeeps : d.Keeps (d.put w (.file c)) := .put hne fun hd => by simp [he] at hd
    rw [Disk.read, locate_vacant hkeeps hl (hput hne)]
  · cases h
  · cases h
  · cases h

theorem Rewritten.isFile {changed : List String → Prop} (h : Rewritten changed d d') (p : String) :
    d'.isFile p = d.isFile p := by
  have hstay : ∀ {changed d d'}, Rewritten changed d d' → d.isFile p = true → d'.isFile p = true := by
    intro changed d d' h hf
    obtain ⟨w, c, hl⟩ := isFile_eq_true_iff.1 hf
    have he := (entry?_of_locate_file hl).1
    rcases h.entry w with hsame | ⟨-, -, c', hc'⟩
    · exact isFile_eq_true_iff.2 ⟨w, c, locate_file h.keeps hl (hsame ▸ he)⟩
    · exact isFile_eq_true_iff.2 ⟨w, c', locate_file h.keeps hl hc'⟩
  exact Bool.eq_iff_iff.2 ⟨hstay h.symm, hstay h⟩

theorem walk_moves {ss : List String} (h : d.walk way ss = .ok (.directory w)) :
    d.walk way (ss.filter (!isIdle ·)) = .ok (.directory w) := by
  induction ss using List.reverseRecOn generalizing w with
  | nil => exact h
  | append_singleton ss s ih =>
    obtain ⟨spot, hspot, hstep⟩ := walk_concat_ok h
    obtain ⟨v, rfl, hcase⟩ := step_eq_directory hstep
    rw [List.filter_append]
    rcases hcase with ⟨hi, rfl⟩ | ⟨hi, -⟩
    · have hdrop : [s].filter (!isIdle ·) = [] := by simp [hi]
      rw [hdrop, List.append_nil]
      exact ih hspot
    · have hkeep : [s].filter (!isIdle ·) = [s] := by simp [hi]
      rw [hkeep, walk_concat, ih hspot]
      exact hstep

/-- Paths with the same steps lead to one file, if they lead to files. -/
theorem locate_of_steps {q : String} {w' : List String} (hs : steps p = steps q)
    (h : d.locate p = .ok (.file w c)) (h' : d.locate q = .ok (.file w' c')) : w' = w := by
  have hmoves : ∀ {p w c}, d.locate p = .ok (.file w c) →
      d.walk (d.start p) (moves p) = .ok (.file w c) := by
    intro p w c h
    obtain ⟨-, hw⟩ := locate_eq_ok_iff.1 h
    obtain ⟨ss, s, hseg⟩ := segments_eq_concat p
    rw [hseg] at hw
    obtain ⟨spot, hspot, hstep⟩ := walk_concat_ok hw
    obtain ⟨v, rfl, hi, -⟩ := step_eq_file hstep
    have hfilter : moves p = ss.filter (!isIdle ·) ++ [s] := by
      rw [moves, hseg, List.filter_append]
      simp [hi]
    rw [hfilter, walk_concat, walk_moves hspot]
    exact hstep
  have hstart : d.start q = d.start p := by
    rw [start, start, ← steps_fst, ← steps_fst, hs]
  have hwalk := hmoves h'
  rw [hstart, moves_eq, ← hs, ← moves_eq, hmoves h] at hwalk
  cases hwalk
  rfl

/-- From a directory of a tree, a path to a directory leads to one of its entries. -/
theorem entry?_of_walk (h : d.IsTree) (hway : d.entry? way = some .directory) {ss : List String}
    (hw : d.walk way ss = .ok (.directory w)) : d.entry? w = some .directory := by
  induction ss using List.reverseRecOn generalizing w with
  | nil =>
    cases hw
    exact hway
  | append_singleton ss s ih =>
    obtain ⟨spot, hspot, hstep⟩ := walk_concat_ok hw
    obtain ⟨v, rfl, hcase⟩ := step_eq_directory hstep
    have hv := ih hspot
    rcases hcase with ⟨-, rfl⟩ | ⟨-, -, ⟨-, rfl⟩ | ⟨-, -, he⟩⟩
    · exact hv
    · rcases List.eq_nil_or_concat v with rfl | ⟨u, x, rfl⟩
      · rfl
      · rw [List.concat_eq_append] at hv ⊢
        rw [List.dropLast_concat]
        exact h.parents (s := x) (by simp [hv])
    · exact he

theorem walk_join (hd : d.locate dir = .ok (.directory way)) (hn : IsName name) :
    d.walk (d.start (join dir name)) (segments (join dir name)) = d.step (.directory way) name := by
  obtain ⟨hu, hw⟩ := locate_eq_ok_iff.1 hd
  obtain ⟨ss, hjoin, hdir⟩ := segments_join hu.filled hn.slash
  have hstart : d.start (join dir name) = d.start dir := by
    rw [start, start, isAbsolute_join hu.filled hn.slash]
  have hss : d.walk (d.start dir) ss = .ok (.directory way) := by
    rcases hdir with hdir | hdir
    · rwa [hdir] at hw
    · -- the empty segment at the end stays where it is
      rw [hdir] at hw
      obtain ⟨spot, hspot, hstep⟩ := walk_concat_ok hw
      obtain ⟨v, rfl, ⟨-, rfl⟩ | ⟨hi, -⟩⟩ := step_eq_directory hstep
      · exact hspot
      · exact absurd hi (by decide)
  rw [hstart, hjoin, walk_concat, hss]
  rfl

theorem locate_join (hd : d.locate dir = .ok (.directory way)) (hn : IsName name) (hf : Fits dir name) :
    d.locate (join dir name) = .ok (d.spotAt (way ++ [name])) :=
  locate_eq_ok_iff.2 ⟨hf.usable, by rw [walk_join hd hn, step_name hn hf.short]⟩

theorem locate_above (hdir : dir ≠ "") (hn : IsName name) (h : d.locate (join dir name) = .ok spot) :
    ∃ v, d.locate dir = .ok (.directory v) := by
  obtain ⟨hu, hw⟩ := locate_eq_ok_iff.1 h
  obtain ⟨ss, hjoin, hseg⟩ := segments_join hdir hn.slash
  have hstart : d.start (join dir name) = d.start dir := by
    rw [start, start, isAbsolute_join hdir hn.slash]
  rw [hstart, hjoin] at hw
  obtain ⟨above, habove, hstep⟩ := walk_concat_ok hw
  obtain ⟨v, rfl⟩ : ∃ v, above = .directory v := by
    cases above with
    | directory v => exact ⟨v, rfl⟩
    | file v c => cases hstep
    | vacant v b =>
      rw [step, if_neg (by simpa using hn.filled)] at hstep
      cases hstep
  refine ⟨v, locate_eq_ok_iff.2 ⟨hu.above hdir hn, ?_⟩⟩
  rcases hseg with hseg | hseg
  · rw [hseg, habove]
  · rw [hseg, walk_concat, habove]
    rfl

theorem fits_of_locate (hd : d.locate dir = .ok (.directory way)) (hn : IsName name)
    (h : d.locate (join dir name) = .ok spot) : Fits dir name ∧ spot = d.spotAt (way ++ [name]) := by
  obtain ⟨hu, hw⟩ := locate_eq_ok_iff.1 h
  rw [walk_join hd hn] at hw
  by_cases hs : name.utf8ByteSize ≤ nameLimit
  · rw [step_name hn hs] at hw
    exact ⟨⟨hu, hs⟩, (Except.ok.inj hw).symm⟩
  · rw [step, if_neg (by simp [hn.idle]), if_pos (Nat.not_le.1 hs)] at hw
    cases hw

end Disk

end FragmentMerge
