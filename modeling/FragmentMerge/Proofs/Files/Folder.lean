import FragmentMerge.Proofs.Files.Directories

/-! Files in one directory. What is done to a name below the path of a directory is done to the entry of
that name, and the path leads to the directory as before. -/

namespace FragmentMerge.Disk

open FragmentMerge.Path

variable {d d' : Disk} {dir name : String} {way : List String} {c : Content}

/-- A path leads to a directory of a tree. -/
structure Folder (d : Disk) (dir : String) (way : List String) : Prop where
  tree : d.IsTree
  locate : d.locate dir = .ok (.directory way)
  entry : d.entry? way = some .directory

namespace Folder

theorem keep (h : d.Folder dir way) (hk : d.Keeps d') (ht : d'.IsTree) : d'.Folder dir way :=
  ⟨ht, locate_directory hk h.locate, hk.directory h.entry⟩

theorem isName (h : d.Folder dir way) (hn : name ∈ d.namesIn way) : IsName name :=
  h.tree.names (entry?_of_mem_namesIn hn) (by simp)

theorem spot (h : d.Folder dir way) (hn : IsName name) {spot : Spot}
    (hl : d.locate (join dir name) = .ok spot) : Fits dir name ∧ spot = d.spotAt (way ++ [name]) :=
  fits_of_locate h.locate hn hl

theorem isDirectory_iff (h : d.Folder dir way) (hn : IsName name) :
    d.isDirectory (join dir name) = true ↔ Fits dir name ∧ d.entry? (way ++ [name]) = some .directory := by
  rw [isDirectory]
  constructor
  · intro hd
    split at hd
    · next w hl =>
      obtain ⟨hf, hs⟩ := h.spot hn hl
      exact ⟨hf, (spotAt_eq_directory_iff.1 hs.symm).1⟩
    · cases hd
  · rintro ⟨hf, he⟩
    rw [locate_join h.locate hn hf, spotAt_eq_directory_iff.2 ⟨he, rfl⟩]

theorem read_eq_ok_iff (h : d.Folder dir way) (hn : IsName name) :
    d.read (join dir name) = .ok c ↔ Fits dir name ∧ d.entry? (way ++ [name]) = some (.file c) := by
  rw [read]
  constructor
  · intro hr
    split at hr
    · next w c' hl =>
      obtain rfl := Except.ok.inj hr
      obtain ⟨hf, hs⟩ := h.spot hn hl
      exact ⟨hf, (spotAt_eq_file_iff.1 hs.symm).1⟩
    · cases hr
    · cases hr
    · cases hr
  · rintro ⟨hf, he⟩
    rw [locate_join h.locate hn hf, spotAt_eq_file_iff.2 ⟨he, rfl⟩]

theorem write (h : d.Folder dir way) (hn : IsName name) (hw : d.write (join dir name) c = .ok d') :
    Fits dir name ∧ d'.entry? (way ++ [name]) = some (.file c) ∧ Alters (· = way ++ [name]) d d' ∧
      d'.Folder dir way := by
  have hput : d' = d.put (way ++ [name]) (.file c) ∧ Fits dir name ∧
      d.entry? (way ++ [name]) ≠ some .directory := by
    rw [Disk.write] at hw
    split at hw
    · next w c' hl =>
      obtain rfl := Except.ok.inj hw
      obtain ⟨hf, hs⟩ := h.spot hn hl
      obtain ⟨he, rfl⟩ := spotAt_eq_file_iff.1 hs.symm
      exact ⟨rfl, hf, by simp [he]⟩
    · next w hl =>
      obtain rfl := Except.ok.inj hw
      obtain ⟨hf, hs⟩ := h.spot hn hl
      rw [spotAt] at hs
      split at hs
      · cases hs
      · cases hs
      · next he =>
        cases hs
        exact ⟨rfl, hf, by simp [he]⟩
    · cases hw
    · cases hw
    · cases hw
  obtain ⟨rfl, hf, hne⟩ := hput
  have hk : d.Keeps (d.put (way ++ [name]) (.file c)) := .put (by simp) fun he => absurd he hne
  have hnames : ∀ t ∈ way ++ [name], IsName t := by
    intro t ht
    rcases List.mem_append.1 ht with ht | ht
    · exact h.tree.names (by simp [h.entry]) ht
    · exact List.mem_singleton.1 ht ▸ hn
  have hentry := d.entry?_put (List.concat_ne_nil name way) (.file c)
  refine ⟨hf, by rw [hentry, if_pos rfl], ⟨hk, fun k => ?_⟩,
    h.keep hk (h.tree.put hnames h.entry fun he => absurd he hne)⟩
  rw [hentry]
  split
  · next heq => exact .inr heq
  · exact .inl rfl

theorem write_same (h : d.Folder dir way) (hn : IsName name) (hr : d.read (join dir name) = .ok c) :
    d.write (join dir name) c = .ok d := by
  obtain ⟨hf, he⟩ := (h.read_eq_ok_iff hn).1 hr
  rw [Disk.write, locate_join h.locate hn hf, spotAt_eq_file_iff.2 ⟨he, rfl⟩]
  exact congrArg Except.ok (put_same (by simp) he)

theorem removeFile (h : d.Folder dir way) (hn : IsName name) (hr : d.removeFile (join dir name) = .ok d') :
    d'.entry? (way ++ [name]) = none ∧ Loses (· = way ++ [name]) d d' ∧ d.Keeps d' ∧ d'.Folder dir way := by
  rw [Disk.removeFile] at hr
  split at hr
  · next w c' hl =>
    obtain rfl := Except.ok.inj hr
    obtain ⟨-, hs⟩ := h.spot hn hl
    obtain ⟨he, rfl⟩ := spotAt_eq_file_iff.1 hs.symm
    have hk : d.Keeps (d.prune (way ++ [name])) := .prune h.tree he
    have hnone := entry?_prune d (way ++ [name]) (List.concat_ne_nil name way)
    rw [if_pos List.prefix_rfl] at hnone
    refine ⟨hnone, ⟨rfl, fun k => ?_⟩, hk, h.keep hk (h.tree.prune _)⟩
    by_cases heq : k = way ++ [name]
    · exact .inr ⟨heq ▸ hnone, heq⟩
    · -- below a file there is nothing to lose
      left
      by_cases hnil : k = []
      · rw [hnil]
        rfl
      · rw [entry?_prune d _ hnil]
        split
        · next hp =>
          by_contra hne
          exact heq (h.tree.eq_of_file he (Ne.symm hne) hp)
        · rfl
  · cases hr
  · cases hr
  · cases hr

end Folder

end FragmentMerge.Disk
