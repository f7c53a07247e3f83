import FragmentMerge.Proofs.Features.Calls
import FragmentMerge.Proofs.Files.Making

/-! Trees that can be brought in line. Nothing that a registry needs is of the wrong type in such a tree;
every step then succeeds, unless a directory has the name of a file that is to be removed. -/

namespace FragmentMerge.Registry

open Disk FragmentMerge.Path

variable {r : Registry} {d d' d₁ : Disk} {root dir package : String} {way base kept : List String}
  {features : Table String} {ps : List (String × Table String)} {s s' : MaterializeSummary}

theorem exists_removePackages (hup : ".." ∉ segments root) (h : d.Folder root base) (hd : d.Distinct)
    {names : List String} (hnames : ∀ x ∈ names, IsName x) :
    ∃ n d', removePackages root kept names d = .ok n d' ∧ d'.Distinct := by
  induction names generalizing d with
  | nil => exact ⟨0, d, rfl, hd⟩
  | cons x names ih =>
    have hx := hnames x List.mem_cons_self
    have hrest : ∀ y ∈ names, IsName y := fun y hy => hnames y (List.mem_cons_of_mem _ hy)
    rw [removePackages, get_bind]
    split
    · next hremove =>
      have hremoved := h.exists_removeTree hx (Bool.and_eq_true_iff.1 hremove).1
      obtain ⟨-, -, h₁⟩ := of_removeTree hup h hx hremoved
      obtain ⟨n, d', hrec, hd'⟩ := ih h₁ (hd.prune _) hrest
      refine ⟨n + 1, d', ?_, hd'⟩
      rw [bind_of_ok (change_of_ok hremoved), bind_of_ok hrec]
      rfl
    · exact ih h hd hrest

theorem exists_removeUnregistered (h : r.Rooted d) (hd : d.Distinct) :
    ∃ n d', r.removeUnregistered d = .ok n d' ∧ d'.Distinct := by
  rw [removeUnregistered, get_bind]
  split
  · next hdir =>
    obtain ⟨way, hl⟩ := isDirectory_eq_true hdir
    obtain ⟨rfl, -, hfolder⟩ := h.folder hl
    rw [bind_of_ok (listNames_of_directory hl)]
    exact exists_removePackages h.up hfolder hd fun x hx => hfolder.isName hx
  · exact ⟨0, d, rfl, hd⟩

theorem exists_removeStale (h : d.Folder dir way) (hd : d.Distinct) {names : List String}
    (hnodup : names.Nodup) (hnames : ∀ x ∈ names, IsName x)
    (hstale : ∀ x ∈ names, isStale features x = true →
      Fits dir x ∧ ∃ c, d.entry? (way ++ [x]) = some (.file c)) :
    ∃ n d', removeStale dir features names d = .ok n d' ∧ d'.Distinct := by
  induction names generalizing d with
  | nil => exact ⟨0, d, rfl, hd⟩
  | cons x names ih =>
    obtain ⟨hfar, hnodup⟩ := List.nodup_cons.1 hnodup
    have hx := hnames x List.mem_cons_self
    have hrest : ∀ y ∈ names, IsName y := fun y hy => hnames y (List.mem_cons_of_mem _ hy)
    rw [removeStale]
    split
    · next hremove =>
      obtain ⟨hfits, c, hc⟩ := hstale x List.mem_cons_self hremove
      have hremoved := h.exists_removeFile hx hfits hc
      obtain ⟨-, hloses, -, h₁⟩ := h.removeFile hx hremoved
      obtain ⟨n, d', hrec, hd'⟩ := ih h₁ (hd.prune _) hnodup hrest fun y hy hy' => by
        rcases hloses.entry (way ++ [y]) with he | ⟨-, he⟩
        · rw [he]
          exact hstale y (List.mem_cons_of_mem _ hy) hy'
        · obtain rfl : y = x := by simpa using he
          exact absurd hy hfar
      refine ⟨n + 1, d', ?_, hd'⟩
      rw [bind_of_ok (change_of_ok hremoved), bind_of_ok hrec]
      rfl
    · exact ih h hd hnodup hrest fun y hy => hstale y (List.mem_cons_of_mem _ hy)

theorem exists_writeFeatures (h : d.Folder dir way) (hd : d.Distinct) {es : List (String × String)}
    (hes : ∀ e ∈ es, isName e.1 = true ∧ Fits dir (e.1 ++ ".js") ∧
      d.entry? (way ++ [e.1 ++ ".js"]) ≠ some .directory) :
    ∃ n d', writeFeatures dir es d = .ok n d' ∧ d'.Distinct := by
  induction es generalizing d with
  | nil => exact ⟨(0, 0), d, rfl, hd⟩
  | cons e es ih =>
    obtain ⟨f, code⟩ := e
    obtain ⟨hf, hfits, hfile⟩ := hes (f, code) List.mem_cons_self
    rw [writeFeatures, get_bind]
    split
    · obtain ⟨n, d', hrec, hd'⟩ := ih h hd fun e he => hes e (List.mem_cons_of_mem _ he)
      refine ⟨(n.1, n.2 + 1), d', ?_, hd'⟩
      rw [bind_of_ok hrec]
      rfl
    · have hwrite := h.exists_write (isName_feature hf) hfits hfile (.text code)
      obtain ⟨-, hfile, ha, h₁⟩ := h.write (isName_feature hf) hwrite
      obtain ⟨n, d', hrec, hd'⟩ := ih h₁ (hd.put _ _) fun e he => by
        obtain ⟨hname, hfits, hkeep⟩ := hes e (List.mem_cons_of_mem _ he)
        refine ⟨hname, hfits, ?_⟩
        rcases ha.entry (way ++ [e.1 ++ ".js"]) with hsame | heq
        · rwa [hsame]
        · rw [heq, hfile]
          simp
      refine ⟨(n.1 + 1, n.2), d', ?_, hd'⟩
      rw [writeText, bind_of_ok (change_of_ok hwrite), bind_of_ok hrec]
      rfl

/-- A package whose directory can be made, whose files can be written and from whose directory stale
files can be removed. -/
structure Placeable (dir : String) (features : Table String) (d : Disk) : Prop where
  opens : d.Open dir
  fits : ∀ x ∈ owned features, Fits dir x
  files : ∀ x ∈ owned features, d.entry? (wayTo d dir ++ [x]) ≠ some .directory
  stale : ∀ x, isStale features x = true → d.entry? (wayTo d dir ++ [x]) ≠ none →
    Fits dir x ∧ ∃ c, d.entry? (wayTo d dir ++ [x]) = some (.file c)

theorem exists_cleared (h : Placeable dir features d) (hd : d.Distinct) : ∃ d₁ n d₂,
    d.makeDirectories dir = .ok d₁ ∧ listNames dir d₁ = .ok (d₁.namesIn (wayTo d dir)) d₁ ∧
      removeStale dir features (d₁.namesIn (wayTo d dir)) d₁ = .ok n d₂ ∧ d₂.Distinct ∧
      d₂.Folder dir (wayTo d dir) ∧
        ∀ x ∈ owned features, d₂.entry? (wayTo d dir ++ [x]) ≠ some .directory := by
  obtain ⟨d₁, hmake, hd₁, hloc⟩ := exists_makeDirectories h.opens hd
  have hgrown := grown_makeDirectories h.opens.tree h.opens.start h.opens.up hmake
  have hstart := start_eq hgrown.keeps.here dir
  have h₁ : d₁.Folder dir (wayTo d dir) := ⟨hgrown.tree, hloc, entry?_of_walk hgrown.tree
    (hstart ▸ hgrown.keeps.directory h.opens.start) (locate_eq_ok_iff.1 hloc).2⟩
  -- what is made stands above the files
  have hsame : ∀ x, d₁.entry? (wayTo d dir ++ [x]) = d.entry? (wayTo d dir ++ [x]) := by
    refine fun x => (hgrown.new _).resolve_right ?_
    rintro ⟨-, ks, hks, heq⟩
    have hle := hks.length_le
    have hlen := congrArg List.length heq
    simp only [wayTo, List.length_append, List.length_singleton] at hlen
    omega
  have hnames : ∀ x ∈ d₁.namesIn (wayTo d dir), IsName x := fun x hx => h₁.isName hx
  obtain ⟨n, d₂, hremove, hd₂⟩ := exists_removeStale h₁ hd₁ (hd₁.namesIn _) hnames fun x hx hstale => by
    rw [hsame]
    exact h.stale x hstale (hsame x ▸ entry?_of_mem_namesIn hx)
  obtain ⟨hloses, -, h₂, -⟩ := of_removeStale h₁ hnames hremove
  refine ⟨d₁, n, d₂, hmake, listNames_of_directory hloc, hremove, hd₂, h₂, fun x hx => ?_⟩
  rcases hloses.entry (wayTo d dir ++ [x]) with he | ⟨he, -⟩
  · rw [he, hsame]
    exact h.files x hx
  · simp [he]

theorem exists_written (h : d.Folder dir way) (hn : AreNamed features) (hd : d.Distinct)
    (hfits : ∀ x ∈ owned features, Fits dir x)
    (hfiles : ∀ x ∈ owned features, d.entry? (way ++ [x]) ≠ some .directory) (manifest index : Content) :
    ∃ n d₁ d₂ d₃, writeFeatures dir features.entries d = .ok n d₁ ∧
      d₁.write (join dir "manifest.json") manifest = .ok d₂ ∧ d₂.write (join dir "index.js") index = .ok d₃ ∧
      d₃.Distinct := by
  obtain ⟨n, d₁, hwrite, hd₁⟩ := exists_writeFeatures h hd fun e he =>
    ⟨(hn e he).1, hfits _ (feature_mem_owned he), hfiles _ (feature_mem_owned he)⟩
  obtain ⟨ha₁, h₁, -⟩ := of_writeFeatures h (fun e he => (hn e he).1) features.pairwise_ne hwrite
  have hfile₁ : d₁.entry? (way ++ ["manifest.json"]) ≠ some .directory := by
    have hfar : ¬ ∃ e ∈ features.entries, way ++ ["manifest.json"] = way ++ [e.1 ++ ".js"] := by
      rintro ⟨e, -, heq⟩
      exact feature_ne_manifest e.1 (by simpa using heq.symm)
    rw [ha₁.same hfar]
    exact hfiles _ (by simp [owned])
  have hmanifest := h₁.exists_write isName_manifest (hfits _ (by simp [owned])) hfile₁ manifest
  obtain ⟨-, -, ha₂, h₂⟩ := h₁.write isName_manifest hmanifest
  have hfile₂ : Disk.entry? (d₁.put (way ++ ["manifest.json"]) (.file manifest)) (way ++ ["index.js"]) ≠
      some .directory := by
    have hfar : ¬ ∃ e ∈ features.entries, way ++ ["index.js"] = way ++ [e.1 ++ ".js"] := by
      rintro ⟨e, he, heq⟩
      exact feature_ne_index (hn e he).2 (by simpa using heq.symm)
    rw [ha₂.same (by simp), ha₁.same hfar]
    exact hfiles _ (by simp [owned])
  have hindex := h₂.exists_write isName_index (hfits _ (by simp [owned])) hfile₂ index
  exact ⟨n, d₁, _, _, hwrite, hmanifest, hindex, (hd₁.put _ _).put _ _⟩

theorem exists_writePackage (h : Placeable (r.packageDir package) features d) (hn : AreNamed features)
    (hd : d.Distinct) (s : MaterializeSummary) :
    ∃ s' d', r.writePackage package features s d = .ok s' d' ∧ d'.Distinct := by
  obtain ⟨d₁, removed, d₂, hmake, hlist, hremove, hd₂, h₂, hfiles⟩ := exists_cleared h hd
  obtain ⟨n, d₃, d₄, d₅, hwrite, hmanifest, hindex, hd₅⟩ := exists_written h₂ hn hd₂ h.fits hfiles
    (.text (Json.pretty (Registry.manifest package features))) (.text (Registry.index features))
  refine ⟨⟨s.packages + 1, s.written + n.1, s.unchanged + n.2, s.removed + removed⟩, d₅, ?_, hd₅⟩
  rw [writePackage, bind_of_ok (change_of_ok hmake), bind_of_ok hlist, bind_of_ok hremove, bind_of_ok hwrite]
  dsimp only
  rw [writeText, bind_of_ok (change_of_ok hmanifest), writeText, bind_of_ok (change_of_ok hindex)]
  rfl

/-- Nothing that some packages need is of the wrong type: no file stands where a directory is needed, and
no directory where a file is written. The names at hand are within the limits of the system. -/
structure Ready (r : Registry) (ps : List (String × Table String)) (d : Disk) : Prop where
  rooted : r.Rooted d
  reach : Reachable r.root
  clear : ∀ k, k <+: wayTo d r.root → d.entry? k = none ∨ d.entry? k = some .directory
  distinct : d.Distinct
  place : ∀ p ∈ ps, Fits r.root p.1 ∧
    (d.entry? (wayTo d r.root ++ [p.1]) = none ∨ d.entry? (wayTo d r.root ++ [p.1]) = some .directory)
  files : ∀ p ∈ ps, ∀ x ∈ owned p.2,
    Fits (r.packageDir p.1) x ∧ d.entry? (wayTo d r.root ++ [p.1] ++ [x]) ≠ some .directory
  stale : ∀ p ∈ ps, ∀ x, isStale p.2 x = true → d.entry? (wayTo d r.root ++ [p.1] ++ [x]) ≠ none →
    Fits (r.packageDir p.1) x
  short : ∀ x, d.entry? (wayTo d r.root ++ [x]) = some .directory → Fits r.root x

theorem Ready.of_entries (hr : r.Rooted d) (hreach : Reachable r.root)
    (hclear : ∀ n ≤ (wayTo d r.root).length, d.entry? ((wayTo d r.root).take n) = none ∨
      d.entry? ((wayTo d r.root).take n) = some .directory)
    (hd : (d.entries.map Prod.fst).Nodup)
    (hplace : ∀ p ∈ ps, Fits r.root p.1 ∧
      (d.entry? (wayTo d r.root ++ [p.1]) = none ∨ d.entry? (wayTo d r.root ++ [p.1]) = some .directory))
    (hfiles : ∀ p ∈ ps, ∀ x ∈ owned p.2,
      Fits (r.packageDir p.1) x ∧ d.entry? (wayTo d r.root ++ [p.1] ++ [x]) ≠ some .directory)
    (hfits : ∀ x ∈ d.entries, (x.1.dropLast = wayTo d r.root → Fits r.root (x.1.getLast?.getD "")) ∧
      ∀ p ∈ ps, x.1.dropLast = wayTo d r.root ++ [p.1] → Fits (r.packageDir p.1) (x.1.getLast?.getD "")) :
    r.Ready ps d := by
  refine ⟨hr, hreach, fun k hk => ?_, hd, hplace, hfiles, fun p hp x _ he => ?_, fun x he => ?_⟩
  · rw [List.prefix_iff_eq_take.1 hk]
    exact hclear _ hk.length_le
  · obtain ⟨e, hmem⟩ := mem_entries (by simp) he
    have hfit := (hfits _ hmem).2 p hp
    rw [List.dropLast_concat, List.getLast?_concat] at hfit
    exact hfit rfl
  · obtain ⟨e, hmem⟩ := mem_entries (by simp) (ne_of_eq_of_ne he (by simp))
    have hfit := (hfits _ hmem).1
    rw [List.dropLast_concat, List.getLast?_concat] at hfit
    exact hfit rfl

/-- No directory has the name of a file that is to be removed. -/
def Removable (r : Registry) (ps : List (String × Table String)) (d : Disk) : Prop :=
  ∀ p ∈ ps, ∀ x, isStale p.2 x = true → d.entry? (wayTo d r.root ++ [p.1] ++ [x]) ≠ some .directory

theorem Ready.placeable (h : r.Ready ps d) (hf : r.Removable ps d) {p : String × Table String} (hp : p ∈ ps)
    (hname : isName p.1 = true) : Placeable (r.packageDir p.1) p.2 d := by
  have hn := isName_package hname
  have hway : wayTo d (r.packageDir p.1) = wayTo d r.root ++ [p.1] := wayTo_join d r.root hn
  obtain ⟨hfits, hdir⟩ := h.place p hp
  obtain ⟨ss, hseg, -⟩ := segments_join h.reach.1.filled hn.slash
  refine ⟨⟨h.rooted.tree, ?_, up_not_mem_join hn h.rooted.up, hfits.usable, fun x hx => ?_, fun k hk => ?_,
    .inl ⟨ss, p.1, hseg, hn.idle⟩⟩, fun x hx => (h.files p hp x hx).1, fun x hx => ?_, fun x hx hthere => ?_⟩
  · rw [packageDir, start_join d r.root hn]
    exact h.rooted.start
  · rw [packageDir, names_join r.root hn, List.mem_append, List.mem_singleton] at hx
    rcases hx with hx | rfl
    · exact h.reach.2 x hx
    · exact hfits.short
  · rw [hway] at hk
    rcases List.prefix_concat_iff.1 hk with rfl | hk
    · exact hdir
    · exact h.clear k hk
  · rw [hway]
    exact (h.files p hp x hx).2
  · rw [hway] at hthere ⊢
    refine ⟨h.stale p hp x hx hthere, ?_⟩
    obtain ⟨e, he⟩ := Option.ne_none_iff_exists'.1 hthere
    cases e with
    | file c => exact ⟨c, he⟩
    | directory => exact absurd he (hf p hp x hx)

theorem Ready.loses {spots : List String → Prop} (h : r.Ready ps d) (hl : Loses spots d d') (hr : r.Rooted d')
    (hd : d'.Distinct) : r.Ready ps d' := by
  have hway : wayTo d' r.root = wayTo d r.root := wayTo_eq hl.here r.root
  refine ⟨hr, h.reach, fun k hk => ?_, hd, fun p hp => ⟨(h.place p hp).1, ?_⟩,
    fun p hp x hx => ⟨(h.files p hp x hx).1, fun he => ?_⟩, fun p hp x hx he => ?_, fun x he => ?_⟩
  · rw [hway] at hk
    rcases hl.entry k with he | ⟨he, -⟩
    · exact he ▸ h.clear k hk
    · exact .inl he
  · rw [hway]
    rcases hl.entry (wayTo d r.root ++ [p.1]) with he | ⟨he, -⟩
    · exact he ▸ (h.place p hp).2
    · exact .inl he
  · rw [hway] at he
    exact (h.files p hp x hx).2 (hl.some he)
  · rw [hway] at he
    exact h.stale p hp x hx (hl.same he ▸ he)
  · rw [hway] at he
    exact h.short x (hl.some he)

theorem Removable.loses {spots : List String → Prop} (h : r.Removable ps d) (hl : Loses spots d d') :
    r.Removable ps d' := by
  intro p hp x hx he
  rw [wayTo_eq hl.here r.root] at he
  exact h p hp x hx (hl.some he)

theorem Ready.written {p : String × Table String} (h : r.Ready (p :: ps) d) (hfar : ∀ q ∈ ps, p.1 ≠ q.1)
    (ha : Alters (Touched p.2 (wayTo d r.root ++ [p.1])) d d') (hr : r.Rooted d') (hd : d'.Distinct)
    (hdir : d'.entry? (wayTo d r.root ++ [p.1]) = some .directory) : r.Ready ps d' := by
  have hway : wayTo d' r.root = wayTo d r.root := wayTo_eq ha.keeps.here r.root
  have hin : ∀ {q}, q ∈ ps → q ∈ p :: ps := fun hq => List.mem_cons_of_mem _ hq
  refine ⟨hr, h.reach, fun k hk => ?_, hd, fun q hq => ⟨(h.place q (hin hq)).1, ?_⟩,
    fun q hq x hx => ⟨(h.files q (hin hq) x hx).1, ?_⟩, fun q hq x hx => ?_, fun x he => ?_⟩
  · rw [hway] at hk
    have hthere : d'.entry? (wayTo d r.root ++ [p.1]) ≠ none := by simp [hdir]
    refine .inr (hr.tree.above hthere (hk.trans (List.prefix_append _ _)) fun heq => ?_)
    have hle := hk.length_le
    rw [heq, List.length_append, List.length_singleton] at hle
    omega
  · rw [hway, ha.same (not_touched (hfar q hq) _).1]
    exact (h.place q (hin hq)).2
  · rw [hway, ha.same ((not_touched (hfar q hq) _).2 x)]
    exact (h.files q (hin hq) x hx).2
  · rw [hway, ha.same ((not_touched (hfar q hq) _).2 x)]
    exact h.stale q (hin hq) x hx
  · rw [hway] at he
    by_cases hx : p.1 = x
    · exact hx ▸ (h.place p List.mem_cons_self).1
    · exact h.short x (ha.same (not_touched hx _).1 ▸ he)

theorem Removable.written {p : String × Table String} (h : r.Removable (p :: ps) d)
    (hfar : ∀ q ∈ ps, p.1 ≠ q.1) (ha : Alters (Touched p.2 (wayTo d r.root ++ [p.1])) d d') :
    r.Removable ps d' := by
  intro q hq x hx
  rw [wayTo_eq ha.keeps.here r.root, ha.same ((not_touched (hfar q hq) _).2 x)]
  exact h q (List.mem_cons_of_mem _ hq) x hx

theorem exists_writePackages (h : r.Ready ps d) (hf : r.Removable ps d)
    (hn : ∀ p ∈ ps, isName p.1 = true ∧ AreNamed p.2) (hd : ps.Pairwise fun p q => p.1 ≠ q.1)
    (s : MaterializeSummary) : ∃ s' d', r.writePackages ps s d = .ok s' d' := by
  induction ps generalizing d s with
  | nil => exact ⟨s, d, rfl⟩
  | cons p ps ih =>
    obtain ⟨package, features⟩ := p
    obtain ⟨hfar, hd⟩ := List.pairwise_cons.1 hd
    obtain ⟨hname, hfeatures⟩ := hn _ List.mem_cons_self
    have hplaceable := h.placeable hf List.mem_cons_self hname
    obtain ⟨s₁, d₁, hw, hd₁⟩ := exists_writePackage hplaceable hfeatures h.distinct s
    obtain ⟨h₁, hwrote⟩ := of_writePackages_cons h.rooted hname hfeatures hw
    obtain ⟨s', d', hrest⟩ := ih (h.written hfar hwrote.alters h₁ hd₁ hwrote.inLine.folder.entry)
      (hf.written hfar hwrote.alters)
      (fun q hq => hn q (List.mem_cons_of_mem _ hq)) hd s₁
    exact ⟨s', d', by rw [writePackages, bind_of_ok hw, hrest]⟩

/-- A ready tree can be brought in line if no directory has the name of a file that is to be removed. -/
theorem exists_materialize (h : r.Ready r.filled d) (hn : r.IsNamed) (hf : r.Removable r.filled d) :
    ∃ s d', r.materialize d = .ok s d' := by
  obtain ⟨n, d₁, hremove, hd₁⟩ := exists_removeUnregistered h.rooted h.distinct
  obtain ⟨h₁, -, hloses⟩ := of_removeUnregistered h.rooted hremove
  obtain ⟨s, d', hw⟩ := exists_writePackages (h.loses hloses h₁ hd₁) (hf.loses hloses)
    (fun p hp => hn p (mem_packages hp)) (r.packages.pairwise_ne.filter _) ⟨0, 0, 0, n⟩
  exact ⟨s, d', by rw [materialize, bind_of_ok hremove, hw]⟩

end FragmentMerge.Registry
