import FragmentMerge.Proofs.Features.Packages

/-! The directory tree of a registry. After it has been brought in line, every package is in line and no
other directory stands below the root, so bringing it in line again changes nothing. -/

namespace FragmentMerge.Registry

open Disk FragmentMerge.Path

variable {r : Registry} {d d' : Disk} {root dir name : String} {way base kept : List String}
  {s s' : MaterializeSummary}

/-- All packages and features have names that can be registered. -/
def IsNamed (r : Registry) : Prop := ∀ p ∈ r.packages.entries, isName p.1 = true ∧ AreNamed p.2

theorem isNamed_new (root : String) : (new root).IsNamed := fun _ hp => absurd hp List.not_mem_nil

theorem find?_mem {α : Type} {t : Table α} {k : String} {v : α} (h : t.find? k = some v) :
    (k, v) ∈ t.entries := by
  obtain ⟨a, b, heq, -⟩ := List.lookup_eq_some_iff.1 h
  rw [heq]
  simp

theorem of_register {r' : Registry} {package feature code : String}
    (hr : r.register package feature code = .ok r') :
    isName package = true ∧ isName feature = true ∧ feature ∉ reserved ∧ r' = { r with
      packages := r.packages.insert package (((r.packages.find? package).getD .empty).insert feature code) } := by
  rw [register] at hr
  split at hr
  · cases hr
  · next hp =>
    split at hr
    · cases hr
    · next hf =>
      split at hr
      · cases hr
      · next hres =>
        exact ⟨by simpa using hp, by simpa using hf, by simpa using hres, (Except.ok.inj hr).symm⟩

theorem isNamed_register {r' : Registry} {package feature code : String} (h : r.IsNamed)
    (hr : r.register package feature code = .ok r') : r'.IsNamed := by
  obtain ⟨hp, hf, hres, rfl⟩ := of_register hr
  intro p hp'
  rcases Table.mem_insertIn hp' with rfl | hp'
  · refine ⟨hp, fun e he => ?_⟩
    rcases Table.mem_insertIn he with rfl | he
    · exact ⟨hf, hres⟩
    · cases hfind : r.packages.find? package with
      | none =>
        rw [hfind] at he
        exact absurd he List.not_mem_nil
      | some fs =>
        rw [hfind] at he
        exact (h _ (find?_mem hfind)).2 e he
  · exact h p hp'

theorem of_removeTree (hup : ".." ∉ segments dir) (h : d.Folder dir way) (hn : IsName name)
    (hr : d.removeTree (join dir name) = .ok d') :
    d'.entry? (way ++ [name]) = none ∧ Loses (way ++ [name] <+: ·) d d' ∧ d'.Folder dir way := by
  rw [Disk.removeTree] at hr
  split at hr
  · next w hl =>
    obtain rfl := Except.ok.inj hr
    obtain ⟨-, hs⟩ := h.spot hn hl
    obtain ⟨-, rfl⟩ := spotAt_eq_directory_iff.1 hs.symm
    have hentries : ∀ k, Disk.entry? (d.prune (way ++ [name])) k =
        if way ++ [name] <+: k then none else d.entry? k := by
      intro k
      by_cases hnil : k = []
      · rw [hnil, if_neg (by simp)]
        rfl
      · exact entry?_prune d _ hnil
    have hshort : ∀ {k}, k <+: way → ¬ way ++ [name] <+: k := fun hk hp => by
      have := (hp.trans hk).length_le
      rw [List.length_append, List.length_singleton] at this
      omega
    refine ⟨by rw [hentries, if_pos List.prefix_rfl], ⟨rfl, fun k => ?_⟩, h.tree.prune _, ?_, ?_⟩
    · rw [hentries]
      split
      · next hp => exact .inr ⟨rfl, hp⟩
      · exact .inl rfl
    · -- the names on the way to the directory are all above what has been removed
      obtain ⟨hu, hw⟩ := locate_eq_ok_iff.1 h.locate
      obtain ⟨rfl, hsizes, hdirs⟩ := (walk_down_iff hup).1 hw
      refine locate_eq_ok_iff.2 ⟨hu, (walk_down_iff hup).2 ⟨rfl, hsizes, fun ks hks hne => ?_⟩⟩
      show Disk.entry? (d.prune _) (d.start dir ++ ks) = _
      rw [hentries, if_neg (hshort ((List.prefix_append_right_inj _).2 hks))]
      exact hdirs ks hks hne
    · rw [hentries, if_neg (hshort List.prefix_rfl)]
      exact h.entry
  · cases hr
  · cases hr
  · cases hr

/-- What stands in directories of other names. -/
def Foreign (d : Disk) (base kept k : List String) : Prop :=
  ∃ x, x ∉ kept ∧ d.entry? (base ++ [x]) = some .directory ∧ base ++ [x] <+: k

theorem of_removePackages_cons (hup : ".." ∉ segments root) (h : d.Folder root base) {x : String}
    (hx : IsName x) {names : List String} {n : Nat}
    (hr : removePackages root kept (x :: names) d = .ok n d') :
    ∃ d₁ m, Loses (Foreign d base kept) d d₁ ∧ d₁.Folder root base ∧
      (Fits root x → d₁.entry? (base ++ [x]) = some .directory → x ∈ kept) ∧
      removePackages root kept names d₁ = .ok m d' := by
  rw [removePackages, get_bind] at hr
  split at hr
  · next hremove =>
    obtain ⟨hisdir, hother⟩ := Bool.and_eq_true_iff.1 hremove
    obtain ⟨_, d₁, hchange, hr⟩ := bind_eq_ok hr
    obtain ⟨m, d₂, hrec, hpure⟩ := bind_eq_ok hr
    obtain ⟨-, rfl⟩ := EStateM.Result.ok.inj hpure
    obtain ⟨hnone, hl, h₁⟩ := of_removeTree hup h hx (change_eq_ok hchange)
    have hforeign : Loses (Foreign d base kept) d d₁ :=
      hl.mono fun k hk => ⟨x, by simpa using hother, ((h.isDirectory_iff hx).1 hisdir).2, hk⟩
    exact ⟨d₁, m, hforeign, h₁, fun _ hdir => absurd (hnone ▸ hdir) (by simp), hrec⟩
  · next hskip =>
    refine ⟨d, n, .refl _ _, h, fun hfits hdir => ?_, hr⟩
    have hisdir := (h.isDirectory_iff hx).2 ⟨hfits, hdir⟩
    simpa [hisdir] using hskip

theorem of_removePackages (hup : ".." ∉ segments root) (h : d.Folder root base) {names : List String}
    (hnames : ∀ x ∈ names, IsName x) {n : Nat} (hr : removePackages root kept names d = .ok n d') :
    Loses (Foreign d base kept) d d' ∧ d'.Folder root base ∧
      ∀ x ∈ names, d'.entry? (base ++ [x]) = some .directory → Fits root x → x ∈ kept := by
  induction names generalizing d n with
  | nil =>
    obtain ⟨-, rfl⟩ := EStateM.Result.ok.inj hr
    exact ⟨.refl _ _, h, by simp⟩
  | cons x names ih =>
    obtain ⟨d₁, m, hl₁, h₁, hkept, hrec⟩ := of_removePackages_cons hup h (hnames x List.mem_cons_self) hr
    obtain ⟨hl, h', hgone⟩ := ih h₁ (fun y hy => hnames y (List.mem_cons_of_mem _ hy)) hrec
    have hl : Loses (Foreign d base kept) d₁ d' :=
      hl.mono fun k ⟨y, hy, hdir, hk⟩ => ⟨y, hy, (hl₁.same (by simp [hdir])).symm.trans hdir, hk⟩
    refine ⟨hl₁.trans hl, h', fun y hy hdir hfits => ?_⟩
    rcases List.mem_cons.1 hy with rfl | hy
    · exact hkept hfits ((hl.same (by simp [hdir])).symm.trans hdir)
    · exact hgone y hy hdir hfits

theorem removePackages_of_kept {names : List String}
    (h : ∀ x ∈ names, d.isDirectory (join root x) = true → x ∈ kept) :
    removePackages root kept names d = .ok 0 d := by
  induction names with
  | nil => rfl
  | cons x names ih =>
    rw [removePackages, get_bind, if_neg fun hc => ?_]
    · exact ih fun y hy => h y (List.mem_cons_of_mem _ hy)
    · obtain ⟨hd, hk⟩ := Bool.and_eq_true_iff.1 hc
      simp [h x List.mem_cons_self hd] at hk

/-- A path whose names the system can look up. -/
def Reachable (p : String) : Prop :=
  IsUsable p ∧ ∀ x ∈ names (segments p), x.utf8ByteSize ≤ Disk.nameLimit

/-- Below the root there are no directories but those of the packages. -/
def Tidy (r : Registry) (d : Disk) : Prop :=
  Reachable r.root → ∀ x, d.entry? (wayTo d r.root ++ [x]) = some .directory → Fits r.root x →
    x ∈ r.packageNames

/-- A root that can be a directory, and starts at one. -/
structure Rooted (r : Registry) (d : Disk) : Prop where
  tree : d.IsTree
  start : d.entry? (d.start r.root) = some .directory
  up : ".." ∉ segments r.root

theorem Rooted.folder (h : r.Rooted d) (hl : d.locate r.root = .ok (.directory way)) :
    way = wayTo d r.root ∧ Reachable r.root ∧ d.Folder r.root way := by
  obtain ⟨hu, hw⟩ := locate_eq_ok_iff.1 hl
  obtain ⟨hway, hsizes, -⟩ := (walk_down_iff h.up).1 hw
  exact ⟨hway, ⟨hu, hsizes⟩, h.tree, hl, entry?_of_walk h.tree h.start hw⟩

theorem Rooted.locate (h : r.Rooted d) (hr : Reachable r.root)
    (he : d.entry? (wayTo d r.root) = some .directory) :
    d.locate r.root = .ok (.directory (wayTo d r.root)) := by
  refine locate_eq_ok_iff.2 ⟨hr.1, (walk_down_iff h.up).2 ⟨rfl, hr.2, fun ks hks _ => ?_⟩⟩
  by_cases hall : ks = names (segments r.root)
  · rw [hall]
    exact he
  · have hne : d.entry? (wayTo d r.root) ≠ none := by simp [he]
    exact h.tree.above hne ((List.prefix_append_right_inj _).2 hks) (by simpa [wayTo] using hall)

theorem isDirectory_eq_true {p : String} (h : d.isDirectory p = true) :
    ∃ way, d.locate p = .ok (.directory way) := by
  rw [isDirectory] at h
  split at h
  · exact ⟨_, ‹_›⟩
  · cases h

theorem of_removeUnregistered (h : r.Rooted d) {n : Nat} (hr : r.removeUnregistered d = .ok n d') :
    r.Rooted d' ∧ r.Tidy d' ∧ Loses (Foreign d (wayTo d r.root) r.packageNames) d d' := by
  rw [removeUnregistered, get_bind] at hr
  split at hr
  · next hdir =>
    obtain ⟨way, hl⟩ := isDirectory_eq_true hdir
    obtain ⟨rfl, hreach, hfolder⟩ := h.folder hl
    rw [bind_of_ok (listNames_of_directory hl)] at hr
    obtain ⟨hloses, hf, hgone⟩ := of_removePackages h.up hfolder (fun x hx => hfolder.isName hx) hr
    refine ⟨⟨hf.tree, ?_, h.up⟩, fun _ x hx hfits => ?_, hloses⟩
    · rw [start_eq hloses.here r.root]
      rcases hloses.entry (d.start r.root) with hk | ⟨-, x, -, -, hp⟩
      · rw [hk, h.start]
      · have := hp.length_le
        simp only [wayTo, List.length_append, List.length_singleton] at this
        omega
    · rw [wayTo_eq hloses.here] at hx
      have hsome : d'.entry? (wayTo d r.root ++ [x]) ≠ none := by simp [hx]
      exact hgone x (mem_namesIn (hloses.same hsome ▸ hsome)) hx hfits
  · next hdir =>
    obtain ⟨-, rfl⟩ := EStateM.Result.ok.inj hr
    refine ⟨h, fun hreach x hx _ => absurd ?_ hdir, .refl _ _⟩
    rw [isDirectory, h.locate hreach (h.tree.parents (s := x) (by simp [hx]))]

theorem removeUnregistered_of_tidy (h : r.Rooted d) (ht : r.Tidy d) : r.removeUnregistered d = .ok 0 d := by
  rw [removeUnregistered, get_bind]
  split
  · next hdir =>
    obtain ⟨way, hl⟩ := isDirectory_eq_true hdir
    obtain ⟨rfl, hreach, hfolder⟩ := h.folder hl
    rw [bind_of_ok (listNames_of_directory hl)]
    refine removePackages_of_kept fun x hx hd => ?_
    obtain ⟨hfits, he⟩ := (hfolder.isDirectory_iff (hfolder.isName hx)).1 hd
    exact ht hreach x he hfits
  · rfl

theorem InLine.keep {package : String} {features : Table String}
    (h : InLine package features dir way d) (hn : AreNamed features) (hk : d.Keeps d') (ht : d'.IsTree)
    (hcome : ∀ x, d'.entry? (way ++ [x]) ≠ none → d.entry? (way ++ [x]) ≠ none)
    (hsame : ∀ x ∈ owned features, d'.entry? (way ++ [x]) = d.entry? (way ++ [x])) :
    InLine package features dir way d' := by
  have hfolder := h.folder.keep hk ht
  have hread : ∀ {x : String} {c : Content}, x ∈ owned features → IsName x →
      d.read (join dir x) = .ok c → d'.read (join dir x) = .ok c := by
    intro x c hx hname hr
    obtain ⟨hfits, he⟩ := (h.folder.read_eq_ok_iff hname).1 hr
    exact (hfolder.read_eq_ok_iff hname).2 ⟨hfits, hsame x hx ▸ he⟩
  refine ⟨hfolder, fun x hx => h.fresh x (hcome x hx), ?_, hread (by simp [owned]) isName_manifest h.manifest,
    hread (by simp [owned]) isName_index h.index⟩
  exact h.current.keep h.folder hfolder (fun e he => (hn e he).1) fun e he => hsame _ (feature_mem_owned he)

theorem of_writePackages_cons {package : String} {features : Table String} (h : r.Rooted d)
    (hname : isName package = true) (hn : AreNamed features)
    (hw : r.writePackage package features s d = .ok s' d') : r.Rooted d' ∧
      Wrote package features (r.packageDir package) (wayTo d r.root ++ [package]) s s' d d' := by
  have hp := isName_package hname
  have hstart := start_join d r.root hp
  have hwrote := of_writePackage rfl h.tree (hstart ▸ h.start) (up_not_mem_join hp h.up) hn hw
  rw [packageDir, wayTo_join d r.root hp] at hwrote
  have hkeeps := hwrote.alters.keeps
  exact ⟨⟨hwrote.inLine.folder.tree, start_eq hkeeps.here r.root ▸ hkeeps.directory h.start, h.up⟩, hwrote⟩

/-- What a package touches stands in the directory of its own name, and no directory of another name is
touched. -/
theorem not_touched {features : Table String} {p q : String} (hne : p ≠ q) (base : List String) :
    ¬ Touched features (base ++ [p]) (base ++ [q]) ∧
      ∀ x, ¬ Touched features (base ++ [p]) (base ++ [q] ++ [x]) := by
  constructor
  · rintro (hpre | ⟨y, -, heq⟩)
    · have := hpre.eq_of_length (by simp)
      exact hne (by simpa using this.symm)
    · have := congrArg List.length heq
      simp at this
  · rintro x (hpre | ⟨y, -, heq⟩)
    · have := hpre.length_le
      simp at this
    · exact hne (by simpa using ((List.append_inj' heq rfl).1).symm)

structure Feature where
  package : String
  name : String
  code : String

def Feature.isKnown (x : Feature) (d : Disk) (base : List String) : Bool :=
  hasDigest d (base ++ [x.package]) (x.name, x.code)

def featuresOf (ps : List (String × Table String)) : List Feature :=
  ps.flatMap fun p => p.2.entries.map fun e => ⟨p.1, e.1, e.2⟩

theorem countP_featuresOf_cons (held : Feature → Bool) (p : String × Table String)
    (ps : List (String × Table String)) : (featuresOf (p :: ps)).countP held =
      (p.2.entries.countP fun e => held ⟨p.1, e.1, e.2⟩) + (featuresOf ps).countP held := by
  rw [featuresOf, List.flatMap_cons, List.countP_append, List.countP_map]
  rfl

theorem Wrote.elsewhere {package q dir : String} {features : Table String}
    (h : Wrote package features dir (base ++ [package]) s s' d d') (hne : package ≠ q) (e : String × String) :
    hasDigest d' (base ++ [q]) e = hasDigest d (base ++ [q]) e ∧
      fileAfter d' (base ++ [q]) e = fileAfter d (base ++ [q]) e :=
  hasDigest_eq (h.alters.same ((not_touched hne base).2 _))

theorem countP_isKnown_eq {ps : List (String × Table String)} (h : ∀ q ∈ ps, ∀ e ∈ q.2.entries,
    hasDigest d' (base ++ [q.1]) e = hasDigest d (base ++ [q.1]) e) :
    (featuresOf ps).countP (·.isKnown d' base) = (featuresOf ps).countP (·.isKnown d base) ∧
      (featuresOf ps).countP (!·.isKnown d' base) = (featuresOf ps).countP (!·.isKnown d base) := by
  refine countP_eq_of_agree fun x hx => ?_
  obtain ⟨q, hq, hx⟩ := List.mem_flatMap.1 hx
  obtain ⟨e, he, rfl⟩ := List.mem_map.1 hx
  exact h q hq e he

/-- What the writing of several packages comes to. -/
structure WroteAll (r : Registry) (ps : List (String × Table String)) (s s' : MaterializeSummary)
    (d d' : Disk) : Prop where
  tree : d'.IsTree
  alters : Alters (fun k => ∃ p ∈ ps, Touched p.2 (wayTo d r.root ++ [p.1]) k) d d'
  inLine : ∀ p ∈ ps, InLine p.1 p.2 (r.packageDir p.1) (wayTo d r.root ++ [p.1]) d'
  files : ∀ p ∈ ps, ∀ e ∈ p.2.entries,
    d'.entry? (wayTo d r.root ++ [p.1] ++ [e.1 ++ ".js"]) = fileAfter d (wayTo d r.root ++ [p.1]) e
  written : s'.written = s.written + (featuresOf ps).countP (!·.isKnown d (wayTo d r.root))
  unchanged : s'.unchanged = s.unchanged + (featuresOf ps).countP (·.isKnown d (wayTo d r.root))

theorem of_writePackages {ps : List (String × Table String)} (h : r.Rooted d)
    (hn : ∀ p ∈ ps, isName p.1 = true ∧ AreNamed p.2) (hd : ps.Pairwise fun p q => p.1 ≠ q.1)
    (hw : r.writePackages ps s d = .ok s' d') : WroteAll r ps s s' d d' := by
  induction ps generalizing d s with
  | nil =>
    obtain ⟨rfl, rfl⟩ := EStateM.Result.ok.inj hw
    exact ⟨h.tree, .refl _ _, by simp, by simp, rfl, rfl⟩
  | cons p ps ih =>
    obtain ⟨package, features⟩ := p
    obtain ⟨hfar, hd⟩ := List.pairwise_cons.1 hd
    obtain ⟨hp, hfeatures⟩ := hn _ List.mem_cons_self
    rw [writePackages] at hw
    obtain ⟨s₁, d₁, hpackage, hw⟩ := bind_eq_ok hw
    obtain ⟨h₁, hwrote⟩ := of_writePackages_cons h hp hfeatures hpackage
    have hrest := ih h₁ (fun q hq => hn q (List.mem_cons_of_mem _ hq)) hd hw
    have hbase : wayTo d₁ r.root = wayTo d r.root := wayTo_eq hwrote.alters.keeps.here r.root
    have hhere := hrest.alters
    rw [hbase] at hhere
    -- what the other packages write stands in directories of other names
    have hstay : ∀ x, d'.entry? (wayTo d r.root ++ [package] ++ [x]) =
        d₁.entry? (wayTo d r.root ++ [package] ++ [x]) :=
      fun x => hhere.same fun ⟨q, hq, hx⟩ => (not_touched (hfar q hq).symm _).2 x hx
    have hsame := fun q hq e => hwrote.elsewhere (hfar q hq) e
    obtain ⟨hold, hnew⟩ := countP_isKnown_eq fun q hq e _ => (hsame q hq e).1
    refine ⟨hrest.tree, (hwrote.alters.mono fun k hk => ⟨_, List.mem_cons_self, hk⟩).trans
      (hhere.mono fun k ⟨q, hq, hk⟩ => ⟨q, List.mem_cons_of_mem _ hq, hk⟩), fun q hq => ?_,
      fun q hq e he => ?_, ?_, ?_⟩
    · rcases List.mem_cons.1 hq with rfl | hq
      · exact hwrote.inLine.keep hfeatures hhere.keeps hrest.tree (fun x hx => hstay x ▸ hx) fun x _ => hstay x
      · exact hbase ▸ hrest.inLine q hq
    · rcases List.mem_cons.1 hq with rfl | hq
      · exact (hstay _).trans (hwrote.files e he)
      · rw [← (hsame q hq e).2, ← hbase]
        exact hrest.files q hq e he
    · rw [hrest.written, hwrote.written, hbase, hnew, countP_featuresOf_cons, Nat.add_assoc]
      rfl
    · rw [hrest.unchanged, hwrote.unchanged, hbase, hold, countP_featuresOf_cons, Nat.add_assoc]
      rfl

theorem writePackages_of_inLine {ps : List (String × Table String)}
    (h : ∀ p ∈ ps, ∃ way, InLine p.1 p.2 (r.packageDir p.1) way d) (s : MaterializeSummary) :
    ∃ s', r.writePackages ps s d = .ok s' d ∧ s'.written = s.written ∧ s'.removed = s.removed := by
  induction ps generalizing s with
  | nil => exact ⟨s, rfl, rfl, rfl⟩
  | cons p ps ih =>
    obtain ⟨package, features⟩ := p
    obtain ⟨way, hline⟩ := h _ List.mem_cons_self
    obtain ⟨s', hs, hw, hr⟩ := ih (fun q hq => h q (List.mem_cons_of_mem _ hq))
      ⟨s.packages + 1, s.written, s.unchanged + features.entries.length, s.removed⟩
    exact ⟨s', by rw [writePackages, bind_of_ok (writePackage_of_inLine hline s), hs], hw, hr⟩

/-- The tree is as the registry wants it. -/
structure Settled (r : Registry) (d : Disk) : Prop where
  rooted : r.Rooted d
  tidy : r.Tidy d
  inLine : ∀ p ∈ r.filled, InLine p.1 p.2 (r.packageDir p.1) (wayTo d r.root ++ [p.1]) d

theorem mem_packages {p : String × Table String} (h : p ∈ r.filled) : p ∈ r.packages.entries :=
  (List.mem_filter.1 h).1

/-- The packages have been put in their places, and no other file has come or changed. -/
structure Placed (r : Registry) (d d' : Disk) : Prop where
  settled : r.Settled d'
  here : d'.here = d.here
  files : ∀ {k c}, d'.entry? k = some (.file c) → d.entry? k = some (.file c) ∨
    ∃ p ∈ r.filled, ∃ x, k = wayTo d r.root ++ [p.1] ++ [x]

/-- Foreign directories are removed, and then the packages are written. -/
theorem of_materialize (h : r.Rooted d) (hn : r.IsNamed) (hm : r.materialize d = .ok s d') : ∃ n d₁,
    r.Rooted d₁ ∧ r.Tidy d₁ ∧ Loses (Foreign d (wayTo d r.root) r.packageNames) d d₁ ∧
      WroteAll r r.filled ⟨0, 0, 0, n⟩ s d₁ d' := by
  rw [materialize] at hm
  obtain ⟨n, d₁, hremove, hw⟩ := bind_eq_ok hm
  obtain ⟨h₁, htidy, hloses⟩ := of_removeUnregistered h hremove
  have hd : r.filled.Pairwise fun p q => p.1 ≠ q.1 := r.packages.pairwise_ne.filter _
  exact ⟨n, d₁, h₁, htidy, hloses, of_writePackages h₁ (fun p hp => hn p (mem_packages hp)) hd hw⟩

theorem placed_of_materialize (h : r.Rooted d) (hn : r.IsNamed) (hm : r.materialize d = .ok s d') :
    r.Placed d d' := by
  obtain ⟨n, d₁, h₁, htidy, hloses, ht, ⟨hk, hnew⟩, hlines, -⟩ := of_materialize h hn hm
  have hstart := start_eq hk.here r.root
  have hbase : wayTo d' r.root = wayTo d₁ r.root := wayTo_eq hk.here r.root
  refine ⟨⟨⟨ht, hstart ▸ hk.directory h₁.start, h.up⟩, fun hreach x hx hfits => ?_, ?_⟩,
    hk.here.trans hloses.here, fun {k c} hfile => ?_⟩
  · rw [hbase] at hx
    rcases hnew (wayTo d₁ r.root ++ [x]) with he | ⟨p, hp, he | ⟨y, -, he⟩⟩
    · exact htidy hreach x (he ▸ hx) hfits
    · have heq := he.eq_of_length (by simp)
      obtain rfl : x = p.1 := by simpa using heq
      exact List.mem_map.2 ⟨p, hp, rfl⟩
    · have := congrArg List.length he
      simp at this
  · rw [hbase]
    exact hlines
  · rw [← wayTo_eq hloses.here]
    rcases hnew k with he | ⟨p, hp, hpre | ⟨x, -, hx⟩⟩
    · rw [he] at hfile
      exact .inl ((hloses.same (by simp [hfile])).symm.trans hfile)
    · -- on the way to a package there are directories only
      have hentry := (hlines p hp).folder.entry
      by_cases hk : k = wayTo d₁ r.root ++ [p.1]
      · rw [hk, hentry] at hfile
        cases hfile
      · rw [ht.above (by simp [hentry]) hpre hk] at hfile
        cases hfile
    · exact .inr ⟨p, hp, x, hx⟩

/-- Bringing a settled tree in line writes and removes no feature, and changes nothing. -/
theorem materialize_of_settled (h : r.Settled d) :
    ∃ s, r.materialize d = .ok s d ∧ s.written = 0 ∧ s.removed = 0 := by
  obtain ⟨s, hs, hw, hr⟩ := writePackages_of_inLine (fun p hp => ⟨_, h.inLine p hp⟩) ⟨0, 0, 0, 0⟩
  exact ⟨s, by rw [materialize, bind_of_ok (removeUnregistered_of_tidy h.rooted h.tidy), hs], hw, hr⟩

/-- A settled tree stays settled when files that no package writes get other contents. -/
theorem Settled.rewritten {changed : List String → Prop} (h : r.Settled d) (hn : r.IsNamed)
    (hr : Rewritten changed d d')
    (hapart : ∀ p ∈ r.filled, ∀ x ∈ owned p.2, ¬ changed (wayTo d r.root ++ [p.1] ++ [x])) :
    r.Settled d' := by
  have hstart := start_eq hr.here r.root
  have hbase : wayTo d' r.root = wayTo d r.root := wayTo_eq hr.here r.root
  refine ⟨⟨hr.tree h.rooted.tree, hstart ▸ hr.keeps.directory h.rooted.start, h.rooted.up⟩,
    fun hreach x hx hfits => ?_, fun p hp => ?_⟩
  · rw [hbase] at hx
    exact h.tidy hreach x (hr.directory hx) hfits
  · rw [hbase]
    refine (h.inLine p hp).keep (hn p (mem_packages hp)).2 hr.keeps (hr.tree h.rooted.tree)
      (fun x hx => hr.present hx) fun x hx => hr.same (hapart p hp x hx)

end FragmentMerge.Registry
