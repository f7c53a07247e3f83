import FragmentMerge.Proofs.Features.Ready

/-! What is in the tree of a registry after it has been brought in line, told by the calls that registered
its features. -/

namespace FragmentMerge.Registry

open Disk FragmentMerge.Path

variable {r : Registry} {d d' d₁ : Disk} {base : List String} {features : Table String}
  {p : String × Table String} {s : MaterializeSummary} {code : String → String → Option String}

theorem eq_of_splitExtension {name stem ext : String} (h : splitExtension name = (stem, some ext)) :
    name = stem ++ "." ++ ext := by
  rw [splitExtension] at h
  split at h
  · cases h
  · split at h
    · next c l e hcut =>
      obtain ⟨hstem, hext⟩ := Prod.mk.inj h
      obtain rfl := Option.some.inj hext
      rw [← hstem]
      exact String.ext (by simpa using (Text.cutLast?_eq_some_iff.1 hcut).1)
    · cases h

/-- A script is an index, a manifest, a feature or stale. -/
theorem script_cases {x : String} (hx : (splitExtension x).2 = some "js")
    (hfresh : isStale features x = false) :
    x = "index.js" ∨ x = "manifest.js" ∨ ∃ f, features.find? f ≠ none ∧ x = f ++ ".js" := by
  rcases hsplit : splitExtension x with ⟨stem, ext⟩
  obtain rfl : ext = some "js" := by simpa [hsplit] using hx
  have hname : x = stem ++ ".js" := by simpa [String.append_assoc] using eq_of_splitExtension hsplit
  rw [isStale, hsplit] at hfresh
  have hcases : stem = "index" ∨ stem = "manifest" ∨ features.find? stem ≠ none := by
    simpa [reserved, or_assoc, ← Option.isSome_iff_ne_none, imp_iff_not_or] using hfresh
  rcases hcases with rfl | rfl | hfind
  · exact .inl hname
  · exact .inr (.inl hname)
  · exact .inr (.inr ⟨stem, hfind, hname⟩)

/-- Files without the extension of a script are not touched, but for one, and a file of scripts with a
reserved name is not. -/
theorem apart_of_extension (hn : AreNamed features) {x : String}
    (hx : (splitExtension x).2 ≠ some "js" ∧ x ≠ "manifest.json" ∨ x = "manifest.js") :
    x ∉ owned features ∧ isStale features x = false := by
  rcases hx with ⟨hext, hjson⟩ | rfl
  · refine ⟨fun hm => ?_, ?_⟩
    · rcases List.mem_cons.1 hm with rfl | hm
      · exact hjson rfl
      · rcases List.mem_cons.1 hm with rfl | hm
        · exact hext rfl
        · obtain ⟨f, hf, rfl⟩ := List.mem_map.1 hm
          obtain ⟨e, he, rfl⟩ := List.mem_map.1 hf
          exact hext (by rw [splitExtension_feature (hn e he).1])
    · rw [isStale]
      split
      · next hsplit => exact absurd (by rw [hsplit]) hext
      · rfl
  · refine ⟨fun hm => ?_, rfl⟩
    rcases List.mem_cons.1 hm with h | hm
    · exact absurd h (by decide)
    · rcases List.mem_cons.1 hm with h | hm
      · exact absurd h (by decide)
      · obtain ⟨f, hf, heq⟩ := List.mem_map.1 hm
        obtain ⟨e, he, rfl⟩ := List.mem_map.1 hf
        have hlist : e.1.toList ++ ".js".toList = "manifest".toList ++ ".js".toList := by
          rw [← String.toList_append, heq]
          rfl
        exact (hn e he).2 (by simp [String.ext (List.append_cancel_right hlist), reserved])

theorem same_of_foreign (hp : p ∈ r.filled) (hl : Loses (Foreign d base r.packageNames) d d₁)
    (ks : List String) :
    d₁.entry? (base ++ p.1 :: ks) = d.entry? (base ++ p.1 :: ks) := by
  refine (hl.entry _).resolve_right ?_
  rintro ⟨-, x, hx, -, hpre⟩
  rw [List.prefix_append_right_inj, List.cons_prefix_cons] at hpre
  exact hx (hpre.1 ▸ List.mem_map_of_mem hp)

theorem eq_of_filled {q : String × Table String} (hp : p ∈ r.filled) (hq : q ∈ r.filled) (h : q.1 = p.1) :
    q = p := by
  have hfind := find?_of_mem (mem_packages hp)
  rw [← h, find?_of_mem (mem_packages hq)] at hfind
  exact Prod.ext h (Option.some.inj hfind)

/-- No package touches the other files of a package, or what stands deeper. -/
theorem not_touched_of_apart (hp : p ∈ r.filled) {x : String} (hx : x ∉ owned p.2 ∧ isStale p.2 x = false) :
    ¬ ∃ q ∈ r.filled, Touched q.2 (base ++ [q.1]) (base ++ [p.1] ++ [x]) := by
  rintro ⟨q, hq, htouched⟩
  by_cases hname : q.1 = p.1
  · obtain rfl := eq_of_filled hp hq hname
    rcases htouched with hpre | ⟨y, hy, heq⟩
    · have := hpre.length_le
      simp at this
    · obtain rfl : x = y := by simpa using heq
      rcases hy with hy | hy
      · exact hx.1 hy
      · rw [hx.2] at hy
        cases hy
  · exact (not_touched hname _).2 x htouched

namespace Feature

variable (x : Feature) (d : Disk) (base : List String)

def place : List String := base ++ [x.package] ++ [x.name ++ ".js"]

/-- Whether the file of a feature holds its code. -/
def isHeld : Bool :=
  match d.entry? (x.place base) with
  | some (.file c) => c.bytes == Utf8.bytes x.code
  | _ => false

end Feature

/-- No file of a feature has the digest of the feature's code but other bytes. -/
def CollisionFree (code : String → String → Option String) (base : List String) (d : Disk) : Prop :=
  ∀ x : Feature, code x.package x.name = some x.code → ∀ c, d.entry? (x.place base) = some (.file c) →
    Digest.sha256 c.bytes = codeHash x.code → c.bytes = Utf8.bytes x.code

theorem isKnown_eq_isHeld (h : CollisionFree code base d) {x : Feature}
    (hx : code x.package x.name = some x.code)
    (hsame : d₁.entry? (x.place base) = d.entry? (x.place base)) :
    x.isKnown d₁ base = x.isHeld d base := by
  have hplace : base ++ [x.package] ++ [x.name ++ ".js"] = x.place base := rfl
  rw [Feature.isKnown, hasDigest, Feature.isHeld, hplace, hsame]
  rcases hentry : d.entry? (x.place base) with _ | ⟨c⟩ | _
  · rfl
  · dsimp only
    rw [Bool.eq_iff_iff, beq_iff_eq, beq_iff_eq]
    exact ⟨h x hx c hentry, fun hbytes => congrArg Digest.sha256 hbytes⟩
  · rfl

def requireLine (f : String) : String := "  '" ++ f ++ "': require('./" ++ f ++ "'),"

theorem isLine_requireLine {f : String} (h : isName f = true) : Text.IsLine (requireLine f).toList := by
  have hline : '\n' ∉ f.toList := not_mem_of_isName h (by decide)
  rw [requireLine, Text.IsLine]
  simp only [String.toList_append, List.mem_append, not_or]
  exact ⟨⟨⟨⟨by decide, hline⟩, by decide⟩, hline⟩, by decide⟩

theorem isName_of_mem_keys (h : AreNamed features) {f : String} (hf : f ∈ features.keys) : isName f = true := by
  obtain ⟨e, he, rfl⟩ := List.mem_map.1 hf
  exact (h e he).1

/-- The lines of an index that lists features, each once and nothing else. -/
def indexLines (fs : List String) : List String :=
  ["'use strict';", "", "module.exports = \x7b"] ++ fs.map requireLine ++ ["\x7d;"]

theorem toList_index (features : Table String) : (index features).toList =
    ((indexLines features.keys).map String.toList).flatMap (· ++ ['\n']) := by
  have hhead : "'use strict';\n\nmodule.exports = \x7b\n".toList =
      (["'use strict';", "", "module.exports = \x7b"].map String.toList).flatMap (· ++ ['\n']) := by
    decide
  have hfoot : "\x7d;\n".toList = (["\x7d;"].map String.toList).flatMap (· ++ ['\n']) := by decide
  have hbody : (String.join (features.keys.map fun f =>
      "  '" ++ f ++ "': require('./" ++ f ++ "'),\n")).toList =
      ((features.keys.map requireLine).map String.toList).flatMap (· ++ ['\n']) := by
    rw [String.toList_join, List.flatMap_map, List.flatMap_map, List.flatMap_map]
    refine List.flatMap_congr fun f _ => ?_
    simp only [requireLine, String.toList_append, List.append_assoc]
    rfl
  -- piece by piece: a rewrite would compare the literals with each other character by character
  calc (index features).toList
    _ = _ ++ _ ++ _ := String.toList_append.trans (congrArg (· ++ _) String.toList_append)
    _ = _ ++ _ ++ _ := congrArg₂ (· ++ ·) (congrArg₂ (· ++ ·) hhead hbody) hfoot
    _ = _ := by
      rw [indexLines, List.map_append, List.map_append, List.flatMap_append, List.flatMap_append]

theorem isLine_of_mem_indexLines (h : AreNamed features) {l : String} (hl : l ∈ indexLines features.keys) :
    Text.IsLine l.toList := by
  rcases List.mem_append.1 hl with hl | hl
  · rcases List.mem_append.1 hl with hl | hl
    · exact (by decide : ∀ l ∈ ["'use strict';", "", "module.exports = \x7b"], Text.IsLine l.toList) l hl
    · obtain ⟨f, hf, rfl⟩ := List.mem_map.1 hl
      exact isLine_requireLine (isName_of_mem_keys h hf)
  · rw [List.mem_singleton.1 hl]
    decide

theorem lines_index (h : AreNamed features) : Text.lines (index features).toList =
    (indexLines features.keys).map String.toList ++ [[]] := by
  rw [toList_index, Text.lines_terminated]
  intro l hl
  obtain ⟨line, hline, rfl⟩ := List.mem_map.1 hl
  exact isLine_of_mem_indexLines h hline

/-- What the manifest and the index of a package say, for the features that it has. -/
structure Listed (package : String) (code : String → Option String) (names : List String)
    (listing script : String) : Prop where
  ascending : names.Pairwise (· < ·)
  features : ∀ f, f ∈ names ↔ code f ≠ none
  manifest : listing = Json.pretty (.table [("package", .text package), ("features", .texts names),
    ("hashes", .table (names.map fun f => (f, .text (codeHash ((code f).getD "")))))])
  /-- One line for each name, in the order of the names. -/
  index : Text.lines script.toList = (indexLines names).map String.toList ++ [[]]

theorem listed_of_table {package : String} {code : String → Option String} (hn : AreNamed features)
    (h : ∀ f, features.find? f = code f) :
    Listed package code features.keys (Json.pretty (manifest package features)) (index features) where
  ascending := List.pairwise_map.2 features.ascending
  features f := by rw [← h, mem_keys_iff]
  manifest := by
    have hhashes : (features.entries.map fun e => (e.1, Tree.text (codeHash e.2))) =
        features.keys.map fun f => (f, Tree.text (codeHash ((code f).getD ""))) := by
      rw [Table.keys, List.map_map]
      refine List.map_congr_left fun e he => ?_
      rw [Function.comp_apply, ← h, find?_of_mem he]
      rfl
    exact congrArg (fun hashes => Json.pretty (.table [("package", .text package),
      ("features", .texts features.keys), ("hashes", .table hashes)])) hhashes
  index := lines_index hn

/-- The tree that calls ask for. -/
structure Brought (code : String → String → Option String) (base : List String) (s : MaterializeSummary)
    (d d' : Disk) : Prop where
  /-- The directories below the root are the packages. -/
  directories : ∀ p, d'.entry? (base ++ [p]) = some .directory ↔ ∃ f, code p f ≠ none
  /-- Each feature has its file, with its code. -/
  features : ∀ p f t, code p f = some t →
    ∃ c, d'.entry? (base ++ [p] ++ [f ++ ".js"]) = some (.file c) ∧ c.bytes = Utf8.bytes t
  /-- There are no scripts but these, the index, and a manifest that was there. -/
  scripts : ∀ p, (∃ f, code p f ≠ none) → ∀ x c, (splitExtension x).2 = some "js" →
    d'.entry? (base ++ [p] ++ [x]) = some (.file c) →
    x = "index.js" ∨ x = "manifest.js" ∨ ∃ f, code p f ≠ none ∧ x = f ++ ".js"
  /-- The manifest and the index list the features, in the order of their names. -/
  lists : ∀ p, (∃ f, code p f ≠ none) → ∃ names listing script, Listed p (code p) names listing script ∧
    d'.entry? (base ++ [p] ++ ["manifest.json"]) = some (.file (.text listing)) ∧
    d'.entry? (base ++ [p] ++ ["index.js"]) = some (.file (.text script))
  /-- Other files of a package are as they were. -/
  others : ∀ p, (∃ f, code p f ≠ none) → ∀ x,
    (splitExtension x).2 ≠ some "js" ∧ x ≠ "manifest.json" ∨ x = "manifest.js" →
    d'.entry? (base ++ [p] ++ [x]) = d.entry? (base ++ [p] ++ [x])
  deeper : ∀ p, (∃ f, code p f ≠ none) → ∀ x y ks,
    d'.entry? (base ++ p :: x :: y :: ks) = d.entry? (base ++ p :: x :: y :: ks)
  /-- Nothing is left below other names. -/
  gone : ∀ p, (∀ f, code p f = none) → ∀ x ks, d'.entry? (base ++ p :: x :: ks) = none
  /-- Files next to the packages are as they were. -/
  loose : ∀ x c, d'.entry? (base ++ [x]) = some (.file c) ↔ d.entry? (base ++ [x]) = some (.file c)
  /-- Outside the root there is nothing new but directories on the way to it. -/
  outside : ∀ k, (∀ x, ¬ base ++ [x] <+: k) → d'.entry? k = d.entry? k ∨
    k <+: base ∧ d.entry? k = none ∧ d'.entry? k = some .directory
  here : d'.here = d.here
  /-- The features are counted as written, if the file was missing or other, or as unchanged. -/
  counts : ∃ fs : List Feature, fs.Nodup ∧ (∀ x, x ∈ fs ↔ code x.package x.name = some x.code) ∧
    s.written + s.unchanged = fs.length ∧ s.written = fs.countP (!·.isHeld d base)

section Assembly

variable {s₀ : MaterializeSummary} {n : Nat}

theorem exists_filled_of_code {p : String} (h : ∃ f, r.code? p f ≠ none) :
    ∃ features, (p, features) ∈ r.filled ∧ ∀ f, features.find? f = r.code? p f := by
  obtain ⟨⟨q, features⟩, hq, rfl⟩ := List.mem_map.1 (mem_packageNames_iff.2 h)
  exact ⟨features, hq, fun f => (code?_of_filled hq f).symm⟩

theorem directory_iff (h : r.Ready r.filled d) (htidy : r.Tidy d₁)
    (hl : Loses (Foreign d (wayTo d r.root) r.packageNames) d d₁) (hw : WroteAll r r.filled s₀ s d₁ d')
    (p : String) :
    d'.entry? (wayTo d r.root ++ [p]) = some .directory ↔ ∃ f, r.code? p f ≠ none := by
  have hbase : wayTo d₁ r.root = wayTo d r.root := wayTo_eq hl.here r.root
  rw [← mem_packageNames_iff]
  constructor
  · intro hdir
    rcases hw.alters.entry (wayTo d r.root ++ [p]) with hsame | ⟨q, hq, htouched⟩
    · have hdir₁ : d₁.entry? (wayTo d r.root ++ [p]) = some .directory := hsame ▸ hdir
      exact htidy h.reach p (hbase.symm ▸ hdir₁) (h.short p (hl.some hdir₁))
    · by_cases hne : q.1 = p
      · exact hne ▸ List.mem_map_of_mem hq
      · exact absurd (hbase ▸ htouched) (not_touched hne _).1
  · intro hp
    obtain ⟨q, hq, rfl⟩ := List.mem_map.1 hp
    exact hbase ▸ (hw.inLine q hq).folder.entry

theorem loose_iff (h : r.Ready r.filled d) (hl : Loses (Foreign d (wayTo d r.root) r.packageNames) d d₁)
    (hw : WroteAll r r.filled s₀ s d₁ d') (x : String) (c : Content) :
    d'.entry? (wayTo d r.root ++ [x]) = some (.file c) ↔
      d.entry? (wayTo d r.root ++ [x]) = some (.file c) := by
  have hbase : wayTo d₁ r.root = wayTo d r.root := wayTo_eq hl.here r.root
  by_cases hx : x ∈ r.packageNames
  · -- a package has a directory after, and no file before
    obtain ⟨q, hq, rfl⟩ := List.mem_map.1 hx
    have hdir := (hw.inLine q hq).folder.entry
    rw [hbase] at hdir
    rw [hdir]
    refine ⟨fun he => by simp at he, fun he => ?_⟩
    rcases (h.place q hq).2 with hnone | hold <;> simp_all
  · have hsame : d'.entry? (wayTo d r.root ++ [x]) = d₁.entry? (wayTo d r.root ++ [x]) := by
      refine hw.alters.same ?_
      rintro ⟨q, hq, htouched⟩
      have hne : q.1 ≠ x := fun he => hx (he ▸ List.mem_map_of_mem hq)
      exact (not_touched hne _).1 (hbase ▸ htouched)
    rw [hsame]
    refine ⟨hl.some, fun hfile => ?_⟩
    rcases hl.entry (wayTo d r.root ++ [x]) with he | ⟨-, y, -, hdir, hpre⟩
    · rw [he, hfile]
    · rw [hpre.eq_of_length (by simp), hfile] at hdir
      cases hdir

theorem outside_cases (h : r.Ready r.filled d) (hl : Loses (Foreign d (wayTo d r.root) r.packageNames) d d₁)
    (hw : WroteAll r r.filled s₀ s d₁ d') {k : List String} (hk : ∀ x, ¬ wayTo d r.root ++ [x] <+: k) :
    d'.entry? k = d.entry? k ∨
      k <+: wayTo d r.root ∧ d.entry? k = none ∧ d'.entry? k = some .directory := by
  have hbase : wayTo d₁ r.root = wayTo d r.root := wayTo_eq hl.here r.root
  have hsame : d₁.entry? k = d.entry? k :=
    (hl.entry k).resolve_right fun ⟨_, x, _, _, hpre⟩ => hk x hpre
  rcases hw.alters.entry k with he | ⟨q, hq, hpre | ⟨x, -, heq⟩⟩
  · exact .inl (he.trans hsame)
  · rw [hbase] at hpre
    rcases List.prefix_concat_iff.1 hpre with rfl | hpre
    · exact absurd List.prefix_rfl (hk q.1)
    · -- on the way to the root, what is missing is made
      rcases h.clear k hpre with hnone | hdir
      · have hthere := (hw.inLine q hq).folder.entry
        rw [hbase] at hthere
        have hsome : d'.entry? (wayTo d r.root ++ [q.1]) ≠ none := by simp [hthere]
        refine .inr ⟨hpre, hnone, hw.tree.above hsome (hpre.trans (List.prefix_append _ _)) fun heq => ?_⟩
        exact hk q.1 (heq ▸ List.prefix_rfl)
      · exact .inl ((hw.alters.keeps.directory (hsame ▸ hdir)).trans hdir.symm)
  · rw [hbase, List.append_assoc] at heq
    exact absurd (heq ▸ (List.prefix_append_right_inj _).2 (List.prefix_append [q.1] [x])) (hk q.1)

theorem code_of_file (hfree : CollisionFree r.code? (wayTo d r.root) d)
    (hl : Loses (Foreign d (wayTo d r.root) r.packageNames) d d₁) (hw : WroteAll r r.filled s₀ s d₁ d')
    {p f t : String} (ht : r.code? p f = some t) : ∃ c,
    d'.entry? (wayTo d r.root ++ [p] ++ [f ++ ".js"]) = some (.file c) ∧ c.bytes = Utf8.bytes t := by
  have hbase : wayTo d₁ r.root = wayTo d r.root := wayTo_eq hl.here r.root
  obtain ⟨features, hp, he⟩ := exists_filled ht
  have hfile := hw.files _ hp _ he
  rw [hbase, fileAfter] at hfile
  have hsame : d₁.entry? (wayTo d r.root ++ [p] ++ [f ++ ".js"]) =
      d.entry? (wayTo d r.root ++ [p] ++ [f ++ ".js"]) := by
    rw [List.append_assoc]
    exact same_of_foreign hp hl [f ++ ".js"]
  rw [hfile]
  split
  · next hdigest =>
    -- the old file is left, as it has the digest of the code
    rw [hasDigest] at hdigest
    split at hdigest
    · next c hc => exact ⟨c, hc, hfree ⟨p, f, t⟩ ht c (hsame ▸ hc) (eq_of_beq hdigest)⟩
    · cases hdigest
  · exact ⟨_, rfl, rfl⟩

theorem counts_of_features (hfree : CollisionFree r.code? (wayTo d r.root) d)
    (hl : Loses (Foreign d (wayTo d r.root) r.packageNames) d d₁)
    (hw : WroteAll r r.filled ⟨0, 0, 0, n⟩ s d₁ d') :
    s.written = (featuresOf r.filled).countP (!·.isHeld d (wayTo d r.root)) ∧
      s.unchanged = (featuresOf r.filled).countP (·.isHeld d (wayTo d r.root)) := by
  have hbase : wayTo d₁ r.root = wayTo d r.root := wayTo_eq hl.here r.root
  have hheld : ∀ x ∈ featuresOf r.filled, x.isKnown d₁ (wayTo d r.root) = x.isHeld d (wayTo d r.root) := by
    intro x hx
    obtain ⟨features, hp, -⟩ := exists_filled (mem_featuresOf.1 hx)
    refine isKnown_eq_isHeld hfree (mem_featuresOf.1 hx) ?_
    rw [Feature.place, List.append_assoc]
    exact same_of_foreign hp hl [x.name ++ ".js"]
  rw [hw.written, hw.unchanged, hbase, Nat.zero_add, Nat.zero_add]
  exact (countP_eq_of_agree hheld).symm

theorem brought_of_materialize (h : r.Ready r.filled d) (hn : r.IsNamed)
    (hfree : CollisionFree r.code? (wayTo d r.root) d) (hm : r.materialize d = .ok s d') :
    Brought r.code? (wayTo d r.root) s d d' := by
  obtain ⟨n, d₁, h₁, htidy, hl, hw⟩ := of_materialize h.rooted hn hm
  have hbase : wayTo d₁ r.root = wayTo d r.root := wayTo_eq hl.here r.root
  have htouched : Alters (fun k => ∃ p ∈ r.filled, Touched p.2 (wayTo d r.root ++ [p.1]) k) d₁ d' :=
    hbase ▸ hw.alters
  have hline : ∀ {p features}, (p, features) ∈ r.filled →
      InLine p features (r.packageDir p) (wayTo d r.root ++ [p]) d' := fun hp => hbase ▸ hw.inLine _ hp
  have hdirectory := directory_iff h htidy hl hw
  refine {
    directories := hdirectory
    features := fun p f t ht => code_of_file hfree hl hw ht
    scripts := fun p hp x c hx hfile => ?_
    lists := fun p hp => ?_
    others := fun p hp x hx => ?_
    deeper := fun p hp x y ks => ?_
    gone := fun p hp x ks => ?_
    loose := loose_iff h hl hw
    outside := fun k hk => outside_cases h hl hw hk
    here := hw.alters.keeps.here.trans hl.here
    counts := ?_ }
  · obtain ⟨features, hp, hfind⟩ := exists_filled_of_code hp
    simp only [← hfind]
    exact script_cases hx ((hline hp).fresh x (by rw [hfile]; simp))
  · obtain ⟨features, hp, hfind⟩ := exists_filled_of_code hp
    have hin := hline hp
    exact ⟨features.keys, _, _, listed_of_table (hn _ (mem_packages hp)).2 hfind,
      ((hin.folder.read_eq_ok_iff isName_manifest).1 hin.manifest).2,
      ((hin.folder.read_eq_ok_iff isName_index).1 hin.index).2⟩
  · obtain ⟨features, hp, -⟩ := exists_filled_of_code hp
    have hapart := apart_of_extension (hn _ (mem_packages hp)).2 hx
    rw [htouched.same (not_touched_of_apart hp hapart), List.append_assoc]
    exact same_of_foreign hp hl [x]
  · obtain ⟨features, hp, -⟩ := exists_filled_of_code hp
    rw [htouched.same, same_of_foreign hp hl]
    rintro ⟨q, -, hpre | ⟨z, -, heq⟩⟩
    · have := hpre.length_le
      simp at this
    · have := congrArg List.length heq
      simp at this
  · by_contra hthere
    have hpre : wayTo d r.root ++ [p] <+: wayTo d r.root ++ p :: x :: ks :=
      (List.prefix_append_right_inj _).2 (List.prefix_append [p] (x :: ks))
    obtain ⟨f, hf⟩ := (hdirectory p).1 (hw.tree.above hthere hpre (by simp))
    exact hf (hp f)
  · obtain ⟨hwritten, hunchanged⟩ := counts_of_features hfree hl hw
    refine ⟨featuresOf r.filled, nodup_featuresOf r, fun x => mem_featuresOf, ?_, hwritten⟩
    rw [hwritten, hunchanged, Nat.add_comm]
    simpa using (List.length_eq_countP_add_countP (Feature.isHeld · d (wayTo d r.root))).symm

theorem removable_of_materialize (h : r.Rooted d) (hn : r.IsNamed) (hm : r.materialize d = .ok s d') :
    r.Removable r.filled d := by
  intro p hp x hx he
  obtain ⟨n, d₁, h₁, -, hl, hw⟩ := of_materialize h hn hm
  have hbase : wayTo d₁ r.root = wayTo d r.root := wayTo_eq hl.here r.root
  rw [List.append_assoc, List.singleton_append, ← same_of_foreign hp hl] at he
  -- the directory would still be there
  have hdir := hw.alters.keeps.directory he
  have hfresh := (hw.inLine p hp).fresh x (by
    rw [hbase, List.append_assoc, List.singleton_append, hdir]
    simp)
  rw [hx] at hfresh
  cases hfresh

end Assembly

/-- A tree can be brought in line exactly when no directory has the name of a file that is to be removed.
Then the tree is what the calls ask for, and bringing it in line again changes nothing. -/
theorem materialize_brings (root : String) (calls : List Call) {d : Disk}
    (h : (registered root calls).Ready (registered root calls).filled d)
    (hfree : CollisionFree (lastCode calls) (wayTo d root) d) :
    ((∃ s d', (registered root calls).materialize d = .ok s d') ↔
      (registered root calls).Removable (registered root calls).filled d) ∧
    ∀ s d', (registered root calls).materialize d = .ok s d' →
      Brought (lastCode calls) (wayTo d root) s d d' ∧
      ∃ s', (registered root calls).materialize d' = .ok s' d' ∧ s'.written = 0 ∧ s'.removed = 0 := by
  have hn := isNamed_registered root calls
  have hcode : lastCode calls = (registered root calls).code? :=
    funext fun p => funext fun f => (code?_registered root calls p f).symm
  refine ⟨⟨fun ⟨s, d', hm⟩ => removable_of_materialize h.rooted hn hm, exists_materialize h hn⟩,
    fun s d' hm => ⟨?_, materialize_of_settled (placed_of_materialize h.rooted hn hm).settled⟩⟩
  rw [hcode] at hfree ⊢
  have hroot := root_registered root calls
  have hbrought := brought_of_materialize h hn (hroot.symm ▸ hfree) hm
  rwa [hroot] at hbrought

def trayCalls : List Call := [⟨"mw", "a", "y"⟩, ⟨"mw", "index", "z"⟩, ⟨"mw", "a", "x"⟩]

/-- A tree with a foreign package, a stale feature and files of other kinds. -/
def tray : Disk := ⟨[], [
  (["features"], .directory), (["features", "notes.txt"], .file (.text "n")),
  (["features", "old"], .directory), (["features", "old", "b.js"], .file (.text "b")),
  (["features", "mw"], .directory), (["features", "mw", "a.js"], .file (.text "x")),
  (["features", "mw", "c.js"], .file (.text "c")), (["features", "mw", "manifest.js"], .file (.text "m"))]⟩

theorem filled_tray : (registered "features" trayCalls).filled = [("mw", Table.empty.insert "a" "x")] := rfl

theorem ready_tray : (registered "features" trayCalls).Ready (registered "features" trayCalls).filled tray :=
  .of_entries ⟨.of_entries (by decide), rfl, by decide⟩ ⟨by decide, by decide⟩ (by decide) (by decide)
    (by decide) (by decide) (by decide)

theorem collisionFree_tray : CollisionFree (lastCode trayCalls) (wayTo tray "features") tray := by
  intro x hx c hc _
  rw [← code?_registered "features"] at hx
  obtain ⟨features, hp, he⟩ := exists_filled hx
  obtain ⟨hpackage, rfl⟩ := Prod.mk.inj (List.mem_singleton.1 (filled_tray ▸ hp))
  obtain ⟨hname, hcode⟩ := Prod.mk.inj (List.mem_singleton.1 he)
  rw [Feature.place, hpackage, hname] at hc
  obtain rfl : Content.text "x" = c := Entry.file.inj (Option.some.inj hc)
  rw [hcode]
  rfl

theorem removable_tray :
    (registered "features" trayCalls).Removable (registered "features" trayCalls).filled tray := by
  intro p hp x _ he
  obtain rfl := List.mem_singleton.1 hp
  have hentries : ∀ y ∈ tray.entries, y.1.dropLast = ["features", "mw"] →
      tray.entry? y.1 ≠ some .directory := by
    decide
  obtain ⟨e, hmem⟩ := mem_entries (by simp) (ne_of_eq_of_ne he (by simp))
  exact hentries _ hmem (by simp; rfl) he

theorem materialize_brings_tray : ∃ s d', (registered "features" trayCalls).materialize tray = .ok s d' ∧
    Brought (lastCode trayCalls) ["features"] s tray d' ∧
    ∃ s', (registered "features" trayCalls).materialize d' = .ok s' d' ∧ s'.written = 0 ∧ s'.removed = 0 := by
  obtain ⟨hiff, hbrought⟩ := materialize_brings "features" trayCalls ready_tray collisionFree_tray
  obtain ⟨s, d', hm⟩ := hiff.2 removable_tray
  exact ⟨s, d', hm, hbrought s d' hm⟩

def shelfCalls : List Call := [⟨"middleware", "staticTake", "a"⟩]

def shelf : Disk := ⟨[], [
  (["features"], .directory), (["features", "middleware"], .directory),
  (["features", "middleware", "vendor.js"], .directory),
  (["features", "middleware", "vendor.js", "readme.txt"], .file (.text "x"))]⟩

theorem ready_shelf :
    (registered "features" shelfCalls).Ready (registered "features" shelfCalls).filled shelf :=
  .of_entries ⟨.of_entries (by decide), rfl, by decide⟩ ⟨by decide, by decide⟩ (by decide) (by decide)
    (by decide) (by decide) (by decide)

/-- The directory is taken for a stale feature, and the run stops at it. -/
theorem materialize_stops :
    (registered "features" shelfCalls).Ready (registered "features" shelfCalls).filled shelf ∧
    (registered "features" shelfCalls).materialize shelf =
      .error (.io "features/middleware/vendor.js" "Is a directory (os error 21)") shelf := by
  refine ⟨ready_shelf, ?_⟩
  have hroot : shelf.namesIn ["features"] = ["middleware"] := List.mergeSort_singleton _
  have hdir : shelf.namesIn ["features", "middleware"] = ["vendor.js"] := List.mergeSort_singleton _
  have hlroot : shelf.locate "features" = .ok (.directory ["features"]) := by decide
  have hldir : shelf.locate "features/middleware" = .ok (.directory ["features", "middleware"]) := by decide
  have hlists : listNames "features/middleware" shelf = .ok ["vendor.js"] shelf := by
    rw [listNames_of_directory hldir, hdir]
  have hkept : (registered "features" shelfCalls).removeUnregistered shelf = .ok 0 shelf := by
    have hlist : listNames "features" shelf = .ok ["middleware"] shelf := by
      rw [listNames_of_directory hlroot, hroot]
    rw [removeUnregistered, get_bind, if_pos (by decide)]
    exact (bind_of_ok hlist).trans rfl
  have hpackage : (registered "features" shelfCalls).writePackage "middleware"
      (Table.empty.insert "staticTake" "a") ⟨0, 0, 0, 0⟩ shelf =
      .error (.io "features/middleware/vendor.js" "Is a directory (os error 21)") shelf := by
    have hmake : change "features/middleware" (·.makeDirectories "features/middleware") shelf = .ok () shelf :=
      change_of_ok (makeDirectories_of_directory hldir)
    have hpath : (registered "features" shelfCalls).packageDir "middleware" = "features/middleware" := by decide
    rw [writePackage, hpath, bind_of_ok hmake, bind_of_ok hlists]
    rfl
  rw [materialize, bind_of_ok hkept]
  have hfilled : (registered "features" shelfCalls).filled =
      [("middleware", Table.empty.insert "staticTake" "a")] := rfl
  rw [hfilled, writePackages, bind_apply, hpackage]

end FragmentMerge.Registry
