import FragmentMerge.Features.Registry
import FragmentMerge.Proofs.Data.Table
import FragmentMerge.Proofs.Files.Folder
import FragmentMerge.Proofs.Text.Find

/-! Packages in their directories. A package that has been written is in line with what is registered:
its directory has no stale file, and its files hold what they should. Writing a package that is in line
changes nothing. -/

namespace FragmentMerge.Registry

open Disk FragmentMerge.Path

section Tasks

variable {α β : Type} {d d' : Disk} {path : String}

theorem bind_apply (x : Task α) (f : α → Task β) (d : Disk) : (x >>= f) d = match x d with
    | .ok a d₁ => f a d₁
    | .error e d₁ => .error e d₁ := by
  show EStateM.bind x f d = _
  unfold EStateM.bind
  cases x d <;> rfl

theorem bind_eq_ok {x : Task α} {f : α → Task β} {b : β} (h : (x >>= f) d = .ok b d') :
    ∃ a d₁, x d = .ok a d₁ ∧ f a d₁ = .ok b d' := by
  rw [bind_apply] at h
  cases hx : x d with
  | error e d₁ =>
    rw [hx] at h
    cases h
  | ok a d₁ =>
    rw [hx] at h
    exact ⟨a, d₁, rfl, h⟩

theorem bind_of_ok {x : Task α} {f : α → Task β} {a : α} {d₁ : Disk} (h : x d = .ok a d₁) :
    (x >>= f) d = f a d₁ := by
  rw [bind_apply, h]

theorem get_bind (f : Disk → Task β) (d : Disk) : (get >>= f) d = f d d := rfl

theorem change_eq_ok {f : Disk → Except Errno Disk} {u : Unit} (h : change path f d = .ok u d') :
    f d = .ok d' := by
  rw [change] at h
  split at h
  · next hf =>
    obtain ⟨-, rfl⟩ := EStateM.Result.ok.inj h
    exact hf
  · cases h

theorem change_of_ok {f : Disk → Except Errno Disk} (h : f d = .ok d') : change path f d = .ok () d' := by
  rw [change, h]

theorem listNames_eq_ok {names : List String} (h : listNames path d = .ok names d') :
    d' = d ∧ ∃ way, d.locate path = .ok (.directory way) ∧ names = d.namesIn way := by
  rw [listNames, list] at h
  split at h
  · next hl =>
    obtain ⟨rfl, rfl⟩ := EStateM.Result.ok.inj h
    split at hl
    · next way hway => exact ⟨rfl, way, hway, (Except.ok.inj hl).symm⟩
    · cases hl
    · cases hl
    · cases hl
  · cases h

theorem listNames_of_directory {way : List String} (h : d.locate path = .ok (.directory way)) :
    listNames path d = .ok (d.namesIn way) d := by
  rw [listNames, list, h]

end Tasks

theorem not_mem_of_isName {s : String} (h : isName s = true) {x : Char}
    (hx : (isNameStart x || x.isDigit || x == '-') = false) : x ∉ s.toList := by
  unfold isName at h
  split at h
  · cases h
  · next c cs hs =>
    obtain ⟨hc, hcs⟩ := Bool.and_eq_true_iff.1 h
    rw [hs]
    intro hm
    rcases List.mem_cons.1 hm with rfl | hm
    · rw [hc] at hx
      cases hx
    · exact Bool.false_ne_true (hx.symm.trans (List.all_eq_true.1 hcs x hm))

theorem isName_toList {s : String} (h : isName s = true) :
    ∃ c cs, s.toList = c :: cs ∧ isNameStart c = true ∧ '/' ∉ c :: cs := by
  have hslash : '/' ∉ s.toList := not_mem_of_isName h (by decide)
  unfold isName at h
  split at h
  · cases h
  · next c cs hs => exact ⟨c, cs, hs, (Bool.and_eq_true_iff.1 h).1, hs ▸ hslash⟩

/-- A text that starts as a name and has no slash is a file name. -/
theorem isName_append {s : String} (h : isName s = true) {t : String} (ht : '/' ∉ t.toList) :
    IsName (s ++ t) := by
  obtain ⟨c, cs, hs, hc, hslash⟩ := isName_toList h
  have hst : (s ++ t).toList = c :: (cs ++ t.toList) := by rw [String.toList_append, hs, List.cons_append]
  have hdot : ∀ u : String, u.toList.head? = some '.' → s ++ t ≠ u := by
    rintro u hu rfl
    rw [hst, List.head?_cons] at hu
    rw [Option.some.inj hu] at hc
    exact absurd hc (by decide)
  refine ⟨fun he => ?_, hdot "." rfl, hdot ".." rfl, ?_⟩
  · rw [he] at hst
    cases hst
  · rw [String.toList_append, hs]
    exact fun hm => (List.mem_append.1 hm).elim hslash ht

theorem isName_package {s : String} (h : isName s = true) : IsName s := by
  simpa using isName_append h (t := "") (by simp)

theorem isName_feature {s : String} (h : isName s = true) : IsName (s ++ ".js") :=
  isName_append h (by decide)

theorem isName_manifest : IsName "manifest.json" := ⟨by decide, by decide, by decide, by decide⟩

theorem isName_index : IsName "index.js" := ⟨by decide, by decide, by decide, by decide⟩

section Package

variable {d d' : Disk} {dir feature code : String} {way : List String} {features : Table String}

theorem isCurrent_iff (h : d.Folder dir way) {name : String} (hn : IsName name) :
    isCurrent d (join dir name) code = true ↔ Fits dir name ∧
      ∃ c, d.entry? (way ++ [name]) = some (.file c) ∧ Digest.sha256 c.bytes = codeHash code := by
  rw [isCurrent]
  constructor
  · intro hc
    split at hc
    · next c hr =>
      obtain ⟨hf, he⟩ := (h.read_eq_ok_iff hn).1 hr
      exact ⟨hf, c, he, eq_of_beq hc⟩
    · cases hc
  · rintro ⟨hf, c, he, hd⟩
    rw [(h.read_eq_ok_iff hn).2 ⟨hf, he⟩]
    exact beq_iff_eq.2 hd

theorem of_removeStale_cons (h : d.Folder dir way) {s : String} (hs : IsName s) {names : List String}
    {n : Nat} (hr : removeStale dir features (s :: names) d = .ok n d') :
    ∃ d₁ m, Loses (fun k => isStale features s = true ∧ k = way ++ [s]) d d₁ ∧ d.Keeps d₁ ∧
      d₁.Folder dir way ∧ (isStale features s = true → d₁.entry? (way ++ [s]) = none) ∧
      removeStale dir features names d₁ = .ok m d' := by
  rw [removeStale] at hr
  split at hr
  · next hstale =>
    obtain ⟨_, d₁, hchange, hr⟩ := bind_eq_ok hr
    obtain ⟨m, d₂, hrec, hpure⟩ := bind_eq_ok hr
    obtain ⟨-, rfl⟩ := EStateM.Result.ok.inj hpure
    obtain ⟨hnone, hl, hk, h₁⟩ := h.removeFile hs (change_eq_ok hchange)
    exact ⟨d₁, m, hl.mono fun k hk => ⟨hstale, hk⟩, hk, h₁, fun _ => hnone, hrec⟩
  · next hfresh => exact ⟨d, n, .refl _ _, .refl d, h, fun hstale => absurd hstale hfresh, hr⟩

/-- Removing stale files leaves none of those listed, and everything else. -/
theorem of_removeStale (h : d.Folder dir way) {names : List String} (hnames : ∀ s ∈ names, IsName s)
    {n : Nat} (hr : removeStale dir features names d = .ok n d') :
    Loses (fun k => ∃ s, isStale features s = true ∧ k = way ++ [s]) d d' ∧ d.Keeps d' ∧ d'.Folder dir way ∧
      ∀ s ∈ names, isStale features s = true → d'.entry? (way ++ [s]) = none := by
  induction names generalizing d n with
  | nil =>
    obtain ⟨-, rfl⟩ := EStateM.Result.ok.inj hr
    exact ⟨.refl _ _, .refl d, h, by simp⟩
  | cons s names ih =>
    obtain ⟨d₁, m, hl₁, hk₁, h₁, hnone, hrec⟩ := of_removeStale_cons h (hnames s List.mem_cons_self) hr
    obtain ⟨hl, hk, h', hgone⟩ := ih h₁ (fun x hx => hnames x (List.mem_cons_of_mem _ hx)) hrec
    refine ⟨(hl₁.mono fun k hk => ⟨s, hk⟩).trans hl, hk₁.trans hk, h', fun x hx hstale => ?_⟩
    rcases List.mem_cons.1 hx with rfl | hx
    · exact hl.none (hnone hstale)
    · exact hgone x hx hstale

theorem removeStale_of_none {names : List String} (h : ∀ s ∈ names, isStale features s = false) :
    removeStale dir features names d = .ok 0 d := by
  induction names with
  | nil => rfl
  | cons s names ih =>
    rw [removeStale, if_neg (by simp [h s List.mem_cons_self])]
    exact ih fun x hx => h x (List.mem_cons_of_mem _ hx)

def Current (d : Disk) (dir : String) (es : List (String × String)) : Prop :=
  ∀ e ∈ es, isCurrent d (featureFile dir e.1) e.2 = true

theorem featureFile_ne {f g : String} (h : f ≠ g) (way : List String) :
    way ++ [f ++ ".js"] ≠ way ++ [g ++ ".js"] := by
  intro he
  have heq : f ++ ".js" = g ++ ".js" := by simpa using he
  refine h (String.ext ?_)
  have := congrArg String.toList heq
  rw [String.toList_append, String.toList_append] at this
  exact List.append_cancel_right this

theorem Current.keep {es : List (String × String)} (h : d.Folder dir way) (h' : d'.Folder dir way)
    (hn : ∀ e ∈ es, isName e.1 = true) (hc : Current d dir es)
    (hsame : ∀ e ∈ es, d'.entry? (way ++ [e.1 ++ ".js"]) = d.entry? (way ++ [e.1 ++ ".js"])) :
    Current d' dir es := by
  intro e he
  have hname := isName_feature (hn e he)
  rw [featureFile, isCurrent_iff h' hname, hsame e he, ← isCurrent_iff h hname]
  exact hc e he

theorem Current.cons {f : String} {es : List (String × String)} (hf : isName f = true)
    (hfar : ∀ e ∈ es, f ≠ e.1) (h : d.Folder dir way) (h' : d'.Folder dir way)
    (ha : Alters (fun k => ∃ e ∈ es, k = way ++ [e.1 ++ ".js"]) d d')
    (hc : isCurrent d (featureFile dir f) code = true) (hes : Current d' dir es) :
    Current d' dir ((f, code) :: es) := by
  intro e he
  rcases List.mem_cons.1 he with rfl | he
  · have hname := isName_feature hf
    have hsame : d'.entry? (way ++ [f ++ ".js"]) = d.entry? (way ++ [f ++ ".js"]) :=
      ha.same fun ⟨e, he, heq⟩ => featureFile_ne (hfar e he) way heq
    rw [featureFile, isCurrent_iff h' hname, hsame, ← isCurrent_iff h hname]
    exact hc
  · exact hes e he

theorem of_writeFeatures_cons (h : d.Folder dir way) {f : String} (hf : isName f = true)
    {es : List (String × String)} {n : Nat × Nat} (hw : writeFeatures dir ((f, code) :: es) d = .ok n d') :
    ∃ d₁ m, Alters (· = way ++ [f ++ ".js"]) d d₁ ∧ d₁.Folder dir way ∧
      isCurrent d₁ (featureFile dir f) code = true ∧ writeFeatures dir es d₁ = .ok m d' := by
  rw [writeFeatures, get_bind] at hw
  split at hw
  · next hc =>
    obtain ⟨m, d₂, hrec, hpure⟩ := bind_eq_ok hw
    obtain ⟨-, rfl⟩ := EStateM.Result.ok.inj hpure
    exact ⟨d, m, .refl _ _, h, hc, hrec⟩
  · obtain ⟨_, d₁, hchange, hw⟩ := bind_eq_ok hw
    obtain ⟨m, d₂, hrec, hpure⟩ := bind_eq_ok hw
    obtain ⟨-, rfl⟩ := EStateM.Result.ok.inj hpure
    obtain ⟨hfits, he, ha, h₁⟩ := h.write (isName_feature hf) (change_eq_ok hchange)
    exact ⟨d₁, m, ha, h₁, (isCurrent_iff h₁ (isName_feature hf)).2 ⟨hfits, _, he, rfl⟩, hrec⟩

/-- Writing features makes their files current, and changes no other file. -/
theorem of_writeFeatures (h : d.Folder dir way) {es : List (String × String)}
    (hn : ∀ e ∈ es, isName e.1 = true) (hd : es.Pairwise fun e e' => e.1 ≠ e'.1) {n : Nat × Nat}
    (hw : writeFeatures dir es d = .ok n d') :
    Alters (fun k => ∃ e ∈ es, k = way ++ [e.1 ++ ".js"]) d d' ∧ d'.Folder dir way ∧ Current d' dir es := by
  induction es generalizing d n with
  | nil =>
    obtain ⟨-, rfl⟩ := EStateM.Result.ok.inj hw
    exact ⟨.refl _ _, h, by simp [Current]⟩
  | cons e es ih =>
    obtain ⟨f, code⟩ := e
    obtain ⟨hfar, hd⟩ := List.pairwise_cons.1 hd
    have hf := hn (f, code) List.mem_cons_self
    obtain ⟨d₁, m, ha₁, h₁, hc, hrec⟩ := of_writeFeatures_cons h hf hw
    obtain ⟨ha, h', hcur⟩ := ih h₁ (fun x hx => hn x (List.mem_cons_of_mem _ hx)) hd hrec
    exact ⟨(ha₁.mono fun k hk => ⟨_, List.mem_cons_self, hk⟩).trans
        (ha.mono fun k ⟨e, he, hk⟩ => ⟨e, List.mem_cons_of_mem _ he, hk⟩),
      h', .cons hf hfar h₁ h' ha hc hcur⟩

theorem writeFeatures_of_current {es : List (String × String)} (h : Current d dir es) :
    writeFeatures dir es d = .ok (0, es.length) d := by
  induction es with
  | nil => rfl
  | cons e es ih =>
    obtain ⟨f, code⟩ := e
    rw [writeFeatures, get_bind, if_pos (h (f, code) List.mem_cons_self)]
    exact bind_of_ok (ih fun x hx => h x (List.mem_cons_of_mem _ hx))

theorem countP_eq_of_agree {α : Type} {l : List α} {held held' : α → Bool}
    (h : ∀ x ∈ l, held' x = held x) :
    l.countP held' = l.countP held ∧ l.countP (!held' ·) = l.countP (!held ·) :=
  ⟨List.countP_congr fun x hx => by rw [h x hx], List.countP_congr fun x hx => by rw [h x hx]⟩

/-- Whether the file of a feature has the digest of its code. -/
def hasDigest (d : Disk) (way : List String) (e : String × String) : Bool :=
  match d.entry? (way ++ [e.1 ++ ".js"]) with
  | some (.file c) => Digest.sha256 c.bytes == codeHash e.2
  | _ => false

/-- The file of a feature after the writing: the old one, if it has the digest of the code. -/
def fileAfter (d : Disk) (way : List String) (e : String × String) : Option Entry :=
  if hasDigest d way e then d.entry? (way ++ [e.1 ++ ".js"]) else some (.file (.text e.2))

theorem hasDigest_eq {e : String × String}
    (h : d'.entry? (way ++ [e.1 ++ ".js"]) = d.entry? (way ++ [e.1 ++ ".js"])) :
    hasDigest d' way e = hasDigest d way e ∧ fileAfter d' way e = fileAfter d way e := by
  have hdigest : hasDigest d' way e = hasDigest d way e := by rw [hasDigest, hasDigest, h]
  exact ⟨hdigest, by rw [fileAfter, fileAfter, hdigest, h]⟩

theorem isCurrent_eq (h : d.Folder dir way) {e : String × String} (hn : isName e.1 = true)
    (hf : Fits dir (e.1 ++ ".js")) : isCurrent d (featureFile dir e.1) e.2 = hasDigest d way e := by
  rw [Bool.eq_iff_iff, featureFile, isCurrent_iff h (isName_feature hn), hasDigest]
  constructor
  · rintro ⟨-, c, he, hc⟩
    rw [he]
    exact beq_iff_eq.2 hc
  · intro hd
    split at hd
    · next c he => exact ⟨hf, c, he, eq_of_beq hd⟩
    · cases hd

theorem digests_of_writeFeatures (h : d.Folder dir way) {es : List (String × String)}
    (hn : ∀ e ∈ es, isName e.1 = true) (hd : es.Pairwise fun e e' => e.1 ≠ e'.1)
    (hf : ∀ e ∈ es, Fits dir (e.1 ++ ".js")) {n : Nat × Nat} (hw : writeFeatures dir es d = .ok n d') :
    n = (es.countP (!hasDigest d way ·), es.countP (hasDigest d way)) ∧
      ∀ e ∈ es, d'.entry? (way ++ [e.1 ++ ".js"]) = fileAfter d way e := by
  induction es generalizing d n with
  | nil =>
    obtain ⟨rfl, -⟩ := EStateM.Result.ok.inj hw
    exact ⟨rfl, by simp⟩
  | cons e es ih =>
    obtain ⟨f, code⟩ := e
    obtain ⟨hfar, hd⟩ := List.pairwise_cons.1 hd
    have hname := hn (f, code) List.mem_cons_self
    have hn : ∀ e ∈ es, isName e.1 = true := fun x hx => hn x (List.mem_cons_of_mem _ hx)
    have hcur := isCurrent_eq h hname (hf (f, code) List.mem_cons_self)
    have hf : ∀ e ∈ es, Fits dir (e.1 ++ ".js") := fun x hx => hf x (List.mem_cons_of_mem _ hx)
    -- the file of the first feature stays while the others are written
    have hstay : ∀ {d₁ m}, d₁.Folder dir way → writeFeatures dir es d₁ = .ok m d' →
        d'.entry? (way ++ [f ++ ".js"]) = d₁.entry? (way ++ [f ++ ".js"]) := fun h₁ hrec =>
      (of_writeFeatures h₁ hn hd hrec).1.same fun ⟨e, he, heq⟩ => featureFile_ne (hfar e he) way heq
    rw [writeFeatures, get_bind, hcur] at hw
    rw [List.countP_cons, List.countP_cons]
    split at hw
    · next hdigest =>
      obtain ⟨m, d₁, hrec, hpure⟩ := bind_eq_ok hw
      obtain ⟨rfl, rfl⟩ := EStateM.Result.ok.inj hpure
      obtain ⟨hcount, hfiles⟩ := ih h hn hd hf hrec
      refine ⟨by simp [hcount, hdigest], fun e he => ?_⟩
      rcases List.mem_cons.1 he with rfl | he
      · rw [fileAfter, if_pos hdigest]
        exact hstay h hrec
      · exact hfiles e he
    · next hdigest =>
      obtain ⟨_, d₁, hchange, hw⟩ := bind_eq_ok hw
      obtain ⟨m, d₂, hrec, hpure⟩ := bind_eq_ok hw
      obtain ⟨rfl, rfl⟩ := EStateM.Result.ok.inj hpure
      obtain ⟨-, hfile, ha, h₁⟩ := h.write (isName_feature hname) (change_eq_ok hchange)
      have hsame : ∀ e ∈ es, hasDigest d₁ way e = hasDigest d way e ∧ fileAfter d₁ way e = fileAfter d way e :=
        fun e he => hasDigest_eq (ha.same fun heq => featureFile_ne (hfar e he) way heq.symm)
      obtain ⟨hold, hnew⟩ := countP_eq_of_agree fun e he => (hsame e he).1
      obtain ⟨hcount, hfiles⟩ := ih h₁ hn hd hf hrec
      refine ⟨by simp [hcount, hold, hnew, hdigest], fun e he => ?_⟩
      rcases List.mem_cons.1 he with rfl | he
      · rw [fileAfter, if_neg hdigest]
        exact (hstay h₁ hrec).trans hfile
      · exact (hfiles e he).trans (hsame e he).2

end Package

theorem splitExtension_feature {f : String} (h : isName f = true) :
    splitExtension (f ++ ".js") = (f, some "js") := by
  obtain ⟨c, cs, hf, -, -⟩ := isName_toList h
  have htext : (f ++ ".js").toList = c :: cs ++ '.' :: ['j', 's'] := by rw [String.toList_append, hf]; rfl
  have hcut := Text.cutLast?_eq_some_iff.2 ⟨htext, show '.' ∉ ['j', 's'] by decide⟩
  rw [splitExtension, if_neg (by simpa using (isName_feature h).up), hcut]
  simp [← hf]

theorem isStale_feature {features : Table String} {f : String} (h : isName f = true)
    (hf : features.find? f ≠ none) : isStale features (f ++ ".js") = false := by
  rw [isStale, splitExtension_feature h]
  simp [Option.isSome_iff_ne_none, hf]

theorem find?_ne_none {features : Table String} {e : String × String} (h : e ∈ features.entries) :
    features.find? e.1 ≠ none := fun hnone => by
  simpa using List.lookup_eq_none_iff.1 hnone e h

theorem feature_ne_index {f : String} (h : f ∉ reserved) : f ++ ".js" ≠ "index.js" := by
  intro he
  have hlist := congrArg String.toList he
  rw [String.toList_append] at hlist
  have : f = "index" := String.ext (List.append_cancel_right
    (show f.toList ++ ".js".toList = "index".toList ++ ".js".toList from hlist))
  exact h (by simp [this, reserved])

theorem feature_ne_manifest (f : String) : f ++ ".js" ≠ "manifest.json" := by
  intro he
  have hlast := congrArg (fun s => s.toList.getLast?) he
  simp at hlast

def AreNamed (features : Table String) : Prop :=
  ∀ e ∈ features.entries, isName e.1 = true ∧ e.1 ∉ reserved

/-- A package directory that is as it should be. -/
structure InLine (package : String) (features : Table String) (dir : String) (way : List String)
    (d : Disk) : Prop where
  folder : d.Folder dir way
  fresh : ∀ s, d.entry? (way ++ [s]) ≠ none → isStale features s = false
  current : Current d dir features.entries
  manifest : d.read (join dir "manifest.json") =
    .ok (.text (Json.pretty (Registry.manifest package features)))
  index : d.read (join dir "index.js") = .ok (.text (Registry.index features))

section Whole

variable {r : Registry} {package : String} {features : Table String} {d d' : Disk} {way : List String}
  {s s' : MaterializeSummary}

/-- Writing a package that is in line writes and removes no feature, and changes nothing. -/
theorem writePackage_of_inLine (h : InLine package features (r.packageDir package) way d)
    (s : MaterializeSummary) : r.writePackage package features s d =
      .ok ⟨s.packages + 1, s.written, s.unchanged + features.entries.length, s.removed⟩ d := by
  have hmake := makeDirectories_of_directory h.folder.locate
  have hstale : ∀ x ∈ d.namesIn way, isStale features x = false :=
    fun x hx => h.fresh x (entry?_of_mem_namesIn hx)
  rw [writePackage, bind_of_ok (change_of_ok hmake), bind_of_ok (listNames_of_directory h.folder.locate),
    bind_of_ok (removeStale_of_none hstale), bind_of_ok (writeFeatures_of_current h.current)]
  dsimp only
  rw [writeText, bind_of_ok (change_of_ok (h.folder.write_same isName_manifest h.manifest)), writeText,
    bind_of_ok (change_of_ok (h.folder.write_same isName_index h.index))]
  rfl

def owned (features : Table String) : List String :=
  "manifest.json" :: "index.js" :: features.keys.map (· ++ ".js")

theorem feature_mem_owned {e : String × String} (h : e ∈ features.entries) : e.1 ++ ".js" ∈ owned features :=
  List.mem_cons_of_mem _ (List.mem_cons_of_mem _ (List.mem_map.2 ⟨e.1, List.mem_map_of_mem h, rfl⟩))

/-- Where the files are that a package writes and removes, and the way to them. -/
def Touched (features : Table String) (way k : List String) : Prop :=
  k <+: way ∨ ∃ x, (x ∈ owned features ∨ isStale features x = true) ∧ k = way ++ [x]

def Cleared (features : Table String) (way k : List String) : Prop :=
  k <+: way ∨ ∃ x, isStale features x = true ∧ k = way ++ [x]

theorem feature_not_cleared {e : String × String} (hn : AreNamed features) (he : e ∈ features.entries)
    (way : List String) : ¬ Cleared features way (way ++ [e.1 ++ ".js"]) := by
  rintro (hpre | ⟨x, hx, heq⟩)
  · have hle := hpre.length_le
    rw [List.length_append, List.length_singleton] at hle
    omega
  · obtain rfl : e.1 ++ ".js" = x := by simpa using heq
    rw [isStale_feature (hn e he).1 (find?_ne_none he)] at hx
    cases hx

theorem feature_apart {e : String × String} (hn : AreNamed features) (he : e ∈ features.entries)
    (way : List String) :
    ¬ (way ++ [e.1 ++ ".js"] = way ++ ["manifest.json"] ∨ way ++ [e.1 ++ ".js"] = way ++ ["index.js"]) := by
  rintro (heq | heq)
  · exact feature_ne_manifest e.1 (by simpa using heq)
  · exact feature_ne_index (hn e he).2 (by simpa using heq)

/-- The directory of a package is made and cleared of stale files. -/
theorem of_cleared {dir : String} {names' : List String} {n : Nat} {d₁ d₂ : Disk} (ht : d.IsTree)
    (hstart : d.entry? (d.start dir) = some .directory) (hup : ".." ∉ segments dir)
    (hmake : d.makeDirectories dir = .ok d₁) (hlist : listNames dir d₁ = .ok names' d₂)
    (hremove : removeStale dir features names' d₂ = .ok n d') :
    ∃ way, way = wayTo d dir ∧ d'.Folder dir way ∧
      Alters (Cleared features way) d d' ∧
      ∀ x, d'.entry? (way ++ [x]) ≠ none → isStale features x = false := by
  have hgrown := grown_makeDirectories ht hstart hup hmake
  obtain ⟨rfl, way, hloc, rfl⟩ := listNames_eq_ok hlist
  have hway : way = d.start dir ++ names (segments dir) :=
    start_eq hgrown.keeps.here dir ▸ ((walk_down_iff hup).1 (locate_eq_ok_iff.1 hloc).2).1
  have h₁ : d₂.Folder dir way := ⟨hgrown.tree, hloc, entry?_of_walk hgrown.tree
    (start_eq hgrown.keeps.here dir ▸ hgrown.keeps.directory hstart) (locate_eq_ok_iff.1 hloc).2⟩
  obtain ⟨hl, hk, h', hgone⟩ := of_removeStale h₁ (fun x hx => h₁.isName hx) hremove
  have hmade : Alters (Cleared features way) d d₂ := ⟨hgrown.keeps, fun k => (hgrown.new k).imp id
    fun ⟨_, ks, hks, heq⟩ => .inl (heq ▸ hway ▸ (List.prefix_append_right_inj _).2 hks)⟩
  have hcleared : Alters (Cleared features way) d₂ d' :=
    ⟨hk, fun k => (hl.entry k).imp id fun ⟨_, x, hx, heq⟩ => .inr ⟨x, hx, heq⟩⟩
  refine ⟨way, hway, h', hmade.trans hcleared, fun x hx => Bool.eq_false_iff.2 fun hstale => hx ?_⟩
  exact hgone x (mem_namesIn (hl.same hx ▸ hx)) hstale

/-- What the writing of a package comes to. -/
structure Wrote (package : String) (features : Table String) (dir : String) (way : List String)
    (s s' : MaterializeSummary) (d d' : Disk) : Prop where
  inLine : InLine package features dir way d'
  alters : Alters (Touched features way) d d'
  files : ∀ e ∈ features.entries, d'.entry? (way ++ [e.1 ++ ".js"]) = fileAfter d way e
  written : s'.written = s.written + features.entries.countP (!hasDigest d way ·)
  unchanged : s'.unchanged = s.unchanged + features.entries.countP (hasDigest d way)

theorem inLine_of_written {dir : String} {d₁ d₂ d₃ : Disk} (hn : AreNamed features)
    (hfresh : ∀ x, d.entry? (way ++ [x]) ≠ none → isStale features x = false)
    (ha₁ : Alters (fun k => ∃ e ∈ features.entries, k = way ++ [e.1 ++ ".js"]) d d₁)
    (h₁ : d₁.Folder dir way) (hcur : Current d₁ dir features.entries)
    (hmanifest : d₁.write (join dir "manifest.json")
      (.text (Json.pretty (Registry.manifest package features))) = .ok d₂)
    (hindex : d₂.write (join dir "index.js") (.text (Registry.index features)) = .ok d₃) :
    InLine package features dir way d₃ ∧
      Alters (fun k => k = way ++ ["manifest.json"] ∨ k = way ++ ["index.js"]) d₁ d₃ := by
  obtain ⟨hfits₂, he₂, ha₂, h₂⟩ := h₁.write isName_manifest hmanifest
  obtain ⟨hfits₃, he₃, ha₃, h₃⟩ := h₂.write isName_index hindex
  have hboth : Alters (fun k => k = way ++ ["manifest.json"] ∨ k = way ++ ["index.js"]) d₁ d₃ :=
    (ha₂.mono fun _ => .inl).trans (ha₃.mono fun _ => .inr)
  refine ⟨⟨h₃, fun x hx => ?_, ?_, ?_, ?_⟩, hboth⟩
  · rcases hboth.entry (way ++ [x]) with hk | hk | hk
    · rcases ha₁.entry (way ++ [x]) with hk' | ⟨e, he, hk'⟩
      · exact hfresh x (hk' ▸ hk ▸ hx)
      · obtain rfl : x = e.1 ++ ".js" := by simpa using hk'
        exact isStale_feature (hn e he).1 (find?_ne_none he)
    · obtain rfl : x = "manifest.json" := by simpa using hk
      rfl
    · obtain rfl : x = "index.js" := by simpa using hk
      rfl
  · refine hcur.keep h₁ h₃ (fun e he => (hn e he).1) fun e he => hboth.same ?_
    exact feature_apart hn he way
  · exact (h₃.read_eq_ok_iff isName_manifest).2 ⟨hfits₂, (ha₃.same (by simp)).trans he₂⟩
  · exact (h₃.read_eq_ok_iff isName_index).2 ⟨hfits₃, he₃⟩

/-- What a package leaves in its directory: it is in line there, and nothing else has changed but for
directories on the way. -/
theorem of_writePackage {dir : String} (hdir : dir = r.packageDir package) (ht : d.IsTree)
    (hstart : d.entry? (d.start dir) = some .directory) (hup : ".." ∉ segments dir)
    (hn : AreNamed features) (h : r.writePackage package features s d = .ok s' d') :
    Wrote package features dir (wayTo d dir) s s' d d' := by
  rw [writePackage, ← hdir] at h
  obtain ⟨_, d₁, hmake, h⟩ := bind_eq_ok h
  obtain ⟨_, d₂, hlist, h⟩ := bind_eq_ok h
  obtain ⟨removed, d₃, hremove, h⟩ := bind_eq_ok h
  obtain ⟨counts, d₄, hwrite, h⟩ := bind_eq_ok h
  obtain ⟨_, d₅, hmanifest, h⟩ := bind_eq_ok h
  obtain ⟨_, d₆, hindex, h⟩ := bind_eq_ok h
  obtain ⟨rfl, rfl⟩ := EStateM.Result.ok.inj h
  obtain ⟨way, rfl, h₃, ha₃, hfresh⟩ := of_cleared ht hstart hup (change_eq_ok hmake) hlist hremove
  obtain ⟨ha₄, h₄, hcur⟩ := of_writeFeatures h₃ (fun e he => (hn e he).1) features.pairwise_ne hwrite
  obtain ⟨hline, ha₆⟩ := inLine_of_written hn hfresh ha₄ h₄ hcur (change_eq_ok hmanifest)
    (change_eq_ok hindex)
  -- until they are written, the files of features are as they were
  have hsame : ∀ e ∈ features.entries, hasDigest d₃ (wayTo d dir) e = hasDigest d (wayTo d dir) e ∧
      fileAfter d₃ (wayTo d dir) e = fileAfter d (wayTo d dir) e :=
    fun e he => hasDigest_eq (ha₃.same (feature_not_cleared hn he _))
  have hfits : ∀ e ∈ features.entries, Fits dir (e.1 ++ ".js") :=
    fun e he => ((isCurrent_iff h₄ (isName_feature (hn e he).1)).1 (hcur e he)).1
  obtain ⟨hcount, hfiles⟩ :=
    digests_of_writeFeatures h₃ (fun e he => (hn e he).1) features.pairwise_ne hfits hwrite
  obtain ⟨hold, hnew⟩ := countP_eq_of_agree fun e he => (hsame e he).1
  refine ⟨hline, ((ha₃.mono fun k => ?_).trans (ha₄.mono fun k => ?_)).trans (ha₆.mono fun k => ?_),
    fun e he => ?_, ?_, ?_⟩
  · exact Or.imp id fun ⟨x, hx, heq⟩ => ⟨x, .inr hx, heq⟩
  · exact fun ⟨e, he, heq⟩ => .inr ⟨_, .inl (feature_mem_owned he), heq⟩
  · rintro (heq | heq)
    · exact .inr ⟨_, .inl (by simp [owned]), heq⟩
    · exact .inr ⟨_, .inl (by simp [owned]), heq⟩
  · rw [ha₆.same (feature_apart hn he _), hfiles e he, (hsame e he).2]
  · rw [hcount, ← hnew]
  · rw [hcount, ← hold]

end Whole

end FragmentMerge.Registry
