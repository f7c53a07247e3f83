import FragmentMerge.Proofs.Document.Declarations
import FragmentMerge.Proofs.Document.Reload
import FragmentMerge.Proofs.Session.Log

/-! Successful resolutions. They end without conflicts, so the document declares each name once, and each
answer has had its effect: its conflict was gone after the replay, or the answer had undone a configured
relation, which the next turn restored. The second case does occur. The document, loaded as a fragment of
its own, holds the items that were visible with the columns of the document, and prints as the same text
under another file. -/

namespace FragmentMerge.Session

/-- Resolutions that succeed, with whatever limit on the rounds. -/
theorem resolve_ok {c : Catalog} {s s' : Session} {σ : Type} {ask : Resolver σ} {rounds : Nat}
    {st st' : σ} {r : Resolution} (hc : c.Kept) (hs : Over c s)
    (h : s.resolveWithin ask rounds st = some ⟨.ok r, s', st'⟩) :
    s'.phase = .done ∧ s'.conflicts = [] ∧
      ((Document.declarations s'.current).map Document.Declaration.name).Nodup ∧
      (∀ blocks, (Document.ofReplay s'.current blocks).text =
        "\n\n".intercalate ([Document.headerLine, s'.catalog.generator, s'.catalog.datasource] ++
          (Document.declarations s'.current).map Document.Declaration.text ++
          blocks.map Text.trimmed) ++ "\n") ∧
      r.passes ≤ s.maxPasses ∧ (s.resolveLog ask rounds st).length = r.resolved ∧
      ∀ x ∈ s.resolveLog ask rounds st, x.Gone ∨ x.Restored := by
  have hsound := hs.sound hc.wellKeyed
  have hw : s.pristine.WellKeyed := hsound.pristine ▸ hc.wellKeyed
  obtain ⟨hlen, hpass, -, hnone, hphase, hall⟩ := convergeWithin_ok hw hsound.mapper h
  have hkeyed : s'.catalog.WellKeyed := (hsound.grows hc.wellKeyed (grows_resolveWithin h)).keyed
  have hcount : (s.resolveLog ask rounds st).length = r.resolved := by
    rw [hlen, Nat.zero_add]
    rfl
  have hnodup : ((Document.declarations s'.current).map Document.Declaration.name).Nodup :=
    Document.nodup_declarations hkeyed hnone
  exact ⟨hphase, hnone, hnodup, Document.text_ofReplay s'.current, by simpa using hpass, hcount, hall⟩

def crossing : List Fragment :=
  [⟨"base", "generator g \x7b\n\x7d\ndatasource d \x7b\n\x7d"⟩,
    ⟨"f", "model M \x7b\n  id Int\n  c N @relation(fields: [a])\n\x7d\nmodel K \x7b\n  id Int\n\x7d"⟩,
    ⟨"g", "model N \x7b\n  id Int\n\x7d"⟩]

def crossingCatalog : Catalog :=
  { base := "base", generator := "generator g \x7b\n\x7d", datasource := "datasource d \x7b\n\x7d",
    files := ["base", "f", "g"],
    models := [
      ⟨⟨"f", "M"⟩, [⟨"id", "Int", []⟩, ⟨"c", "N", ["@relation(fields: [a])"]⟩], 1⟩,
      ⟨⟨"f", "K"⟩, [⟨"id", "Int", []⟩], 5⟩,
      ⟨⟨"g", "N"⟩, [⟨"id", "Int", []⟩], 1⟩],
    enums := [] }

theorem load_crossing : Catalog.ofFragments (fun _ => false) crossing = .ok crossingCatalog := by
  decide +kernel

theorem kept_crossing : crossingCatalog.Kept := .loaded load_crossing

def crossingColumn : ColumnKey := ⟨⟨"f", "M"⟩, "c"⟩

/-- A renaming gives a model the name of another, at which a configured relation already points. -/
def crossingSession : Session :=
  ((((new crossingCatalog).withCrossFile true).withMapping crossingColumn ⟨"g", "N"⟩).suggest ⟨"g", "N"⟩
    (.remap crossingColumn ⟨"g", "N"⟩ .model)).suggest ⟨"f", "K"⟩ (.rename "N" .model)

theorem over_crossing : Over crossingCatalog crossingSession :=
  .suggest _ _ (.suggest _ _ (.mapping _ _ (.crossFile _ .new)))

def pointBack : Resolver Unit := fun _ _ =>
  (some (⟨"f", "N"⟩, .remap crossingColumn ⟨"f", "N"⟩ .model), ())

/-- A resolution that succeeds although its one answer has left the conflict in place. -/
theorem answer_without_effect :
    Catalog.ofFragments (fun _ => false) crossing = .ok crossingCatalog ∧
      Over crossingCatalog crossingSession ∧
      (∃ s', crossingSession.resolveWithin pointBack 3 () = some ⟨.ok ⟨1, 0⟩, s', ()⟩) ∧
      ∃ x ∈ crossingSession.resolveLog pointBack 3 (), x.conflict ∈ x.queued.replay.conflicts :=
  ⟨load_crossing, over_crossing, ⟨_, rfl⟩, _, List.mem_cons_self, by decide⟩

theorem resolve_ok_crossing : ∃ s',
    crossingSession.resolveWithin pointBack 3 () = some ⟨.ok ⟨1, 0⟩, s', ()⟩ ∧ s'.phase = .done ∧
      s'.conflicts = [] ∧ ((Document.declarations s'.current).map Document.Declaration.name).Nodup ∧
      ∀ x ∈ crossingSession.resolveLog pointBack 3 (), x.Gone ∨ x.Restored := by
  obtain ⟨s', h⟩ : ∃ s', crossingSession.resolveWithin pointBack 3 () = some ⟨.ok ⟨1, 0⟩, s', ()⟩ :=
    ⟨_, rfl⟩
  obtain ⟨hphase, hnone, hnodup, -, -, -, hall⟩ := resolve_ok kept_crossing over_crossing h
  exact ⟨s', h, hphase, hnone, hnodup, hall⟩

/-- What the replay of a successful resolution owes to the loaded catalog and to the new names. -/
theorem readable_resolve {excluded : ItemKey → Bool} {sources : List Source} {c : Catalog}
    {s s' : Session} {σ : Type} {ask : Resolver σ} {rounds : Nat} {st st' : σ} {r : Resolution}
    (hc : Catalog.ofSources excluded sources = .ok c) (hs : Over c s)
    (h : s.resolveWithin ask rounds st = some ⟨.ok r, s', st'⟩)
    (hnames : ∀ e ∈ s'.queue, ∀ name, e.2.newName? = some name → IsIdentifier name) :
    s'.catalog.Readable ∧ Catalog.Head "generator" s'.catalog.generator ∧
      Catalog.Head "datasource" s'.catalog.datasource ∧ s'.catalog.files = c.files := by
  have hw := Catalog.wellKeyed_ofSources hc
  have hsound := hs.sound hw
  have hpristine : s'.pristine = c := (hsound.grows hw (grows_resolveWithin h)).pristine
  obtain ⟨-, -, hreplayed, -⟩ := convergeWithin_ok (hsound.pristine ▸ hw) hsound.mapper h
  obtain ⟨hread, hgen, hdata⟩ := Catalog.readable_ofSources hc
  obtain ⟨hr, hg, hd, hf⟩ := Replay.readable_run hread hnames s'.links s'.attributes
  rw [catalog, hreplayed, hpristine]
  exact ⟨hr, hg ▸ hgen, hd ▸ hdata, hf⟩

/-- The document of a successful resolution is loaded as it was meant. -/
theorem resolve_reloads {excluded : ItemKey → Bool} {sources : List Source} {c : Catalog}
    {s s' : Session} {σ : Type} {ask : Resolver σ} {rounds : Nat} {st st' : σ} {r : Resolution}
    (hc : Catalog.ofSources excluded sources = .ok c) (hs : Over c s)
    (h : s.resolveWithin ask rounds st = some ⟨.ok r, s', st'⟩)
    (hnames : ∀ e ∈ s'.queue, ∀ name, e.2.newName? = some name → IsIdentifier name)
    (hfiles : ∀ f ∈ c.files, '\n' ∉ f.toList) (hplain : Document.Plain s'.current) (file : String) :
    ∃ c', Catalog.ofFragments (fun _ => false) [⟨file, (Document.ofReplay s'.current []).text⟩] = .ok c' ∧
      Document.Holds file s'.current c' ∧
      (Document.ofReplay s'.current []).text =
        Document.labelled Document.Declaration.file s'.current ∧
      (Document.ofReplay (new c').current []).text = Document.labelled (fun _ => file) s'.current := by
  have hw := Catalog.wellKeyed_ofSources hc
  have hsound := hs.sound hw
  have hkeyed : s'.catalog.WellKeyed := (hsound.grows hw (grows_resolveWithin h)).keyed
  obtain ⟨-, -, -, hnone, -⟩ := convergeWithin_ok (hsound.pristine ▸ hw) hsound.mapper h
  obtain ⟨hread, hg, hd, hf⟩ := readable_resolve hc hs h hnames
  have hnodup : ((Document.declarations s'.current).map Document.Declaration.name).Nodup :=
    Document.nodup_declarations hkeyed hnone
  have hfile : ∀ d ∈ Document.declarations s'.current, '\n' ∉ d.file.toList := by
    intro d hdm
    refine hfiles d.file ?_
    rw [← hf]
    exact hkeyed.filed _ (Document.key_of_declaration hkeyed hdm)
  obtain ⟨c', hload, hholds⟩ := Document.load_ofReplay hkeyed hread hg hd hplain hnodup hfile file
  exact ⟨c', hload, hholds, Document.text_eq_labelled s'.current, hholds.text⟩

/-- Two fragments that both declare an item of one name, with a brace in quotes and another one in a
comment. -/
def noted : List Fragment :=
  [⟨"base", "generator g \x7b\n\x7d\ndatasource d \x7b\n\x7d\nmodel A \x7b\n n  S @d(\"\x7b\")\n\x7d"⟩,
    ⟨"f", "enum A \x7b\n // \x7d\n\x7d"⟩]

def notedCatalog : Catalog :=
  { base := "base", generator := "generator g \x7b\n\x7d", datasource := "datasource d \x7b\n\x7d",
    files := ["base", "f"],
    models := [⟨⟨"base", "A"⟩, [⟨"n", "S", ["@d(\"\x7b\")"]⟩], 5⟩],
    enums := [⟨⟨"f", "A"⟩, "A", ["// \x7d"], 1⟩] }

theorem load_noted : Catalog.ofFragments (fun _ => false) noted = .ok notedCatalog := by
  decide +kernel

def notedQueue : List (ItemKey × Action) := [(⟨"f", "A"⟩, .rename "B" .enum)]

def notedReplay : Replay :=
  { catalog := { notedCatalog with enums := [⟨⟨"f", "B"⟩, "B", ["// \x7d"], 1⟩] }
    remaps := [], shadows := [], extended := []
    log := [.renamed ⟨"f", "A"⟩ ⟨"f", "B"⟩ 0] }

theorem plain_noted : Document.Plain notedReplay :=
  ⟨by decide +kernel, by decide +kernel, by decide +kernel, by decide +kernel⟩

theorem resolve_reloads_noted : ∃ s' c',
    (new notedCatalog).resolveWithin (ruleResolver notedQueue) 3 () = some ⟨.ok ⟨1, 0⟩, s', ()⟩ ∧
      s'.queue = notedQueue ∧ s'.current = notedReplay ∧
      Catalog.ofFragments (fun _ => false) [⟨"all", (Document.ofReplay notedReplay []).text⟩] = .ok c' ∧
      Document.Holds "all" notedReplay c' ∧
      (Document.ofReplay (new c').current []).text = Document.labelled (fun _ => "all") notedReplay := by
  obtain ⟨s', h, hq, hr⟩ : ∃ s',
      (new notedCatalog).resolveWithin (ruleResolver notedQueue) 3 () = some ⟨.ok ⟨1, 0⟩, s', ()⟩ ∧
        s'.queue = notedQueue ∧ s'.current = notedReplay := ⟨_, rfl, rfl, rfl⟩
  have hnames : ∀ e ∈ s'.queue, ∀ name, e.2.newName? = some name → IsIdentifier name := by
    intro e he name hn
    rw [hq, notedQueue, List.mem_singleton] at he
    rw [he] at hn
    obtain rfl := Option.some.inj hn
    exact ⟨'B', [], rfl, by decide, by simp⟩
  have hfiles : ∀ f ∈ notedCatalog.files, '\n' ∉ f.toList := by decide
  have hplain : Document.Plain s'.current := hr ▸ plain_noted
  obtain ⟨c', hload, hholds, -, htext⟩ :=
    resolve_reloads load_noted .new h hnames hfiles hplain "all"
  rw [hr] at hload hholds htext
  exact ⟨s', c', h, hq, hr, hload, hholds, htext⟩

end FragmentMerge.Session
