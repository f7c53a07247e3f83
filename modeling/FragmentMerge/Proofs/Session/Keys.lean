import FragmentMerge.Proofs.Replay.Remaps
import FragmentMerge.Proofs.Session.Grows

/-! The sessions over a catalog, and the keys of their working catalogs. Every operation only grows the
session, so it leaves the catalog as it was or replays the pristine one, and a replay keeps keys apart. -/

namespace FragmentMerge.Session

/-- A new session over a catalog, or what settings and operations have made of one. -/
inductive Over (c : Catalog) : Session → Prop
  | new : Over c (.new c)
  | crossFile {s : Session} (enabled : Bool) : Over c s → Over c (s.withCrossFile enabled)
  | mapping {s : Session} (source : ColumnKey) (target : ItemKey) :
      Over c s → Over c (s.withMapping source target)
  | extended {s : Session} (child parent : ItemKey) : Over c s → Over c (s.withExtended child parent)
  | rules {s : Session} (rules : Rules) (maxPasses : Nat) :
      Over c s → Over c (s.withRules rules maxPasses)
  | suggest {s : Session} (target : ItemKey) (action : Action) :
      Over c s → Over c (s.suggest target action)
  | replay {s : Session} : Over c s → Over c s.replay
  | nextStep {s : Session} : Over c s → Over c s.nextStep.2
  | resolve {s : Session} {σ : Type} (ask : Resolver σ) (rounds : Nat) (st : σ)
      (o : Outcome σ Resolution) : Over c s → s.resolveWithin ask rounds st = some o → Over c o.session
  | introspect {s : Session} : Over c s → Over c s.introspect.2

theorem over_ofConfig [PatternEngine] {c : Catalog} {config : Config} {s : Session} (h : ofConfig c config = .ok s) :
    Over c s := by
  have hmap : ∀ (es : List (ColumnKey × ItemKey)) (s : Session), Over c s →
      Over c (es.foldl (fun s e => s.withMapping e.1 e.2) s) := by
    intro es
    induction es with
    | nil => exact fun s hs => hs
    | cons e es ih => exact fun s hs => ih _ (.mapping e.1 e.2 hs)
  have hext : ∀ (es : List (ItemKey × ItemKey)) (s : Session), Over c s →
      Over c (es.foldl (fun s e => s.withExtended e.1 e.2) s) := by
    intro es
    induction es with
    | nil => exact fun s hs => hs
    | cons e es ih => exact fun s hs => ih _ (.extended e.1 e.2 hs)
  simp only [ofConfig, bind, Except.bind, pure, Except.pure] at h
  split at h
  · cases h
  · split at h
    · cases h
    · split at h
      · cases h
      · obtain rfl := Except.ok.inj h
        exact .replay (hext _ _ (hmap _ _ (.rules _ _ (.crossFile _ .new))))

/-- What holds throughout a session over a catalog. -/
structure Sound (c : Catalog) (s : Session) : Prop where
  pristine : s.pristine = c
  mapper : (s.mapper.map Prod.fst).Nodup
  keyed : s.catalog.WellKeyed

theorem Sound.grows {c : Catalog} {s s' : Session} (hc : c.WellKeyed) (h : Sound c s)
    (g : Grows s s') : Sound c s' := by
  refine ⟨g.pristine.trans h.pristine, by rw [g.mapper]; exact h.mapper, ?_⟩
  rcases g.current with hs | ⟨q, as, hs⟩
  · rw [catalog, hs]
    exact h.keyed
  · rw [catalog, hs, h.pristine]
    exact Replay.wellKeyed_run hc s.links q as

theorem Over.sound {c : Catalog} {s : Session} (hc : c.WellKeyed) (h : Over c s) : Sound c s := by
  induction h with
  | new => exact ⟨rfl, List.nodup_nil, hc⟩
  | crossFile _ _ ih => exact ⟨ih.pristine, ih.mapper, ih.keyed⟩
  | mapping source target _ ih => exact ⟨ih.pristine, nodup_upsert source target ih.mapper, ih.keyed⟩
  | extended _ _ _ ih => exact ⟨ih.pristine, ih.mapper, ih.keyed⟩
  | rules _ _ _ ih => exact ⟨ih.pristine, ih.mapper, ih.keyed⟩
  | suggest target action _ ih => exact ih.grows hc (grows_suggest _ target action)
  | replay _ ih => exact ih.grows hc (grows_replay _)
  | nextStep _ ih => exact ih.grows hc (grows_nextStep _)
  | resolve ask rounds st o _ ho ih => exact ih.grows hc (grows_resolveWithin ho)
  | introspect _ ih => exact ih.grows hc (grows_introspect _)

/-- Loaded catalogs, whatever single changes follow, and the working catalogs of all sessions over
them hold each key once, whether of a model or of an enum; enums bear the names of their keys, and the
files of all keys are loaded. -/
theorem keys_apart {c : Catalog} (h : c.Kept) :
    c.WellKeyed ∧ ∀ s, Over c s → s.catalog.WellKeyed :=
  ⟨h.wellKeyed, fun _ hs => (hs.sound h.wellKeyed).keyed⟩

/-- One fragment under two sources, which declares a key three times. -/
def repeated : List Fragment :=
  [⟨"f", "generator g \x7b\n\x7d\ndatasource d \x7b\n\x7d\nmodel A \x7b\n\x7d\nenum A \x7b\n\x7d\nenum B \x7b\n\x7d"⟩,
    ⟨"f", "model A \x7b\n\x7d\nmodel C \x7b\n\x7d"⟩]

def repeatedCatalog : Catalog :=
  { base := "f", generator := "generator g \x7b\n\x7d", datasource := "datasource d \x7b\n\x7d",
    files := ["f"], models := [⟨⟨"f", "A"⟩, [], 5⟩, ⟨⟨"f", "C"⟩, [], 3⟩], enums := [⟨⟨"f", "B"⟩, "B", [], 9⟩] }

def repeatedRenamed : Catalog := { repeatedCatalog with enums := [⟨⟨"f", "D"⟩, "D", [], 9⟩] }

theorem keys_apart_repeated :
    Catalog.ofFragments (fun _ => false) repeated = .ok repeatedCatalog ∧
      repeatedCatalog.rename? ⟨"f", "B"⟩ .enum "D" = some repeatedRenamed ∧ repeatedRenamed.Kept ∧
      repeatedRenamed.WellKeyed ∧
      ((new repeatedRenamed).suggest ⟨"f", "C"⟩ (.rename "B" .model)).replay.catalog.WellKeyed := by
  have hload : Catalog.ofFragments (fun _ => false) repeated = .ok repeatedCatalog := rfl
  have hrename : repeatedCatalog.rename? ⟨"f", "B"⟩ .enum "D" = some repeatedRenamed := rfl
  have hkept : repeatedRenamed.Kept := .rename (.loaded hload) hrename
  exact ⟨hload, hrename, hkept, (keys_apart hkept).1, (keys_apart hkept).2 _ (.replay (.suggest _ _ .new))⟩

end FragmentMerge.Session
