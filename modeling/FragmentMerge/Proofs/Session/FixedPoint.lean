import FragmentMerge.Document
import FragmentMerge.Proofs.Session.Keys
import FragmentMerge.Proofs.Session.Log
import FragmentMerge.Proofs.Session.Passes

/-! The end of the name rules. A resolution succeeds only with a pass that finds nothing new, so in the
models that it leaves visible no rule has anything to do. -/

namespace FragmentMerge.Session

/-- A model to which the rules do nothing more: the rule for its name, if there is one, leaves the name
and adds no line that the model lacks. -/
structure AtRest (rules : Rules) (m : Model) : Prop where
  named : ∀ found, rules.outcome? m.key.name = some found →
    ∀ name, found.newName = some name → name = m.key.name
  carried : ∀ found, rules.outcome? m.key.name = some found →
    ∀ line ∈ found.attributes, m.hasLine (Column.parse line) = true

theorem mem_visibleNames {s : Session} {m : Model} (hm : m ∈ Document.visibleModels s.current) :
    m.key.name ∈ s.visibleNames :=
  List.mem_eraseDups.2 (List.mem_map_of_mem hm)

/-- A pass that queues nothing finds no visible model with a name to change. -/
theorem newName_of_idle {s : Session} (hidle : s.passRenamings = []) {m : Model}
    (hm : m ∈ Document.visibleModels s.current) {found : RuleMatch}
    (hf : s.rules.outcome? m.key.name = some found) : found.newName.getD m.key.name = m.key.name := by
  refine Decidable.byContradiction fun hne => ?_
  have hnone : s.renamings m.key.name = [] := List.flatMap_eq_nil_iff.1 hidle _ (mem_visibleNames hm)
  simp only [renamings, hf, if_neg hne, List.map_eq_nil_iff, List.filter_eq_nil_iff, beq_iff_eq] at hnone
  exact hnone m (List.mem_filter.1 hm).1 rfl

theorem atRest_of_introspect {s s' : Session} (hw : s.pristine.WellKeyed) (hr : s.Replayed)
    (h : s.introspect = (false, s')) {m : Model} (hm : m ∈ Document.visibleModels s'.current) :
    AtRest s.rules m := by
  rw [(introspect_false hr h).2.1] at hm
  obtain ⟨hq, has⟩ : s.ruled.queue = s.queue ∧ s.ruled.attributes = s.attributes := by
    rcases introspect_cases s with ⟨-, h⟩ | h'
    · exact h
    · rw [h] at h'
      cases congrArg Prod.fst h'
  have hidle : s.passRenamings = [] := by
    rw [queue_ruled] at hq
    exact List.map_eq_nil_iff.1 (List.append_right_eq_self.1 hq)
  refine ⟨fun found hf name hname => ?_, fun found hf line hline => ?_⟩
  · rw [← newName_of_idle hidle hm hf, hname]
    rfl
  · obtain ⟨-, -, -, -, hcarried⟩ := hr.gains hw
    have hattr := mem_attributes_foldl (mem_visibleNames hm) hf hline
    rw [newName_of_idle hidle hm hf, ← ruled, has] at hattr
    exact hcarried _ hattr m (List.mem_filter.1 hm).1 rfl

theorem linesFor_added (k : ItemKey) (line : String) (log : List Mutation) :
    Replay.linesFor (.attributeAdded k line :: log) k = Column.parse line :: Replay.linesFor log k :=
  List.filterMap_cons_some (if_pos rfl)

/-- The line of an entry stands behind other lines only. What is behind it comes from later entries. -/
theorem gains_behind {before rest : List Mutation} {line : String} {d m : Model}
    (h : Model.Gains (before ++ .attributeAdded m.key line :: rest) d m) :
    ∃ cs, m.columns = cs ++ Column.parse line :: Replay.linesFor rest m.key ∧
      ∀ c ∈ cs, c.format ≠ (Column.parse line).format := by
  have hlines : Replay.linesFor (before ++ .attributeAdded m.key line :: rest) d.key =
      Replay.linesFor before m.key ++ Column.parse line :: Replay.linesFor rest m.key := by
    rw [Replay.linesFor_append, ← h.key, linesFor_added]
  have honce := hlines ▸ h.once
  refine ⟨d.columns ++ Replay.linesFor before m.key, ?_, fun c hc => ?_⟩
  · rw [h.columns, hlines, List.append_assoc]
  · rcases List.mem_append.1 hc with hc | hc
    · refine (h.fresh c hc _ ?_).symm
      rw [hlines]
      exact List.mem_append_right _ List.mem_cons_self
    · rw [List.map_append] at honce
      exact (List.nodup_append.1 honce).2.2 _ (List.mem_map_of_mem hc) _
        (List.mem_map_of_mem List.mem_cons_self)

/-- No entry for an attribute names a line that its model had. -/
theorem Replayed.added_new {s : Session} (hr : s.Replayed) (hw : s.pristine.WellKeyed)
    {done rest : List Mutation} {k : ItemKey} {line : String}
    (h : s.current.log = done ++ .attributeAdded k line :: rest) :
    ∃ m ∈ s.catalog.models, m.key = k ∧ ∃ cs, m.columns = cs ++ Column.parse line :: Replay.linesFor rest k ∧
      ∀ d ∈ cs, d.format ≠ (Column.parse line).format := by
  obtain ⟨notes, hlog, hadded, hgain, -⟩ := hr.gains hw
  have hnone : .attributeAdded k line ∉ s.bare.log := fun hm => by
    obtain ⟨e, -, he⟩ := exists_of_forall₂ (moves_bare hw).1 hm
    cases he
  rw [hlog] at h
  -- no action writes such an entry, so it is one of the attributes' entries
  obtain ⟨before, rfl⟩ : ∃ before, notes = before ++ .attributeAdded k line :: rest := by
    rcases List.append_eq_append_iff.1 h with ⟨before, -, hn⟩ | ⟨l, he, hn⟩
    · exact ⟨before, hn⟩
    · cases l with
      | nil => exact ⟨[], hn.symm⟩
      | cons x l =>
        rw [List.cons_append, List.cons.injEq] at hn
        exact absurd (he ▸ hn.1 ▸ List.mem_append_right _ List.mem_cons_self) hnone
  obtain ⟨m, hm, line', he⟩ := hadded _ (List.mem_append_right _ List.mem_cons_self)
  obtain ⟨rfl, -⟩ := Mutation.attributeAdded.inj he
  obtain ⟨d, -, hd⟩ := exists_of_forall₂ hgain.models hm
  exact ⟨m, hm, rfl, gains_behind hd⟩

theorem convergeWithin_last {σ : Type} {ask : Resolver σ} {rounds left : Nat} {s s' : Session} {st st' : σ}
    {acc r : Resolution} (hw : s.pristine.WellKeyed) (hm : (s.mapper.map Prod.fst).Nodup)
    (h : convergeWithin ask rounds left s st acc = some ⟨.ok r, s', st'⟩) :
    ∃ t, Grows s t ∧ t.Replayed ∧ t.introspect = (false, s') := by
  induction left using Nat.strongRecOn generalizing s st acc with
  | ind left ih =>
    obtain ⟨n, t, st₁, hs, ⟨hi, -, -⟩ | ⟨left', u, rfl, hi, hrest, -⟩⟩ := convergeWithin_turn h
    · exact ⟨t, grows_settleWithin hs, (settleWithin_ok hw hm hs).2.1, hi⟩
    · have hg : Grows s u := (grows_settleWithin hs).trans (by simpa [hi] using grows_introspect t)
      obtain ⟨v, hv, hlast⟩ := ih left' (Nat.lt_succ_self left') (hg.pristine ▸ hw) (hg.mapper ▸ hm) hrest
      exact ⟨v, hg.trans hv, hlast⟩

/-- The rules of a resolution that succeeds have come to rest, and its log names no line for a model
that the model had. -/
theorem resolve_at_rest {σ : Type} {ask : Resolver σ} {rounds : Nat} {c : Catalog} {s s' : Session}
    {st st' : σ} {r : Resolution} (hc : c.Kept) (hs : Over c s)
    (h : s.resolveWithin ask rounds st = some ⟨.ok r, s', st'⟩) :
    (∀ m ∈ Document.visibleModels s'.current, AtRest s.rules m) ∧
    ∀ done k line rest, s'.current.log = done ++ .attributeAdded k line :: rest →
      ∃ m ∈ s'.catalog.models, m.key = k ∧
        ∃ cs, m.columns = cs ++ Column.parse line :: Replay.linesFor rest k ∧
          ∀ d ∈ cs, d.format ≠ (Column.parse line).format := by
  have hsound := hs.sound hc.wellKeyed
  have hw : s.pristine.WellKeyed := hsound.pristine ▸ hc.wellKeyed
  obtain ⟨t, hg, hr, hi⟩ := convergeWithin_last hw hsound.mapper h
  have hg' : Grows t s' := by simpa [hi] using grows_introspect t
  refine ⟨fun m hm => hg.rules ▸ atRest_of_introspect (hg.pristine ▸ hw) hr hi hm,
    fun done k line rest hlog => ?_⟩
  exact (introspect_false hr hi).1.added_new ((hg.trans hg').pristine ▸ hw) hlog

def titled : List Fragment :=
  [⟨"f", "generator g \x7b\n\x7d\ndatasource d \x7b\n\x7d\nmodel User \x7b\n  id Int\n  @@map(u)\n\x7d"⟩]

def titledCatalog : Catalog :=
  { base := "f", generator := "generator g \x7b\n\x7d", datasource := "datasource d \x7b\n\x7d",
    files := ["f"], models := [⟨⟨"f", "User"⟩, [⟨"id", "Int", []⟩, ⟨"@@map(u)", "", []⟩], 5⟩], enums := [] }

/-- A rule for a name, and another rule for the name that it becomes. -/
def titledSession : Session :=
  (Session.new titledCatalog).withRules
    [⟨.exact "User", some "Person", ["@@map(u)"]⟩, ⟨.exact "Person", none, ["@@index([id])"]⟩] 10

def titledModel : Model :=
  ⟨⟨"f", "Person"⟩, [⟨"id", "Int", []⟩, ⟨"@@map(u)", "", []⟩, ⟨"@@index([id])", "", []⟩], 5⟩

theorem resolve_at_rest_titled :
    Catalog.ofFragments (fun _ => false) titled = .ok titledCatalog ∧
      ∃ s', titledSession.resolveWithin (ruleResolver []) 3 () = some ⟨.ok ⟨0, 2⟩, s', ()⟩ ∧
        titledModel ∈ Document.visibleModels s'.current ∧ AtRest titledSession.rules titledModel := by
  have hload : Catalog.ofFragments (fun _ => false) titled = .ok titledCatalog := rfl
  have hs : Over titledCatalog titledSession := .rules _ _ .new
  obtain ⟨s', hres, hm⟩ : ∃ s', titledSession.resolveWithin (ruleResolver []) 3 () =
      some ⟨.ok ⟨0, 2⟩, s', ()⟩ ∧ titledModel ∈ Document.visibleModels s'.current :=
    ⟨_, rfl, List.mem_cons_self⟩
  exact ⟨hload, s', hres, hm, (resolve_at_rest (.loaded hload) hs hres).1 _ hm⟩

end FragmentMerge.Session
