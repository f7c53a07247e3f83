import FragmentMerge.Proofs.Replay.Attributes
import FragmentMerge.Proofs.Replay.Visibility
import FragmentMerge.Proofs.Session.Answer

/-! Passes of the name rules. A pass queues one renaming for each model whose name a rule changes, the
models out of use included, and puts the attributes of all rules that matched under the names that the
models are to have. -/

namespace FragmentMerge.Session

/-- The renamings that the rules ask for of the models of a name. -/
def renamings (s : Session) (name : String) : List (ItemKey × String) :=
  match s.rules.outcome? name with
  | none => []
  | some found =>
    if found.newName.getD name = name then []
    else (s.catalog.models.filter (·.key.name == name)).map fun m => (m.key, found.newName.getD name)

def passRenamings (s : Session) : List (ItemKey × String) := s.visibleNames.flatMap s.renamings

/-- A session to which the rules have been applied, before it is replayed. -/
def ruled (s : Session) : Session := s.visibleNames.foldl applyRules s

theorem queue_applyRules (s : Session) (name : String) :
    (s.applyRules name).queue = s.queue ++ (s.renamings name).map Replay.renameEntry := by
  cases hf : s.rules.outcome? name with
  | none =>
    simp only [applyRules, renamings, hf]
    exact (List.append_nil _).symm
  | some found =>
    simp only [applyRules, renamings, hf, applyMatch]
    split
    · exact (List.append_nil _).symm
    · rw [List.map_map, List.map_map]
      rfl

theorem renamings_applyRules (s : Session) (name : String) :
    (s.applyRules name).renamings = s.renamings := by
  have hcat : (s.applyRules name).catalog = s.catalog := congrArg Replay.catalog (applyRules_current s name).1
  unfold renamings
  rw [hcat, (grows_applyRules s name).rules]

theorem queue_foldl_applyRules (s : Session) (names : List String) :
    (names.foldl applyRules s).queue = s.queue ++ (names.flatMap s.renamings).map Replay.renameEntry := by
  induction names generalizing s with
  | nil => exact (List.append_nil _).symm
  | cons name names ih =>
    rw [List.foldl_cons, ih, queue_applyRules, renamings_applyRules, List.flatMap_cons, List.map_append,
      List.append_assoc]

theorem queue_ruled (s : Session) :
    s.ruled.queue = s.queue ++ s.passRenamings.map Replay.renameEntry :=
  queue_foldl_applyRules s s.visibleNames

theorem bare_ruled (s : Session) :
    s.ruled.bare = (s.passRenamings.map Replay.renameEntry).foldl Replay.act s.bare := by
  have hg := (foldl_applyRules s s.visibleNames).1
  rw [bare, queue_ruled, List.foldl_append, ruled, hg.pristine, hg.links]
  rfl

theorem mem_renamings {s : Session} {name : String} {e : ItemKey × String} (h : e ∈ s.renamings name) :
    e.1 ∈ s.catalog.models.map Model.key ∧ e.1.name = name ∧ e.2 ≠ name := by
  unfold renamings at h
  split at h
  · cases h
  · split at h
    · cases h
    · next hne =>
      obtain ⟨m, hm, rfl⟩ := List.mem_map.1 h
      obtain ⟨hm, hname⟩ := List.mem_filter.1 hm
      exact ⟨List.mem_map_of_mem hm, beq_iff_eq.1 hname, hne⟩

theorem nodup_renamings {s : Session} (hn : (s.catalog.models.map Model.key).Nodup) (name : String) :
    ((s.renamings name).map Prod.fst).Nodup := by
  unfold renamings
  split
  · exact List.nodup_nil
  · split
    · exact List.nodup_nil
    · rw [List.map_map]
      exact hn.sublist (List.filter_sublist.map _)

/-- Each model is renamed at most once in a pass. -/
theorem nodup_passRenamings {s : Session} (hn : (s.catalog.models.map Model.key).Nodup) :
    (s.passRenamings.map Prod.fst).Nodup := by
  rw [passRenamings, List.map_flatMap, List.nodup_flatMap]
  refine ⟨fun name _ => nodup_renamings hn name, (Catalog.nodup_eraseDups _).imp fun hne k hk hk' => ?_⟩
  obtain ⟨e, he, rfl⟩ := List.mem_map.1 hk
  obtain ⟨d, hd, hde⟩ := List.mem_map.1 hk'
  exact hne ((mem_renamings he).2.1.symm.trans (hde ▸ (mem_renamings hd).2.1))

theorem Replayed.keys {s : Session} (hr : s.Replayed) : s.catalog.keys = s.bare.catalog.keys := by
  rw [Catalog.keys_eq_map_items, hr.items, ← Catalog.keys_eq_map_items]

theorem moves_bare {s : Session} (hw : s.pristine.WellKeyed) :
    List.Forall₂ Replay.Records s.queue s.bare.log ∧ s.bare.catalog.models.map Model.key =
      (s.pristine.models.map Model.key).filterMap (Replay.fate s.bare.log) := by
  have hn : (Replay.start s.pristine s.links).catalog.keys.Nodup := hw.distinct
  obtain ⟨log, hlog, hrec, hkeys⟩ := Replay.moves_foldl s.queue hn
  obtain rfl : s.bare.log = log := hlog
  exact ⟨hrec, hkeys⟩

/-- What the attributes add to the replay of the queue: lines of models, each with an entry. -/
theorem Replayed.gains {s : Session} (hr : s.Replayed) (hw : s.pristine.WellKeyed) :
    ∃ notes, s.current.log = s.bare.log ++ notes ∧
      (∀ e ∈ notes, ∃ m ∈ s.catalog.models, ∃ line, e = .attributeAdded m.key line) ∧
      Catalog.Gains notes s.bare.catalog s.catalog ∧
      ∀ a ∈ s.attributes, ∀ m ∈ s.catalog.models, m.key.name = a.1 →
        m.hasLine (Column.parse a.2) = true := by
  obtain ⟨notes, hlog, hsub, hgain, hcarried⟩ :=
    Replay.gains_foldl (Catalog.nodup_keys (wellKeyed_bare hw).distinct).1 s.attributes
  rw [← hr.current_eq] at hlog hgain hcarried
  refine ⟨notes, hlog, fun e he => ?_, hgain, hcarried⟩
  obtain ⟨a, -, he⟩ := List.mem_flatMap.1 (hsub.subset he)
  obtain ⟨k, hk, rfl⟩ := List.mem_map.1 he
  rw [← hgain.keys] at hk
  obtain ⟨m, hm, rfl⟩ := List.mem_map.1 (List.mem_filter.1 hk).1
  exact ⟨m, hm, a.2, rfl⟩

theorem renames_bare {s : Session} (hw : s.pristine.WellKeyed) (hr : s.Replayed) :
    s.bare.Renames s.passRenamings := by
  have hn := hr.keys ▸ (wellKeyed_bare hw).distinct
  refine ⟨nodup_passRenamings (Catalog.nodup_keys hn).1, fun e he => ?_, fun e he => ?_⟩
  · obtain ⟨name, -, he⟩ := List.mem_flatMap.1 he
    exact hr.keys ▸ List.mem_append_left _ (mem_renamings he).1
  · obtain ⟨name, -, he⟩ := List.mem_flatMap.1 he
    obtain ⟨-, hname, hne⟩ := mem_renamings he
    rw [hname]
    exact hne

theorem mem_foldl_fresh {final line : String} {lines : List String} {as : List (String × String)}
    (h : line ∈ lines) : (final, line) ∈ lines.foldl
      (fun as line => if as.contains (final, line) then as else as ++ [(final, line)]) as := by
  induction lines generalizing as with
  | nil => cases h
  | cons d lines ih =>
    rcases List.mem_cons.1 h with rfl | h
    · refine (prefix_foldl_fresh final lines _).subset ?_
      dsimp only
      split
      · next hc => exact List.contains_iff_mem.1 hc
      · exact List.mem_append_right _ List.mem_cons_self
    · exact ih h

theorem mem_attributes_applyRules {s : Session} {name line : String} {found : RuleMatch}
    (h : s.rules.outcome? name = some found) (hline : line ∈ found.attributes) :
    (found.newName.getD name, line) ∈ (s.applyRules name).attributes := by
  simp only [applyRules, h, applyMatch]
  split
  · exact mem_foldl_fresh hline
  · exact mem_foldl_fresh hline

theorem mem_attributes_foldl {s : Session} {names : List String} {name line : String} {found : RuleMatch}
    (hname : name ∈ names) (h : s.rules.outcome? name = some found) (hline : line ∈ found.attributes) :
    (found.newName.getD name, line) ∈ (names.foldl applyRules s).attributes := by
  induction names generalizing s with
  | nil => cases hname
  | cons d names ih =>
    rw [List.foldl_cons]
    rcases List.mem_cons.1 hname with rfl | hname
    · exact (foldl_applyRules _ names).1.attributes.subset (mem_attributes_applyRules h hline)
    · exact ih hname ((grows_applyRules s d).rules ▸ h)

theorem introspect_cases (s : Session) :
    (s.introspect = (false, s.ruled) ∧ s.ruled.queue = s.queue ∧ s.ruled.attributes = s.attributes) ∨
      s.introspect = (true, s.ruled.replay) := by
  have hg := (foldl_applyRules s s.visibleNames).1
  unfold introspect
  split
  · next hnone =>
    -- without rules no name is changed
    have hruled : ∀ names : List String, names.foldl applyRules s = s := fun names => by
      induction names with
      | nil => rfl
      | cons name names ih =>
        have hname : s.applyRules name = s := by
          rw [applyRules, List.isEmpty_iff.1 hnone]
          rfl
        rw [List.foldl_cons, hname, ih]
    rw [ruled, hruled]
    exact .inl ⟨rfl, rfl, rfl⟩
  · dsimp only
    split
    · next hlen =>
      simp only [Bool.and_eq_true, decide_eq_true_eq] at hlen
      exact .inl ⟨rfl, (hg.queue.eq_of_length hlen.1.symm).symm,
        (hg.attributes.eq_of_length hlen.2.symm).symm⟩
    · exact .inr rfl

/-- Whether or not a pass finds anything new, it leaves the replay of what the rules ask for. -/
theorem current_introspect {s : Session} (hr : s.Replayed) :
    s.introspect.2.current = s.ruled.replay.current := by
  obtain ⟨hg, hc, -⟩ := foldl_applyRules s s.visibleNames
  rcases introspect_cases s with ⟨h, hq, has⟩ | h
  · rw [h, replay]
    change s.ruled.current = Replay.run s.ruled.pristine s.ruled.links s.ruled.queue s.ruled.attributes
    rw [hq, has]
    exact hc.trans (hr.trans (by rw [ruled, hg.pristine, hg.links]))
  · rw [h]

end FragmentMerge.Session
