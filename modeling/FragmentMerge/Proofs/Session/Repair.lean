import FragmentMerge.Proofs.Replay.Faithful
import FragmentMerge.Proofs.Replay.Fate
import FragmentMerge.Proofs.Replay.Scope
import FragmentMerge.Proofs.Session.Mappings

/-! The renamings of a session. Each entry of the log that tells of a renaming answers the action in the
same place of the queue, and between the catalogs before and after this action nothing but the columns in
its scope has got another type. -/

namespace FragmentMerge

namespace Replay

variable {c : Catalog} {links : Links} {queue : List (ItemKey × Action)}

/-- The log of a whole replay: an entry for each action, then the added attributes. -/
theorem log_run (hn : c.keys.Nodup) (links : Links) (queue : List (ItemKey × Action))
    (attributes : List (String × String)) :
    ∃ notes, (run c links queue attributes).log = (queue.foldl act (start c links)).log ++ notes ∧
      ∀ m ∈ notes, ∃ k line, m = .attributeAdded k line := by
  obtain ⟨notes, hlog, hsub, -⟩ :=
    gains_foldl (Catalog.nodup_keys (nodup_foldl (r := start c links) hn queue)).1 attributes
  exact ⟨notes, hlog, fun m hm => mem_entriesOf (hsub.subset hm)⟩

theorem records_foldl (hn : c.keys.Nodup) (links : Links) (queue : List (ItemKey × Action)) :
    List.Forall₂ Records queue (queue.foldl act (start c links)).log := by
  obtain ⟨log, hlog, hrec, -⟩ := moves_foldl queue (r := start c links) hn
  rw [hlog]
  exact hrec

theorem length_log_take (hn : c.keys.Nodup) (links : Links) {i : Nat} (hi : i < queue.length) :
    ((queue.take i).foldl act (start c links)).log.length = i := by
  rw [← (records_foldl hn links (queue.take i)).length_eq, List.length_take, Nat.min_eq_left (Nat.le_of_lt hi)]

theorem log_act_take (hn : c.keys.Nodup) {i : Nat} {e : ItemKey × Action} {m : Mutation}
    (he : queue[i]? = some e) (hm : (queue.foldl act (start c links)).log[i]? = some m) :
    (((queue.take i).foldl act (start c links)).act e).log =
      ((queue.take i).foldl act (start c links)).log ++ [m] := by
  obtain ⟨hi, rfl⟩ := List.getElem?_eq_some_iff.1 he
  have hlength := length_log_take hn links hi
  have hnodup := nodup_foldl (r := start c links) hn (queue.take i)
  obtain ⟨m', hm'⟩ := moves_act hnodup queue[i]
  obtain ⟨more, hmore, -⟩ := moves_foldl (queue.drop (i + 1)) (nodup_act hnodup queue[i])
  have hqueue : queue = queue.take i ++ queue[i] :: queue.drop (i + 1) := by
    rw [List.getElem_cons_drop, List.take_append_drop]
  rw [hqueue, List.foldl_append, List.foldl_cons, hmore, hm'.log, List.append_assoc,
    List.getElem?_append_right (Nat.le_of_eq hlength), hlength, Nat.sub_self] at hm
  rw [hm'.log, Option.some.inj hm]

/-- An entry for a renaming answers an action in the same place of the queue. -/
theorem exists_of_log_renamed (hn : c.keys.Nodup) {attributes : List (String × String)} {i : Nat}
    {k new : ItemKey} {n : Nat}
    (h : (run c links queue attributes).log[i]? = some (.renamed k new n)) :
    ∃ a name, queue[i]? = some (k, a) ∧ a.newName? = some name ∧ new = k.renamed name ∧
      (((queue.take i).foldl act (start c links)).act (k, a)).log =
        ((queue.take i).foldl act (start c links)).log ++ [.renamed k new n] := by
  obtain ⟨notes, hrun, hnotes⟩ := log_run hn links queue attributes
  rw [hrun, List.getElem?_append] at h
  split at h
  · obtain ⟨⟨k', a⟩, he, hrec⟩ := getElem?_of_forall₂ (records_foldl hn links queue) h
    have hlog := log_act_take hn he h
    cases hrec with
    | renamed _ ha => exact ⟨a, _, he, ha, rfl, hlog⟩
  · obtain ⟨k', line, hk⟩ := hnotes _ (List.mem_of_getElem? h)
    cases hk

end Replay

namespace Session

/-- The replay of the first actions of the queue. -/
def replayTo (s : Session) (i : Nat) : Replay :=
  (s.queue.take i).foldl Replay.act (Replay.start s.pristine s.links)

theorem replayTo_succ {s : Session} {i : Nat} {e : ItemKey × Action} (h : s.queue[i]? = some e) :
    s.replayTo (i + 1) = (s.replayTo i).act e := by
  rw [replayTo, List.take_add_one, h, List.foldl_append]
  rfl

/-- A renaming to another name that the log of a session tells of has retyped the columns in its scope,
as many as the log says, and no others; the relations of all fragments followed by a renaming of the only
item of its name leave no column that names it. -/
theorem repaired_of_renamed {c : Catalog} {s : Session} {i : Nat} {k new : ItemKey} {n : Nat}
    (hc : c.Kept) (hs : Over c s) (hlog : s.replay.current.log[i]? = some (.renamed k new n))
    (hid : IsIdentifier new.name) (hne : new.name ≠ k.name) :
    ∃ a, s.queue[i]? = some (k, a) ∧ a.newName? = some new.name ∧ new = k.renamed new.name ∧
      Catalog.Repaired k a new.name n (s.replayTo i).catalog (s.replayTo (i + 1)).catalog := by
  have hn : s.pristine.keys.Nodup := by
    rw [(hs.sound hc.wellKeyed).pristine]
    exact hc.wellKeyed.distinct
  obtain ⟨a, name, hqueue, ha, rfl, hact⟩ := Replay.exists_of_log_renamed hn hlog
  refine ⟨a, hqueue, ha, rfl, ?_⟩
  rw [replayTo_succ hqueue]
  exact Replay.repaired_act (Replay.nodup_foldl hn _) ha hid hne hact

def befriended : List Fragment :=
  [⟨"base", "generator g \x7b\n\x7d\ndatasource d \x7b\n\x7d"⟩,
    ⟨"f", "model User \x7b\n  friends User[]\n\x7d"⟩,
    ⟨"g", "model Post \x7b\n  author User? @relation(fields: [a])\n\x7d"⟩,
    ⟨"h", "model User \x7b\n  id Int\n\x7d\nmodel Note \x7b\n  by User\n\x7d"⟩]

def befriendedCatalog : Catalog :=
  { base := "base", generator := "generator g \x7b\n\x7d", datasource := "datasource d \x7b\n\x7d",
    files := ["base", "f", "g", "h"],
    models := [
      ⟨⟨"f", "User"⟩, [⟨"friends", "User[]", []⟩], 1⟩,
      ⟨⟨"g", "Post"⟩, [⟨"author", "User?", ["@relation(fields: [a])"]⟩], 1⟩,
      ⟨⟨"h", "User"⟩, [⟨"id", "Int", []⟩], 1⟩,
      ⟨⟨"h", "Note"⟩, [⟨"by", "User", []⟩], 4⟩],
    enums := [] }

theorem load_befriended : Catalog.ofFragments (fun _ => false) befriended = .ok befriendedCatalog := by
  decide +kernel

/-- A user is renamed with all its relations. Its own fragment and one that only refers to it follow; a
fragment with a user of its own does not. -/
def befriendedSession : Session :=
  ((Session.new befriendedCatalog).suggest ⟨"h", "Tag"⟩ (.skip .enum)).suggest ⟨"f", "User"⟩
    (.renameAll "Article" .model)

theorem repaired_of_renamed_befriended :
    Catalog.ofFragments (fun _ => false) befriended = .ok befriendedCatalog ∧
      befriendedSession.replay.current.log =
        [.absent ⟨"h", "Tag"⟩ (.skip .enum), .renamed ⟨"f", "User"⟩ ⟨"f", "Article"⟩ 2] ∧
      Catalog.Repaired ⟨"f", "User"⟩ (.renameAll "Article" .model) "Article" 2 befriendedCatalog
        { befriendedCatalog with
          models := [
            ⟨⟨"f", "Article"⟩, [⟨"friends", "Article[]", []⟩], 1⟩,
            ⟨⟨"g", "Post"⟩, [⟨"author", "Article?", ["@relation(fields: [a])"]⟩], 1⟩,
            ⟨⟨"h", "User"⟩, [⟨"id", "Int", []⟩], 1⟩,
            ⟨⟨"h", "Note"⟩, [⟨"by", "User", []⟩], 4⟩] } := by
  have hs : Over befriendedCatalog befriendedSession := .suggest _ _ (.suggest _ _ .new)
  have hlog : befriendedSession.replay.current.log[1]? = some (.renamed ⟨"f", "User"⟩ ⟨"f", "Article"⟩ 2) :=
    rfl
  obtain ⟨a, hqueue, -, -, h⟩ :=
    repaired_of_renamed (.loaded load_befriended) hs hlog isIdentifier_article (by decide)
  obtain rfl : Action.renameAll "Article" .model = a := congrArg Prod.snd (Option.some.inj hqueue)
  exact ⟨load_befriended, rfl, h⟩

end Session

end FragmentMerge
