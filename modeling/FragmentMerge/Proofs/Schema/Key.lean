import FragmentMerge.Proofs.Text.Find
import FragmentMerge.Schema.Key

/-! Written keys. A text is read as a key exactly if it is the text of this key and no separator in the key
stands where another one is looked for, so two texts are never read as one key. -/

namespace FragmentMerge

namespace ItemKey

/-- What a key has that can be told from its text. The fragment may hold colons. -/
structure IsReadable (k : ItemKey) : Prop where
  file : k.file ≠ ""
  name : k.name ≠ ""
  colon : ':' ∉ k.name.toList

theorem toList_text (k : ItemKey) : k.text.toList = k.file.toList ++ ':' :: k.name.toList := by
  simp [text]

/-- The last colon is the one behind the fragment. -/
theorem cutLast?_text {s : String} {k : ItemKey} :
    Text.cutLast? ':' s.toList = some (k.file.toList, k.name.toList) ↔
      k.text = s ∧ ':' ∉ k.name.toList := by
  rw [Text.cutLast?_eq_some_iff, ← toList_text, String.toList_inj, eq_comm]

theorem parse_eq_ok_iff {s : String} {k : ItemKey} :
    parse s = .ok k ↔ k.text = s ∧ k.IsReadable := by
  rw [parse]
  constructor
  · intro h
    split at h
    · cases h
    · next file name hcut =>
      split at h
      · cases h
      · next hne =>
        cases h
        obtain ⟨hfile, hname⟩ : file ≠ [] ∧ name ≠ [] := by simpa using hne
        obtain ⟨htext, hcolon⟩ := (cutLast?_text (k := ⟨.ofList file, .ofList name⟩)).1
          (by simpa using hcut)
        exact ⟨htext, by simpa using hfile, by simpa using hname, hcolon⟩
  · rintro ⟨htext, hfile, hname, hcolon⟩
    rw [cutLast?_text.2 ⟨htext, hcolon⟩]
    simp [hfile, hname]

end ItemKey

namespace ColumnKey

/-- What a key has that can be told from its text. The column may hold dots. -/
structure IsReadable (k : ColumnKey) : Prop where
  item : k.item.IsReadable
  column : k.column ≠ ""
  colon : ':' ∉ k.column.toList
  dot : '.' ∉ k.item.name.toList

def rest (k : ColumnKey) : List Char := k.item.name.toList ++ '.' :: k.column.toList

theorem cutLast?_text {s : String} {k : ColumnKey} :
    Text.cutLast? ':' s.toList = some (k.item.file.toList, k.rest) ↔
      k.text = s ∧ ':' ∉ k.item.name.toList ∧ ':' ∉ k.column.toList := by
  have htext : k.text.toList = k.item.file.toList ++ ':' :: k.rest := by
    simp [text, rest, ItemKey.toList_text]
  rw [Text.cutLast?_eq_some_iff, ← htext, String.toList_inj, eq_comm]
  simp [rest]

theorem parse_eq_ok_iff {s : String} {k : ColumnKey} :
    parse s = .ok k ↔ k.text = s ∧ k.IsReadable := by
  rw [parse]
  constructor
  · intro h
    -- the colon is sought from the end, and the dot from the start of what stands behind it
    split at h
    · cases h
    · next file rest hlast =>
      split at h
      · cases h
      · next name column hfirst =>
        split at h
        · cases h
        · next hne =>
          cases h
          obtain ⟨⟨hfile, hname⟩, hcolumn⟩ : (file ≠ [] ∧ name ≠ []) ∧ column ≠ [] := by
            simpa using hne
          obtain ⟨rfl, hdot⟩ := Text.cutFirst?_eq_some_iff.1 hfirst
          obtain ⟨htext, hcolon, hcolon'⟩ :=
            (cutLast?_text (k := ⟨⟨.ofList file, .ofList name⟩, .ofList column⟩)).1
              (by simpa [rest] using hlast)
          exact ⟨htext, ⟨by simpa using hfile, by simpa using hname, hcolon⟩, by simpa using hcolumn,
            hcolon', by simpa using hdot⟩
  · rintro ⟨htext, ⟨hfile, hname, hcolon⟩, hcolumn, hcolon', hdot⟩
    rw [cutLast?_text.2 ⟨htext, hcolon, hcolon'⟩]
    dsimp only
    rw [rest, Text.cutFirst?_eq_some_iff.2 ⟨rfl, hdot⟩]
    simp [hfile, hname, hcolumn]

end ColumnKey

/-- A key that is read from a text has this text, so different texts give different keys; and a key is
read back from its own text exactly if it has no empty part and no separator out of place. -/
theorem keys_read_as_written :
    (∀ s k, ItemKey.parse s = .ok k → k.text = s) ∧ (∀ s k, ColumnKey.parse s = .ok k → k.text = s) ∧
      (∀ s t k, ItemKey.parse s = .ok k → ItemKey.parse t = .ok k → s = t) ∧
      (∀ s t k, ColumnKey.parse s = .ok k → ColumnKey.parse t = .ok k → s = t) ∧
      (∀ k : ItemKey, ItemKey.parse k.text = .ok k ↔ k.IsReadable) ∧
      ∀ k : ColumnKey, ColumnKey.parse k.text = .ok k ↔ k.IsReadable := by
  have hitem : ∀ s k, ItemKey.parse s = .ok k → k.text = s := fun s k h =>
    (ItemKey.parse_eq_ok_iff.1 h).1
  have hcolumn : ∀ s k, ColumnKey.parse s = .ok k → k.text = s := fun s k h =>
    (ColumnKey.parse_eq_ok_iff.1 h).1
  refine ⟨hitem, hcolumn, fun s t k hs ht => ?_, fun s t k hs ht => ?_, fun k => ?_, fun k => ?_⟩
  · exact (hitem s k hs).symm.trans (hitem t k ht)
  · exact (hcolumn s k hs).symm.trans (hcolumn t k ht)
  · rw [ItemKey.parse_eq_ok_iff, and_iff_right rfl]
  · rw [ColumnKey.parse_eq_ok_iff, and_iff_right rfl]

/-- A fragment with a colon and a dot, and a column with a dot. -/
theorem keys_read_as_written_dotted :
    ItemKey.parse "c:/shop.prisma:User" = .ok ⟨"c:/shop.prisma", "User"⟩ ∧
      (⟨"c:/shop.prisma", "User"⟩ : ItemKey).text = "c:/shop.prisma:User" ∧
      ColumnKey.parse "c:/shop.prisma:User.meta.bio" = .ok ⟨⟨"c:/shop.prisma", "User"⟩, "meta.bio"⟩ ∧
      (⟨⟨"c:/shop.prisma", "User"⟩, "meta.bio"⟩ : ColumnKey).text = "c:/shop.prisma:User.meta.bio" := by
  obtain ⟨hitem, hcolumn, -, -, -, -⟩ := keys_read_as_written
  have hread : ItemKey.parse "c:/shop.prisma:User" = .ok ⟨"c:/shop.prisma", "User"⟩ := rfl
  have hread' : ColumnKey.parse "c:/shop.prisma:User.meta.bio" =
      .ok ⟨⟨"c:/shop.prisma", "User"⟩, "meta.bio"⟩ := rfl
  exact ⟨hread, hitem _ _ hread, hread', hcolumn _ _ hread'⟩

end FragmentMerge
