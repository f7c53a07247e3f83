import FragmentMerge.Schema.Block
import FragmentMerge.Proofs.Text.Lines

/-! Headers of blocks. A header is a keyword, a gap, a name and perhaps more space before its brace; it
is read back from its own text, whatever stands behind. A body that was found is found again before any
other text, and lines that leave mode and nesting of the scanner as they are can stand in a body in any
number. -/

namespace FragmentMerge.Block

def IsName (name : List Char) : Prop :=
  (∃ n ns, name = n :: ns ∧ isNameStart n = true) ∧ ∀ c ∈ name, isNameChar c = true

structure Pieces (keyword gap name space : List Char) : Prop where
  keyword : keyword ≠ [] ∧ ∀ c ∈ keyword, isKeywordChar c = true
  gap : gap ≠ [] ∧ ∀ c ∈ gap, isSpace c = true
  name : IsName name
  space : ∀ c ∈ space, isSpace c = true

theorem not_keyword_of_space {c : Char} (h : isSpace c = true) : isKeywordChar c = false := by
  simp only [isSpace, Bool.or_eq_true, beq_iff_eq] at h
  rcases h with rfl | rfl <;> decide

theorem not_name_of_space {c : Char} (h : isSpace c = true) : isNameChar c = false := by
  simp only [isSpace, Bool.or_eq_true, beq_iff_eq] at h
  rcases h with rfl | rfl <;> decide

theorem not_space_of_name {c : Char} (h : isNameChar c = true) : isSpace c = false := by
  rw [← Bool.not_eq_true]
  intro hs
  rw [not_name_of_space hs] at h
  cases h

theorem name_of_start {c : Char} (h : isNameStart c = true) : isNameChar c = true := by
  simp [isNameChar, h]

theorem header?_pieces {keyword gap name space : List Char} (h : Pieces keyword gap name space)
    (rest : List Char) :
    header? (keyword ++ (gap ++ (name ++ (space ++ '\x7b' :: rest)))) =
      some ⟨keyword, name, keyword ++ gap ++ name ++ space ++ ['\x7b'], rest⟩ := by
  obtain ⟨k, ks, rfl⟩ := List.exists_cons_of_ne_nil h.keyword.1
  obtain ⟨g, gs, rfl⟩ := List.exists_cons_of_ne_nil h.gap.1
  obtain ⟨⟨n, ns, rfl, hstart⟩, hname⟩ := h.name
  have hkeyword := h.keyword.2
  have hgap := h.gap.2
  have hk : isSpace k = false := not_space_of_name (name_of_start (by
    simp [isNameStart, hkeyword k List.mem_cons_self]))
  have hindent : ((k :: ks) ++ ((g :: gs) ++ ((n :: ns) ++ (space ++ '\x7b' :: rest)))).dropWhile isSpace =
      (k :: ks) ++ ((g :: gs) ++ ((n :: ns) ++ (space ++ '\x7b' :: rest))) := by
    simp [hk]
  have h₁ := Text.takeWhile_append_of_stop (r := (g :: gs) ++ ((n :: ns) ++ (space ++ '\x7b' :: rest)))
    hkeyword fun c hc => not_keyword_of_space (hgap c (by simp_all))
  have h₂ := Text.takeWhile_append_of_stop (r := (n :: ns) ++ (space ++ '\x7b' :: rest)) hgap
    fun c hc => not_space_of_name (hname c (by simp_all))
  have h₃ : ((n :: ns) ++ (space ++ '\x7b' :: rest)).takeWhile isNameChar = n :: ns := by
    refine Text.takeWhile_append_of_stop hname fun c hc => ?_
    cases space with
    | nil =>
      obtain rfl : '\x7b' = c := by simpa using hc
      decide
    | cons d ds =>
      obtain rfl : d = c := by simpa using hc
      exact not_name_of_space (h.space d List.mem_cons_self)
  have h₄ := Text.takeWhile_append_of_stop (r := '\x7b' :: rest) h.space fun c hc => by
    obtain rfl : '\x7b' = c := by simpa using hc
    decide
  simp only [header?, hindent, h₁, List.drop_left, h₂, h₃, h₄]
  simp [hstart]

theorem takeWhile_cut (p : Char → Bool) (l : List Char) :
    (∀ c ∈ l.takeWhile p, p c = true) ∧ l.takeWhile p ++ l.drop (l.takeWhile p).length = l :=
  ⟨List.all_eq_true.1 List.all_takeWhile, List.prefix_iff_eq_append.1 (List.takeWhile_prefix p)⟩

theorem header?_eq_some {s : List Char} {h : Header} (hs : header? s = some h) :
    ∃ indent gap space, Pieces h.keyword gap h.name space ∧ (∀ c ∈ indent, isSpace c = true) ∧
      h.text = h.keyword ++ gap ++ h.name ++ space ++ ['\x7b'] ∧
      s = indent ++ (h.keyword ++ (gap ++ (h.name ++ (space ++ '\x7b' :: h.rest)))) := by
  unfold header? at hs
  dsimp only at hs
  have hindent : s.takeWhile isSpace ++ s.dropWhile isSpace = s := List.takeWhile_append_dropWhile
  generalize s.dropWhile isSpace = r₀ at hs hindent
  obtain ⟨hkeyword, hr₀⟩ := takeWhile_cut isKeywordChar r₀
  generalize r₀.takeWhile isKeywordChar = keyword at hs hkeyword hr₀
  generalize r₀.drop keyword.length = r₁ at hs hr₀
  obtain ⟨hgap, hr₁⟩ := takeWhile_cut isSpace r₁
  generalize r₁.takeWhile isSpace = gap at hs hgap hr₁
  generalize r₁.drop gap.length = r₂ at hs hr₁
  obtain ⟨hname, hr₂⟩ := takeWhile_cut isNameChar r₂
  generalize r₂.takeWhile isNameChar = name at hs hname hr₂
  generalize r₂.drop name.length = r₃ at hs hr₂
  obtain ⟨hspace, hr₃⟩ := takeWhile_cut isSpace r₃
  generalize r₃.takeWhile isSpace = space at hs hspace hr₃
  generalize r₃.drop space.length = r₄ at hs hr₃
  split at hs
  · next n ns rest =>
    split at hs
    · cases hs
    · next hne =>
      simp only [Bool.or_eq_true, Bool.not_eq_true', not_or, List.isEmpty_iff, Bool.not_eq_false] at hne
      obtain rfl := Option.some.inj hs
      refine ⟨s.takeWhile isSpace, gap, space, ⟨⟨hne.1.1, hkeyword⟩, ⟨hne.1.2, hgap⟩,
        ⟨⟨n, ns, rfl, hne.2⟩, hname⟩, hspace⟩, (takeWhile_cut isSpace s).1, rfl, ?_⟩
      rw [hr₃, hr₂, hr₁, hr₀, hindent]
  · cases hs

theorem header?_text {s : List Char} {h : Header} (hs : header? s = some h) (tail : List Char) :
    header? (h.text ++ tail) = some { h with rest := tail } := by
  obtain ⟨indent, gap, space, hp, -, ht, -⟩ := header?_eq_some hs
  have := header?_pieces hp tail
  rw [← ht] at this
  rw [← this, ht]
  simp

/-- No header starts with a character that is neither space nor a letter. -/
theorem header?_eq_none {c : Char} {s : List Char} (hs : isSpace c = false) (hk : isKeywordChar c = false) :
    header? (c :: s) = none := by
  unfold header?
  dsimp only
  rw [List.dropWhile_cons_of_neg (by simp [hs]), List.takeWhile_cons_of_neg (by simp [hk])]
  split
  · rfl
  · rfl

/-- Mode and nesting after a text; none when the nesting ends inside it. -/
def scanThrough (mode : Mode) (depth : Nat) : List Char → Option (Mode × Nat)
  | [] => some (mode, depth)
  | c :: s =>
    let after := scanStep mode depth c s.head?
    if after.2 = 0 then none else scanThrough after.1 after.2 s

/-- A line that leaves the scanner as it was, one brace deep and outside of quotes. -/
def SelfContained (line : String) : Prop :=
  scanThrough .code 1 (line.toList ++ ['\n']) = some (.code, 1)

instance (line : String) : Decidable (SelfContained line) :=
  inferInstanceAs (Decidable (_ = _))

theorem scanStep_eq_zero {mode : Mode} {depth : Nat} {c : Char} {next : Option Char} (hd : 0 < depth)
    (h : (scanStep mode depth c next).2 = 0) : mode = .code ∧ depth = 1 ∧ c = '\x7d' := by
  cases mode with
  | escape => simp only [scanStep] at h; omega
  | quote => simp only [scanStep] at h; omega
  | comment => simp only [scanStep] at h; omega
  | code =>
    simp only [scanStep] at h
    split at h
    · omega
    · split at h
      · omega
      · split at h
        · omega
        · split at h
          · next hc => exact ⟨rfl, by dsimp only at h; omega, hc⟩
          · omega

theorem scanBody_close (s : List Char) : scanBody .code 1 ('\x7d' :: s) = some ([], s) := by
  simp [scanBody, scanStep]

theorem scanBody_again {mode : Mode} {depth : Nat} {s body rest : List Char} (hd : 0 < depth)
    (h : scanBody mode depth s = some (body, rest)) :
    s = body ++ '\x7d' :: rest ∧
      ∀ tail, scanBody mode depth (body ++ '\x7d' :: tail) = some (body, tail) := by
  induction s generalizing mode depth body with
  | nil => cases h
  | cons c s ih =>
    rw [scanBody] at h
    dsimp only at h
    split at h
    · next hz =>
      obtain ⟨rfl, rfl, rfl⟩ := scanStep_eq_zero hd hz
      obtain ⟨rfl, rfl⟩ := Prod.mk.inj (Option.some.inj h)
      exact ⟨rfl, fun tail => scanBody_close tail⟩
    · next hz =>
      obtain ⟨⟨b, r⟩, hb, he⟩ := Option.map_eq_some_iff.1 h
      obtain ⟨rfl, rfl⟩ := Prod.mk.inj he
      obtain ⟨rfl, htail⟩ := ih (Nat.pos_of_ne_zero hz) hb
      refine ⟨rfl, fun tail => ?_⟩
      have hhead : (b ++ '\x7d' :: tail).head? = (b ++ '\x7d' :: r).head? := by cases b <;> rfl
      rw [List.cons_append, scanBody]
      dsimp only
      rw [hhead, if_neg hz, htail tail]
      rfl

theorem scanStep_newline (mode : Mode) (depth : Nat) (next : Option Char) :
    scanStep mode depth '\n' next = scanStep mode depth '\n' none := by
  cases mode <;> simp [scanStep]

theorem scanBody_through {mode mode' : Mode} {depth depth' : Nat} {l : List Char}
    (h : scanThrough mode depth (l ++ ['\n']) = some (mode', depth')) (s : List Char) :
    scanBody mode depth (l ++ '\n' :: s) =
      (scanBody mode' depth' s).map fun (body, rest) => (l ++ '\n' :: body, rest) := by
  induction l generalizing mode depth with
  | nil =>
    simp only [List.nil_append, scanThrough, List.head?_nil, scanBody, scanStep_newline] at h ⊢
    by_cases hz : (scanStep mode depth '\n' none).2 = 0
    · simp [hz] at h
    · simp only [hz, if_false, Option.some.injEq, Prod.mk.injEq] at h ⊢
      rw [h.1, h.2]
  | cons c l ih =>
    have hhead : (l ++ '\n' :: s).head? = (l ++ ['\n']).head? := by cases l <;> rfl
    rw [List.cons_append, scanThrough] at h
    rw [List.cons_append, scanBody]
    dsimp only at h ⊢
    rw [hhead]
    split at h
    · cases h
    · next hz =>
      rw [if_neg hz, ih h, Option.map_map]
      rfl

theorem scanBody_blank (s : List Char) :
    scanBody .code 1 (' ' :: s) = (scanBody .code 1 s).map fun (body, rest) => (' ' :: body, rest) := by
  simp [scanBody, scanStep]

def indentedChars (lines : List String) : List Char :=
  lines.flatMap fun l => ' ' :: ' ' :: (l.toList ++ ['\n'])

theorem scanBody_indented {lines : List String} (h : ∀ l ∈ lines, SelfContained l) (tail : List Char) :
    scanBody .code 1 (indentedChars lines ++ '\x7d' :: tail) = some (indentedChars lines, tail) := by
  induction lines with
  | nil => exact scanBody_close tail
  | cons l lines ih =>
    have hl : scanThrough .code 1 (l.toList ++ ['\n']) = some (.code, 1) := h l List.mem_cons_self
    have hrest := ih fun x hx => h x (List.mem_cons_of_mem _ hx)
    have hsplit : indentedChars (l :: lines) = ' ' :: ' ' :: (l.toList ++ '\n' :: indentedChars lines) := by
      simp [indentedChars]
    rw [hsplit, List.cons_append, List.cons_append, List.append_assoc, List.cons_append,
      scanBody_blank, scanBody_blank, scanBody_through hl, hrest]
    rfl

end FragmentMerge.Block
