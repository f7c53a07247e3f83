import FragmentMerge.Proofs.Schema.Header

/-! The blocks of a text, piece by piece. What a piece of whole lines adds to the blocks does not depend
on what follows it, so a document is read section by section. Lines of bodies are trimmed, so lines that
have been read, once written out with their indentation, are read again as they are. -/

namespace FragmentMerge.Block

/-- The block that starts a text, with the text behind it. -/
def block? (line : Nat) (s : List Char) : Option (Block × List Char) :=
  (header? s).bind fun h => (scanBody .code 1 h.rest).map fun (body, rest) =>
    (⟨String.ofList (h.keyword.map Char.toLower), String.ofList h.name, String.ofList body,
      String.ofList (h.text ++ body ++ ['\x7d']), line⟩, rest)

theorem block?_eq_some {line : Nat} {s rest : List Char} {b : Block}
    (h : block? line s = some (b, rest)) :
    ∃ hd body, header? s = some hd ∧ scanBody .code 1 hd.rest = some (body, rest) ∧
      b = ⟨String.ofList (hd.keyword.map Char.toLower), String.ofList hd.name, String.ofList body,
        String.ofList (hd.text ++ body ++ ['\x7d']), line⟩ := by
  obtain ⟨hd, hhd, h⟩ := Option.bind_eq_some_iff.1 h
  obtain ⟨⟨body, r⟩, hb, he⟩ := Option.map_eq_some_iff.1 h
  obtain ⟨rfl, rfl⟩ := Prod.mk.inj he
  exact ⟨hd, body, hhd, hb, rfl⟩

/-- A block is read back from its text. -/
theorem block?_again {line : Nat} {s rest : List Char} {b : Block}
    (h : block? line s = some (b, rest)) (line' : Nat) (tail : List Char) :
    block? line' (b.text.toList ++ tail) = some ({ b with line := line' }, tail) := by
  obtain ⟨hd, body, hhd, hb, rfl⟩ := block?_eq_some h
  have hbody := (scanBody_again Nat.one_pos hb).2 tail
  have hhead := header?_text hhd (body ++ '\x7d' :: tail)
  have htext : (String.ofList (hd.text ++ body ++ ['\x7d'])).toList ++ tail =
      hd.text ++ (body ++ '\x7d' :: tail) := by simp
  simp only [htext, block?, hhead, Option.bind_some, hbody, Option.map_some]

theorem length_nextLine {s r : List Char} (h : nextLine s = some r) : r.length < s.length := by
  induction s with
  | nil => cases h
  | cons c s ih =>
    rw [nextLine] at h
    split at h
    · rw [← Option.some.inj h]
      exact Nat.lt_succ_self _
    · exact Nat.lt_succ_of_lt (ih h)

theorem length_block? {line : Nat} {s rest : List Char} {b : Block}
    (h : block? line s = some (b, rest)) : rest.length < s.length := by
  obtain ⟨hd, body, hhd, hb, -⟩ := block?_eq_some h
  obtain ⟨indent, gap, space, -, -, -, hs⟩ := header?_eq_some hhd
  have hrest := (scanBody_again Nat.one_pos hb).1
  rw [hs, hrest]
  simp only [List.length_append, List.length_cons]
  omega

theorem extractWithin_succ (n line : Nat) (s : List Char) : extractWithin (n + 1) line s =
    match header? s with
    | none =>
      match nextLine s with
      | none => .ok []
      | some r => extractWithin n (line + 1) r
    | some h =>
      match block? line s with
      | none => .error ⟨String.ofList (h.keyword.map Char.toLower), String.ofList h.name, line⟩
      | some (b, rest) =>
        match nextLine rest with
        | none => .ok [b]
        | some r => (extractWithin n (line + Text.newlines b.body.toList + 1) r).map (b :: ·) := by
  rw [extractWithin, block?]
  cases header? s with
  | none => rfl
  | some h =>
    simp only [Option.bind_some]
    cases scanBody .code 1 h.rest with
    | none => rfl
    | some p =>
      rw [Option.map_some]
      cases hl : nextLine p.2 <;> simp only [hl, String.toList_ofList]

theorem extractWithin_fuel {n m line : Nat} {s : List Char} (hn : s.length < n) (hm : s.length < m) :
    extractWithin n line s = extractWithin m line s := by
  induction n generalizing m line s with
  | zero => omega
  | succ n ih =>
    obtain ⟨m, rfl⟩ : ∃ m', m = m' + 1 := ⟨m - 1, by omega⟩
    rw [extractWithin_succ, extractWithin_succ]
    cases header? s with
    | none =>
      cases hl : nextLine s with
      | none => rfl
      | some r =>
        have := length_nextLine hl
        exact ih (by omega) (by omega)
    | some h =>
      cases hb : block? line s with
      | none => rfl
      | some p =>
        obtain ⟨b, rest⟩ := p
        have hlen := length_block? hb
        cases hl : nextLine rest with
        | none => simp [hl]
        | some r =>
          have := length_nextLine hl
          simp only [hl]
          rw [ih (m := m) (by omega) (by omega)]

/-- The blocks from a line's start on. -/
def extractFrom (line : Nat) (s : List Char) : Except BlockError (List Block) :=
  extractWithin (s.length + 1) line s

theorem extract_eq (text : String) : extract text = extractFrom 1 text.toList := rfl

theorem extractFrom_nil (line : Nat) : extractFrom line [] = .ok [] := rfl

theorem extractFrom_line {line : Nat} {s r : List Char} (h : header? s = none)
    (hl : nextLine s = some r) : extractFrom line s = extractFrom (line + 1) r := by
  have := length_nextLine hl
  rw [extractFrom, extractWithin_succ, h]
  simp only [hl]
  exact extractWithin_fuel this (Nat.lt_succ_self _)

theorem extractFrom_block {line : Nat} {s rest r : List Char} {b : Block}
    (h : block? line s = some (b, rest)) (hl : nextLine rest = some r) :
    extractFrom line s = (extractFrom (line + Text.newlines b.body.toList + 1) r).map (b :: ·) := by
  obtain ⟨hd, body, hhd, -⟩ := block?_eq_some h
  have := length_block? h
  have := length_nextLine hl
  rw [extractFrom, extractWithin_succ, hhd]
  simp only [h, hl]
  rw [extractFrom, extractWithin_fuel (by omega) (Nat.lt_succ_self _)]

def Found (b : Block) : Prop := ∃ line s rest, block? line s = some (b, rest)

theorem Found.isName {b : Block} (h : b.Found) : IsName b.name.toList := by
  obtain ⟨line, s, rest, h⟩ := h
  obtain ⟨hd, body, hhd, -, rfl⟩ := block?_eq_some h
  obtain ⟨indent, gap, space, hp, -⟩ := header?_eq_some hhd
  rw [String.toList_ofList]
  exact hp.name

theorem found_of_extractWithin {n line : Nat} {s : List Char} {bs : List Block}
    (h : extractWithin n line s = .ok bs) : ∀ b ∈ bs, b.Found := by
  induction n generalizing line s bs with
  | zero =>
    obtain rfl := Except.ok.inj h
    simp
  | succ n ih =>
    rw [extractWithin_succ] at h
    split at h
    · split at h
      · obtain rfl := Except.ok.inj h
        simp
      · exact ih h
    · split at h
      · cases h
      · next b rest hb =>
        split at h
        · obtain rfl := Except.ok.inj h
          intro x hx
          rw [List.mem_singleton.1 hx]
          exact ⟨line, s, rest, hb⟩
        · next r _ =>
          cases hr : extractWithin n (line + Text.newlines b.body.toList + 1) r with
          | error e =>
            rw [hr] at h
            cases h
          | ok cs =>
            rw [hr] at h
            obtain rfl := Except.ok.inj h
            intro x hx
            rcases List.mem_cons.1 hx with rfl | hx
            · exact ⟨line, s, rest, hb⟩
            · exact ih hr x hx

theorem found_of_extract {text : String} {bs : List Block} (h : extract text = .ok bs) :
    ∀ b ∈ bs, b.Found :=
  found_of_extractWithin h

def unplaced (b : Block) : Block := { b with line := 0 }

/-- Before any other text the lines of `t` give the blocks `bs`, wherever they stand. -/
def Reads (t : List Char) (bs : List Block) : Prop :=
  ∀ line tail, ∃ line' bs', bs'.map unplaced = bs.map unplaced ∧
    extractFrom line (t ++ '\n' :: tail) = (extractFrom line' tail).map (bs' ++ ·)

theorem nextLine_of_line {t : List Char} (h : '\n' ∉ t) (tail : List Char) :
    nextLine (t ++ '\n' :: tail) = some tail := by
  induction t with
  | nil => rfl
  | cons c t ih =>
    rw [List.mem_cons, not_or] at h
    rw [List.cons_append, nextLine, if_neg fun hc => h.1 hc.symm]
    exact ih h.2

theorem reads_line {t : List Char} (h : '\n' ∉ t)
    (hnone : ∀ tail, header? (t ++ '\n' :: tail) = none) : Reads t [] := by
  intro line tail
  refine ⟨line + 1, [], rfl, ?_⟩
  rw [extractFrom_line (hnone tail) (nextLine_of_line h tail)]
  cases extractFrom (line + 1) tail <;> rfl

theorem reads_empty : Reads [] [] :=
  reads_line (by simp) fun tail => header?_eq_none (by decide) (by decide)

theorem reads_block {t : List Char} {b : Block}
    (h : ∀ line tail, block? line (t ++ tail) = some ({ b with line }, tail)) : Reads t [b] := by
  intro line tail
  have hb := extractFrom_block (h line ('\n' :: tail)) rfl
  exact ⟨line + Text.newlines b.body.toList + 1, [{ b with line }], rfl, hb⟩

theorem Reads.append {t u : List Char} {bs cs : List Block} (h : Reads t bs) (g : Reads u cs) :
    Reads (t ++ '\n' :: u) (bs ++ cs) := by
  intro line tail
  obtain ⟨line₁, bs', hbs, ht⟩ := h line (u ++ '\n' :: tail)
  obtain ⟨line₂, cs', hcs, hu⟩ := g line₁ tail
  refine ⟨line₂, bs' ++ cs', by rw [List.map_append, List.map_append, hbs, hcs], ?_⟩
  rw [List.append_assoc, List.cons_append, ht, hu]
  cases extractFrom line₂ tail with
  | error e => rfl
  | ok ds => simp [Except.map]

theorem Reads.extract {text : String} {t : List Char} {bs : List Block} (h : Reads t bs)
    (ht : text.toList = t ++ ['\n']) :
    ∃ bs', Block.extract text = .ok bs' ∧ bs'.map unplaced = bs.map unplaced := by
  obtain ⟨line, bs', hbs, he⟩ := h 1 []
  refine ⟨bs', ?_, hbs⟩
  rw [extract_eq, ht, he, extractFrom_nil]
  simp [Except.map]

end FragmentMerge.Block

namespace FragmentMerge

namespace Text

theorem trimLeft_of_head {s : List Char} (h : ∀ c, s.head? = some c → isBlank c = false) :
    trimLeft s = s := by
  cases s with
  | nil => rfl
  | cons c s => exact List.dropWhile_cons_of_neg (by simp [h c rfl])

theorem head_trimLeft {s : List Char} {c : Char} (h : (trimLeft s).head? = some c) :
    isBlank c = false := by
  have := List.head?_dropWhile_not isBlank s
  rw [trimLeft] at h
  rwa [h] at this

theorem prefix_trimRight (s : List Char) : trimRight s <+: s := by
  refine ⟨(s.reverse.takeWhile isBlank).reverse, ?_⟩
  rw [trimRight, ← List.reverse_append, List.takeWhile_append_dropWhile, List.reverse_reverse]

theorem trimRight_trimRight (s : List Char) : trimRight (trimRight s) = trimRight s := by
  have h : trimLeft (trimLeft s.reverse) = trimLeft s.reverse :=
    trimLeft_of_head fun c => head_trimLeft
  rw [trimRight, trimRight, List.reverse_reverse]
  exact congrArg List.reverse h

theorem trim_trim (s : List Char) : trim (trim s) = trim s := by
  have h : trimLeft (trim s) = trim s := by
    refine trimLeft_of_head fun c hc => ?_
    obtain ⟨t, ht⟩ := prefix_trimRight (trimLeft s)
    refine head_trimLeft (s := s) ?_
    rw [← ht, List.head?_append]
    exact (congrArg (·.or t.head?) hc).trans rfl
  rw [trim, h]
  exact trimRight_trimRight (trimLeft s)

theorem trim_indented (s : List Char) : trim (' ' :: ' ' :: s) = trim s := rfl

theorem trim_nil : trim [] = [] := rfl

end Text

namespace Block

theorem trim_of_mem_bodyLines {b : Block} {l : String} (h : l ∈ b.bodyLines) :
    Text.trim l.toList = l.toList := by
  obtain ⟨t, ht, rfl⟩ := List.mem_map.1 h
  obtain ⟨u, -, rfl⟩ := List.mem_map.1 (List.mem_filter.1 ht).1
  rw [String.toList_ofList]
  exact Text.trim_trim u

theorem lines_indented {lines : List String} (h : ∀ l ∈ lines, '\n' ∉ l.toList) :
    Text.lines ('\n' :: indentedChars lines) =
      [] :: lines.map (fun l => ' ' :: ' ' :: l.toList) ++ [[]] := by
  have hjoin : ['\n'].intercalate ([] :: lines.map (fun l => ' ' :: ' ' :: l.toList) ++ [[]]) =
      '\n' :: indentedChars lines := by
    have hrest : ∀ ls : List String, ['\n'].intercalate
        (ls.map (fun l => ' ' :: ' ' :: l.toList) ++ [[]]) = indentedChars ls := by
      intro ls
      induction ls with
      | nil => rfl
      | cons l ls ih =>
        rw [List.map_cons, List.cons_append, List.intercalate_cons_of_ne_nil (by simp), ih]
        simp [indentedChars]
    rw [List.cons_append, List.intercalate_cons_of_ne_nil (by simp), hrest]
    rfl
  rw [Text.lines, ← hjoin]
  refine List.splitOn_intercalate '\n' (fun l hl => ?_) (by simp)
  simp only [List.cons_append, List.mem_cons, List.mem_append, List.mem_map, List.not_mem_nil,
    or_false] at hl
  rcases hl with rfl | ⟨x, hx, rfl⟩ | rfl
  · simp
  · simpa using h x hx
  · simp

theorem bodyLines_indented {b : Block} {lines : List String}
    (hb : b.body = String.ofList ('\n' :: indentedChars lines))
    (hline : ∀ l ∈ lines, '\n' ∉ l.toList) (hblank : ∀ l ∈ lines, Text.trim l.toList ≠ []) :
    b.bodyLines = lines.map Text.trimmed := by
  have hkeep : (lines.map fun l => Text.trim l.toList).filter (fun t => !t.isEmpty) =
      lines.map fun l => Text.trim l.toList := by
    refine List.filter_eq_self.2 fun t ht => ?_
    obtain ⟨l, hl, rfl⟩ := List.mem_map.1 ht
    simpa using hblank l hl
  rw [bodyLines, hb, String.toList_ofList, lines_indented hline]
  simp only [List.map_cons, List.map_append, List.map_map, List.map_nil, List.filter_append,
    List.cons_append, List.filter_cons, Function.comp_def, Text.trim_indented, Text.trim_nil,
    List.isEmpty_nil, List.filter_nil, hkeep]
  simp [Text.trimmed, Function.comp_def]

end Block

end FragmentMerge
