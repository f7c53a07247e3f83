import FragmentMerge.Toml.Writer
import FragmentMerge.Proofs.Text.Lines

/-! Written words are read back: quoted texts, keys, numbers and truth values. A text in quotes ends at
its own last quote, and a word ends where no character of a word follows. A number is not the start of a
date or a time, which have a mark of their own behind their first digits. -/

namespace FragmentMerge.Toml

open Text

/-- What may follow a value on its line: nothing that could still belong to a word or a string. -/
def Ends (r : List Char) : Prop := ∀ c ∈ r.head?, isWordChar c = false ∧ c ≠ '"'

theorem Ends.cons {c : Char} (h : isWordChar c = false ∧ c ≠ '"') (r : List Char) : Ends (c :: r) := by
  intro d hd
  cases hd
  exact h

theorem codePoint?_hex4 {c : Char} (h : isPrintable c = false) : codePoint? (hex4 c.toNat) = some c := by
  have hsmall : ∀ n < 128, codePoint? (hex4 n) = some (Char.ofNat n) := by decide
  have hlt : c.toNat < 128 := by
    simp only [isPrintable, Bool.or_eq_false_iff, decide_eq_false_iff_not] at h
    omega
  rw [hsmall _ hlt, Char.ofNat_toNat]

theorem basic?_escaped_cons (n : Nat) (c : Char) (s : List Char) :
    basic? (n + 1) (escaped c ++ s) = (basic? n s).map fun (t, r) => (c :: t, r) := by
  unfold escaped
  split
  · rfl
  · rfl
  · rfl
  · rfl
  · rfl
  · next hquote hslash hn hr ht =>
    split
    · next hp =>
      rw [List.singleton_append, basic?, if_neg hquote, if_neg hslash, if_pos hp]
    · next hp =>
      have hc := codePoint?_hex4 (Bool.eq_false_iff.2 hp)
      have hescape : escape? ('u' :: (hex4 c.toNat ++ s)) = some (c, s) := by
        have hlen : (hex4 c.toNat).length = 4 := rfl
        rw [escape?, if_neg (by rw [List.length_append]; omega), List.take_left' hlen, List.drop_left' hlen,
          hc]
        rfl
      rw [List.cons_append, List.cons_append, basic?, if_neg (by decide), if_pos rfl, hescape]

theorem basic?_escaped {n : Nat} {cs : List Char} (h : cs.length < n) (r : List Char) :
    basic? n (cs.flatMap escaped ++ '"' :: r) = some (cs, r) := by
  induction cs generalizing n with
  | nil =>
    obtain ⟨n, rfl⟩ := Nat.exists_eq_add_of_lt h
    rw [List.flatMap_nil, List.nil_append, basic?, if_pos rfl]
  | cons c cs ih =>
    cases n with
    | zero => exact absurd h (Nat.not_lt_zero _)
    | succ n =>
      rw [List.flatMap_cons, List.append_assoc, basic?_escaped_cons, ih (Nat.lt_of_succ_lt_succ h)]
      rfl

theorem escaped_cases (c : Char) : ∃ d s, escaped c = d :: s ∧ d ≠ '"' := by
  unfold escaped
  split
  · exact ⟨_, _, rfl, by decide⟩
  · exact ⟨_, _, rfl, by decide⟩
  · exact ⟨_, _, rfl, by decide⟩
  · exact ⟨_, _, rfl, by decide⟩
  · exact ⟨_, _, rfl, by decide⟩
  · next hquote _ _ _ _ =>
    split
    · exact ⟨_, _, rfl, hquote⟩
    · exact ⟨_, _, rfl, by decide⟩

theorem length_le_flatMap_escaped (cs : List Char) : cs.length ≤ (cs.flatMap escaped).length := by
  induction cs with
  | nil => exact Nat.le_refl _
  | cons c cs ih =>
    obtain ⟨d, s, hc, -⟩ := escaped_cases c
    rw [List.flatMap_cons, hc, List.length_append, List.length_cons, List.length_cons]
    omega

theorem toList_quote (s : String) : (quote s).toList = '"' :: (s.toList.flatMap escaped ++ ['"']) := by
  rw [quote, String.toList_ofList]

theorem string?_of_single {t : List Char} (h : ∀ u, t ≠ '"' :: '"' :: u) :
    string? ('"' :: t) = basic? (t.length + 2) t := by
  unfold string?
  split
  · next u heq => exact absurd (List.cons.inj heq).2 (h u)
  · next heq => cases heq
  · next heq =>
    cases heq
    rfl
  · next heq => cases heq
  · next _ _ hno _ => exact (hno t rfl).elim

theorem string?_quote {r : List Char} (hr : Ends r) (s : String) :
    string? ((quote s).toList ++ r) = some (s.toList, r) := by
  have hlen := length_le_flatMap_escaped s.toList
  rw [toList_quote, List.cons_append, List.append_assoc, List.singleton_append, string?_of_single]
  · refine basic?_escaped ?_ r
    rw [List.length_append]
    omega
  · -- an empty text is the only one with two quotes in a row, and then no third one follows
    intro u hu
    cases hs : s.toList with
    | nil =>
      rw [hs] at hu
      obtain rfl : r = '"' :: u := (List.cons.inj hu).2
      exact (hr '"' rfl).2 rfl
    | cons c cs =>
      obtain ⟨d, t, hd, hne⟩ := escaped_cases c
      rw [hs, List.flatMap_cons, hd] at hu
      exact hne (List.cons.inj hu).1

theorem isBare_of_bare {k : String} (h : (k.isEmpty || !k.toList.all isBare) = false) :
    k.toList ≠ [] ∧ ∀ c ∈ k.toList, isBare c = true := by
  simpa using h

theorem isBare_not_quote {c : Char} (h : isBare c = true) : c ≠ '"' ∧ c ≠ '\'' := by
  constructor <;> rintro rfl <;> exact absurd h (by decide)

theorem simpleKey?_of_quote (t : List Char) :
    simpleKey? ('"' :: t) = (basic? (t.length + 1) t).map fun (k, r) => (String.ofList k, r) := rfl

/-- A key is read up to the first character that cannot stand in a bare key. -/
theorem simpleKey?_writeKey {r : List Char} (hr : ∀ c, r.head? = some c → isBare c = false) (k : String) :
    simpleKey? ((writeKey k).toList ++ r) = some (k, r) := by
  rw [writeKey]
  split
  · have hlen := length_le_flatMap_escaped k.toList
    rw [toList_quote, List.cons_append, List.append_assoc, List.singleton_append, simpleKey?_of_quote,
      basic?_escaped (by rw [List.length_append]; omega)]
    simp
  · next hbare =>
    obtain ⟨hne, hall⟩ := isBare_of_bare (Bool.eq_false_iff.2 hbare)
    obtain ⟨c, cs, hc⟩ := List.exists_cons_of_ne_nil hne
    obtain ⟨hquote, hsingle⟩ := isBare_not_quote (hall c (hc ▸ List.mem_cons_self))
    have htake := takeWhile_append_of_stop hall hr
    unfold simpleKey?
    split
    · next heq =>
      rw [hc] at heq
      exact absurd (List.cons.inj heq).1 hquote
    · next heq =>
      rw [hc] at heq
      exact absurd (List.cons.inj heq).1 hsingle
    · dsimp only
      rw [htake, if_neg (by simpa using hne), List.drop_left, String.ofList_toList]

theorem isDigit_eq (c : Char) : isDigit c = c.isDigit := rfl

theorem isDigit_of_mem_toDigits {n : Nat} {c : Char} (h : c ∈ Nat.toDigits 10 n) : isDigit c = true :=
  Nat.isDigit_of_mem_toDigits (by decide) (by decide) h

theorem digitValue_of_isDigit {c : Char} (h : isDigit c = true) :
    digitValue c = c.toNat - 48 ∧ digitValue c < 10 := by
  have hval : digitValue c = c.toNat - 48 := by rw [digitValue, if_pos h]
  have hle : c.toNat ≤ 57 := by
    rw [isDigit, Bool.and_eq_true, decide_eq_true_eq, decide_eq_true_eq] at h
    exact h.2
  exact ⟨hval, by omega⟩

theorem isWordChar_of_isDigit {c : Char} (h : isDigit c = true) : isWordChar c = true := by
  have halnum : c.isAlphanum = true := by
    rw [Char.isAlphanum, ← isDigit_eq, h, Bool.or_true]
  rw [isWordChar, halnum]
  rfl

theorem foldl_digitValue {ds : List Char} (h : ∀ c ∈ ds, isDigit c = true) (n : Nat) :
    ds.foldl (fun n c => n * 10 + digitValue c) n = Nat.ofDigitChars 10 ds n := by
  induction ds generalizing n with
  | nil => rw [List.foldl_nil, Nat.ofDigitChars_nil]
  | cons c ds ih =>
    rw [List.foldl_cons, ih fun d hd => h d (List.mem_cons_of_mem _ hd), Nat.ofDigitChars_cons,
      (digitValue_of_isDigit (h c List.mem_cons_self)).1, Nat.mul_comm]
    rfl

theorem any_toDigits (n : Nat) : (Nat.toDigits 10 n).any (fun c => decide (10 ≤ digitValue c)) = false := by
  rw [List.any_eq_false]
  intro c hc
  have hlt := (digitValue_of_isDigit (isDigit_of_mem_toDigits hc)).2
  simpa using hlt

theorem number?_toDigits (n : Nat) : number? 10 (Nat.toDigits 10 n) = some n := by
  rw [number?, any_toDigits, Bool.or_false, if_neg (by simp [Nat.toDigits_ne_nil]),
    foldl_digitValue fun c hc => isDigit_of_mem_toDigits hc, Nat.ofDigitChars_ten_toDigits]

theorem toDigits_eq_zero_cons {n : Nat} {ds : List Char} (h : Nat.toDigits 10 n = '0' :: ds) : ds = [] := by
  induction n using Nat.strongRecOn generalizing ds with
  | ind n ih =>
    by_cases hn : n < 10
    · rw [Nat.toDigits_of_lt_base hn] at h
      exact (List.cons.inj h).2.symm
    · rw [Nat.toDigits_of_base_le (by decide) (Nat.not_lt.1 hn)] at h
      obtain ⟨c, cs, hc⟩ := List.exists_cons_of_ne_nil (Nat.toDigits_ne_nil (n := n / 10) (b := 10))
      rw [hc, List.cons_append] at h
      obtain rfl := (List.cons.inj h).1
      -- the digits of a tenth would be a single zero
      obtain rfl := ih (n / 10) (by omega) hc
      have hzero := Nat.ofDigitChars_ten_toDigits (n := n / 10)
      rw [hc] at hzero
      have : Nat.ofDigitChars 10 ['0'] 0 = 0 := by decide
      omega

theorem grouped?_toDigits (n : Nat) : grouped? 10 (Nat.toDigits 10 n) = some (Nat.toDigits 10 n) := by
  have hsplit : (Nat.toDigits 10 n).splitOn '_' = [Nat.toDigits 10 n] :=
    List.splitOn_eq_singleton Nat.underscore_not_in_toDigits
  rw [grouped?, hsplit]
  simp [any_toDigits, Nat.toDigits_ne_nil]

theorem decimal?_toDigits (n : Nat) : decimal? (Nat.toDigits 10 n) = some (Nat.toDigits 10 n) := by
  rw [decimal?, grouped?_toDigits]
  split
  · next heq =>
    have hzero := toDigits_eq_zero_cons (Option.some.inj heq)
    cases hzero
  · rfl

def numeral (i : Int) : List Char :=
  if i < 0 then '-' :: Nat.toDigits 10 i.natAbs else Nat.toDigits 10 i.natAbs

theorem toList_toString (i : Int) : (toString i).toList = numeral i := by
  cases i with
  | ofNat n =>
    rw [numeral, if_neg (by simp)]
    exact Nat.toList_repr
  | negSucc n =>
    rw [numeral, if_pos (Int.negSucc_lt_zero n)]
    exact (String.toList_append ..).trans (congrArg ('-' :: ·) Nat.toList_repr)

theorem splitSign_minus (s : List Char) : splitSign ('-' :: s) = (true, s) := rfl

theorem splitSign_toDigits (n : Nat) : splitSign (Nat.toDigits 10 n) = (false, Nat.toDigits 10 n) := by
  have hdigits : ∀ c ∈ Nat.toDigits 10 n, isDigit c = true := fun c hc => isDigit_of_mem_toDigits hc
  unfold splitSign
  split
  · next heq => exact absurd (hdigits '-' (heq ▸ List.mem_cons_self)) (by decide)
  · next heq => exact absurd (hdigits '+' (heq ▸ List.mem_cons_self)) (by decide)
  · rfl

/-- A number without a letter behind a leading zero is decimal. -/
theorem integer?_of_decimal {w : List Char} (h : ∀ c ∈ w, isDigit c = true ∨ c = '-') :
    integer? w = ((decimal? (splitSign w).2).bind (number? 10)).bind fun n =>
      inRange (if (splitSign w).1 then -n else n) := by
  have hletter : ∀ {d c s}, w = d :: c :: s → c ≠ 'x' ∧ c ≠ 'o' ∧ c ≠ 'b' := fun {d c s} hw => by
    have hc := h c (by simp [hw])
    refine ⟨?_, ?_, ?_⟩ <;> rintro rfl <;> exact absurd hc (by decide)
  unfold integer?
  split
  · exact absurd rfl (hletter rfl).1
  · exact absurd rfl (hletter rfl).2.1
  · exact absurd rfl (hletter rfl).2.2
  · rfl

theorem mem_numeral {i : Int} {c : Char} (h : c ∈ numeral i) : isDigit c = true ∨ c = '-' := by
  rw [numeral] at h
  split at h
  · rcases List.mem_cons.1 h with rfl | h
    · exact .inr rfl
    · exact .inl (isDigit_of_mem_toDigits h)
  · exact .inl (isDigit_of_mem_toDigits h)

theorem integer?_numeral {i : Int} (h : inRange i = some i) : integer? (numeral i) = some i := by
  rw [integer?_of_decimal fun c hc => mem_numeral hc]
  have hread : ((decimal? (Nat.toDigits 10 i.natAbs)).bind (number? 10)) = some i.natAbs := by
    rw [decimal?_toDigits, Option.bind_some, number?_toDigits]
  by_cases hi : i < 0
  · have hneg : (-(i.natAbs : Int)) = i := by omega
    rw [numeral, if_pos hi, splitSign_minus, hread, Option.bind_some, if_pos rfl, hneg, h]
  · have hpos : (i.natAbs : Int) = i := by omega
    rw [numeral, if_neg hi, splitSign_toDigits, hread, Option.bind_some, if_neg Bool.false_ne_true, hpos, h]

theorem field?_eq_some {n lo hi v : Nat} {s r : List Char} (h : field? n lo hi s = some (v, r)) :
    s = s.take n ++ r ∧ (s.take n).length = n ∧ ∀ c ∈ s.take n, isDigit c = true := by
  rw [field?] at h
  split at h
  · next hds =>
    rw [Bool.and_eq_true, decide_eq_true_eq, List.all_eq_true] at hds
    obtain ⟨x, -, hx⟩ := Option.bind_eq_some_iff.1 h
    split at hx
    · cases hx
      exact ⟨(List.take_append_drop n s).symm, hds⟩
    · cases hx
  · cases h

theorem expect?_eq_some {c : Char} {s r : List Char} (h : expect? c s = some r) : s = c :: r := by
  cases s with
  | nil => cases h
  | cons d s =>
    rw [expect?] at h
    split at h
    · next hc =>
      cases h
      rw [hc]
    · cases h

/-- A text with a field of digits and a mark behind it. -/
def Marked (n : Nat) (mark : Char) (s : List Char) : Prop :=
  ∃ ds r, s = ds ++ mark :: r ∧ ds.length = n ∧ ∀ c ∈ ds, isDigit c = true

theorem marked_of_field? {n lo hi v : Nat} {mark : Char} {s r r' : List Char}
    (h : field? n lo hi s = some (v, r)) (hmark : expect? mark r = some r') : Marked n mark s := by
  obtain ⟨hs, hlen, hdigits⟩ := field?_eq_some h
  rw [expect?_eq_some hmark] at hs
  exact ⟨_, _, hs, hlen, hdigits⟩

theorem date?_eq_none {s : List Char} (h : ¬ Marked 4 '-' s) : date? s = none := by
  unfold date?
  cases hy : field? 4 0 9999 s with
  | none => rfl
  | some p =>
    cases hmark : expect? '-' p.2 with
    | none => simp [hmark]
    | some r => exact absurd (marked_of_field? hy hmark) h

theorem time?_eq_none {s : List Char} (h : ¬ Marked 2 ':' s) : time? s = none := by
  unfold time?
  cases hh : field? 2 0 23 s with
  | none => rfl
  | some p =>
    cases hmark : expect? ':' p.2 with
    | none => simp [hmark]
    | some r => exact absurd (marked_of_field? hh hmark) h

theorem not_marked_numeral {n : Nat} {mark : Char} {r : List Char} (hn : n ≠ 0) (hmark : isDigit mark = false)
    (hword : isWordChar mark = true) (i : Int) (hr : Ends r) : ¬ Marked n mark (numeral i ++ r) := by
  rintro ⟨ds, r', h, rfl, hds⟩
  rw [numeral] at h
  split at h
  · cases ds with
    | nil => exact hn rfl
    | cons d ds =>
      have hd := hds d List.mem_cons_self
      rw [← (List.cons.inj h).1] at hd
      exact absurd hd (by decide)
  · -- both sides start with the same digits, so the mark would stand directly behind the number
    have hleft := congrArg (List.dropWhile isDigit) h
    have hstop : r.dropWhile isDigit = r := by
      cases r with
      | nil => rfl
      | cons c r =>
        have hc : isDigit c = false := by
          rw [← Bool.not_eq_true]
          intro hc
          have := (hr c rfl).1
          rw [isWordChar_of_isDigit hc] at this
          cases this
        rw [List.dropWhile_cons_of_neg (by simp [hc])]
    rw [List.dropWhile_append_of_pos fun c hc => isDigit_of_mem_toDigits hc, hstop,
      List.dropWhile_append_of_pos hds, List.dropWhile_cons_of_neg (by simp [hmark])] at hleft
    have hend := (hr mark (by rw [hleft]; rfl)).1
    rw [hword] at hend
    cases hend

theorem moment?_numeral (i : Int) {r : List Char} (hr : Ends r) : moment? (numeral i ++ r) = none := by
  rw [moment?, date?_eq_none (not_marked_numeral (by decide) (by decide) (by decide) i hr)]
  exact time?_eq_none (not_marked_numeral (by decide) (by decide) (by decide) i hr)

theorem isWordChar_of_mem_numeral {i : Int} {c : Char} (h : c ∈ numeral i) : isWordChar c = true := by
  rcases mem_numeral h with h | rfl
  · exact isWordChar_of_isDigit h
  · rfl

theorem scalar?_numeral {i : Int} (hi : inRange i = some i) {r : List Char} (hr : Ends r) :
    scalar? (numeral i ++ r) = some (.int i, r) := by
  have hword : (numeral i ++ r).takeWhile isWordChar = numeral i :=
    takeWhile_append_of_stop (fun c hc => isWordChar_of_mem_numeral hc) fun c hc => (hr c hc).1
  have hint := integer?_numeral hi
  have hne : ∀ w, integer? w = none → numeral i ≠ w := fun w hw h => by
    rw [h, hw] at hint
    cases hint
  rw [scalar?, hword, if_neg (hne _ (by decide)), if_neg (hne _ (by decide)), moment?_numeral i hr,
    List.drop_left, hint]

theorem scalar?_bool (b : Bool) {r : List Char} (hr : Ends r) :
    scalar? ((if b then "true" else "false").toList ++ r) = some (.bool b, r) := by
  have hword : ∀ w : List Char, w.all isWordChar = true → (w ++ r).takeWhile isWordChar = w :=
    fun w hw => takeWhile_append_of_stop (List.all_eq_true.1 hw) fun c hc => (hr c hc).1
  cases b with
  | true =>
    rw [if_pos rfl, scalar?, hword "true".toList (by decide), if_pos rfl, List.drop_left]
  | false =>
    rw [if_neg (by decide), scalar?, hword "false".toList (by decide), if_neg (by decide), if_pos rfl,
      List.drop_left]

end FragmentMerge.Toml
