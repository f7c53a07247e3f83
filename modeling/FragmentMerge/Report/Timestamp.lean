/-! Timestamps: an instant, given in nanoseconds since the start of 1970, as a date, a time of day and
a fraction of a second. Years have twelve months from March on, so that the leap day comes last. -/

namespace FragmentMerge.Timestamp

structure Date where
  year : Nat
  month : Nat
  day : Nat
  deriving DecidableEq, Repr

/-- Days from the first of March of the year 0 to the start of 1970. -/
def epochDay : Nat := 719468

/-- The year in its era of 400 years, and the day of that year, counted from March. -/
def yearOfEra (day : Nat) : Nat × Nat :=
  let year := (day - day / 1460 + day / 36524 - day / 146096) / 365
  (year, day - (365 * year + year / 4 - year / 100))

def dateOf (day : Nat) : Date :=
  let n := day + epochDay
  let (year, rest) := yearOfEra (n % 146097)
  let shifted := (5 * rest + 2) / 153
  let month := if shifted < 10 then shifted + 3 else shifted - 9
  ⟨400 * (n / 146097) + year + (if month ≤ 2 then 1 else 0), month,
    rest - (153 * shifted + 2) / 5 + 1⟩

def padded (width n : Nat) : String :=
  let digits := toString n
  "".pushn '0' (width - digits.length) ++ digits

/-- The fraction of a second in three, six or nine digits, as few as will do. -/
def fraction (nanos : Nat) : String :=
  if nanos = 0 then ""
  else if nanos % 1000000 = 0 then "." ++ padded 3 (nanos / 1000000)
  else if nanos % 1000 = 0 then "." ++ padded 6 (nanos / 1000)
  else "." ++ padded 9 nanos

def dateText (d : Date) : String := s!"{padded 4 d.year}-{padded 2 d.month}-{padded 2 d.day}"

def clockText (seconds : Nat) : String :=
  s!"{padded 2 (seconds / 3600)}:{padded 2 (seconds / 60 % 60)}:{padded 2 (seconds % 60)}"

def text (nanos : Nat) : String :=
  let seconds := nanos / 1000000000
  dateText (dateOf (seconds / 86400)) ++ "T" ++ clockText (seconds % 86400) ++
    fraction (nanos % 1000000000) ++ "+00:00"

end FragmentMerge.Timestamp
