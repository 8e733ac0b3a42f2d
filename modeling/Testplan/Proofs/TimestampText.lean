import Mathlib.Algebra.Group.Nat.Defs
import Mathlib.Data.List.TakeWhile
import Testplan.Proofs.CalendarDates
/-!
# Instants are read as they are written

An instant is written as numbers with signs between them.  A number that stands before
something other than a digit, or that has as many digits as are read, is read as it was written
(`number?_digits`), so the parts of the date and of the clock are read one after the other, and
by `dateOf_spec` they make the instant (`parse?_render`).
-/
namespace Testplan.Timestamp

/-! ## Numbers -/

theorem isBlank_of_isDigit {c : Char} (h : c.isDigit = true) : Text.isBlank c = false := by
  obtain ⟨hlow, hhigh⟩ := Char.isDigit_iff_toNat.mp h
  have hlow : 48 ≤ c.toNat := hlow
  have hhigh : c.toNat ≤ 57 := hhigh
  simp only [Text.isBlank, Bool.or_eq_false_iff, Bool.and_eq_false_iff, decide_eq_false_iff_not,
    beq_eq_false_iff_ne]
  omega

/-- Nothing is skipped before a digit. -/
theorem skip_digits {ds : List Char} (hdigits : ∀ c ∈ ds, c.isDigit = true) (hne : ds ≠ [])
    (rest : List Char) : skip (ds ++ rest) = ds ++ rest := by
  cases ds with
  | nil => exact absurd rfl hne
  | cons c ds =>
    have hc := isBlank_of_isDigit (hdigits c List.mem_cons_self)
    rw [skip, List.cons_append, List.dropWhile_cons_of_neg (by simp [hc])]

/-- **A number is read as far as its digits go.** -/
theorem number?_digits {ds : List Char} (hdigits : ∀ c ∈ ds, c.isDigit = true) (hne : ds ≠ [])
    {most : Nat} {rest : List Char}
    (hstop : ds.length = most ∨ ds.length ≤ most ∧ ∀ c, rest.head? = some c → c.isDigit = false) :
    number? most (ds ++ rest) = some (Nat.ofDigitChars 10 ds 0, rest) := by
  have hread : ((ds ++ rest).take most).takeWhile Char.isDigit = ds := by
    rcases hstop with rfl | ⟨hle, hhead⟩
    · rw [List.take_left, List.takeWhile_eq_self_iff.mpr hdigits]
    · have htake : (ds ++ rest).take most = ds ++ rest.take (most - ds.length) := by
        rw [List.take_append, List.take_of_length_le hle]
      rw [htake, List.takeWhile_append_of_pos hdigits]
      cases rest with
      | nil => simp
      | cons c rest =>
        cases hmore : most - ds.length with
        | zero => simp
        | succ n =>
          rw [List.take_succ_cons, List.takeWhile_cons_of_neg (by simp [hhead c rfl]),
            List.append_nil]
  have hempty : ¬ ds.isEmpty = true := by simpa using hne
  rw [number?, skip_digits hdigits hne, hread, if_neg hempty, List.drop_left]
  rfl

/-! ## Padded numbers -/

theorem toList_padded (width n : Nat) : (padded width n).toList =
    List.replicate (width - (Nat.toDigits 10 n).length) '0' ++ Nat.toDigits 10 n := by
  simp [padded, Nat.repr_eq_ofList_toDigits]

theorem isDigit_padded (width n : Nat) : ∀ c ∈ (padded width n).toList, c.isDigit = true := by
  intro c hc
  rw [toList_padded, List.mem_append] at hc
  rcases hc with hc | hc
  · rw [List.eq_of_mem_replicate hc]
    rfl
  · exact Nat.isDigit_of_mem_toDigits (Nat.zero_lt_succ 9) (Nat.le_refl 10) hc

theorem padded_ne_nil (width n : Nat) : (padded width n).toList ≠ [] := by
  rw [toList_padded]
  simp [Nat.toDigits_ne_nil]

theorem length_padded {width n : Nat} (hwidth : 0 < width) (h : n < 10 ^ width) :
    (padded width n).toList.length = width := by
  have hle := (Nat.length_toDigits_le_iff (n := n) (by decide : 1 < 10) hwidth).mpr h
  rw [toList_padded, List.length_append, List.length_replicate]
  omega

theorem ofDigitChars_padded (width n : Nat) :
    Nat.ofDigitChars 10 (padded width n).toList 0 = n := by
  rw [toList_padded, Nat.ofDigitChars_append]
  simp

/-- A padded number is read if it has as many digits as are read. -/
theorem number?_padded {width n : Nat} (hwidth : 0 < width) (h : n < 10 ^ width)
    (rest : List Char) : number? width ((padded width n).toList ++ rest) = some (n, rest) := by
  rw [number?_digits (isDigit_padded width n) (padded_ne_nil width n)
    (.inl (length_padded hwidth h)), ofDigitChars_padded]

theorem numberIn?_padded {low high n : Nat} (hlow : low ≤ n) (hhigh : n ≤ high) (h : n < 100)
    (rest : List Char) :
    numberIn? low high 2 ((padded 2 n).toList ++ rest) = some (n, rest) := by
  rw [numberIn?, number?_padded (by decide) h]
  simp [hlow, hhigh]

/-! ## Years and fractions -/

theorem sign?_cons {c : Char} (h : Text.isBlank c = false) (rest : List Char) :
    sign? c (c :: rest) = some rest := by
  rw [sign?, skip, List.dropWhile_cons_of_neg (by simp [h])]
  simp

theorem year?_minus (cs : List Char) : year? ('-' :: cs) =
    if cs.head?.any Char.isDigit then
      (number? cs.length cs).map fun (n, r) => (-(n : Int), r)
    else none := rfl

theorem year?_plus (cs : List Char) : year? ('+' :: cs) =
    if cs.head?.any Char.isDigit then
      (number? cs.length cs).map fun (n, r) => ((n : Int), r)
    else none := rfl

/-- A year is read up to the sign after it. -/
theorem year?_renderYear (year : Int) (rest : List Char) :
    year? ((renderYear year).toList ++ '-' :: rest) = some (year, '-' :: rest) := by
  have hstop : ∀ c, ('-' :: rest).head? = some c → c.isDigit = false := by
    rintro c h
    cases h
    rfl
  -- behind a sign any number of digits is read
  have hsigned (n : Nat) : number? ((padded 4 n).toList ++ '-' :: rest).length
      ((padded 4 n).toList ++ '-' :: rest) = some (n, '-' :: rest) := by
    rw [number?_digits (isDigit_padded 4 n) (padded_ne_nil 4 n)
      (.inr ⟨by simp, hstop⟩), ofDigitChars_padded]
  have hhead (n : Nat) :
      ((padded 4 n).toList ++ '-' :: rest).head?.any Char.isDigit = true := by
    obtain ⟨c, ds, hds⟩ := List.exists_cons_of_ne_nil (padded_ne_nil 4 n)
    have hc := isDigit_padded 4 n c (hds ▸ List.mem_cons_self)
    simp [hds, hc]
  unfold renderYear
  split
  · next hyear =>
    have hnumber := number?_padded (by decide : 0 < 4) (by omega : year.toNat < 10 ^ 4) ('-' :: rest)
    have hcast : (year.toNat : Int) = year := Int.toNat_of_nonneg hyear.1
    rw [year?, skip_digits (isDigit_padded 4 _) (padded_ne_nil 4 _)]
    split
    · next heq =>
      have hdigit := hhead year.toNat
      rw [heq] at hdigit
      cases hdigit
    · next heq =>
      have hdigit := hhead year.toNat
      rw [heq] at hdigit
      cases hdigit
    · rw [hnumber, Option.map_some]
      exact congrArg (fun y => some (y, _)) hcast
  · next hyear =>
    rw [String.toList_append, List.append_assoc]
    split
    · next hneg =>
      have hcast : -(year.natAbs : Int) = year := by omega
      have hminus : "-".toList = ['-'] := rfl
      rw [hminus, List.singleton_append, year?_minus, if_pos (hhead year.natAbs), hsigned,
        Option.map_some]
      exact congrArg (fun y => some (y, _)) hcast
    · next hpos =>
      have hcast : (year.natAbs : Int) = year := by omega
      have hplus : "+".toList = ['+'] := rfl
      rw [hplus, List.singleton_append, year?_plus, if_pos (hhead year.natAbs), hsigned,
        Option.map_some]
      exact congrArg (fun y => some (y, _)) hcast

/-- A fraction is read with as many zeros behind it as it lacks of nine digits. -/
theorem fraction?_padded {width n : Nat} (hwidth : 0 < width) (hle : width ≤ 9)
    (h : n < 10 ^ width) {rest : List Char} (hrest : ∀ c, rest.head? = some c → c.isDigit = false) :
    fraction? ('.' :: ((padded width n).toList ++ rest)) = some (10 ^ (9 - width) * n, rest) := by
  have hdigits : ((padded width n).toList ++ rest).takeWhile Char.isDigit =
      (padded width n).toList := by
    rw [List.takeWhile_append_of_pos (isDigit_padded width n)]
    cases rest with
    | nil => simp
    | cons c rest => simp [hrest c rfl]
  have hnine : ((padded width n).toList ++ List.replicate 9 '0').take 9 =
      (padded width n).toList ++ List.replicate (9 - width) '0' := by
    have hlength := length_padded hwidth h
    rw [List.take_append, List.take_of_length_le (by omega), hlength, List.take_replicate,
      Nat.min_eq_left (by omega)]
  have hempty : ¬ (padded width n).toList.isEmpty = true := by simpa using padded_ne_nil width n
  rw [fraction?, hdigits, if_neg hempty, hnine, List.drop_left]
  have hvalue : Nat.ofDigitChars 10 ((padded width n).toList ++ List.replicate (9 - width) '0') 0 =
      10 ^ (9 - width) * n := by
    rw [Nat.ofDigitChars_append, ofDigitChars_padded, Nat.ofDigitChars_replicate_zero]
  rw [← hvalue]
  rfl

/-- The fraction of a second is read in nanoseconds. -/
theorem fraction?_renderFraction {nanos : Nat} (h : nanos < 1000000000) {rest : List Char}
    (hrest : ∀ c, rest.head? = some c → c.isDigit = false ∧ c ≠ '.') :
    fraction? ((renderFraction nanos).toList ++ rest) = some (nanos, rest) := by
  have hdigit : ∀ c, rest.head? = some c → c.isDigit = false := fun c hc => (hrest c hc).1
  unfold renderFraction
  split
  · next hzero =>
    rw [hzero, String.toList_empty, List.nil_append]
    unfold fraction?
    split
    · next rest' => exact absurd rfl (hrest '.' rfl).2
    · rfl
  · have hpoint (width n : Nat) : ("." ++ padded width n).toList ++ rest =
        '.' :: ((padded width n).toList ++ rest) := by
      have hdot : ".".toList = ['.'] := rfl
      rw [String.toList_append, hdot, List.append_assoc, List.singleton_append]
    split
    · next hmilli =>
      rw [hpoint, fraction?_padded (by decide) (by decide) (by omega) hdigit]
      have hvalue : 10 ^ (9 - 3) * (nanos / 1000000) = nanos := by omega
      rw [hvalue]
    · split
      · next hmicro =>
        rw [hpoint, fraction?_padded (by decide) (by decide) (by omega) hdigit]
        have hvalue : 10 ^ (9 - 6) * (nanos / 1000) = nanos := by omega
        rw [hvalue]
      · rw [hpoint, fraction?_padded (by decide) (by decide) (by omega) hdigit]
        have hvalue : 10 ^ (9 - 9) * nanos = nanos := by omega
        rw [hvalue]

/-! ## Instants -/

/-- **The instants that there are**: a leap second is the last of its minute, and years are
those that are read. -/
structure Valid (t : Timestamp) : Prop where
  nanos : t.nanos < 1000000000 ∨ t.nanos < 2000000000 ∧ t.seconds % 60 = 59
  year : -262143 ≤ (dateOf (t.seconds.fdiv 86400)).1 ∧
    (dateOf (t.seconds.fdiv 86400)).1 ≤ 262142

/-- The parts of an instant stand one after the other. -/
theorem toList_render {t : Timestamp} {year : Int} {month day clock : Nat}
    (hdate : dateOf (t.seconds.fdiv 86400) = (year, month, day))
    (hclock : (t.seconds.fmod 86400).toNat = clock) :
    t.render.toList = (renderYear year).toList ++ '-' :: ((padded 2 month).toList ++
      '-' :: ((padded 2 day).toList ++ 'T' :: ((padded 2 (clock / 3600)).toList ++
      ':' :: ((padded 2 (clock / 60 % 60)).toList ++
      ':' :: ((padded 2 (clock % 60 + t.nanos / 1000000000)).toList ++
      ((renderFraction (t.nanos % 1000000000)).toList ++ ['Z'])))))) := by
  have hdash : "-".toList = ['-'] := rfl
  have hcolon : ":".toList = [':'] := rfl
  have ht : "T".toList = ['T'] := rfl
  have hz : "Z".toList = ['Z'] := rfl
  unfold render
  rw [hdate]
  dsimp only
  rw [hclock]
  simp only [String.toList_append, hdash, hcolon, ht, hz, List.append_assoc, List.cons_append,
    List.nil_append]

/-- The seconds are those of the days and those of the clock. -/
theorem seconds_eq (t : Timestamp) :
    t.seconds = t.seconds.fdiv 86400 * 86400 + (t.seconds.fmod 86400).toNat ∧
      (t.seconds.fmod 86400).toNat < 86400 := by
  rw [Int.fmod_eq_emod_of_nonneg _ (by decide), Int.fdiv_eq_ediv_of_nonneg _ (by decide)]
  omega

/-- **An instant is read as it is written.** -/
theorem parse?_render {t : Timestamp} (h : t.Valid) : parse? t.render = some t := by
  obtain ⟨year, month, day, hdate, hmonth, hmonth', hday, hday', hnumber⟩ :=
    dateOf_spec (t.seconds.fdiv 86400)
  obtain ⟨hlow, hhigh⟩ := h.year
  rw [hdate] at hlow hhigh
  have hday31 : day ≤ 31 := Nat.le_trans hday' (daysInMonth_le year month)
  have hseconds := t.seconds_eq
  obtain ⟨clock, hclock⟩ : ∃ clock : Nat, (t.seconds.fmod 86400).toNat = clock := ⟨_, rfl⟩
  rw [hclock] at hseconds
  have hnanos := h.nanos
  have hsecond : clock % 60 + t.nanos / 1000000000 ≤ 60 := by omega
  have hz : ∀ c, ['Z'].head? = some c → c.isDigit = false ∧ c ≠ '.' := by
    rintro c h
    cases h
    decide
  have hfraction : fraction? ((renderFraction (t.nanos % 1000000000)).toList ++ ['Z']) =
      some (t.nanos % 1000000000, ['Z']) := fraction?_renderFraction (by omega) hz
  have hoffset : offset? (skip ['Z']) = some (0, []) := rfl
  unfold parse?
  rw [toList_render hdate hclock]
  dsimp only [Option.bind_eq_bind]
  -- each part is read where the one before it ends
  rw [year?_renderYear, Option.bind_some]
  dsimp only
  rw [sign?_cons rfl, Option.bind_some, numberIn?_padded hmonth hmonth' (by omega),
    Option.bind_some]
  dsimp only
  rw [sign?_cons rfl, Option.bind_some, numberIn?_padded hday hday31 (by omega), Option.bind_some]
  dsimp only
  rw [if_pos (.inr (.inl rfl)), Option.bind_some,
    numberIn?_padded (Nat.zero_le _) (by omega : clock / 3600 ≤ 23) (by omega), Option.bind_some]
  dsimp only
  rw [sign?_cons rfl, Option.bind_some,
    numberIn?_padded (Nat.zero_le _) (by omega : clock / 60 % 60 ≤ 59) (by omega),
    Option.bind_some]
  dsimp only
  rw [sign?_cons rfl, Option.bind_some, numberIn?_padded (Nat.zero_le _) hsecond (by omega),
    Option.bind_some]
  dsimp only
  rw [hfraction, Option.bind_some]
  dsimp only
  rw [hoffset, Option.bind_some]
  rw [if_pos ⟨rfl, hday', hlow, hhigh⟩, hnumber]
  -- what is left is that the clock and the fraction make the seconds and the nanoseconds again
  have hall : t.seconds.fdiv 86400 * 86400 + (((clock / 3600 : Nat) : Int) * 3600 +
      ((clock / 60 % 60 : Nat) : Int) * 60 +
        ((min (clock % 60 + t.nanos / 1000000000) 59 : Nat) : Int)) - 0 = t.seconds := by omega
  have hrest : t.nanos % 1000000000 +
      (if clock % 60 + t.nanos / 1000000000 = 60 then 1000000000 else 0) = t.nanos := by
    split <;> omega
  exact congrArg some (Timestamp.mk.injEq .. ▸ ⟨hall, hrest⟩)

end Testplan.Timestamp
