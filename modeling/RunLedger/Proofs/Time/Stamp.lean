import Mathlib.Algebra.Group.Nat.Defs
import Mathlib.Data.List.DropRight
import RunLedger.Proofs.Time.Calendar
import RunLedger.Time.Stamp

/-!
# Reading written times

An instant that has a stamp, on a clock whose offset is a number of minutes, is read back from its
stamp: the same point in time to the nanosecond, on the same clock. Each field of a stamp is read
from what was written for it and leaves the rest of the text alone.
-/

namespace RunLedger.Time

variable {width n nanos : Nat} {rest : List Char} {c : Char} {t : Instant}

/-! ## Digits -/

theorem isDigit_of_mem_padded (member : c ∈ padded width n) : c.isDigit = true := by
  rcases List.mem_append.mp member with zero | digit
  · rw [List.eq_of_mem_replicate zero]
    rfl
  · exact Nat.isDigit_of_mem_toDigits (by decide) (by decide) digit

/-- A number that fits is padded to the width exactly. -/
theorem length_padded (positive : 0 < width) (small : n < 10 ^ width) :
    (padded width n).length = width := by
  have fits := (Nat.length_toDigits_le_iff (b := 10) (by decide) positive).mpr small
  rw [padded, List.length_append, List.length_replicate]
  omega

/-- The zeros in front of a number do not change it. -/
theorem decimalValue_padded (width n : Nat) : Text.decimalValue (padded width n) = n := by
  show Nat.ofDigitChars 10 (List.replicate _ '0' ++ Nat.toDigits 10 n) 0 = n
  rw [Nat.ofDigitChars_append, Nat.ofDigitChars_replicate_zero, Nat.mul_zero,
    Nat.ofDigitChars_ten_toDigits]

/-- A number written after another one fills the places behind it. -/
theorem decimalValue_append_padded (ds : List Char) (positive : 0 < width) (small : n < 10 ^ width) :
    Text.decimalValue (ds ++ padded width n) = 10 ^ width * Text.decimalValue ds + n := by
  show Nat.ofDigitChars 10 (ds ++ padded width n) 0 = 10 ^ width * Nat.ofDigitChars 10 ds 0 + n
  rw [Nat.ofDigitChars_append, Nat.ofDigitChars_eq_ofDigitChars_zero, length_padded positive small]
  exact congrArg _ (decimalValue_padded width n)

/-- A padded number is read from its width, whatever follows. -/
theorem takeNumber?_padded (positive : 0 < width) (small : n < 10 ^ width) (rest : List Char) :
    takeNumber? width (padded width n ++ rest) = some (n, rest) := by
  have length := length_padded positive small
  have digits : (padded width n).all Char.isDigit = true :=
    List.all_eq_true.mpr fun _ => isDigit_of_mem_padded
  simp only [takeNumber?, List.take_left' length, List.drop_left' length, length, digits,
    decide_true, Bool.and_self, ↓reduceIte, decimalValue_padded]

/-! ## Fractions of a second -/

/-- A fraction is written without the zeros at its end. -/
theorem exists_padded_eq (nanos : Nat) :
    ∃ zeros, padded 9 nanos = fractionDigits nanos ++ List.replicate zeros '0' := by
  let trailing := (padded 9 nanos).rtakeWhile (· = '0')
  have zeros : trailing = List.replicate trailing.length '0' :=
    List.eq_replicate_iff.mpr ⟨rfl, fun _ member => by simpa using List.mem_rtakeWhile_imp member⟩
  refine ⟨trailing.length, ?_⟩
  rw [← zeros]
  exact (List.rdropWhile_append_rtakeWhile (p := (· = '0'))).symm

theorem isDigit_of_mem_fractionDigits (member : c ∈ fractionDigits nanos) :
    c.isDigit = true := by
  obtain ⟨zeros, split⟩ := exists_padded_eq nanos
  have kept : c ∈ padded 9 nanos := by
    rw [split]
    exact List.mem_append_left _ member
  exact isDigit_of_mem_padded kept

/-- A fraction has at most nine places. -/
theorem length_fractionDigits_le (small : nanos < 10 ^ 9) :
    (fractionDigits nanos).length ≤ 9 := by
  obtain ⟨zeros, split⟩ := exists_padded_eq nanos
  have length := length_padded (by decide) small
  rw [split, List.length_append] at length
  omega

/-- A fraction of less than nine places is filled up to nine by zeros. -/
theorem decimalValue_fractionDigits (small : nanos < 10 ^ 9) :
    Text.decimalValue (fractionDigits nanos) * 10 ^ (9 - (fractionDigits nanos).length) =
      nanos := by
  obtain ⟨zeros, split⟩ := exists_padded_eq nanos
  have length := length_padded (by decide) small
  rw [split, List.length_append, List.length_replicate] at length
  have left : 9 - (fractionDigits nanos).length = zeros := by omega
  calc Text.decimalValue (fractionDigits nanos) * 10 ^ (9 - (fractionDigits nanos).length)
      = 10 ^ zeros * Nat.ofDigitChars 10 (fractionDigits nanos) 0 := by
        rw [left, Nat.mul_comm]
        rfl
    _ = Text.decimalValue (padded 9 nanos) := by
        rw [← Nat.ofDigitChars_replicate_zero, ← Nat.ofDigitChars_append, ← split]
        rfl
    _ = nanos := decimalValue_padded 9 nanos

theorem fractionDigits_ne_nil (positive : nanos ≠ 0) (small : nanos < 10 ^ 9) :
    fractionDigits nanos ≠ [] := by
  intro none
  have value := decimalValue_fractionDigits small
  rw [none] at value
  exact positive (by simpa [Text.decimalValue] using value.symm)

/-- A character that no fraction goes on with. -/
def EndsFraction (c : Char) : Prop :=
  c.isDigit = false ∧ c ≠ '.'

/-- Where no fraction is written none is read. -/
theorem takeFraction?_of_ends (ends : EndsFraction c) :
    takeFraction? (c :: rest) = some (0, c :: rest) := by
  unfold takeFraction?
  split
  · rename_i same
    exact absurd (List.cons.inj same).1 ends.2
  · rfl

/-- A fraction is read up to the first character that is no digit. -/
theorem takeFraction?_digits (positive : nanos ≠ 0) (small : nanos < 10 ^ 9)
    (ends : EndsFraction c) :
    takeFraction? ('.' :: (fractionDigits nanos ++ c :: rest)) = some (nanos, c :: rest) := by
  have digits : ∀ d ∈ fractionDigits nanos, d.isDigit = true :=
    fun _ => isDigit_of_mem_fractionDigits
  have taken :
      (fractionDigits nanos ++ c :: rest).takeWhile Char.isDigit = fractionDigits nanos := by
    rw [List.takeWhile_append_of_pos digits, List.takeWhile_cons, ends.1]
    exact List.append_nil _
  have dropped : (fractionDigits nanos ++ c :: rest).dropWhile Char.isDigit = c :: rest := by
    rw [List.dropWhile_append_of_pos digits, List.dropWhile_cons, ends.1]
    rfl
  have some_digits : (fractionDigits nanos).isEmpty = false := by
    simpa using fractionDigits_ne_nil positive small
  -- No digit is lost, because a written fraction has at most the nine digits that are read.
  have nine : (fractionDigits nanos).take 9 = fractionDigits nanos :=
    List.take_of_length_le (length_fractionDigits_le small)
  simp only [takeFraction?, taken, dropped, some_digits, nine, Bool.false_eq_true, ↓reduceIte]
  exact congrArg (fun n => some (n, c :: rest)) (decimalValue_fractionDigits small)

namespace Instant

theorem subsecond_lt (t : Instant) : t.subsecond < 10 ^ 9 := by
  unfold subsecond second
  omega

/-! ## Offsets -/

/-- Offsets of a whole number of minutes, and of less than a day. -/
def HasMinuteOffset (t : Instant) : Prop :=
  t.offset % 60 = 0 ∧ t.offset.natAbs ≤ 60 * (60 * 23 + 59)

/-- An offset begins with a character that ends a fraction. -/
theorem exists_offsetStamp_eq (t : Instant) :
    ∃ c rest, t.offsetStamp = c :: rest ∧ EndsFraction c := by
  unfold offsetStamp
  split
  · exact ⟨'Z', [], rfl, by decide, by decide⟩
  · refine ⟨_, _, rfl, ?_⟩
    split <;> exact ⟨by decide, by decide⟩

/-- What is written for an offset is no part of the fraction before it. -/
theorem takeFraction?_fractionStamp (t : Instant) :
    takeFraction? (t.fractionStamp ++ t.offsetStamp) = some (t.subsecond, t.offsetStamp) := by
  obtain ⟨c, rest, isCons, ends⟩ := t.exists_offsetStamp_eq
  rw [isCons]
  unfold fractionStamp
  split
  · rename_i zero
    rw [zero]
    exact takeFraction?_of_ends ends
  · rename_i positive
    exact takeFraction?_digits positive t.subsecond_lt ends

/-- An offset is read from its sign, its hours and its minutes. -/
theorem takeOffset?_signed {hours minutes : Nat} (hours_le : hours ≤ 23) (minutes_le : minutes ≤ 59)
    (negative : Prop) [Decidable negative] :
    takeOffset? ((if negative then '-' else '+') :: padded 2 hours ++ ':' :: padded 2 minutes) =
      some (if negative then -(60 * (60 * hours + minutes : Int))
        else 60 * (60 * hours + minutes)) := by
  have two : 0 < 2 := by decide
  have first := takeNumber?_padded two (show hours < 10 ^ 2 by omega) (':' :: padded 2 minutes)
  have last := takeNumber?_padded two (show minutes < 10 ^ 2 by omega) []
  rw [List.append_nil] at last
  split <;>
    simp [takeOffset?, first, takeChar?, last, Nat.not_lt.mpr hours_le, Nat.not_lt.mpr minutes_le]

/-- An offset in whole minutes is read back. -/
theorem takeOffset?_offsetStamp (offset : t.HasMinuteOffset) :
    takeOffset? t.offsetStamp = some t.offset := by
  obtain ⟨whole, bounded⟩ := offset
  unfold offsetStamp
  split
  · rename_i zero
    rw [zero]
    rfl
  · dsimp only
    rw [takeOffset?_signed (by omega) (by omega)]
    split <;> exact congrArg some (by omega)

/-! ## Stamps -/

/-- Instants that a stamp can tell: the year has four digits, and the offset is a whole number of
minutes and less than a day. -/
structure Writable (t : Instant) : Prop where
  year_nonneg : 0 ≤ t.date.year
  year_le : t.date.year ≤ 9999
  offset : t.HasMinuteOffset

/-- The fields that are written for an instant. -/
def written (t : Instant) : Written :=
  ⟨t.date, t.hour, t.minute, t.secondOfMinute, t.subsecond, t.offset⟩

/-- An instant is put together again from its local date, its time of day and its offset. -/
theorem toInstant_written (t : Instant) : t.written.toInstant = t := by
  -- Day and time of day are those of the local clock, so the offset comes off their sum.
  have day : t.date.toDays = t.localSeconds / 86400 := Date.toDays_ofDays _
  have time : 3600 * t.hour + 60 * t.minute + t.secondOfMinute = t.secondOfDay := by
    unfold hour minute secondOfMinute
    omega
  have seconds : 86400 * t.date.toDays + (t.secondOfDay : Int) - t.offset = t.nanos / second := by
    rw [day]
    unfold secondOfDay localSeconds
    omega
  have nanos : t.nanos / second * second + (t.subsecond : Int) = t.nanos := by
    unfold subsecond second
    omega
  show Instant.mk ((86400 * t.date.toDays +
    (3600 * t.hour + 60 * t.minute + t.secondOfMinute : Nat) - t.offset) * second +
      (t.subsecond : Int)) t.offset = t
  rw [time, seconds, nanos]

theorem secondOfDay_lt (t : Instant) : t.secondOfDay < 86400 := by
  unfold secondOfDay
  omega

theorem hour_lt (t : Instant) : t.hour < 24 := by
  have := t.secondOfDay_lt
  unfold hour
  omega

theorem minute_lt (t : Instant) : t.minute < 60 := Nat.mod_lt _ (by decide)

theorem secondOfMinute_lt (t : Instant) : t.secondOfMinute < 60 := Nat.mod_lt _ (by decide)

/-- The fields of an instant are in range. -/
theorem toInstant?_written (t : Instant) : t.written.toInstant? = some t := by
  have valid : t.date.isValid = true := Date.isValid_ofDays _
  have hour_le : ¬ t.hour > 23 := by have := t.hour_lt; omega
  have minute_le : ¬ t.minute > 59 := by have := t.minute_lt; omega
  have second_le : ¬ t.secondOfMinute > 60 := by have := t.secondOfMinute_lt; omega
  have accepted : t.written.toInstant? = some t.written.toInstant := by
    simp [Written.toInstant?, written, valid, hour_le, minute_le, second_le, t.secondOfMinute_lt]
  rw [accepted, toInstant_written]

/-- The fields of an instant have no more digits than a stamp has places for them. -/
structure Fits (t : Instant) : Prop where
  year : t.date.year.toNat < 10 ^ 4
  month : t.date.month < 10 ^ 2
  day : t.date.day < 10 ^ 2
  hour : t.hour < 10 ^ 2
  minute : t.minute < 10 ^ 2
  second : t.secondOfMinute < 10 ^ 2

theorem Writable.fits (writable : t.Writable) : t.Fits := by
  have date := Date.le_of_isValid (Date.isValid_ofDays (t.localSeconds / 86400))
  have year_le := writable.year_le
  exact
    { year := by omega
      month := date.1.trans_lt (by decide)
      day := date.2.trans_lt (by decide)
      hour := t.hour_lt.trans (by decide)
      minute := t.minute_lt.trans (by decide)
      second := t.secondOfMinute_lt.trans (by decide) }

/-- The characters of a stamp. -/
def stampChars (t : Instant) : List Char :=
  padded 4 t.date.year.toNat ++ '-' :: padded 2 t.date.month ++ '-' :: padded 2 t.date.day ++
    'T' :: padded 2 t.hour ++ ':' :: padded 2 t.minute ++ ':' :: padded 2 t.secondOfMinute ++
    t.fractionStamp ++ t.offsetStamp

/-- An instant in the years with four digits has a stamp. -/
theorem Writable.stamp? (writable : t.Writable) :
    t.stamp? = some (String.ofList t.stampChars) := by
  simp [Instant.stamp?, writable.year_nonneg, writable.year_le, stampChars]

/-- The reader takes the fields of a stamp one after the other and ends where the stamp ends. -/
theorem Writable.read?_stampChars (writable : t.Writable) :
    read? (String.ofList t.stampChars) = some t := by
  obtain ⟨year, month, day, hour, minute, second⟩ := writable.fits
  have year_eq : (t.date.year.toNat : Int) = t.date.year := Int.toNat_of_nonneg writable.year_nonneg
  have between : 'T'.toNat < 128 := by decide
  have two : 0 < 2 := by decide
  simp only [read?, stampChars, String.toList_ofList, List.append_assoc, List.cons_append,
    takeNumber?_padded (by decide : 0 < 4) year, takeNumber?_padded two month,
    takeNumber?_padded two day, takeNumber?_padded two hour, takeNumber?_padded two minute,
    takeNumber?_padded two second, takeChar?, between, decide_true, ↓reduceIte,
    takeFraction?_fractionStamp, takeOffset?_offsetStamp writable.offset, Option.bind_eq_bind,
    Option.bind_some, year_eq]
  exact t.toInstant?_written

/-- A compact stamp is the date as a number of eight digits, and after an underscore the time of day
as one of six. -/
theorem Writable.compactStamp_toList (writable : t.Writable) : ∃ date time,
    t.compactStamp.toList = date ++ '_' :: time ∧
    date.length = 8 ∧ time.length = 6 ∧
    Text.decimalValue date = 10000 * t.date.year.toNat + 100 * t.date.month + t.date.day ∧
    Text.decimalValue time = 10000 * t.hour + 100 * t.minute + t.secondOfMinute := by
  obtain ⟨year, month, day, hour, minute, second⟩ := writable.fits
  have two : 0 < 2 := by decide
  have four : 0 < 4 := by decide
  have yearText : yearText t.date.year = padded 4 t.date.year.toNat := by
    have nonneg := writable.year_nonneg
    have abs : t.date.year.natAbs = t.date.year.toNat := by omega
    rw [Instant.yearText, if_neg (Int.not_lt.mpr nonneg), List.nil_append, abs]
  refine ⟨padded 4 t.date.year.toNat ++ padded 2 t.date.month ++ padded 2 t.date.day,
    padded 2 t.hour ++ padded 2 t.minute ++ padded 2 t.secondOfMinute, ?_, ?_, ?_, ?_, ?_⟩
  · rw [compactStamp, String.toList_ofList, yearText]
    simp only [List.append_assoc, List.cons_append]
  · simp only [List.length_append, length_padded four year, length_padded two month,
      length_padded two day]
  · simp only [List.length_append, length_padded two hour, length_padded two minute,
      length_padded two second]
  · rw [decimalValue_append_padded _ two day, decimalValue_append_padded _ two month,
      decimalValue_padded]
    omega
  · rw [decimalValue_append_padded _ two second, decimalValue_append_padded _ two minute,
      decimalValue_padded]
    omega

/-- An instant is read back from its stamp: the same nanosecond, on the same clock. -/
theorem Writable.bind_stamp? (writable : t.Writable) : t.stamp?.bind read? = some t := by
  rw [writable.stamp?, Option.bind_some, writable.read?_stampChars]

end Instant

end RunLedger.Time
