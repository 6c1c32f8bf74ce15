import HelpDesk.Proofs.Calendar
import HelpDesk.Proofs.DigitTexts

/-! The text of a moment is read back as the moment, with its offset, and every text that is read as a moment is
read as one that has a text. -/

namespace HelpDesk

namespace Moment
open Text

/-- A moment that has a text: its local year has four digits, and its offset is of whole minutes within a day. -/
structure Writable (m : Moment) : Prop where
  year : 0 ≤ m.localDate.year ∧ m.localDate.year ≤ 9999
  offset : -1440 < m.offset ∧ m.offset < 1440

theorem take?_padded (width : Nat) {n : Nat} (some_digit : 0 < width) (fits : n < 10 ^ width) (rest : List Char) :
    take? width (padded width n ++ rest) = some (n, rest) := by
  have front : (padded width n ++ rest).take width = padded width n := by simp
  have back : (padded width n ++ rest).drop width = rest := by simp
  simp [take?, front, back, digits?_padded some_digit fits]

/-- The zeros that a fraction leaves out are the ones that its reader puts back. -/
theorem exists_zeros (cs : List Char) :
    ∃ zeros, cs = (cs.reverse.dropWhile (· == '0')).reverse ++ List.replicate zeros '0' := by
  refine ⟨(cs.reverse.takeWhile (· == '0')).length, ?_⟩
  have zeros : cs.reverse.takeWhile (· == '0') = List.replicate (cs.reverse.takeWhile (· == '0')).length '0' := by
    refine List.eq_replicate_iff.mpr ⟨rfl, fun c mem => ?_⟩
    simpa using List.all_eq_true.mp List.all_takeWhile c mem
  calc cs = (cs.reverse.takeWhile (· == '0') ++ cs.reverse.dropWhile (· == '0')).reverse := by
        rw [List.takeWhile_append_dropWhile, List.reverse_reverse]
    _ = (cs.reverse.dropWhile (· == '0')).reverse ++ (cs.reverse.takeWhile (· == '0')).reverse := List.reverse_append
    _ = _ := by rw [zeros]; simp

/-- What follows a fraction: neither a digit nor a point. -/
def EndsFraction (tail : List Char) : Prop :=
  ∀ c rest, tail = c :: rest → c.isDigit = false ∧ c ≠ '.'

theorem EndsFraction.takeWhile {tail : List Char} (ends : EndsFraction tail) : tail.takeWhile Char.isDigit = [] := by
  cases tail with
  | nil => rfl
  | cons c rest => simp [(ends c rest rfl).1]

theorem EndsFraction.dropWhile {tail : List Char} (ends : EndsFraction tail) : tail.dropWhile Char.isDigit = tail := by
  cases tail with
  | nil => rfl
  | cons c rest => simp [(ends c rest rfl).1]

theorem fraction?_fraction {nanos : Nat} (small : nanos < 10 ^ 9) {tail : List Char} (ends : EndsFraction tail) :
    fraction? (fraction nanos ++ tail) = some (nanos, tail) := by
  unfold fraction
  split
  next zero =>
    subst zero
    cases tail with
    | nil => rfl
    | cons c rest =>
      have point := (ends c rest rfl).2
      simp [fraction?, point]
  next positive =>
    obtain ⟨zeros, split⟩ := exists_zeros (padded 9 nanos)
    generalize (((padded 9 nanos).reverse.dropWhile (· == '0')).reverse) = kept at split
    have length : kept.length + zeros = 9 := by simpa using (congrArg List.length split).symm
    have nonempty : kept ≠ [] := by
      rintro rfl
      have whole := digits?_padded (by decide) small
      rw [split] at whole
      simp at length
      subst length
      have zero : digits? ([] ++ List.replicate 9 '0') = some 0 := by decide
      rw [zero] at whole
      exact positive (Option.some.inj whole).symm
    have digits : ∀ c ∈ kept, c.isDigit = true := fun c mem =>
      isDigit_of_mem_padded 9 nanos (by rw [split]; exact List.mem_append_left _ mem)
    have taken : (kept ++ tail).takeWhile Char.isDigit = kept := by
      rw [List.takeWhile_append_of_pos digits, ends.takeWhile, List.append_nil]
    have dropped : (kept ++ tail).dropWhile Char.isDigit = tail := by
      rw [List.dropWhile_append_of_pos digits, ends.dropWhile]
    have restored : (kept ++ List.replicate 9 '0').take 9 = padded 9 nanos := by
      rw [split, List.take_append, List.take_of_length_le (by omega), List.take_replicate]
      congr 2
      omega
    simp only [List.cons_append, fraction?, taken, dropped, fractionNanos, restored,
      digits?_padded (by decide) small]
    simp [nonempty]

theorem endsFraction_offsetText (offset : Int) : EndsFraction (offsetText offset) := by
  intro c rest starts
  unfold offsetText at starts
  split_ifs at starts <;> obtain ⟨rfl, -⟩ := List.cons.inj starts <;> decide

theorem offset?_offsetText {offset : Int} (within : -1440 < offset ∧ offset < 1440) :
    offset? (offsetText offset) = some offset := by
  have hours := take?_padded 2 (n := offset.natAbs / 60) (by decide) (by omega)
  have minutes := take?_padded 2 (n := offset.natAbs % 60) (by decide) (by omega) []
  have range : offset.natAbs / 60 ≤ 23 ∧ offset.natAbs % 60 ≤ 59 := by omega
  have total : (offset.natAbs : Int) = (offset.natAbs / 60 : Nat) * 60 + (offset.natAbs % 60 : Nat) := by omega
  have sign : offset = if offset < 0 then -(offset.natAbs : Int) else offset.natAbs := by
    split_ifs <;> omega
  rw [List.append_nil] at minutes
  unfold offsetText
  generalize offset.natAbs / 60 = hour, offset.natAbs % 60 = minute, offset.natAbs = size at *
  split
  next zero => rw [zero]; rfl
  next nonzero =>
    split
    next negative =>
      simp [offset?, hours, after?, minutes, range]
      omega
    next positive =>
      simp [offset?, hours, after?, minutes, range]
      omega

theorem sinceMidnight_lt (m : Moment) : m.sinceMidnight < 86400 * 1000000000 := by
  have positive : (0 : Int) < nanosPerDay := by decide
  have below := Int.emod_lt_of_pos m.localNanos positive
  have above := Int.emod_nonneg m.localNanos positive.ne'
  have day : nanosPerDay = 86400 * 1000000000 := rfl
  unfold sinceMidnight
  omega

/-- A moment is made of its local day, the time since midnight and its offset. -/
theorem ofLocal_localDate (m : Moment) : ofLocal m.localDate m.sinceMidnight m.offset = m := by
  have positive : (0 : Int) < nanosPerDay := by decide
  have above := Int.emod_nonneg m.localNanos positive.ne'
  have whole := Int.mul_ediv_add_emod m.localNanos nanosPerDay
  have since : (m.sinceMidnight : Int) = m.localNanos % nanosPerDay := Int.toNat_of_nonneg above
  have nanos : m.localDate.toDays * nanosPerDay + m.sinceMidnight - m.offset * nanosPerMinute = m.nanos := by
    rw [localDate, Date.toDays_ofDays, since, Int.mul_comm, whole, localNanos]
    omega
  rw [ofLocal, nanos]

/-- The other way round: the local day and time of a moment are what it was made of. -/
theorem localNanos_ofLocal (date : Date) (since : Nat) (offset : Int) :
    (ofLocal date since offset).localNanos = date.toDays * nanosPerDay + since := by
  simp only [ofLocal, localNanos]
  omega

theorem localDate_ofLocal {date : Date} (valid : date.isValid = true) {since : Nat} (within : since < 86400 * 1000000000)
    (offset : Int) : (ofLocal date since offset).localDate = date := by
  have day : nanosPerDay = 86400 * 1000000000 := rfl
  have days : (date.toDays * nanosPerDay + since) / nanosPerDay = date.toDays := by
    rw [day]
    omega
  rw [localDate, localNanos_ofLocal, days, Date.ofDays_toDays valid]

/-- What the numbers in a text mean, if they are a time of day. -/
def assembled? (date : Date) (hour minute second nanos : Nat) (offset : Int) : Option Moment :=
  if hour ≤ 23 ∧ minute ≤ 59 then
    if second ≤ 59 then
      some (ofLocal date ((hour * 3600 + minute * 60 + second) * 1000000000 + nanos) offset)
    else if second = 60 then
      let m := ofLocal date ((hour * 3600 + minute * 60 + 60) * 1000000000 - 1) offset
      if m.endsMonth then some m else none
    else none
  else none

/-- A text that has the form of a moment, with the numbers in it. Each part is read from what the one before it left. -/
inductive Shaped (cs : List Char) (date : Date) (hour minute second nanos : Nat) (offset : Int) : Prop
  | of {year : Nat} {letter : Char}
      {afterYear beforeMonth afterMonth beforeDay afterDay afterHour beforeMinute afterMinute beforeSecond afterSecond
        zone : List Char}
      (years : take? 4 cs = some (year, afterYear)) (hyphen : after? '-' afterYear = some beforeMonth)
      (months : take? 2 beforeMonth = some (date.month, afterMonth)) (second_hyphen : after? '-' afterMonth = some beforeDay)
      (days : take? 2 beforeDay = some (date.day, letter :: afterDay))
      (dated : date.year = year) (valid : date.isValid = true) (ascii : letter.toNat < 0x80)
      (hours : take? 2 afterDay = some (hour, afterHour)) (colon : after? ':' afterHour = some beforeMinute)
      (minutes : take? 2 beforeMinute = some (minute, afterMinute)) (second_colon : after? ':' afterMinute = some beforeSecond)
      (seconds : take? 2 beforeSecond = some (second, afterSecond))
      (fractions : fraction? afterSecond = some (nanos, zone)) (offsets : offset? zone = some offset) :
      Shaped cs date hour minute second nanos offset

/-- A text of this form is read as what its numbers mean. -/
theorem Shaped.ofChars? {cs : List Char} {date : Date} {hour minute second nanos : Nat} {offset : Int} {m : Moment}
    (shaped : Shaped cs date hour minute second nanos offset)
    (made : assembled? date hour minute second nanos offset = some m) : Moment.ofChars? cs = some m := by
  obtain ⟨years, hyphen, months, second_hyphen, days, dated, valid, ascii, hours, colon, minutes, second_colon, seconds,
    fractions, offsets⟩ := shaped
  obtain ⟨_, month, day⟩ := date
  obtain rfl := dated
  refine Option.bind_eq_some_iff.mpr ⟨_, years, ?_⟩
  refine Option.bind_eq_some_iff.mpr ⟨_, hyphen, ?_⟩
  refine Option.bind_eq_some_iff.mpr ⟨_, months, ?_⟩
  refine Option.bind_eq_some_iff.mpr ⟨_, second_hyphen, ?_⟩
  refine Option.bind_eq_some_iff.mpr ⟨_, days, ?_⟩
  refine (if_neg (by simp [valid])).trans ?_
  refine (if_pos ascii).trans ?_
  refine Option.bind_eq_some_iff.mpr ⟨_, rfl, ?_⟩
  refine Option.bind_eq_some_iff.mpr ⟨_, hours, ?_⟩
  refine Option.bind_eq_some_iff.mpr ⟨_, colon, ?_⟩
  refine Option.bind_eq_some_iff.mpr ⟨_, minutes, ?_⟩
  refine Option.bind_eq_some_iff.mpr ⟨_, second_colon, ?_⟩
  refine Option.bind_eq_some_iff.mpr ⟨_, seconds, ?_⟩
  refine Option.bind_eq_some_iff.mpr ⟨_, fractions, ?_⟩
  exact Option.bind_eq_some_iff.mpr ⟨_, offsets, made⟩

/-- Whatever is read has this form. -/
theorem exists_shaped {cs : List Char} {m : Moment} (read : ofChars? cs = some m) :
    ∃ date hour minute second nanos offset,
      Shaped cs date hour minute second nanos offset ∧ assembled? date hour minute second nanos offset = some m := by
  obtain ⟨⟨year, _⟩, years, read⟩ := Option.bind_eq_some_iff.mp read
  obtain ⟨_, hyphen, read⟩ := Option.bind_eq_some_iff.mp read
  obtain ⟨⟨month, _⟩, months, read⟩ := Option.bind_eq_some_iff.mp read
  obtain ⟨_, second_hyphen, read⟩ := Option.bind_eq_some_iff.mp read
  obtain ⟨⟨day, cs⟩, days, read⟩ := Option.bind_eq_some_iff.mp read
  by_cases valid : Date.isValid ⟨year, month, day⟩ = true
  case neg => exact absurd ((if_pos (by simp [valid])).symm.trans read) (by simp)
  case pos =>
    replace read := (if_neg (by simp [valid])).symm.trans read
    cases cs with
    | nil => exact absurd read (by simp)
    | cons letter cs =>
      by_cases ascii : letter.toNat < 0x80
      case neg => exact absurd ((if_neg ascii).symm.trans read) (by simp)
      case pos =>
        obtain ⟨_, same, read⟩ := Option.bind_eq_some_iff.mp ((if_pos ascii).symm.trans read)
        obtain rfl := Option.some.inj same
        obtain ⟨⟨hour, _⟩, hours, read⟩ := Option.bind_eq_some_iff.mp read
        obtain ⟨_, colon, read⟩ := Option.bind_eq_some_iff.mp read
        obtain ⟨⟨minute, _⟩, minutes, read⟩ := Option.bind_eq_some_iff.mp read
        obtain ⟨_, second_colon, read⟩ := Option.bind_eq_some_iff.mp read
        obtain ⟨⟨second, _⟩, seconds, read⟩ := Option.bind_eq_some_iff.mp read
        obtain ⟨⟨nanos, _⟩, fractions, read⟩ := Option.bind_eq_some_iff.mp read
        obtain ⟨offset, offsets, made⟩ := Option.bind_eq_some_iff.mp read
        exact ⟨⟨year, month, day⟩, hour, minute, second, nanos, offset,
          .of years hyphen months second_hyphen days rfl valid ascii hours colon minutes second_colon seconds fractions
            offsets, made⟩

theorem after?_self (c : Char) (rest : List Char) : after? c (c :: rest) = some rest := by
  simp [after?]

/-- The text of a moment has the form of one, with its local day and time and its offset. -/
theorem shaped_toChars? {m : Moment} (writable : m.Writable) : ∃ cs, m.toChars? = some cs ∧
    Shaped cs m.localDate (m.sinceMidnight / 1000000000 / 3600) (m.sinceMidnight / 1000000000 / 60 % 60)
      (m.sinceMidnight / 1000000000 % 60) (m.sinceMidnight % 1000000000) m.offset := by
  have valid : m.localDate.isValid = true := Date.isValid_ofDays _
  have bounds := writable.year
  have midnight := m.sinceMidnight_lt
  have day := Date.bounds_of_isValid valid
  refine ⟨_, if_pos bounds, ?_⟩
  simp only [List.append_assoc, List.cons_append]
  exact .of (take?_padded _ (by decide) (by omega) _) (after?_self ..)
    (take?_padded _ (by decide) (by omega) _) (after?_self ..)
    (take?_padded _ (by decide) (by omega) _) (by omega) valid (by decide)
    (take?_padded _ (by decide) (by omega) _) (after?_self ..)
    (take?_padded _ (by decide) (by omega) _) (after?_self ..)
    (take?_padded _ (by decide) (by omega) _)
    (fraction?_fraction (by omega) (endsFraction_offsetText _)) (offset?_offsetText writable.offset)

theorem ofChars?_toChars? {m : Moment} (writable : m.Writable) : ∃ cs, m.toChars? = some cs ∧ ofChars? cs = some m := by
  obtain ⟨cs, text, shaped⟩ := shaped_toChars? writable
  have midnight := m.sinceMidnight_lt
  have range : m.sinceMidnight / 1000000000 / 3600 ≤ 23 ∧ m.sinceMidnight / 1000000000 / 60 % 60 ≤ 59 := by omega
  have second : m.sinceMidnight / 1000000000 % 60 ≤ 59 := by omega
  have whole : (m.sinceMidnight / 1000000000 / 3600 * 3600 + m.sinceMidnight / 1000000000 / 60 % 60 * 60 +
      m.sinceMidnight / 1000000000 % 60) * 1000000000 + m.sinceMidnight % 1000000000 = m.sinceMidnight := by omega
  refine ⟨cs, text, shaped.ofChars? ?_⟩
  rw [assembled?, if_pos range, if_pos second, whole, ofLocal_localDate]

theorem take?_lt {width n : Nat} {cs rest : List Char} (read : take? width cs = some (n, rest)) : n < 10 ^ width := by
  unfold take? at read
  split at read
  next enough =>
    obtain ⟨value, digits, same⟩ := Option.map_eq_some_iff.mp read
    have below := digits?_lt digits
    rw [List.length_take_of_le enough] at below
    obtain ⟨rfl, -⟩ := Prod.mk.inj same
    exact below
  next => simp at read

theorem fraction?_lt {cs rest : List Char} {nanos : Nat} (read : fraction? cs = some (nanos, rest)) :
    nanos < 1000000000 := by
  unfold fraction? at read
  split at read
  next =>
    simp only at read
    split at read
    next => simp at read
    next =>
      obtain ⟨value, digits, same⟩ := Option.map_eq_some_iff.mp read
      have below := digits?_lt digits
      obtain ⟨rfl, -⟩ := Prod.mk.inj same
      exact lt_of_lt_of_le below (Nat.pow_le_pow_right (by decide) (List.length_take_le ..))
  next =>
    obtain ⟨rfl, -⟩ := Prod.mk.inj (Option.some.inj read)
    decide

theorem offset?_within {cs : List Char} {offset : Int} (read : offset? cs = some offset) :
    -1440 < offset ∧ offset < 1440 := by
  unfold offset? at read
  split at read
  next =>
    obtain rfl := Option.some.inj read
    decide
  next =>
    obtain rfl := Option.some.inj read
    decide
  next =>
    -- The sign is one of two characters; what follows it is read in the same way.
    split_ifs at read
    case neg => simp at read
    all_goals
      obtain ⟨negative, -, read⟩ := Option.bind_eq_some_iff.mp read
      obtain ⟨⟨hours, _⟩, -, read⟩ := Option.bind_eq_some_iff.mp read
      obtain ⟨_, -, read⟩ := Option.bind_eq_some_iff.mp read
      obtain ⟨⟨minutes, _⟩, -, read⟩ := Option.bind_eq_some_iff.mp read
      obtain ⟨range, same⟩ := Option.ite_none_right_eq_some.mp read
      obtain rfl := Option.some.inj same
      split_ifs <;> omega
  next => simp at read

theorem writable_ofLocal {date : Date} (valid : date.isValid = true) (years : 0 ≤ date.year ∧ date.year ≤ 9999)
    {since : Nat} (midnight : since < 86400 * 1000000000) {offset : Int} (within : -1440 < offset ∧ offset < 1440) :
    (ofLocal date since offset).Writable :=
  ⟨by rwa [localDate_ofLocal valid midnight], within⟩

/-- Whatever is read as a moment can be written. A leap second is read as the nanosecond before it, on the same day. -/
theorem writable_of_ofChars? {cs : List Char} {m : Moment} (read : ofChars? cs = some m) : m.Writable := by
  obtain ⟨date, hour, minute, second, nanos, offset, shaped, made⟩ := exists_shaped read
  obtain ⟨years, -, -, -, -, dated, valid, -, -, -, -, -, -, fractions, offsets⟩ := shaped
  have year := take?_lt years
  have years : 0 ≤ date.year ∧ date.year ≤ 9999 := by omega
  have within := offset?_within offsets
  have short := fraction?_lt fractions
  unfold assembled? at made
  split_ifs at made with range seconds leap
  · obtain rfl := Option.some.inj made
    exact writable_ofLocal valid years (by omega) within
  · obtain ⟨-, same⟩ := Option.ite_none_right_eq_some.mp made
    obtain rfl := Option.some.inj same
    exact writable_ofLocal valid years (by omega) within

end Moment

end HelpDesk
