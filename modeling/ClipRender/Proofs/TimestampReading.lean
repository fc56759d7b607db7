import ClipRender.Proofs.Binary64.HalfEven
import ClipRender.Proofs.Binary64.Overflow
import ClipRender.Proofs.DecimalReading
import ClipRender.Proofs.WellFormed
import ClipRender.Timing.Reading
import ClipRender.Timing.Timestamp

set_option autoImplicit false

/-!
Times as they are written and read back. A text consists of fields, each in its range, from which
the milliseconds are read that the time is written from. They are the thousandfold of the number
rounded twice, once as a number and once to a whole one, and they are in the order of the numbers.
Up to half a millisecond there are none.
-/

namespace ClipRender.Timestamp

open Binary64 Decimal

structure IsField (width limit : Nat) (cs : List Char) : Prop where
  length_eq : cs.length = width
  digits : ∀ c ∈ cs, c.isDigit = true
  value_lt : digitsValue cs < limit

/-- Two digits, or more of which the first is not a zero. -/
structure IsHours (cs : List Char) : Prop where
  length_ge : 2 ≤ cs.length
  digits : ∀ c ∈ cs, c.isDigit = true
  head_ne : 2 < cs.length → cs.head? ≠ some '0'

section Digits

variable {width limit n : Nat} {cs : List Char}

theorem IsField.field?_eq (h : IsField width limit cs) :
    field? width limit cs = some (digitsValue cs) := by
  rw [field?, if_pos ⟨h.length_eq, List.all_eq_true.mpr h.digits, h.value_lt⟩]

theorem IsHours.hours?_eq (h : IsHours cs) : hours? cs = some (digitsValue cs) := by
  have hwidth : cs.length = 2 ∨ (2 < cs.length ∧ cs.head? ≠ some '0') := by
    rcases Nat.eq_or_lt_of_le h.length_ge with htwo | hmore
    · exact .inl htwo.symm
    · exact .inr ⟨hmore, h.head_ne hmore⟩
  rw [hours?, if_pos ⟨List.all_eq_true.mpr h.digits, hwidth⟩]

theorem isField_padded (hwidth : 0 < width) (hlimit : limit ≤ 10 ^ width) (hn : n < limit) :
    IsField width limit (padded width n).toList where
  length_eq := length_padded_of_lt hwidth (hn.trans_le hlimit)
  digits := isDigit_padded width n
  value_lt := (digitsValue_padded width n).symm ▸ hn

theorem isHours_padded (n : Nat) : IsHours (padded 2 n).toList where
  length_ge := by
    rw [length_padded]
    exact le_max_left _ _
  digits := isDigit_padded 2 n
  head_ne := by
    intro hmany
    rw [length_padded, lt_max_iff, or_iff_right (lt_irrefl 2)] at hmany
    -- no zeros are put in front of so many digits
    have hpos : 0 < n := by
      rcases Nat.eq_zero_or_pos n with rfl | hpos
      · rw [Nat.toDigits_zero] at hmany
        exact absurd hmany (by decide)
      · exact hpos
    rw [toList_padded, Nat.sub_eq_zero_of_le hmany.le]
    exact head_toDigits hpos

theorem not_mem_digits {c : Char} (hdigits : ∀ d ∈ cs, d.isDigit = true) (hc : c.isDigit = false) :
    c ∉ cs := by
  intro hmem
  rw [hdigits c hmem] at hc
  cases hc

end Digits

structure Fields where
  hours : List Char
  minutes : List Char
  seconds : List Char
  milliseconds : List Char

namespace Fields

def text (fields : Fields) : List Char :=
  fields.hours ++ ':' :: (fields.minutes ++ ':' :: (fields.seconds ++ '.' :: fields.milliseconds))

def count (fields : Fields) : Nat :=
  ((digitsValue fields.hours * 60 + digitsValue fields.minutes) * 60 + digitsValue fields.seconds)
    * 1000 + digitsValue fields.milliseconds

structure Proper (fields : Fields) : Prop where
  hours : IsHours fields.hours
  minutes : IsField 2 60 fields.minutes
  seconds : IsField 2 60 fields.seconds
  milliseconds : IsField 3 1000 fields.milliseconds

variable {fields : Fields}

theorem seconds?_text (h : fields.Proper) :
    seconds? (fields.seconds ++ '.' :: fields.milliseconds)
      = some (digitsValue fields.seconds * 1000 + digitsValue fields.milliseconds) := by
  have inSeconds := not_mem_digits h.seconds.digits (by decide : '.'.isDigit = false)
  have inMilliseconds := not_mem_digits h.milliseconds.digits (by decide : '.'.isDigit = false)
  have parts : (fields.seconds ++ '.' :: fields.milliseconds).splitOn '.'
      = [fields.seconds, fields.milliseconds] := by
    have joined : (['.'].intercalate [fields.seconds, fields.milliseconds]).splitOn '.'
        = [fields.seconds, fields.milliseconds] :=
      List.splitOn_intercalate '.' (by simp [inSeconds, inMilliseconds]) (by simp)
    simpa using joined
  rw [seconds?, parts]
  simp only [h.seconds.field?_eq, h.milliseconds.field?_eq]
  rfl

theorem read?_eq (h : fields.Proper) {time : String} (htime : time.toList = fields.text) :
    read? time = some fields.count := by
  have inHours := not_mem_digits h.hours.digits (by decide : ':'.isDigit = false)
  have inMinutes := not_mem_digits h.minutes.digits (by decide : ':'.isDigit = false)
  have inSeconds := not_mem_digits h.seconds.digits (by decide : ':'.isDigit = false)
  have inMilliseconds := not_mem_digits h.milliseconds.digits (by decide : ':'.isDigit = false)
  have joined : ([':'].intercalate [fields.hours, fields.minutes,
        fields.seconds ++ '.' :: fields.milliseconds]).splitOn ':'
      = [fields.hours, fields.minutes, fields.seconds ++ '.' :: fields.milliseconds] :=
    List.splitOn_intercalate ':'
      (by simp [inHours, inMinutes, inSeconds, inMilliseconds]) (by simp)
  have layout : time.toList = [':'].intercalate [fields.hours, fields.minutes,
      fields.seconds ++ '.' :: fields.milliseconds] := by
    rw [htime, text, List.intercalate_cons_cons, List.intercalate_cons_cons,
      List.intercalate_singleton, List.append_assoc, List.append_assoc, List.singleton_append,
      List.singleton_append]
  rw [read?, layout, joined]
  simp only [h.hours.hours?_eq, h.minutes.field?_eq, seconds?_text h]
  refine congrArg some ?_
  rw [count]
  omega

def ofCount (count : Nat) : Fields where
  hours := (padded 2 (count / 3600000)).toList
  minutes := (padded 2 (count % 3600000 / 60000)).toList
  seconds := (padded 2 (count % 60000 / 1000)).toList
  milliseconds := (padded 3 (count % 1000)).toList

theorem toList_ofMilliseconds (count : Nat) :
    (ofMilliseconds count).toList = (ofCount count).text := by
  have colon : ":".toList = [':'] := by decide
  have point : ".".toList = ['.'] := by decide
  simp only [ofMilliseconds, String.toList_append, colon, point, text, ofCount, List.append_assoc,
    List.cons_append, List.nil_append]

theorem proper_ofCount (count : Nat) : (ofCount count).Proper := by
  have hm : count % 3600000 / 60000 < 60 := by omega
  have hs : count % 60000 / 1000 < 60 := by omega
  have hms : count % 1000 < 1000 := Nat.mod_lt count (by decide)
  constructor <;> dsimp only [ofCount]
  · exact isHours_padded _
  · exact isField_padded (by decide) (by decide) hm
  · exact isField_padded (by decide) (by decide) hs
  · exact isField_padded (by decide) (by decide) hms

theorem count_ofCount (n : Nat) : (ofCount n).count = n := by
  simp only [count, ofCount, digitsValue_padded]
  omega

end Fields

theorem read?_ofMilliseconds (count : Nat) : read? (ofMilliseconds count) = some count := by
  rw [Fields.read?_eq (Fields.proper_ofCount count) (Fields.toList_ofMilliseconds count),
    Fields.count_ofCount]

section Counts

variable {seconds : Binary64} (hfinite : seconds.isFinite = true) (hnonneg : 0 ≤ seconds.value)

include hfinite hnonneg

theorem milliseconds_eq : milliseconds seconds
    = match (seconds * ofNat 1000).round with
      | .ok count => .ok count.toNat
      | .error why => .error (.noWhole why) := by
  have inside : Binary64.lt seconds Binary64.zero = false := by
    rw [← Bool.not_eq_true, lt_iff hfinite rfl, value_zero]
    exact not_lt.mpr hnonneg
  rw [milliseconds, inside, hfinite]
  rfl

theorem format_ok (hcount : (seconds * ofNat 1000).isFinite = true) :
    ∃ text, format seconds = .ok text := by
  obtain ⟨count, hround⟩ := exists_round hcount
  rw [format, milliseconds_eq hfinite hnonneg, hround]
  exact ⟨_, rfl⟩

theorem format_error (hover : (seconds * ofNat 1000).isFinite = false) :
    format seconds = .error (.noWhole .infinity) := by
  have thousand : (ofNat 1000).isFinite = true :=
    (isWhole_ofNat (by decide : 1000 ≤ 2 ^ 53)).isFinite
  rw [format, milliseconds_eq hfinite hnonneg, round_mul hfinite thousand hover]
  rfl

end Counts

/-- A thousand times the number for half a millisecond is rounded to a half at most, and a thousand
times the next number is not. -/
theorem exists_half : ∃ half h, ofQuotient 1 2000 = .finite false half h ∧
    2 * unitsAt (nearestRank (unitsAt half * 1000) 1) ≤ unitsPerOne ∧
    unitsPerOne < 2 * unitsAt (nearestRank (unitsAt (half + 1) * 1000) 1) :=
  ⟨nearestRank unitsPerOne 2000, by decide +kernel, by decide +kernel, by decide +kernel,
    by decide +kernel⟩

section Numbers

variable {seconds : Binary64} {count : Nat} {text : String}

theorem format_written (h : format seconds = .ok text) :
    ∃ count, milliseconds seconds = .ok count ∧ ofMilliseconds count = text := by
  rw [format] at h
  cases hcount : milliseconds seconds with
  | error failure =>
    rw [hcount] at h
    cases h
  | ok count =>
    rw [hcount] at h
    exact ⟨count, rfl, Except.ok.inj h⟩

theorem format_reads (h : format seconds = .ok text) :
    ∃ count, milliseconds seconds = .ok count ∧ read? text = some count := by
  obtain ⟨count, hcount, rfl⟩ := format_written h
  exact ⟨count, hcount, read?_ofMilliseconds count⟩

theorem milliseconds_domain (h : milliseconds seconds = .ok count) :
    seconds.isFinite = true ∧ 0 ≤ seconds.value := by
  rw [milliseconds] at h
  split at h
  · cases h
  · next hdomain =>
    rw [Bool.or_eq_true, not_or, Bool.not_eq_true', Bool.not_eq_false] at hdomain
    refine ⟨hdomain.2, ?_⟩
    have hless := hdomain.1
    rw [Binary64.lt_iff hdomain.2 rfl, Binary64.value_zero] at hless
    exact not_lt.mp hless

/-- What is counted is the thousandfold as a number, rounded to a whole one. -/
theorem milliseconds_nearest (h : milliseconds seconds = .ok count) :
    (seconds * ofNat 1000).isFinite = true ∧ NearestEven (seconds * ofNat 1000).value count := by
  obtain ⟨hfinite, hnonneg⟩ := milliseconds_domain h
  have thousand : IsWhole 1000 (ofNat 1000) := isWhole_ofNat (by decide)
  rw [milliseconds_eq hfinite hnonneg] at h
  split at h
  · next k hround =>
    obtain rfl := Except.ok.inj h
    have hproduct := isFinite_of_round hround
    have nearest := round_nearest hround
    have hpos : 0 ≤ (seconds * ofNat 1000).value := by
      have product := abs_le.mp (mul_near hfinite thousand hproduct)
      rw [abs_of_nonneg (by positivity)] at product
      have hshare : seconds.value * (1000 : Nat) / 2 ^ 53 ≤ seconds.value * (1000 : Nat) :=
        div_le_self (by positivity) (by norm_num)
      linarith
    have hk : 0 ≤ k := (NearestEven.of_whole 0).mono nearest (by exact_mod_cast hpos)
    rw [Int.toNat_of_nonneg hk]
    exact ⟨hproduct, nearest⟩
  · cases h

/-- Half a millisecond for the whole number, and one rounding for the product. -/
theorem milliseconds_near (h : milliseconds seconds = .ok count) :
    |(count : ℚ) - 1000 * seconds.value| ≤ 1 / 2 + 1000 * seconds.value / 2 ^ 53 := by
  obtain ⟨hfinite, hnonneg⟩ := milliseconds_domain h
  obtain ⟨hproduct, nearest⟩ := milliseconds_nearest h
  have thousand : IsWhole 1000 (ofNat 1000) := isWhole_ofNat (by decide)
  have product := abs_le.mp (mul_near hfinite thousand hproduct)
  have whole := abs_le.mp nearest.near
  rw [abs_of_nonneg (by positivity), mul_comm, Nat.cast_ofNat] at product
  rw [Int.cast_natCast] at whole
  generalize (seconds * ofNat 1000).value = p at product whole
  rw [abs_le]
  constructor <;> linarith

theorem milliseconds_mono {other : Binary64} {more : Nat} (h : milliseconds seconds = .ok count)
    (hother : milliseconds other = .ok more) (hle : le seconds other = true) : count ≤ more := by
  obtain ⟨hproduct, nearest⟩ := milliseconds_nearest h
  obtain ⟨hproductToo, nearestToo⟩ := milliseconds_nearest hother
  have products := mul_whole_mono (milliseconds_domain h).1 (milliseconds_domain hother).1
    (isWhole_ofNat (by decide : 1000 ≤ 2 ^ 53)) hle
  rw [le_iff hproduct hproductToo] at products
  exact_mod_cast nearest.mono nearestToo products

theorem milliseconds_finite {r : Nat} {hr : r < rankLimit}
    (h : milliseconds (.finite false r hr) = .ok count) :
    count = roundHalfEven (unitsAt (nearestRank (unitsAt r * 1000) 1)) unitsPerOne := by
  obtain ⟨hfinite, hnonneg⟩ := milliseconds_domain h
  rw [milliseconds_eq hfinite hnonneg,
    finite_mul_whole false hr (isWhole_ofNat (by decide : 1000 ≤ 2 ^ 53)), ofUnits, ofRank] at h
  split at h
  · next k hround =>
    obtain rfl := Except.ok.inj h
    split at hround
    · next hlimit =>
      rw [round_finite] at hround
      rw [← Except.ok.inj hround, Int.toNat_natCast]
    · cases hround
  · cases h

/-- A time counts no milliseconds if it is half a millisecond or less. -/
theorem milliseconds_eq_zero_iff (hpos : 0 < seconds.value) (h : milliseconds seconds = .ok count) :
    count = 0 ↔ le seconds (ofQuotient 1 2000) = true := by
  obtain ⟨hfinite, -⟩ := milliseconds_domain h
  obtain ⟨half, hlimit, hhalf, hbelow, habove⟩ := exists_half
  cases seconds with
  | finite s r hr =>
    obtain rfl := sign_of_pos (value_pos_iff.mp hpos)
    have order : le (.finite false r hr) (ofQuotient 1 2000) = true ↔ r ≤ half := by
      rw [hhalf, Binary64.le, Binary64.compare, ordinal?, ordinal?]
      simp
    rw [order, milliseconds_finite h, roundHalfEven_eq_zero_iff unitsPerOne_pos]
    generalize unitsPerOne = one at hbelow habove ⊢
    constructor
    · intro hcount
      by_contra hmore
      have hnext : half + 1 ≤ r := not_le.mp hmore
      have hunits := unitsAt_strictMono.monotone (nearestRank_mono Nat.one_pos
        (Nat.mul_le_mul_right 1000 (unitsAt_strictMono.monotone hnext)))
      omega
    · intro hrank
      have hunits := unitsAt_strictMono.monotone (nearestRank_mono Nat.one_pos
        (Nat.mul_le_mul_right 1000 (unitsAt_strictMono.monotone hrank)))
      exact (Nat.mul_le_mul_left 2 hunits).trans hbelow
  | infinity s => cases hfinite
  | nan => cases hfinite

/-- A time is written in fields that are in their ranges, for the thousandfold as a number rounded
to a whole one, a half to the even neighbour. Of two times the texts are the same if they have the
same milliseconds, and the later one has no fewer of them. -/
theorem format_encodes (hfinite : seconds.isFinite = true) (hnonneg : 0 ≤ seconds.value)
    (hproduct : (seconds * ofNat 1000).isFinite = true) : ∃ (text : String) (fields : Fields),
    format seconds = .ok text ∧ text.toList = fields.text ∧ fields.Proper ∧
      read? text = some fields.count ∧
      NearestEven (seconds * ofNat 1000).value fields.count ∧
      |(fields.count : ℚ) - 1000 * seconds.value| ≤ 1 / 2 + 1000 * seconds.value / 2 ^ 53 ∧
      ∀ other otherText, format other = .ok otherText →
        ∃ count, read? otherText = some count ∧ NearestEven (other * ofNat 1000).value count ∧
          (otherText = text ↔ count = fields.count) ∧
          (le seconds other = true → fields.count ≤ count) := by
  obtain ⟨text, htext⟩ := format_ok hfinite hnonneg hproduct
  obtain ⟨count, hcount, hwritten⟩ := format_written htext
  have layout := Fields.toList_ofMilliseconds count
  have exact := Fields.count_ofCount count
  rw [hwritten] at layout
  refine ⟨text, Fields.ofCount count, htext, layout, Fields.proper_ofCount count,
    Fields.read?_eq (Fields.proper_ofCount count) layout, ?_⟩
  rw [exact]
  refine ⟨(milliseconds_nearest hcount).2, milliseconds_near hcount, ?_⟩
  intro other otherText hother
  obtain ⟨more, hmore, rfl⟩ := format_written hother
  refine ⟨more, read?_ofMilliseconds more, (milliseconds_nearest hmore).2, ?_,
    milliseconds_mono hcount hmore⟩
  rw [← hwritten]
  constructor
  · intro hsame
    have hread := read?_ofMilliseconds more
    rw [hsame, read?_ofMilliseconds count] at hread
    exact (Option.some.inj hread).symm
  · rintro rfl
    rfl

/-- Less than half a millisecond before the minute. -/
theorem format_encodes_minute : format (ofQuotient 599996 10000) = .ok "00:01:00.000" ∧
    NearestEven (ofQuotient 599996 10000 * ofNat 1000).value 60000 ∧
    |(60000 : ℚ) - 1000 * (ofQuotient 599996 10000).value|
      ≤ 1 / 2 + 1000 * (ofQuotient 599996 10000).value / 2 ^ 53 := by
  have written : format (ofQuotient 599996 10000) = .ok "00:01:00.000" := by decide +kernel
  have nonneg : 0 ≤ (ofQuotient 599996 10000).value :=
    value_nonneg_iff.mpr (by decide +kernel)
  obtain ⟨text, fields, htext, -, -, hread, hnearest, hnear, -⟩ :=
    format_encodes (by decide +kernel) nonneg (by decide +kernel)
  obtain rfl := Except.ok.inj (written.symm.trans htext)
  have minute : read? "00:01:00.000" = some 60000 := by decide
  rw [← Option.some.inj (minute.symm.trans hread)] at hnearest hnear
  exact ⟨written, hnearest, hnear⟩

end Numbers

end ClipRender.Timestamp
