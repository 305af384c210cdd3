import Mathlib.Data.List.Induction
import Mathlib.Data.List.TakeWhile
import DeclarativeSql.Calendar.Timestamp
import DeclarativeSql.Proofs.Calendar.Dates
import DeclarativeSql.Proofs.Statement.Compiled

/-!
# Timestamps read back

The text of a timestamp is read as the same timestamp if its offset is one of whole minutes, its
years are in range and a thousand million nanoseconds or more stand only at the end of a
minute. Timestamps that are read are of this kind, `sound_of_ofText?`.
-/

namespace DeclarativeSql

-- ---------------------------------------------------------------------------
-- Digits
-- ---------------------------------------------------------------------------

namespace Date

theorem toList_padded (width number : Nat) :
    (padded width number).toList =
      List.replicate (width - (Nat.toDigits 10 number).length) '0' ++ Nat.toDigits 10 number := by
  simp [padded, toString, ← String.length_toList, Nat.toList_repr]

theorem isDigit_padded (width number : Nat) : ∀ c ∈ (padded width number).toList,
    c.isDigit = true := by
  intro c hc
  rw [toList_padded] at hc
  obtain hc | hc := List.mem_append.mp hc
  · rw [List.eq_of_mem_replicate hc]
    rfl
  · exact Nat.isDigit_of_mem_toDigits (by omega) (by omega) hc

theorem length_padded {width number : Nat} (hw : 0 < width) (h : number < 10 ^ width) :
    (padded width number).toList.length = width := by
  have := (Nat.length_toDigits_le_iff (b := 10) (by omega) hw).mpr h
  rw [toList_padded, List.length_append, List.length_replicate]
  omega

theorem padded_ne_nil (width number : Nat) : (padded width number).toList ≠ [] := by
  rw [toList_padded]
  exact List.append_ne_nil_of_right_ne_nil _ Nat.toDigits_ne_nil

end Date

namespace Timestamp

theorem decimalValue_eq (digits : List Char) :
    decimalValue digits = Nat.ofDigitChars 10 digits 0 := by
  rw [Nat.ofDigitChars_eq_foldl]
  rfl

theorem decimalValue_padded (width number : Nat) :
    decimalValue (Date.padded width number).toList = number := by
  rw [decimalValue_eq, Date.toList_padded, Nat.ofDigitChars_append]
  simp

/-- Digits are read as a whole, up to a width or to something else. -/
theorem scanDigits?_append {width : Nat} {digits : List Char}
    (hd : ∀ c ∈ digits, c.isDigit = true) (hn : digits ≠ []) (rest : List Char)
    (hw : digits.length = width ∨
      digits.length ≤ width ∧ ∀ c ∈ rest.head?, c.isDigit = false) :
    scanDigits? width (digits ++ rest) = some (digits, rest) := by
  have hrest : (rest.take (width - digits.length)).takeWhile Char.isDigit = [] := by
    obtain rfl | ⟨_, hr⟩ := hw
    · simp
    · cases rest with
      | nil => simp
      | cons c rest => cases width - digits.length <;> simp [hr c rfl]
  have hall : ((digits ++ rest).take width).takeWhile Char.isDigit = digits := by
    rw [List.take_append, List.take_of_length_le (by omega), List.takeWhile_append_of_pos hd,
      hrest, List.append_nil]
  simp only [scanDigits?, hall, List.drop_left]

-- ---------------------------------------------------------------------------
-- Numbers and separators
-- ---------------------------------------------------------------------------

theorem dropBlank_cons {c : Char} (h : Text.isBlankChar c = false) (s : List Char) :
    Text.dropBlank (c :: s) = c :: s := by
  simp [Text.dropBlank, h]

theorem not_blank_of_isDigit {c : Char} (h : c.isDigit = true) : Text.isBlankChar c = false := by
  have : 48 ≤ c.toNat ∧ c.toNat ≤ 57 := Char.isDigit_iff_toNat.mp h
  simp only [Text.isBlankChar, Text.blankRanges, List.any_cons, List.any_nil, Bool.or_false,
    Bool.or_eq_false_iff, Bool.and_eq_false_iff, decide_eq_false_iff_not]
  omega

theorem dropBlank_padded (width number : Nat) (rest : List Char) :
    Text.dropBlank ((Date.padded width number).toList ++ rest) =
      (Date.padded width number).toList ++ rest := by
  obtain ⟨c, s, hs⟩ := List.exists_cons_of_ne_nil (Date.padded_ne_nil width number)
  have hc : c.isDigit = true :=
    Date.isDigit_padded width number c (hs ▸ List.mem_cons_self)
  rw [hs, List.cons_append, dropBlank_cons (not_blank_of_isDigit hc)]

theorem scanNumber?_padded {number : Nat} (h : number < 100) (rest : List Char) :
    scanNumber? ((Date.padded 2 number).toList ++ rest) = some (number, rest) := by
  have hd := scanDigits?_append (Date.isDigit_padded 2 number)
    (Date.padded_ne_nil 2 number) rest (.inl (Date.length_padded (by omega) h))
  rw [scanNumber?, dropBlank_padded, hd]
  exact congrArg (fun n => some (n, rest)) (decimalValue_padded 2 number)

theorem scanSeparator?_self {separator : Char} (h : Text.isBlankChar separator = false)
    (rest : List Char) : scanSeparator? separator (separator :: rest) = some rest := by
  rw [scanSeparator?, dropBlank_cons h]
  exact if_pos rfl

-- ---------------------------------------------------------------------------
-- Dates
-- ---------------------------------------------------------------------------

theorem scanYear?_plus (s : List Char) :
    scanYear? ('+' :: s) =
      (scanDigits? s.length s).bind fun found => some ((decimalValue found.1 : Int), found.2) :=
  rfl

theorem scanYear?_minus (s : List Char) :
    scanYear? ('-' :: s) =
      (scanDigits? s.length s).bind fun found => some (-(decimalValue found.1 : Int), found.2) :=
  rfl

theorem scanYear?_digit {c : Char} (h : c.isDigit = true) (s : List Char) :
    scanYear? (c :: s) =
      (scanDigits? 4 (c :: s)).bind fun found => some ((decimalValue found.1 : Int), found.2) := by
  rw [scanYear?, dropBlank_cons (not_blank_of_isDigit h)]
  split
  · rename_i he
    cases he
    cases h
  · rename_i he
    cases he
    cases h
  · rfl

theorem scanYear?_yearText (year : Int) (rest : List Char) :
    scanYear? ((Date.yearText year).toList ++ '-' :: rest) = some (year, '-' :: rest) := by
  have hsigned (n : Nat) : scanDigits? ((Date.padded 4 n).toList ++ '-' :: rest).length
      ((Date.padded 4 n).toList ++ '-' :: rest) = some ((Date.padded 4 n).toList, '-' :: rest) :=
    scanDigits?_append (Date.isDigit_padded 4 n) (Date.padded_ne_nil 4 n) _
      (.inr ⟨by simp, by simp⟩)
  unfold Date.yearText
  split
  · rename_i h
    simp only [Bool.and_eq_true, decide_eq_true_eq] at h
    have hd := scanDigits?_append (Date.isDigit_padded 4 year.toNat)
      (Date.padded_ne_nil 4 year.toNat) ('-' :: rest)
      (.inl (Date.length_padded (by omega) (by omega)))
    obtain ⟨c, s, hs⟩ := List.exists_cons_of_ne_nil (Date.padded_ne_nil 4 year.toNat)
    have hc : c.isDigit = true := Date.isDigit_padded 4 year.toNat c (hs ▸ List.mem_cons_self)
    have hv := decimalValue_padded 4 year.toNat
    rw [hs, List.cons_append] at hd
    rw [hs] at hv
    rw [hs, List.cons_append, scanYear?_digit hc, hd, Option.bind_some, hv, Int.toNat_of_nonneg h.1]
  · rw [String.toList_append, List.append_assoc]
    split
    · rw [show ("-" : String).toList = ['-'] from rfl, List.singleton_append, scanYear?_minus,
        hsigned, Option.bind_some, decimalValue_padded]
      congr 2
      omega
    · rw [show ("+" : String).toList = ['+'] from rfl, List.singleton_append, scanYear?_plus,
        hsigned, Option.bind_some, decimalValue_padded]
      congr 2
      omega

theorem scanDate?_isoText {date : Date} (h : date.isValid = true) (rest : List Char) :
    scanDate? (date.isoText.toList ++ 'T' :: rest) = some (date, 'T' :: rest) := by
  obtain ⟨hm, hm', hd, hd'⟩ := (Date.isValid_iff date).mp h
  have hday : date.day < 100 := by
    have : Date.daysInMonth date.year date.month ≤ 31 := by
      unfold Date.daysInMonth
      split_ifs <;> omega
    omega
  have hdash : Text.isBlankChar '-' = false := by decide
  simp only [Date.isoText, String.toList_append, List.append_assoc,
    show ("-" : String).toList = ['-'] from rfl, List.cons_append, List.nil_append]
  simp only [scanDate?, scanYear?_yearText, scanSeparator?_self hdash,
    scanNumber?_padded (show date.month < 100 by omega), scanNumber?_padded hday, bind,
    Option.bind_some]
  rfl

-- ---------------------------------------------------------------------------
-- Clocks
-- ---------------------------------------------------------------------------

theorem scanFraction?_point {digits rest : List Char} (hd : ∀ c ∈ digits, c.isDigit = true)
    (hn : digits ≠ []) (hl : digits.length ≤ 9) (hr : ∀ c ∈ rest.head?, c.isDigit = false) :
    scanFraction? ('.' :: (digits ++ rest)) =
      some (decimalValue digits * Nat.pow 10 (9 - digits.length), rest) := by
  have hrest : rest.dropWhile Char.isDigit = rest := by
    cases rest with
    | nil => rfl
    | cons c rest => simp [hr c rfl]
  rw [scanFraction?, scanDigits?_append hd hn rest (.inr ⟨hl, hr⟩)]
  exact congrArg (fun tail => some (decimalValue digits * Nat.pow 10 (9 - digits.length), tail))
    hrest

/-- Three, six or nine digits of a fraction. -/
theorem scanFraction?_padded {width value : Nat} (hw : 0 < width) (hl : width ≤ 9)
    (h : value < 10 ^ width) {rest : List Char} (hr : ∀ c ∈ rest.head?, c.isDigit = false) :
    scanFraction? (("." ++ Date.padded width value).toList ++ rest) =
      some (value * Nat.pow 10 (9 - width), rest) := by
  have hlength := Date.length_padded hw h
  have hp := scanFraction?_point (Date.isDigit_padded width value)
    (Date.padded_ne_nil width value) (by omega) hr
  rw [decimalValue_padded, hlength] at hp
  rw [String.toList_append]
  exact hp

theorem scanFraction?_absent {rest : List Char} (h : ∀ c ∈ rest.head?, c ≠ '.') :
    scanFraction? rest = some (0, rest) := by
  unfold scanFraction?
  split
  · exact absurd rfl (h _ rfl)
  · rfl

theorem scanFraction?_fractionText {nanoseconds : Nat} (h : nanoseconds < 1000000000)
    {rest : List Char} (hr : ∀ c ∈ rest.head?, c.isDigit = false ∧ c ≠ '.') :
    scanFraction? ((fractionText nanoseconds).toList ++ rest) = some (nanoseconds, rest) := by
  have hdigit : ∀ c ∈ rest.head?, c.isDigit = false := fun c hc => (hr c hc).1
  unfold fractionText
  split
  · rename_i hz
    rw [hz]
    exact scanFraction?_absent fun c hc => (hr c hc).2
  · split
    · have hs : nanoseconds / 1000000 * Nat.pow 10 (9 - 3) = nanoseconds :=
        Nat.div_mul_cancel (Nat.dvd_of_mod_eq_zero ‹_›)
      rw [scanFraction?_padded (by omega) (by omega) (by omega) hdigit, hs]
    · split
      · have hs : nanoseconds / 1000 * Nat.pow 10 (9 - 6) = nanoseconds :=
          Nat.div_mul_cancel (Nat.dvd_of_mod_eq_zero ‹_›)
        rw [scanFraction?_padded (by omega) (by omega) (by omega) hdigit, hs]
      · rw [scanFraction?_padded (by omega) (by omega) h hdigit]
        exact congrArg (fun value => some (value, rest)) (Nat.mul_one nanoseconds)

/-- The clock of a day, with a second more at the end of a leap minute. -/
theorem scanClock?_text {clock nanoseconds leap : Nat} (hc : clock < 86400)
    (hn : nanoseconds < 1000000000) (hl : leap = 0 ∨ leap = 1 ∧ clock % 60 = 59)
    {rest : List Char} (hr : ∀ c ∈ rest.head?, c.isDigit = false ∧ c ≠ '.') :
    scanClock? ((Date.padded 2 (clock / 3600)).toList ++ ':' ::
      ((Date.padded 2 (clock / 60 % 60)).toList ++ ':' ::
        ((Date.padded 2 (clock % 60 + leap)).toList ++
          ((fractionText nanoseconds).toList ++ rest)))) =
      some (clock, leap * leapSecond + nanoseconds, rest) := by
  have hcolon : Text.isBlankChar ':' = false := by decide
  have hguard : (decide (clock / 3600 < 24) && decide (clock / 60 % 60 < 60) &&
      decide (clock % 60 + leap ≤ 60)) = true := by
    simp only [Bool.and_eq_true, decide_eq_true_eq]
    omega
  simp only [scanClock?, scanNumber?_padded (show clock / 3600 < 100 by omega),
    scanNumber?_padded (show clock / 60 % 60 < 100 by omega),
    scanNumber?_padded (show clock % 60 + leap < 100 by omega), scanSeparator?_self hcolon,
    scanFraction?_fractionText hn hr, bind, Option.bind_some, hguard, guard, if_true]
  obtain rfl | ⟨rfl, hlast⟩ := hl
  · have hs : clock / 3600 * 3600 + clock / 60 % 60 * 60 + clock % 60 = clock := by omega
    rw [if_neg (by omega)]
    simp [hs]
  · have hs : clock / 3600 * 3600 + clock / 60 % 60 * 60 + 59 = clock := by omega
    rw [if_pos (by omega)]
    simp [hs]

-- ---------------------------------------------------------------------------
-- Zones
-- ---------------------------------------------------------------------------

/-- Two padded digits, one by one. -/
theorem exists_padded_two {number : Nat} (h : number < 100) :
    ∃ a b : Char, (Date.padded 2 number).toList = [a, b] ∧ a.isDigit = true ∧ b.isDigit = true ∧
      (a.toNat - 0x30) * 10 + (b.toNat - 0x30) = number := by
  have hl : (Date.padded 2 number).toList.length = 2 := Date.length_padded (by omega) h
  obtain ⟨a, b, hs⟩ := List.length_eq_two.mp hl
  have hd := Date.isDigit_padded 2 number
  have hv := decimalValue_padded 2 number
  rw [hs] at hd hv
  refine ⟨a, b, hs, hd a (by simp), hd b (by simp), ?_⟩
  simp only [decimalValue, List.foldl_cons, List.foldl_nil] at hv
  omega

theorem scanHours_padded {number : Nat} (h : number < 100) (rest : List Char) :
    Zone.scanHours ((Date.padded 2 number).toList ++ rest) = .ok (number, rest) := by
  obtain ⟨a, b, hs, ha, hb, hv⟩ := exists_padded_two h
  rw [hs]
  simp only [Zone.scanHours, Zone.scanTwo, List.cons_append, List.nil_append, bind, Except.bind,
    ha, hb, hv]
  rfl

theorem scanMinutes_padded {number : Nat} (h : number < 60) (rest : List Char) :
    Zone.scanMinutes ((Date.padded 2 number).toList ++ rest) = .ok (number, rest) := by
  simp only [Zone.scanMinutes, scanHours_padded (show number < 100 by omega), bind, Except.bind,
    if_pos h]
  rfl

theorem scanOffset_text {sign : Char} {factor : Int}
    (hs : ∀ s, Zone.scanSign (sign :: s) = .ok (factor, s)) {minutes : Nat}
    (hm : minutes < 1440) :
    Zone.scanOffset (sign :: ((Date.padded 2 (minutes / 60)).toList ++ ':' ::
      (Date.padded 2 (minutes % 60)).toList)) = .ok (factor * (minutes * 60 : Nat), []) := by
  have hskip : (':' :: (Date.padded 2 (minutes % 60)).toList).dropWhile
      (fun c => c = ':' || Text.isBlankChar c) = (Date.padded 2 (minutes % 60)).toList ++ [] := by
    obtain ⟨a, b, hp, ha, hb, -⟩ := exists_padded_two (show minutes % 60 < 100 by omega)
    have hcolon : a ≠ ':' := by
      rintro rfl
      cases ha
    simp [hp, hcolon, not_blank_of_isDigit ha]
  have hsum : minutes / 60 * 3600 + minutes % 60 * 60 = minutes * 60 := by omega
  simp only [Zone.scanOffset, hs, scanHours_padded (show minutes / 60 < 100 by omega), hskip,
    scanMinutes_padded (show minutes % 60 < 60 by omega), bind, Except.bind, hsum]
  rfl

theorem scanZone?_signed {sign : Char} (h : sign = '+' ∨ sign = '-') (s : List Char) :
    scanZone? (sign :: s) = (Zone.scanOffset (sign :: s)).toOption := by
  have hutc : ∀ rest, ((sign :: s).take 3).map Text.lowerAscii ≠ 'u' :: rest := by
    intro rest he
    have hlower : Text.lowerAscii sign = 'u' := (List.cons.inj he).1
    obtain rfl | rfl := h <;> exact absurd hlower (by decide)
  unfold scanZone?
  split
  · rename_i he
    obtain rfl | rfl := h <;> cases he
  · rename_i he
    obtain rfl | rfl := h <;> cases he
  · split
    · rename_i he
      exact absurd he (hutc _)
    · rfl

theorem scanZone?_offsetText {offset : Int} (hm : offset % 60 = 0)
    (hd : Zone.isInDay offset = true) :
    scanZone? (offsetText offset).toList = some (offset, []) := by
  unfold offsetText
  split
  · rename_i hz
    rw [hz]
    rfl
  · have hlt : offset.natAbs < 86400 := of_decide_eq_true hd
    simp only [String.toList_append, List.append_assoc, show (":" : String).toList = [':'] from rfl,
      List.cons_append, List.nil_append]
    split
    · rw [show ("-" : String).toList = ['-'] from rfl, List.singleton_append,
        scanZone?_signed (.inr rfl), scanOffset_text (fun _ => rfl) (by omega)]
      refine congrArg (fun value => some (value, [])) ?_
      omega
    · rw [show ("+" : String).toList = ['+'] from rfl, List.singleton_append,
        scanZone?_signed (.inl rfl), scanOffset_text (fun _ => rfl) (by omega)]
      refine congrArg (fun value => some (value, [])) ?_
      omega

-- ---------------------------------------------------------------------------
-- Timestamps
-- ---------------------------------------------------------------------------

/-- What is known of a timestamp that was read. -/
structure Sound (time : Timestamp) : Prop where
  offset_minutes : time.offset % 60 = 0
  offset_inDay : Zone.isInDay time.offset = true
  nanoseconds : time.nanoseconds < leapSecond ∨
    time.nanoseconds < 2 * leapSecond ∧ (time.seconds + time.offset) % 60 = 59
  inRange_local : (time.dateAt time.offset).isInRange = true

/-- The text of the timestamp is read as the same timestamp. -/
def ReadsBack (time : Timestamp) : Prop :=
  ofText? time.text = some time

theorem offsetText_start (offset : Int) : ∃ c s, (offsetText offset).toList = c :: s ∧
    Text.isBlankChar c = false ∧ c.isDigit = false ∧ c ≠ '.' := by
  unfold offsetText
  split
  · exact ⟨'Z', [], rfl, by decide, by decide, by decide⟩
  · simp only [String.toList_append, List.append_assoc]
    split
    · exact ⟨'-', _, rfl, by decide, by decide, by decide⟩
    · exact ⟨'+', _, rfl, by decide, by decide, by decide⟩

theorem head_offsetText (offset : Int) :
    ∀ c ∈ (offsetText offset).toList.head?, c.isDigit = false ∧ c ≠ '.' := by
  obtain ⟨c, s, hs, _, hdigit, hpoint⟩ := offsetText_start offset
  rw [hs]
  rintro _ ⟨⟩
  exact ⟨hdigit, hpoint⟩

theorem dropBlank_offsetText (offset : Int) :
    Text.dropBlank (offsetText offset).toList = (offsetText offset).toList := by
  obtain ⟨c, s, hs, hblank, _⟩ := offsetText_start offset
  rw [hs, dropBlank_cons hblank]

/-- The nanoseconds are a fraction of a second, behind the leap second if there is one. -/
theorem leap_add_fraction {nanoseconds clock : Nat} (h : nanoseconds < leapSecond ∨
    nanoseconds < 2 * leapSecond ∧ clock % 60 = 59) :
    ∃ leap fraction, (if leapSecond ≤ nanoseconds then 1 else 0) = leap ∧
      (if leapSecond ≤ nanoseconds then nanoseconds - leapSecond else nanoseconds) = fraction ∧
      fraction < 1000000000 ∧ leap * leapSecond + fraction = nanoseconds ∧
      (leap = 0 ∨ leap = 1 ∧ clock % 60 = 59) := by
  have hls : leapSecond = 1000000000 := rfl
  refine ⟨_, _, rfl, rfl, ?_⟩
  split <;> omega

/-- The local day and the time on it are the local time. -/
theorem dayNumber_add_clock (time : Timestamp) :
    (time.dateAt time.offset).dayNumber * Zone.secondsPerDay +
      ((time.seconds + time.offset) % Zone.secondsPerDay).toNat - time.offset = time.seconds := by
  have hspd : (Zone.secondsPerDay : Int) = 86400 := rfl
  rw [dateAt, Date.dayNumber_ofDayNumber, hspd]
  omega

theorem ofSeconds?_eq_some {seconds offset : Int} {nanoseconds : Nat} :
    ofSeconds? seconds nanoseconds offset = some time ↔
      time.seconds = seconds ∧ time.nanoseconds = nanoseconds ∧ time.offset = offset := by
  unfold ofSeconds?
  constructor
  · intro h
    split at h
    · cases h
      exact ⟨rfl, rfl, rfl⟩
    · cases h
  · rintro ⟨rfl, rfl, rfl⟩
    exact dif_pos time.inRange

theorem Sound.readsBack {time : Timestamp} (h : time.Sound) : time.ReadsBack := by
  obtain ⟨hminutes, hinDay, hnano, hlocal⟩ := h
  have hspd : (Zone.secondsPerDay : Int) = 86400 := rfl
  have htime := dayNumber_add_clock time
  obtain ⟨clock, hclock⟩ :
      ∃ clock, ((time.seconds + time.offset) % Zone.secondsPerDay).toNat = clock := ⟨_, rfl⟩
  obtain ⟨hday, hlast⟩ :
      clock < 86400 ∧ ((time.seconds + time.offset) % 60 = 59 → clock % 60 = 59) := by
    rw [hspd] at hclock
    omega
  obtain ⟨leap, fraction, hleap, hfraction, hlt, hsum, hl⟩ :=
    leap_add_fraction (hnano.imp_right (And.imp_right hlast))
  have hvalid : (time.dateAt time.offset).isValid = true := Date.isValid_ofDayNumber _
  have hdate := scanDate?_isoText hvalid
  have hclocktext := scanClock?_text hday hlt hl (head_offsetText time.offset)
  have hzone := scanZone?_offsetText hminutes hinDay
  have hguard : ([].all Text.isBlankChar &&
      (time.dateAt time.offset).isValid &&
      (time.dateAt time.offset).isInRange && Zone.isInDay time.offset) = true := by
    rw [hvalid, hlocal, hinDay]
    rfl
  rw [hclock] at htime
  simp only [ReadsBack, ofText?, text, hclock, hleap, hfraction, String.toList_append,
    List.append_assoc, show ("T" : String).toList = ['T'] from rfl,
    show (":" : String).toList = [':'] from rfl, List.cons_append, List.nil_append, hdate,
    hclocktext, dropBlank_offsetText, hzone, hsum, bind, Option.bind_some, htime, hguard, guard,
    if_true]
  exact ofSeconds?_eq_some.mpr ⟨rfl, rfl, rfl⟩

-- ---------------------------------------------------------------------------
-- Timestamps that are read
-- ---------------------------------------------------------------------------

theorem decimalValue_lt {digits : List Char} (h : ∀ c ∈ digits, c.isDigit = true) :
    decimalValue digits < 10 ^ digits.length := by
  induction digits using List.reverseRecOn with
  | nil => exact Nat.one_pos
  | append_singleton digits c ih =>
    obtain ⟨hd, hc⟩ := List.forall_mem_append.mp h
    have hlt : c.toNat ≤ 57 := (Char.isDigit_iff_toNat.mp (hc c List.mem_cons_self)).2
    have hv : decimalValue (digits ++ [c]) = 10 * decimalValue digits + (c.toNat - 0x30) := by
      simp [decimalValue]
    have := ih hd
    rw [hv, List.length_append, List.length_singleton, Nat.pow_succ]
    omega

theorem scanDigits?_spec {width : Nat} {s digits rest : List Char}
    (h : scanDigits? width s = some (digits, rest)) :
    digits.length ≤ width ∧ decimalValue digits < 10 ^ digits.length := by
  unfold scanDigits? at h
  split at h
  · cases h
  · cases h
    refine ⟨?_, decimalValue_lt fun c hc => List.mem_takeWhile_imp hc⟩
    exact ((List.takeWhile_prefix _).length_le.trans (List.length_take_le _ _))

theorem scanFraction?_lt {s rest : List Char} {nanoseconds : Nat}
    (h : scanFraction? s = some (nanoseconds, rest)) : nanoseconds < leapSecond := by
  unfold scanFraction? at h
  split at h
  · obtain ⟨⟨digits, tail⟩, hd, h⟩ := Option.bind_eq_some_iff.mp h
    cases h
    obtain ⟨hl, hv⟩ := scanDigits?_spec hd
    calc decimalValue digits * Nat.pow 10 (9 - digits.length)
        < 10 ^ digits.length * 10 ^ (9 - digits.length) :=
          Nat.mul_lt_mul_of_pos_right hv (Nat.pow_pos (by omega))
      _ = leapSecond := by
          rw [← Nat.pow_add, Nat.add_sub_cancel' hl]
          rfl
  · cases h
    decide

theorem of_guard {p : Prop} [Decidable p] {done : Unit}
    (h : (guard p : Option Unit) = some done) : p := by
  by_contra hp
  simp [guard, hp] at h

theorem scanClock?_spec {s rest : List Char} {clock nanoseconds : Nat}
    (h : scanClock? s = some (clock, nanoseconds, rest)) :
    clock < 86400 ∧ (nanoseconds < leapSecond ∨
      nanoseconds < 2 * leapSecond ∧ clock % 60 = 59) := by
  obtain ⟨⟨hour, _⟩, _, h⟩ := Option.bind_eq_some_iff.mp h
  obtain ⟨_, _, h⟩ := Option.bind_eq_some_iff.mp h
  obtain ⟨⟨minute, _⟩, _, h⟩ := Option.bind_eq_some_iff.mp h
  obtain ⟨_, _, h⟩ := Option.bind_eq_some_iff.mp h
  obtain ⟨⟨second, _⟩, _, h⟩ := Option.bind_eq_some_iff.mp h
  obtain ⟨⟨fraction, _⟩, hf, h⟩ := Option.bind_eq_some_iff.mp h
  obtain ⟨_, hg, h⟩ := Option.bind_eq_some_iff.mp h
  have hlt := scanFraction?_lt hf
  have hrange := of_guard hg
  simp only [Bool.and_eq_true, decide_eq_true_eq] at hrange
  simp only [leapSecond] at hlt h ⊢
  split at h <;> cases h <;> omega

theorem scanOffset_minutes {s rest : List Char} {offset : Int}
    (h : Zone.scanOffset s = .ok (offset, rest)) : offset % 60 = 0 := by
  obtain ⟨⟨sign, _⟩, hs, h⟩ := bind_ok.mp h
  obtain ⟨⟨hours, _⟩, _, h⟩ := bind_ok.mp h
  obtain ⟨⟨minutes, _⟩, _, h⟩ := bind_ok.mp h
  cases h
  exact Int.emod_eq_zero_of_dvd (Int.dvd_mul_of_dvd_right (by omega))

/-- The offset of a zone that is read has whole minutes. -/
theorem scanZone?_minutes {s rest : List Char} {offset : Int}
    (h : scanZone? s = some (offset, rest)) : offset % 60 = 0 := by
  unfold scanZone? at h
  split at h
  · cases h
    rfl
  · cases h
    rfl
  · split at h
    · cases h
      rfl
    · cases ho : Zone.scanOffset s with
      | error e => simp [ho, Except.toOption] at h
      | ok found =>
        simp only [ho, Except.toOption, Option.some.injEq] at h
        exact scanOffset_minutes (h ▸ ho)

theorem sound_of_scan {time : Timestamp} {date : Date} {clock : Nat} {s s' rest rest' : List Char}
    (hclock : scanClock? s = some (clock, time.nanoseconds, rest))
    (hzone : scanZone? s' = some (time.offset, rest')) (hvalid : date.isValid = true)
    (hrange : date.isInRange = true) (hday : Zone.isInDay time.offset = true)
    (hs : time.seconds = date.dayNumber * Zone.secondsPerDay + clock - time.offset) :
    time.Sound := by
  obtain ⟨hlt, hnano⟩ := scanClock?_spec hclock
  have hspd : (Zone.secondsPerDay : Int) = 86400 := rfl
  have hlocal : (time.seconds + time.offset) / Zone.secondsPerDay = date.dayNumber := by
    rw [hs, hspd]
    omega
  refine ⟨scanZone?_minutes hzone, hday, ?_, ?_⟩
  · rw [hs, hspd]
    obtain h | ⟨h, hlast⟩ := hnano
    · exact .inl h
    · refine .inr ⟨h, ?_⟩
      omega
  · rw [dateAt, hlocal, Date.ofDayNumber_dayNumber hvalid]
    exact hrange

theorem sound_of_ofText? {text : String} {time : Timestamp} (h : ofText? text = some time) :
    time.Sound := by
  obtain ⟨⟨date, _⟩, _, h⟩ := Option.bind_eq_some_iff.mp h
  dsimp only at h
  split at h
  case h_4 => cases h
  all_goals
    obtain ⟨_, _, h⟩ := Option.bind_eq_some_iff.mp h
    obtain ⟨⟨clock, nanoseconds, _⟩, hc, h⟩ := Option.bind_eq_some_iff.mp h
    obtain ⟨⟨offset, _⟩, hz, h⟩ := Option.bind_eq_some_iff.mp h
    obtain ⟨_, hg, h⟩ := Option.bind_eq_some_iff.mp h
    obtain ⟨hs, rfl, rfl⟩ := ofSeconds?_eq_some.mp h
    have hg := of_guard hg
    simp only [Bool.and_eq_true] at hg
    obtain ⟨⟨⟨_, hvalid⟩, hrange⟩, hday⟩ := hg
    exact sound_of_scan hc hz hvalid hrange hday hs

end Timestamp

end DeclarativeSql
