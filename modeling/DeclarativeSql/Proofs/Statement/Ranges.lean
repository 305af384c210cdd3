import DeclarativeSql.Proofs.Statement.Parts
import DeclarativeSql.Proofs.Text.Numerals
import DeclarativeSql.Proofs.Text.Pieces

/-!
# Ranges keep their instants

`ranges_keep_their_instants`: a range of instants whose bounds have dates is compiled to a range of
dates in which each of the instants falls; then every instant between the bounds has a date too. A
bound without a date is a panic, which UTC never meets. The offsets that the bounds were written
with play no role, and the two dates can be told from the texts that stand in the statement.
-/

namespace DeclarativeSql

-- ---------------------------------------------------------------------------
-- Texts of dates
-- ---------------------------------------------------------------------------

theorem Date.toList_plainText (date : Date) :
    date.plainText.toList =
      ((toString date.year).toList ++ '-' :: Nat.toDigits 10 date.month) ++
        '-' :: Nat.toDigits 10 date.day := by
  simp only [plainText, String.toList_append, Text.toList_natText, List.append_assoc]
  rfl

/-- Read from the end: a year may begin with a minus of its own. -/
theorem Date.plainText_injective : Function.Injective Date.plainText := by
  intro date other h
  have hdigit (n : Nat) : '-' ∉ Nat.toDigits 10 n := Text.notMem_toDigits (by decide) n
  have ht := congrArg String.toList h
  rw [toList_plainText, toList_plainText, Text.append_cons_inj (hdigit _) (hdigit _),
    Text.append_cons_inj (hdigit _) (hdigit _), String.toList_inj] at ht
  obtain ⟨⟨hy, hm⟩, hd⟩ := ht
  rw [Date.mk.injEq]
  exact ⟨Text.intText_injective hy, Text.toDigits_injective hm, Text.toDigits_injective hd⟩

-- ---------------------------------------------------------------------------
-- Fragments of ranges
-- ---------------------------------------------------------------------------

/-- The date of an instant does not know the offset that the instant was written with. -/
theorem Timestamp.dateIn?_congr {zone zone' : Zone} {time time' : Timestamp}
    (hz : zone.offset = zone'.offset) (ht : time.instant = time'.instant) :
    time.dateIn? zone = time'.dateIn? zone' := by
  have hs : time.seconds = time'.seconds := congrArg (fun instant => (ofLex instant).1) ht
  rw [dateIn?, dateIn?, dateAt, dateAt, hz, hs]

theorem Interval.compile_range_congr {options options' : StatementOptions}
    {bounds bounds' : DateRange} (hc : options.dateColumn = options'.dateColumn)
    (hz : options.zone.offset = options'.zone.offset)
    (hf : bounds.first.instant = bounds'.first.instant)
    (hl : bounds.last.instant = bounds'.last.instant) :
    (Interval.range bounds).compile options = (Interval.range bounds').compile options' := by
  simp only [compile, boundText, hc, Timestamp.dateIn?_congr hz hf, Timestamp.dateIn?_congr hz hl]

theorem ranges_keep_their_instants (options : StatementOptions) (bounds : DateRange) :
    (bounds.first.HasDate options.zone → bounds.last.HasDate options.zone →
      ∃ first last : Date,
        (Interval.range bounds).compile options =
            .ok (Fragment.between options.dateColumn first last) ∧
          ∀ time : Timestamp, bounds.first.instant ≤ time.instant →
            time.instant ≤ bounds.last.instant → ∃ date, time.dateIn? options.zone = some date ∧
              time.FallsOn options.zone date ∧
              first.triple ≤ date.triple ∧ date.triple ≤ last.triple) ∧
    (¬ (bounds.first.HasDate options.zone ∧ bounds.last.HasDate options.zone) →
      (Interval.range bounds).compile options = .error .panicked) ∧
    (options.zone.offset = 0 →
      bounds.first.HasDate options.zone ∧ bounds.last.HasDate options.zone) ∧
    (∀ (options' : StatementOptions) (bounds' : DateRange),
      options.dateColumn = options'.dateColumn → options.zone.offset = options'.zone.offset →
        bounds.first.instant = bounds'.first.instant →
          bounds.last.instant = bounds'.last.instant →
            (Interval.range bounds).compile options = (Interval.range bounds').compile options') ∧
    ∀ date other : Date, date.plainText = other.plainText → date = other := by
  refine ⟨fun hfirst hlast => ?_, fun hn => Interval.compile_error.mpr ⟨hn, rfl⟩, fun hz => ?_,
    fun _ _ => Interval.compile_range_congr, fun _ _ h => Date.plainText_injective h⟩
  · obtain ⟨first, hf⟩ := Timestamp.hasDate_iff.mp hfirst
    obtain ⟨last, hl⟩ := Timestamp.hasDate_iff.mp hlast
    have hfalls := (Timestamp.dateIn?_eq_some.mp hf).1
    have hfalls' := (Timestamp.dateIn?_eq_some.mp hl).1
    refine ⟨first, last, Interval.compile_range_ok.mpr ⟨first, last, hf, hl, rfl⟩, ?_⟩
    intro time h h'
    obtain ⟨date, hd⟩ := Timestamp.hasDate_iff.mp (hfirst.between hlast h h')
    have hday := (Timestamp.dateIn?_eq_some.mp hd).1
    exact ⟨date, hd, hday, Timestamp.triple_le_of_instant_le hfalls hday h,
      Timestamp.triple_le_of_instant_le hday hfalls' h'⟩
  · exact ⟨Timestamp.hasDate_of_offset_eq_zero hz _, Timestamp.hasDate_of_offset_eq_zero hz _⟩

/-- From the end of February to the beginning of March 2000, half past nine behind UTC. The instant
lies in the last second of the leap day. -/
theorem ranges_keep_their_instants_of_leap_day :
    let options : StatementOptions := { zone := .fixed (-34200) }
    let bounds : DateRange :=
      ⟨⟨951782400, 0, 0, by decide⟩, ⟨951903000, 0, 19800, by decide⟩⟩
    let moved : DateRange :=
      ⟨⟨951782400, 0, -34200, by decide⟩, ⟨951903000, 0, 0, by decide⟩⟩
    let time : Timestamp := ⟨951902999, 1500000000, 0, by decide⟩
    bounds.first.HasDate options.zone ∧ bounds.last.HasDate options.zone ∧
      bounds.first.instant ≤ time.instant ∧ time.instant ≤ bounds.last.instant ∧
      (∃ first last : Date, (Interval.range bounds).compile options =
          .ok (Fragment.between options.dateColumn first last) ∧
        time.FallsOn options.zone ⟨2000, 2, 29⟩ ∧
        first.triple ≤ Date.triple ⟨2000, 2, 29⟩ ∧ Date.triple ⟨2000, 2, 29⟩ ≤ last.triple) ∧
      (Interval.range bounds).compile options = (Interval.range moved).compile options := by
  intro options bounds moved time
  have hfirst : bounds.first.HasDate options.zone :=
    Timestamp.hasDate_iff.mpr ⟨⟨2000, 2, 28⟩, by decide⟩
  have hlast : bounds.last.HasDate options.zone :=
    Timestamp.hasDate_iff.mpr ⟨⟨2000, 3, 1⟩, by decide⟩
  have hf : bounds.first.instant ≤ time.instant := by decide
  have hl : time.instant ≤ bounds.last.instant := by decide
  have hday : time.dateIn? options.zone = some ⟨2000, 2, 29⟩ := by decide
  obtain ⟨hinside, -, -, hmoved, -⟩ := ranges_keep_their_instants options bounds
  obtain ⟨first, last, hb, ht⟩ := hinside hfirst hlast
  obtain ⟨date, hd, hfalls, hle, hle'⟩ := ht time hf hl
  obtain rfl : date = ⟨2000, 2, 29⟩ := Option.some.inj (hd.symm.trans hday)
  exact ⟨hfirst, hlast, hf, hl, ⟨first, last, hb, hfalls, hle, hle'⟩,
    hmoved options moved rfl rfl rfl rfl⟩

theorem range_without_date :
    ¬ ∀ (options : StatementOptions) (bounds : DateRange), ∃ first last : Date,
      (Interval.range bounds).compile options =
        .ok (Fragment.between options.dateColumn first last) := by
  intro h
  let options : StatementOptions := { zone := .fixed 19800 }
  have hz : 0 < options.zone.offset := by decide
  obtain ⟨first, last, hc⟩ := h options ⟨.lastSecond, .lastSecond⟩
  have hp : (Interval.range ⟨.lastSecond, .lastSecond⟩).compile options = .error .panicked :=
    Interval.compile_error.mpr ⟨fun hd => Timestamp.not_hasDate_lastSecond hz hd.1, rfl⟩
  rw [hp] at hc
  cases hc

end DeclarativeSql
