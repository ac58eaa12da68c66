/-
Tessivum.Schedule.InstantTheorems — the instants of the schedule are those of
the Gregorian calendar.

§1 compares the era arithmetic of `days_from_civil` and `civil_from_days` with
the counting of `Library.Calendar`: they are inverse to one another on the
dates there are. §2 draws the same conclusion for instants and their texts:
`parse_instant` accepts exactly the texts of real dates and times
(`parseInstant_eq_some`), and a later instant has the later text
(`formatInstant_lt`).
-/
import Tessivum.Library.Calendar
import Tessivum.Schedule.RecordTheorems

namespace Tessivum.Schedule

open Library Library.Gregorian

/-! ## §1 Days -/

theorem dayOfYear_last {doe yoe : Int} (h0 : 0 ≤ doe) (h1 : doe < 146097)
    (hyoe : yoe = (doe - doe / 1460 + doe / 36524 - doe / 146096) / 365)
    (hlast : doe - (365 * yoe + yoe / 4 - yoe / 100) = 365) :
    (yoe + 1) % 4 = 0 ∧ ((yoe + 1) % 100 ≠ 0 ∨ (yoe + 1) % 400 = 0) := by
  obtain ⟨t, hyear, hsplit, hleap, hcenturies, hd0, hd4⟩ := yearOfEra_parts h0 h1 hyoe
  rw [hcenturies, hleap] at hlast
  have hcentury : doe / 36524 = 0 ∨ doe / 36524 = 1 ∨ doe / 36524 = 2 ∨ doe / 36524 = 3
      ∨ doe / 36524 = 4 := by omega
  rcases hyear with h | h | h | h | h <;> subst h <;>
    rcases hcentury with h | h | h | h | h <;> omega

variable {month day year : Nat} {millis : Int} {s t : List Char}

theorem daysThroughMonth_eq (year : Nat) (h1 : 1 ≤ month) (h12 : month ≤ 12) :
    (daysThroughMonth year (month - 1) : Int) =
      (153 * ((month : Int) + if (month : Int) > 2 then -3 else 9) + 2) / 5 +
        if month ≤ 2 then -306 else if isLeap year then 60 else 59 := by
  by_cases h : isLeap year <;> interval_cases month <;> simp [daysThroughMonth, monthLength, h]

theorem daysFromCivil_eq_dayNumber (h : RealDate year month day) :
    daysFromCivil year month day = (dayNumber year month day : Int) - 719162 := by
  have hmonths := daysThroughMonth_eq year h.month_pos h.month_le
  have hyears := daysThroughYear_eq (year - 1)
  obtain ⟨hyear, -, -, hday, -⟩ := h
  unfold daysFromCivil dayNumber
  dsimp only
  push_cast
  rw [hmonths, hyears]
  by_cases hm : month ≤ 2
  · have hm' : (month : Int) ≤ 2 := by omega
    rw [if_pos hm, if_pos hm', if_pos (by omega), Int.tdiv_eq_ediv_of_nonneg (by omega)]
    omega
  · have hm' : ¬ (month : Int) ≤ 2 := by omega
    rw [if_neg hm, if_neg hm', if_pos (by omega), Int.tdiv_eq_ediv_of_nonneg (by omega)]
    by_cases hl : isLeap year
    · rw [if_pos hl]
      unfold isLeap at hl
      omega
    · rw [if_neg hl]
      unfold isLeap at hl
      omega

/-- The date of a day number is the real one. -/
theorem civilFromDays_real {days : Int} (h0 : -719162 ≤ days) (h1 : days ≤ 2932896) :
    ∃ year month day : Nat, civilFromDays days = (↑year, ↑month, ↑day) ∧ year ≤ 9999 ∧
      RealDate year month day ∧ days = (dayNumber year month day : Int) - 719162 := by
  obtain ⟨y, m, d, hcivil⟩ : ∃ y m d, civilFromDays days = (y, m, d) := ⟨_, _, _, rfl⟩
  obtain ⟨hyear, hmonth, hday, hback⟩ := civilFromDays_spec h0 h1 hcivil
  obtain ⟨year, rfl⟩ := Int.eq_ofNat_of_zero_le (show 0 ≤ y by omega)
  obtain ⟨month, rfl⟩ := Int.eq_ofNat_of_zero_le (show 0 ≤ m by omega)
  obtain ⟨day, rfl⟩ := Int.eq_ofNat_of_zero_le (show 0 ≤ d by omega)
  have hreal : RealDate year month day := by
    refine ⟨by omega, by omega, by omega, by omega, ?_⟩
    obtain ⟨era, doe, yoe, doy, mp, hera, hdoe, hyoe, hdoy, hmp, hm, hd, hy⟩ :=
      civilFromDays_steps h0 hcivil
    have hdoe0 : 0 ≤ doe := by omega
    have hdoe1 : doe < 146097 := by omega
    have hbounds := dayOfYear_bounds hdoe0 hdoe1 hyoe
    have hlast := dayOfYear_last hdoe0 hdoe1 hyoe
    rw [← hdoy] at hbounds hlast
    have hprime : mp < 10 ∧ (month : Int) = mp + 3 ∨ 10 ≤ mp ∧ (month : Int) = mp - 9 := by
      split at hm <;> omega
    clear hback hera hdoe hyoe hdoe0 hdoe1 h0 h1 hm
    by_cases hfebruary : month = 2
    · subst hfebruary
      rw [if_pos (by decide)] at hy
      rw [monthLength]
      by_cases hl : isLeap year
      · rw [if_pos hl]
        omega
      · rw [if_neg hl]
        -- the 29th would be the last day of a year counted from March
        have hnot : doy ≠ 365 := by
          intro h365
          have hleap := hlast h365
          refine hl ⟨by omega, ?_⟩
          omega
        omega
    · have hlow : 1 ≤ month := by omega
      have hhigh : month ≤ 12 := by omega
      clear hy hlast hyear
      interval_cases month <;> simp only [monthLength] <;> omega
  refine ⟨year, month, day, hcivil, by omega, hreal, ?_⟩
  rw [← daysFromCivil_eq_dayNumber hreal, hback]

theorem dayNumber_bounds (h : RealDate year month day) (hyear : year ≤ 9999) :
    -719162 ≤ (dayNumber year month day : Int) - 719162 ∧
      (dayNumber year month day : Int) - 719162 ≤ 2932896 := by
  have hlast := lt_of_lt_of_le h.lt_year (daysThroughYear_mono hyear)
  rw [daysThroughYear_eq 9999] at hlast
  omega

theorem civilFromDays_dayNumber (h : RealDate year month day) (hyear : year ≤ 9999) :
    civilFromDays ((dayNumber year month day : Int) - 719162) = (↑year, ↑month, ↑day) := by
  obtain ⟨h0, h1⟩ := dayNumber_bounds h hyear
  obtain ⟨year', month', day', hcivil, -, h', hdays⟩ := civilFromDays_real h0 h1
  obtain ⟨rfl, rfl, rfl⟩ := dayNumber_injective h h' (by omega)
  exact hcivil

/-! ## §2 Instants -/

/-- The fields of a date and time of day. -/
structure Fields where
  year : Nat
  month : Nat
  day : Nat
  hour : Nat
  minute : Nat
  second : Nat
  millis : Nat
  deriving DecidableEq, Repr

/-- A date there is, of the years one to 9999, and a time of day. -/
structure Fields.Real (f : Fields) : Prop where
  date : RealDate f.year f.month f.day
  year_le : f.year ≤ 9999
  hour_lt : f.hour < 24
  minute_lt : f.minute < 60
  second_lt : f.second < 60
  millis_lt : f.millis < 1000

def Fields.ofDay (f : Fields) : Nat :=
  f.hour * 3600000 + f.minute * 60000 + f.second * 1000 + f.millis

/-- The milliseconds from the start of 1970, which is day 719162. -/
def Fields.instant (f : Fields) : Int :=
  ((dayNumber f.year f.month f.day : Int) - 719162) * 86400000 + f.ofDay

def Fields.text (f : Fields) : String :=
  String.ofList (instantText f.year f.month f.day f.hour f.minute f.second f.millis)

def Fields.calendar (f : Fields) : Calendar :=
  { year := f.year, month := f.month, day := f.day, hour := f.hour, minute := f.minute
    second := f.second, millis := f.millis }

variable {f : Fields}

theorem Fields.Real.ofDay_lt (h : f.Real) : f.ofDay < 86400000 := by
  obtain ⟨-, -, hhour, hminute, hsecond, hmillis⟩ := h
  unfold Fields.ofDay
  omega

theorem Fields.Real.instant_split (h : f.Real) :
    f.instant / 86400000 = (dayNumber f.year f.month f.day : Int) - 719162 ∧
      f.instant % 86400000 = f.ofDay := by
  have hlt := h.ofDay_lt
  unfold Fields.instant
  omega

theorem Fields.Real.range (h : f.Real) : minInstantMs ≤ f.instant ∧ f.instant ≤ maxInstantMs := by
  obtain ⟨h0, h1⟩ := dayNumber_bounds h.date h.year_le
  have hlt := h.ofDay_lt
  unfold Fields.instant minInstantMs maxInstantMs
  omega

theorem formatInstant_instant {f : Fields} (h : f.Real) :
    formatInstant f.instant = some f.text := by
  obtain ⟨hday, htime⟩ := h.instant_split
  unfold formatInstant
  rw [if_neg (not_not.mpr h.range), hday, htime, civilFromDays_dayNumber h.date h.year_le]
  obtain ⟨-, -, hhour, hminute, hsecond, hmillis⟩ := h
  unfold Fields.text Fields.ofDay
  dsimp only
  rw [Int.toNat_natCast, Int.toNat_natCast, Int.toNat_natCast]
  congr 2
  congr 1 <;> omega

theorem exists_fields (h : minInstantMs ≤ millis ∧ millis ≤ maxInstantMs) :
    ∃ f : Fields, f.Real ∧ f.instant = millis := by
  obtain ⟨h0, h1⟩ := instant_day h
  obtain ⟨year, month, day, -, hyear, hdate, hdays⟩ := civilFromDays_real h0 h1
  refine ⟨⟨year, month, day, (millis % 86400000 / 3600000).toNat,
    (millis % 86400000 / 60000 % 60).toNat, (millis % 86400000 / 1000 % 60).toNat,
    (millis % 86400000 % 1000).toNat⟩, ⟨hdate, hyear, ?_, ?_, ?_, ?_⟩, ?_⟩
  · dsimp only; omega
  · dsimp only; omega
  · dsimp only; omega
  · dsimp only; omega
  · unfold Fields.instant Fields.ofDay
    dsimp only
    rw [← hdays]
    push_cast
    omega

/-- Which fields have an instant, and which one. -/
theorem calendarMillis_eq_some :
    calendarMillis f.calendar = some millis ↔ f.Real ∧ millis = f.instant := by
  constructor
  · intro h
    unfold calendarMillis Fields.calendar at h
    dsimp only at h
    split at h
    · cases h
    next hfields =>
      simp only [not_or, not_not] at hfields
      simp only [bind_eq_bind, bind_eq_some_iff] at h
      obtain ⟨whole, hwhole, total, htotal, h⟩ := h
      split at h
      next hchecks =>
        obtain ⟨hcivil, hlow, hhigh⟩ := hchecks
        cases h
        have hwhole' : whole = daysFromCivil f.year f.month f.day * 86400000 := by
          unfold checkedI64 at hwhole
          split at hwhole
          · cases hwhole; rfl
          · cases hwhole
        have htotal' : millis = whole + (f.hour * 3600000 + f.minute * 60000
            + f.second * 1000 + f.millis) := by
          unfold checkedI64 at htotal
          split at htotal
          · cases htotal; rfl
          · cases htotal
        have hdays : -719162 ≤ daysFromCivil f.year f.month f.day ∧
            daysFromCivil f.year f.month f.day ≤ 2932896 := by
          unfold minInstantMs at hlow
          unfold maxInstantMs at hhigh
          omega
        obtain ⟨year, month, day, hcivil', -, hdate, -⟩ :=
          civilFromDays_real hdays.1 hdays.2
        rw [hcivil] at hcivil'
        simp only [Prod.mk.injEq, Int.natCast_inj] at hcivil'
        obtain ⟨rfl, rfl, rfl⟩ := hcivil'
        refine ⟨⟨hdate, by omega, by omega, by omega, by omega, by omega⟩, ?_⟩
        unfold Fields.instant Fields.ofDay
        rw [← daysFromCivil_eq_dayNumber hdate, htotal', hwhole']
        push_cast
        rfl
      next => cases h
  · rintro ⟨h, rfl⟩
    obtain ⟨hdate, hyear, hhour, hminute, hsecond, hmillis⟩ := id h
    obtain ⟨h0, h1⟩ := dayNumber_bounds hdate hyear
    have hrange := h.range
    have hmonth := hdate.month_le
    have hmonth' := hdate.month_pos
    have hyear' := hdate.year_pos
    have hlt := h.ofDay_lt
    unfold calendarMillis Fields.calendar
    dsimp only
    rw [if_neg (by omega), daysFromCivil_eq_dayNumber hdate]
    have hwhole : checkedI64 (((dayNumber f.year f.month f.day : Int) - 719162) * 86400000)
        = some (((dayNumber f.year f.month f.day : Int) - 719162) * 86400000) :=
      checkedI64_eq (by omega)
    have hsum : ((dayNumber f.year f.month f.day : Int) - 719162) * 86400000
        + (f.hour * 3600000 + f.minute * 60000 + f.second * 1000 + f.millis : Int)
          = f.instant := by
      unfold Fields.instant Fields.ofDay
      push_cast
      rfl
    have htotal : checkedI64 f.instant = some f.instant := checkedI64_eq (by
      unfold minInstantMs maxInstantMs at hrange
      omega)
    simp only [hwhole, bind_eq_bind, bind_some, hsum, htotal,
      civilFromDays_dayNumber hdate hyear, hrange, and_self, if_true]

theorem formatInstant_eq_some {millis : Int} {text : String} :
    formatInstant millis = some text ↔
      ∃ f : Fields, f.Real ∧ f.instant = millis ∧ f.text = text := by
  constructor
  · intro h
    obtain ⟨f, hreal, hinstant⟩ := exists_fields (formatInstant_range h)
    refine ⟨f, hreal, hinstant, ?_⟩
    rw [← hinstant, formatInstant_instant hreal] at h
    exact some.inj h
  · rintro ⟨f, hreal, rfl, rfl⟩
    exact formatInstant_instant hreal

theorem parseInstant_eq_some {text : String} {millis : Int} :
    parseInstant text = some millis ↔
      ∃ f : Fields, f.Real ∧ f.instant = millis ∧ f.text = text := by
  rw [← formatInstant_eq_some]
  exact ⟨format_parseInstant, parse_formatInstant⟩

theorem Fields.Real.small (h : f.Real) :
    f.year < 10 ^ 4 ∧ f.month < 10 ^ 2 ∧ f.day < 10 ^ 2 ∧ f.hour < 10 ^ 2 ∧ f.minute < 10 ^ 2 ∧
      f.second < 10 ^ 2 ∧ f.millis < 10 ^ 3 := by
  have hmonth := h.date.month_le
  have hlength : monthLength f.year f.month ≤ 31 := by
    unfold monthLength
    repeat' split
    all_goals omega
  have hday := h.date.day_le
  obtain ⟨-, hyear, hhour, hminute, hsecond, hmillis⟩ := h
  omega

theorem field_lt {width a b : Nat} (hw : 0 < width) (hb : b < 10 ^ width)
    (h : a < b ∨ a = b ∧ s < t) : padded width a ++ s < padded width b ++ t := by
  rcases h with hlt | ⟨rfl, hst⟩
  · have hlen : (padded width a).length = (padded width b).length := by
      rw [length_padded hw (hlt.trans hb), length_padded hw hb]
    exact append_lt_append hlen (padded_lt hw hb hlt) s t
  · exact List.append_left_lt hst

theorem mark_lt {c : Char} (h : s < t) : c :: s < c :: t :=
  List.cons_lt_cons_iff.mpr (.inr ⟨rfl, h⟩)

/-- Texts of instants are in the order of the instants. -/
theorem formatInstant_lt {millis millis' : Int} {text text' : String}
    (h : formatInstant millis = some text) (h' : formatInstant millis' = some text')
    (hlt : millis < millis') : text < text' := by
  obtain ⟨f, hf, rfl, rfl⟩ := formatInstant_eq_some.mp h
  obtain ⟨g, hg, rfl, rfl⟩ := formatInstant_eq_some.mp h'
  have hfday := hf.ofDay_lt
  have hgday := hg.ofDay_lt
  -- the date decides, and on one day the time
  have hdate : Earlier f.year f.month f.day g.year g.month g.day ∨
      (f.year = g.year ∧ f.month = g.month ∧ f.day = g.day) ∧ f.ofDay < g.ofDay := by
    unfold Fields.instant at hlt
    rcases Nat.lt_trichotomy (dayNumber f.year f.month f.day) (dayNumber g.year g.month g.day)
      with hearlier | hsame | _
    · exact .inl (earlier_of_dayNumber_lt hf.date hg.date hearlier)
    · exact .inr ⟨dayNumber_injective hf.date hg.date hsame, by omega⟩
    · omega
  obtain ⟨-, -, -, hfminute, hfsecond, hfmillis⟩ := hf
  obtain ⟨hyear, hmonth, hday, hhour, hminute, hsecond, hmillis⟩ := hg.small
  obtain ⟨-, -, -, hgminute, hgsecond, hgmillis⟩ := hg
  have hfields : f.year < g.year ∨ f.year = g.year ∧ (f.month < g.month ∨ f.month = g.month ∧
      (f.day < g.day ∨ f.day = g.day ∧ (f.hour < g.hour ∨ f.hour = g.hour ∧
        (f.minute < g.minute ∨ f.minute = g.minute ∧ (f.second < g.second ∨
          f.second = g.second ∧ f.millis < g.millis))))) := by
    unfold Earlier Fields.ofDay at hdate
    omega
  rw [String.lt_iff_toList_lt]
  unfold Fields.text instantText
  rw [String.toList_ofList, String.toList_ofList]
  refine field_lt (by decide) hyear (hfields.imp_right fun h => ⟨h.1, mark_lt ?_⟩)
  refine field_lt (by decide) hmonth (h.2.imp_right fun h => ⟨h.1, mark_lt ?_⟩)
  refine field_lt (by decide) hday (h.2.imp_right fun h => ⟨h.1, mark_lt ?_⟩)
  refine field_lt (by decide) hhour (h.2.imp_right fun h => ⟨h.1, mark_lt ?_⟩)
  refine field_lt (by decide) hminute (h.2.imp_right fun h => ⟨h.1, mark_lt ?_⟩)
  refine field_lt (by decide) hsecond (h.2.imp_right fun h => ⟨h.1, mark_lt ?_⟩)
  exact field_lt (by decide) hmillis (.inl h.2)

end Tessivum.Schedule
