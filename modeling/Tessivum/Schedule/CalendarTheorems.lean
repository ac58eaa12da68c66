/-
Tessivum.Schedule.CalendarTheorems — an instant reads back as it was written.

`parse_formatInstant` is the round trip over the whole representable range; the
two halves of it are the calendar (`civilFromDays_spec`) and the decimal
fields.
-/
import Tessivum.Schedule.Calendar

namespace Tessivum.Schedule

open Library

/-! ## The calendar round trip -/

theorem checkedI64_eq {n : Int} (h : -2 ^ 63 ≤ n ∧ n < 2 ^ 63) : checkedI64 n = some n := if_pos h

variable {doe yoe day month year millis : Int} {cs : List Char}

theorem yearOfEra_bounds (h0 : 0 ≤ doe) (h1 : doe < 146097) :
    0 ≤ (doe - doe / 1460 + doe / 36524 - doe / 146096) / 365 ∧
      (doe - doe / 1460 + doe / 36524 - doe / 146096) / 365 < 400 := by
  omega

/-- The year of an era, by the four-year cycle its day falls into: it is
`4 * c + t` for a `t` from `-1` to `3`. -/
theorem yearOfEra_parts (h0 : 0 ≤ doe) (h1 : doe < 146097)
    (hyoe : yoe = (doe - doe / 1460 + doe / 36524 - doe / 146096) / 365) :
    ∃ t, (t = -1 ∨ t = 0 ∨ t = 1 ∨ t = 2 ∨ t = 3) ∧ yoe = 4 * (doe / 1460) + t ∧
      yoe / 4 = doe / 1460 + t / 4 ∧ yoe / 100 = doe / 36524 - doe / 146096 ∧
      0 ≤ doe / 36524 ∧ doe / 36524 ≤ 4 := by
  obtain ⟨d, hd⟩ : ∃ d, d = doe / 36524 := ⟨_, rfl⟩
  obtain ⟨e, he⟩ : ∃ e, e = doe / 146096 := ⟨_, rfl⟩
  obtain ⟨c, hc⟩ : ∃ c, c = doe / 1460 := ⟨_, rfl⟩
  obtain ⟨t, ht⟩ : ∃ t, t = yoe - 4 * c := ⟨_, rfl⟩
  have hcentury : d = 0 ∨ d = 1 ∨ d = 2 ∨ d = 3 ∨ d = 4 := by omega
  have hyear : t = -1 ∨ t = 0 ∨ t = 1 ∨ t = 2 ∨ t = 3 := by omega
  have hleap : yoe / 4 = c + t / 4 := by omega
  have hcenturies : yoe / 100 = d - e := by
    rcases hcentury with h | h | h | h | h <;> omega
  rw [← hd, ← he, ← hc]
  exact ⟨t, hyear, by omega, hleap, hcenturies, by omega⟩

theorem dayOfYear_bounds (h0 : 0 ≤ doe) (h1 : doe < 146097)
    (hyoe : yoe = (doe - doe / 1460 + doe / 36524 - doe / 146096) / 365) :
    0 ≤ doe - (365 * yoe + yoe / 4 - yoe / 100) ∧
      doe - (365 * yoe + yoe / 4 - yoe / 100) ≤ 365 := by
  obtain ⟨t, hyear, hsplit, hleap, hcenturies, -⟩ := yearOfEra_parts h0 h1 hyoe
  rw [hcenturies, hleap]
  rcases hyear with h | h | h | h | h <;> subst h <;> omega

theorem daysFromCivil_eq {era doy mp : Int} (hera : 0 ≤ era) (hyoe : 0 ≤ yoe ∧ yoe < 400)
    (hdoy : 0 ≤ doy ∧ doy ≤ 365) (hmp : mp = (5 * doy + 2) / 153)
    (hmonth : month = mp + if mp < 10 then 3 else -9) (hday : day = doy - (153 * mp + 2) / 5 + 1)
    (hyear : year = yoe + era * 400 + if month ≤ 2 then 1 else 0) :
    daysFromCivil year month day
      = era * 146097 + (yoe * 365 + yoe / 4 - yoe / 100 + doy) - 719468 := by
  have hshift : year - (if month ≤ 2 then 1 else 0) = yoe + era * 400 := by omega
  have hprime : month + (if month > 2 then -3 else 9) = mp := by
    split at hmonth <;> split <;> omega
  have hdiv : (yoe + era * 400).tdiv 400 = era := by
    rw [Int.tdiv_eq_ediv_of_nonneg (by omega)]
    omega
  unfold daysFromCivil
  dsimp only
  rw [hshift, hprime, if_pos (by omega), hdiv]
  have hrest : yoe + era * 400 - era * 400 = yoe := by omega
  rw [hrest]
  omega

/-- The steps of `civilFromDays`. -/
theorem civilFromDays_steps {days : Int} (h0 : -719162 ≤ days)
    (h : civilFromDays days = (year, month, day)) :
    ∃ era doe yoe doy mp : Int, era = (days + 719468) / 146097 ∧ doe = days + 719468 - era * 146097 ∧
      yoe = (doe - doe / 1460 + doe / 36524 - doe / 146096) / 365 ∧
      doy = doe - (365 * yoe + yoe / 4 - yoe / 100) ∧ mp = (5 * doy + 2) / 153 ∧
      (mp + if mp < 10 then 3 else -9) = month ∧ doy - (153 * mp + 2) / 5 + 1 = day ∧
      (yoe + era * 400 + if month ≤ 2 then 1 else 0) = year := by
  unfold civilFromDays at h
  dsimp only at h
  rw [if_pos (by omega), Int.tdiv_eq_ediv_of_nonneg (by omega)] at h
  simp only [Prod.mk.injEq] at h
  obtain ⟨hy, hm, hd⟩ := h
  rw [hm] at hy
  exact ⟨_, _, _, _, _, rfl, rfl, rfl, rfl, rfl, hm, hd, hy⟩

/-- The date of a day number is in its bounds and has that number. -/
theorem civilFromDays_spec {days : Int} (h0 : -719162 ≤ days) (h1 : days ≤ 2932896)
    (h : civilFromDays days = (year, month, day)) :
    (1 ≤ year ∧ year ≤ 9999) ∧ (1 ≤ month ∧ month ≤ 12) ∧ (1 ≤ day ∧ day ≤ 31) ∧
      daysFromCivil year month day = days := by
  obtain ⟨era, doe, yoe, doy, mp, hera, hdoe, hyoe, hdoy, hmp, hm, hd, hy⟩ :=
    civilFromDays_steps h0 h
  have hdoe0 : 0 ≤ doe := by omega
  have hdoe1 : doe < 146097 := by omega
  have hyear := yearOfEra_bounds hdoe0 hdoe1
  rw [← hyoe] at hyear
  have hdays := dayOfYear_bounds hdoe0 hdoe1 hyoe
  rw [← hdoy] at hdays
  have hback := daysFromCivil_eq (by omega) hyear hdays hmp hm.symm hd.symm hy.symm
  have hmonths : 0 ≤ mp ∧ mp ≤ 11 := by omega
  have hmonth : 1 ≤ month ∧ month ≤ 12 := by
    split at hm <;> omega
  refine ⟨⟨?_, ?_⟩, hmonth, by omega, by omega⟩
  · -- Era 0 starts in March of year 0; the range in January of year 1.
    by_contra hlow
    have hfirst : era = 0 ∧ yoe = 0 := by omega
    rw [hfirst.2] at hdoy
    split at hm <;> omega
  · -- The range ends in December of year 9999, before that of era 24.
    by_contra hhigh
    have hlast : era = 24 ∧ yoe = 399 := by omega
    rw [hlast.2] at hdoy
    split at hm <;> omega

theorem instant_day (h : minInstantMs ≤ millis ∧ millis ≤ maxInstantMs) :
    -719162 ≤ millis / 86400000 ∧ millis / 86400000 ≤ 2932896 := by
  unfold minInstantMs maxInstantMs at h
  omega

theorem calendarMillis_fields (h : minInstantMs ≤ millis ∧ millis ≤ maxInstantMs)
    (hcivil : civilFromDays (millis / 86400000) = (year, month, day)) :
    calendarMillis
      { year, month, day, hour := millis % 86400000 / 3600000
        minute := millis % 86400000 / 60000 % 60, second := millis % 86400000 / 1000 % 60
        millis := millis % 86400000 % 1000 } = some millis := by
  obtain ⟨h0, h1⟩ := instant_day h
  obtain ⟨hyear, hmonth, _, hback⟩ := civilFromDays_spec h0 h1 hcivil
  have hwhole : checkedI64 (millis / 86400000 * 86400000) = some (millis / 86400000 * 86400000) :=
    checkedI64_eq (by omega)
  have hsum : millis / 86400000 * 86400000 + (millis % 86400000 / 3600000 * 3600000
      + millis % 86400000 / 60000 % 60 * 60000 + millis % 86400000 / 1000 % 60 * 1000
      + millis % 86400000 % 1000) = millis := by omega
  have hmillis : checkedI64 millis = some millis := checkedI64_eq (by
    unfold minInstantMs maxInstantMs at h
    omega)
  unfold calendarMillis
  dsimp only
  rw [if_neg (by omega), hback]
  simp only [hwhole, Option.bind_eq_bind, Option.bind_some, hsum, hmillis, hcivil, h, and_self,
    if_true]

/-! ## The text round trip -/

theorem exists_four (h : cs.length = 4) : ∃ a b c d, cs = [a, b, c, d] :=
  match cs, h with
  | [a, b, c, d], _ => ⟨a, b, c, d, rfl⟩

theorem exists_three (h : cs.length = 3) : ∃ a b c, cs = [a, b, c] :=
  match cs, h with
  | [a, b, c], _ => ⟨a, b, c, rfl⟩

theorem exists_two (h : cs.length = 2) : ∃ a b, cs = [a, b] :=
  match cs, h with
  | [a, b], _ => ⟨a, b, rfl⟩

/-- A text with fields in their bounds is read field by field. -/
theorem parseInstant_text {year month day hour minute second millis : Nat}
    (hyear : year < 10000) (hmonth : month < 100) (hday : day < 100) (hhour : hour < 100)
    (hminute : minute < 100) (hsecond : second < 100) (hmillis : millis < 1000) :
    parseInstant (String.ofList (instantText year month day hour minute second millis))
      = (calendarMillis
          { year := year, month := month, day := day, hour := hour, minute := minute
            second := second, millis := millis }).bind fun instant =>
          if formatInstant instant
              = some (String.ofList (instantText year month day hour minute second millis)) then
            some instant
          else none := by
  obtain ⟨y₁, y₂, y₃, y₄, hy⟩ := exists_four (length_padded (by decide) hyear)
  obtain ⟨m₁, m₂, hm⟩ := exists_two (length_padded (by decide) hmonth)
  obtain ⟨d₁, d₂, hd⟩ := exists_two (length_padded (by decide) hday)
  obtain ⟨h₁, h₂, hh⟩ := exists_two (length_padded (by decide) hhour)
  obtain ⟨n₁, n₂, hn⟩ := exists_two (length_padded (by decide) hminute)
  obtain ⟨s₁, s₂, hs⟩ := exists_two (length_padded (by decide) hsecond)
  obtain ⟨i₁, i₂, i₃, hi⟩ := exists_three (length_padded (by decide) hmillis)
  have hy' := hy ▸ readDigits_padded 4 year
  have hm' := hm ▸ readDigits_padded 2 month
  have hd' := hd ▸ readDigits_padded 2 day
  have hh' := hh ▸ readDigits_padded 2 hour
  have hn' := hn ▸ readDigits_padded 2 minute
  have hs' := hs ▸ readDigits_padded 2 second
  have hi' := hi ▸ readDigits_padded 3 millis
  have htext : instantText year month day hour minute second millis
      = [y₁, y₂, y₃, y₄, '-', m₁, m₂, '-', d₁, d₂, 'T', h₁, h₂, ':', n₁, n₂, ':', s₁, s₂, '.',
          i₁, i₂, i₃, 'Z'] := by
    simp [instantText, hy, hm, hd, hh, hn, hs, hi]
  unfold parseInstant
  rw [htext]
  simp [digitsAt, hy', hm', hd', hh', hn', hs', hi']

theorem parse_formatInstant {text : String} (h : formatInstant millis = some text) :
    parseInstant text = some millis := by
  have hformat := h
  unfold formatInstant at h
  split at h
  · cases h
  · rename_i hrange
    have hrange := not_not.mp hrange
    obtain ⟨year, month, day, hcivil⟩ : ∃ year month day,
        civilFromDays (millis / 86400000) = (year, month, day) := ⟨_, _, _, rfl⟩
    obtain ⟨h0, h1⟩ := instant_day hrange
    obtain ⟨hyear, hmonth, hday, _⟩ := civilFromDays_spec h0 h1 hcivil
    have hfields := calendarMillis_fields hrange hcivil
    simp only [hcivil, Option.some.injEq] at h
    subst h
    rw [parseInstant_text (by omega) (by omega) (by omega) (by omega) (by omega) (by omega)
      (by omega)]
    simp only [Int.toNat_of_nonneg (show 0 ≤ year by omega),
      Int.toNat_of_nonneg (show 0 ≤ month by omega), Int.toNat_of_nonneg (show 0 ≤ day by omega),
      Int.toNat_of_nonneg (show 0 ≤ millis % 86400000 / 3600000 by omega),
      Int.toNat_of_nonneg (show 0 ≤ millis % 86400000 / 60000 % 60 by omega),
      Int.toNat_of_nonneg (show 0 ≤ millis % 86400000 / 1000 % 60 by omega),
      Int.toNat_of_nonneg (show 0 ≤ millis % 86400000 % 1000 by omega), hfields,
      Option.bind_some, hformat, if_true]

end Tessivum.Schedule
