/-
Tessivum.Schedule.OffsetTheorems — which date-times with a zone are accepted,
and for which instant.

§1 describes the match of the expression, §2 the zone. An accepted text is that
of a real date and time (`Fields.Real`) with a fraction and a zone, written in
ASCII digits whatever the expression takes for a digit, and its instant is that
of its fields less the offset (`parseOffsetInstant_eq_ok`).
-/
import Tessivum.Schedule.InstantTheorems
import Tessivum.Schedule.Offset

namespace Tessivum.Schedule

open Library Library.ByteText Protocol List

/-! ## §1 The match -/

variable {n width hours minutes : Nat} {rest zone field : List Char} {digits : Digits} {c : Char}
  {fraction : Option (List Char)} {groups : Captures} {east : Bool} {f : Fields}

theorem takeDigits_eq_some {text front : List Char} :
    takeDigits digits n text = some (front, rest) ↔
      text = front ++ rest ∧ front.length = n ∧ front.all digits.has = true := by
  unfold takeDigits
  constructor
  · intro h
    split at h
    next hfront =>
      cases h
      exact ⟨(take_append_drop n text).symm, hfront⟩
    next => cases h
  · rintro ⟨rfl, rfl, hall⟩
    rw [take_left, drop_left, if_pos ⟨rfl, hall⟩]

theorem takeMark_eq_some {mark : Char} {text : List Char} :
    takeMark mark text = some rest ↔ text = mark :: rest := by
  cases text with
  | nil => simp [takeMark]
  | cons c text =>
    rw [takeMark]
    by_cases hc : c = mark
    · simp [hc]
    · simp [hc]

def fractionText : Option (List Char) → List Char
  | none => []
  | some fraction => '.' :: fraction

def FractionFits (digits : Digits) : Option (List Char) → Prop
  | none => True
  | some fraction => fraction ≠ [] ∧ fraction.length ≤ 3 ∧ fraction.all digits.has = true

theorem isZone_head (h : isZone digits zone = true) :
    ∃ c rest, zone = c :: rest ∧ (c = 'Z' ∨ c = '+' ∨ c = '-') := by
  unfold isZone at h
  split at h
  next => exact ⟨'Z', [], rfl, .inl rfl⟩
  next sign h₁ h₂ mark m₁ m₂ =>
    refine ⟨sign, _, rfl, .inr ?_⟩
    simp only [and_eq_true, or_eq_true, beq_iff_eq] at h
    exact h.1.1.1.1.1
  next => cases h

theorem zone_not_digit (digits : Digits) (h : c = 'Z' ∨ c = '+' ∨ c = '-') :
    digits.has c = false := by
  rcases h with rfl | rfl | rfl <;> rw [digits.ascii _ (by decide)] <;> decide

/-- The fraction in front of a zone. -/
theorem takeFraction_eq {text : List Char} (hzone : isZone digits zone = true) :
    takeFraction digits text = (fraction, zone) ↔
      text = fractionText fraction ++ zone ∧ FractionFits digits fraction := by
  obtain ⟨first, tail, rfl, hfirst⟩ := isZone_head hzone
  constructor
  · intro h
    unfold takeFraction at h
    split at h
    next rest =>
      dsimp only at h
      split at h
      next hnil =>
        cases h
        exact ⟨rfl, trivial⟩
      next hne =>
        simp only [Prod.mk.injEq] at h
        obtain ⟨rfl, hrest⟩ := h
        have hlen : ((rest.take 3).takeWhile digits.has).length ≤ 3 :=
          (List.takeWhile_prefix _).length_le.trans (length_take_le 3 rest)
        have hall : ((rest.take 3).takeWhile digits.has).all digits.has = true :=
          all_takeWhile
        have hfront : (rest.take 3).takeWhile digits.has <+: rest :=
          (List.takeWhile_prefix _).trans (List.take_prefix 3 rest)
        generalize (rest.take 3).takeWhile digits.has = front at *
        obtain ⟨_, rfl⟩ := hfront
        rw [drop_left] at hrest
        exact ⟨by rw [fractionText, cons_append, hrest], hne, hlen, hall⟩
    next =>
      cases h
      exact ⟨rfl, trivial⟩
  · rintro ⟨rfl, hfits⟩
    cases fraction with
    | none =>
      have hdot : first ≠ '.' := by
        rcases hfirst with rfl | rfl | rfl <;> decide
      unfold takeFraction
      simp only [fractionText, nil_append]
      split
      next rest heq => exact absurd (cons.inj heq).1 hdot
      next => rfl
    | some fraction =>
      obtain ⟨hne, hlen, hall⟩ := hfits
      have htake : ((fraction ++ first :: tail).take 3).takeWhile digits.has = fraction := by
        rw [take_append, take_of_length_le hlen, takeWhile_append_of_pos]
        · cases hrest : (first :: tail).take (3 - fraction.length) with
          | nil => simp
          | cons c rest =>
            have hc : c = first := by
              cases h3 : 3 - fraction.length with
              | zero => rw [h3] at hrest; cases hrest
              | succ n => rw [h3] at hrest; exact (cons.inj hrest).1.symm
            rw [takeWhile_cons_of_neg, append_nil]
            rw [hc, zone_not_digit digits hfirst]
            decide
        · exact fun c hc => all_eq_true.mp hall c hc
      unfold takeFraction
      simp only [fractionText, cons_append, htake, if_neg hne, drop_left]

def Captures.text (groups : Captures) : List Char :=
  groups.year ++ '-' :: (groups.month ++ '-' :: (groups.day ++ 'T' :: (groups.hour ++ ':' ::
    (groups.minute ++ ':' :: (groups.second ++ (fractionText groups.fraction ++ groups.zone))))))

/-- What the expression asks of its groups. -/
structure Captures.Fit (digits : Digits) (groups : Captures) : Prop where
  year : groups.year.length = 4 ∧ groups.year.all digits.has = true
  month : groups.month.length = 2 ∧ groups.month.all digits.has = true
  day : groups.day.length = 2 ∧ groups.day.all digits.has = true
  hour : groups.hour.length = 2 ∧ groups.hour.all digits.has = true
  minute : groups.minute.length = 2 ∧ groups.minute.all digits.has = true
  second : groups.second.length = 2 ∧ groups.second.all digits.has = true
  fraction : FractionFits digits groups.fraction
  zone : isZone digits groups.zone = true

theorem captures_eq_some {text : List Char} :
    captures digits text = some groups ↔ text = groups.text ∧ groups.Fit digits := by
  unfold captures
  simp only [bind_eq_bind, bind_eq_some_iff, Prod.exists, takeDigits_eq_some,
    takeMark_eq_some]
  constructor
  · rintro ⟨_, _, ⟨rfl, hyear⟩, _, rfl, _, _, ⟨rfl, hmonth⟩, _, rfl, _, _, ⟨rfl, hday⟩,
      _, rfl, _, _, ⟨rfl, hhour⟩, _, rfl, _, _, ⟨rfl, hminute⟩, _, rfl, _, rest,
      ⟨rfl, hsecond⟩, h⟩
    generalize htail : takeFraction digits rest = tail at h
    obtain ⟨_, _⟩ := tail
    dsimp only at h
    split at h
    next hzone =>
      cases h
      obtain ⟨rfl, hfraction⟩ := (takeFraction_eq hzone).mp htail
      exact ⟨rfl, hyear, hmonth, hday, hhour, hminute, hsecond, hfraction, hzone⟩
    next => cases h
  · rintro ⟨rfl, hyear, hmonth, hday, hhour, hminute, hsecond, hfraction, hzone⟩
    refine ⟨_, _, ⟨rfl, hyear⟩, _, rfl, _, _, ⟨rfl, hmonth⟩, _, rfl, _, _, ⟨rfl, hday⟩, _, rfl,
      _, _, ⟨rfl, hhour⟩, _, rfl, _, _, ⟨rfl, hminute⟩, _, rfl, _, _, ⟨rfl, hsecond⟩, ?_⟩
    rw [(takeFraction_eq hzone).mpr ⟨rfl, hfraction⟩]
    exact if_pos hzone

/-! ## §2 Digits -/

theorem isDigit_of_readDigitsFrom : ∀ {cs : List Char} {acc n : Nat},
    readDigitsFrom acc cs = some n → ∀ c ∈ cs, c.isDigit = true
  | [], _, _, _, _, hc => absurd hc not_mem_nil
  | d :: rest, acc, n, h, c, hc => by
    rw [readDigitsFrom] at h
    split at h
    next hd =>
      rcases mem_cons.mp hc with rfl | hc
      · exact hd
      · exact isDigit_of_readDigitsFrom h c hc
    next => cases h

theorem utf8Size_digit (h : c.isDigit = true) : c.utf8Size = 1 := by
  simp only [Char.isDigit, and_eq_true, decide_eq_true_eq] at h
  have hle : c.val ≤ 0x7f := UInt32.le_trans h.2 (by decide)
  unfold Char.utf8Size
  exact if_pos hle

theorem size_digits {cs : List Char} (h : ∀ c ∈ cs, c.isDigit = true) : size cs = cs.length := by
  induction cs with
  | nil => rfl
  | cons c rest ih =>
    rw [size_cons, utf8Size_digit (h c mem_cons_self),
      ih fun d hd => h d (mem_cons_of_mem _ hd), length_cons, Nat.add_comm]

theorem eq_padded_of_some (hwidth : field.length = width) (hpos : 0 < width)
    (h : readDigits field = some n) : field = padded width n ∧ n < 10 ^ width := by
  subst hwidth
  have hbound := readDigits_bound h
  exact ⟨eq_padded (length_pos_iff.mp hpos) h hbound, hbound⟩

theorem padded_fit (digits : Digits) (hpos : 0 < width) (hn : n < 10 ^ width) :
    (padded width n).length = width ∧ (padded width n).all digits.has = true := by
  refine ⟨length_padded hpos hn, all_eq_true.mpr fun c hc => ?_⟩
  have hdigit := isDigit_of_mem_padded hc
  have hascii : c.toNat < 128 := by
    simp only [Char.isDigit, and_eq_true, decide_eq_true_eq] at hdigit
    have hle : c.toNat ≤ 57 := hdigit.2
    omega
  rw [digits.ascii c hascii, hdigit]

theorem fieldOr_padded (default width n : Nat) : fieldOr default (padded width n) = n := by
  rw [fieldOr, readDigits_padded, getD_some]

theorem padded_injective {m : Nat} (h : padded width n = padded width m) : n = m := by
  have hread := readDigits_padded width n
  rw [h, readDigits_padded] at hread
  exact (some.inj hread).symm

/-! ## §3 The zone -/

/-- A zone: UTC, or an offset to the east or the west of it. -/
inductive Zone where
  | utc
  | offset (east : Bool) (hours minutes : Nat)
  deriving DecidableEq, Repr

def Zone.Real : Zone → Prop
  | .utc => True
  | .offset east hours minutes =>
    hours < 24 ∧ minutes < 60 ∧ ¬ (east = false ∧ hours = 0 ∧ minutes = 0)

def Zone.millis : Zone → Int
  | .utc => 0
  | .offset east hours minutes =>
    if east then (hours * 60 + minutes) * 60000 else -((hours * 60 + minutes) * 60000)

def signOf (east : Bool) : Char := if east then '+' else '-'

def Zone.text : Zone → List Char
  | .utc => ['Z']
  | .offset east hours minutes =>
    signOf east :: (padded 2 hours ++ ':' :: padded 2 minutes)

theorem utf8Size_signOf (east : Bool) : (signOf east).utf8Size = 1 := by
  cases east <;> decide

theorem slice_zone {sign : Char} {h₁ h₂ m₁ m₂ : Char} (hsign : sign.utf8Size = 1)
    (hh₁ : h₁.utf8Size = 1) (hh₂ : h₂.utf8Size = 1) (hm₁ : m₁.utf8Size = 1)
    (hm₂ : m₂.utf8Size = 1) :
    slice 1 3 [sign, h₁, h₂, ':', m₁, m₂] = some [h₁, h₂] ∧
      slice 4 6 [sign, h₁, h₂, ':', m₁, m₂] = some [m₁, m₂] := by
  have hmark : (':' : Char).utf8Size = 1 := by decide
  have hhours := slice_size [sign] [h₁, h₂] [':', m₁, m₂]
  have hminutes := slice_size [sign, h₁, h₂, ':'] [m₁, m₂] []
  simp only [size_cons, size_nil, hsign, hh₁, hh₂, hm₁, hm₂, hmark] at hhours hminutes
  exact ⟨hhours, hminutes⟩

theorem takeBytes_two {d : Char} {default : Nat}
    (hfield : takeBytes 2 (c :: d :: rest) = some field) (hn : fieldOr default field < default) :
    field = [c, d] ∧ c.isDigit = true ∧ d.isDigit = true ∧ ∃ k, readDigits field = some k := by
  have hread : ∃ k, readDigits field = some k := by
    cases hread : readDigits field with
    | some k => exact ⟨k, rfl⟩
    | none =>
      rw [fieldOr, hread, getD_none] at hn
      exact absurd hn (lt_irrefl _)
  obtain ⟨k, hk⟩ := hread
  have hdigits := isDigit_of_readDigitsFrom hk
  rw [takeBytes] at hfield
  split at hfield
  next hle =>
    obtain ⟨_, hfront, rfl⟩ := map_eq_some_iff.mp hfield
    have hc := hdigits c mem_cons_self
    rw [utf8Size_digit hc, takeBytes] at hfront
    split at hfront
    next hle' =>
      obtain ⟨_, hfront', rfl⟩ := map_eq_some_iff.mp hfront
      have hd := hdigits d (mem_cons_of_mem _ mem_cons_self)
      rw [utf8Size_digit hd] at hfront'
      cases rest <;> cases hfront' <;> exact ⟨rfl, hc, hd, k, hk⟩
    next => cases hfront
  next => cases hfield

/-- A zone within its bounds is that of its offset. -/
theorem zone_of_checks {hours minutes : List Char} (hzone : isZone digits zone = true)
    (hutc : zone ≠ ['Z']) (hslice : slice 1 3 zone = some hours)
    (hslice' : slice 4 6 zone = some minutes)
    (hchecks : ¬ (fieldOr 24 hours > 23 ∨ fieldOr 60 minutes > 59
      ∨ zone = ['-', '0', '0', ':', '0', '0'])) :
    ∃ east h m, zone = (Zone.offset east h m).text ∧ (Zone.offset east h m).Real ∧
      fieldOr 24 hours = h ∧ fieldOr 60 minutes = m ∧ (zone.head? = some '+' ↔ east = true) := by
  simp only [not_or, not_lt] at hchecks
  obtain ⟨hh, hm, hzero⟩ := hchecks
  unfold isZone at hzone
  split at hzone
  next => exact absurd rfl hutc
  next sign h₁ h₂ mark m₁ m₂ =>
    simp only [and_eq_true, or_eq_true, beq_iff_eq] at hzone
    obtain ⟨⟨⟨⟨⟨hsign, -⟩, -⟩, rfl⟩, -⟩, -⟩ := hzone
    obtain ⟨east, rfl⟩ : ∃ east, sign = signOf east := by
      rcases hsign with rfl | rfl
      · exact ⟨true, rfl⟩
      · exact ⟨false, rfl⟩
    have hsize := utf8Size_signOf east
    have hmark : (':' : Char).utf8Size = 1 := by decide
    -- the hours lie behind the sign
    have hdrop : dropBytes 1 [signOf east, h₁, h₂, ':', m₁, m₂] = some [h₁, h₂, ':', m₁, m₂] := by
      have h := dropBytes_size [signOf east] [h₁, h₂, ':', m₁, m₂]
      rwa [size_cons, size_nil, hsize] at h
    rw [ByteText.slice, if_pos (by decide), hdrop, bind_some] at hslice
    obtain ⟨rfl, hd₁, hd₂, h, hread⟩ := takeBytes_two hslice
      (show fieldOr 24 hours < (24 : Nat) by omega)
    -- and the minutes behind their two bytes
    have hdrop' : dropBytes 4 [signOf east, h₁, h₂, ':', m₁, m₂] = some [m₁, m₂] := by
      have h := dropBytes_size [signOf east, h₁, h₂, ':'] [m₁, m₂]
      simp only [size_cons, size_nil, hsize, utf8Size_digit hd₁, utf8Size_digit hd₂, hmark] at h
      exact h
    rw [ByteText.slice, if_pos (by decide), hdrop', bind_some] at hslice'
    obtain ⟨rfl, hd₃, hd₄, m, hread'⟩ := takeBytes_two hslice'
      (show fieldOr 60 minutes < (60 : Nat) by omega)
    have hhours : [h₁, h₂] = padded 2 h :=
      (eq_padded_of_some (show [h₁, h₂].length = 2 from rfl) (by decide) hread).1
    have hminutes : [m₁, m₂] = padded 2 m :=
      (eq_padded_of_some (show [m₁, m₂].length = 2 from rfl) (by decide) hread').1
    rw [hhours, fieldOr_padded] at hh
    rw [hminutes, fieldOr_padded] at hm
    refine ⟨east, h, m, ?_, ⟨by omega, by omega, ?_⟩, ?_, ?_, ?_⟩
    · rw [Zone.text, ← hhours, ← hminutes]
      rfl
    · rintro ⟨rfl, rfl, rfl⟩
      refine hzero ?_
      have hzeros : padded 2 0 = ['0', '0'] := by decide
      rw [hzeros] at hhours hminutes
      simp only [cons.injEq, and_true] at hhours hminutes
      obtain ⟨rfl, rfl⟩ := hhours
      obtain ⟨rfl, rfl⟩ := hminutes
      rfl
    · rw [hhours, fieldOr_padded]
    · rw [hminutes, fieldOr_padded]
    · cases east <;> simp [signOf]
  next => cases hzone

/-! ## §4 Accepted texts -/

/-- A fraction, filled up with zeros, is a count of milliseconds. -/
def FractionOf : Option (List Char) → Nat → Prop
  | none, millis => millis = 0
  | some fraction, millis =>
    fraction ≠ [] ∧ fraction.length ≤ 3 ∧
      readDigits (fraction ++ List.replicate (3 - fraction.length) '0') = some millis

/-- The text of a date and time with an optional fraction and a zone. -/
def offsetText (f : Fields) (fraction : Option (List Char)) (zone : Zone) : List Char :=
  padded 4 f.year ++ '-' :: (padded 2 f.month ++ '-' :: (padded 2 f.day ++ 'T' ::
    (padded 2 f.hour ++ ':' :: (padded 2 f.minute ++ ':' :: (padded 2 f.second ++
      (fractionText fraction ++ zone.text))))))

theorem FractionOf.fits (digits : Digits) {millis : Nat} (h : FractionOf fraction millis) :
    FractionFits digits fraction ∧ fractionMillis fraction = some millis := by
  cases fraction with
  | none => exact ⟨trivial, by rw [fractionMillis, h]⟩
  | some fraction =>
    obtain ⟨hne, hlen, hread⟩ := h
    refine ⟨⟨hne, hlen, all_eq_true.mpr fun c hc => ?_⟩, hread⟩
    have hdigit := isDigit_of_readDigitsFrom hread c (mem_append_left _ hc)
    have hascii : c.toNat < 128 := by
      simp only [Char.isDigit, and_eq_true, decide_eq_true_eq] at hdigit
      have hle : c.toNat ≤ 57 := hdigit.2
      omega
    rw [digits.ascii c hascii, hdigit]

theorem Zone.Real.isZone (digits : Digits) {zone : Zone} (h : zone.Real) :
    isZone digits zone.text = true := by
  cases zone with
  | utc => rfl
  | offset east hours minutes =>
    obtain ⟨hh, hm, -⟩ := h
    obtain ⟨hlh, hdh⟩ := padded_fit digits (show 0 < 2 by decide) (show hours < 10 ^ 2 by omega)
    obtain ⟨hlm, hdm⟩ := padded_fit digits (show 0 < 2 by decide) (show minutes < 10 ^ 2 by omega)
    obtain ⟨_, _, hhours⟩ := exists_two hlh
    obtain ⟨_, _, hminutes⟩ := exists_two hlm
    rw [hhours] at hdh
    rw [hminutes] at hdm
    rw [Zone.text, hhours, hminutes]
    simp only [all_cons, all_nil, Bool.and_true, and_eq_true] at hdh hdm
    cases east <;> simp [Schedule.isZone, signOf, hdh, hdm]

theorem Zone.Real.slices (h : (Zone.offset east hours minutes).Real) :
    slice 1 3 (Zone.offset east hours minutes).text = some (padded 2 hours) ∧
      slice 4 6 (Zone.offset east hours minutes).text = some (padded 2 minutes) := by
  obtain ⟨hh, hm, -⟩ := h
  obtain ⟨h₁, h₂, hhours⟩ := exists_two
    (length_padded (show 0 < 2 by decide) (show hours < 10 ^ 2 by omega))
  obtain ⟨m₁, m₂, hminutes⟩ := exists_two
    (length_padded (show 0 < 2 by decide) (show minutes < 10 ^ 2 by omega))
  have hdh : ∀ c ∈ [h₁, h₂], c.isDigit = true := fun c hc =>
    isDigit_of_mem_padded (hhours.symm ▸ hc)
  have hdm : ∀ c ∈ [m₁, m₂], c.isDigit = true := fun c hc =>
    isDigit_of_mem_padded (hminutes.symm ▸ hc)
  rw [Zone.text, hhours, hminutes]
  exact slice_zone (utf8Size_signOf east) (utf8Size_digit (hdh h₁ (by simp)))
    (utf8Size_digit (hdh h₂ (by simp))) (utf8Size_digit (hdm m₁ (by simp)))
    (utf8Size_digit (hdm m₂ (by simp)))

theorem Zone.Real.text_ne (h : (Zone.offset east hours minutes).Real) :
    (Zone.offset east hours minutes).text ≠ ['-', '0', '0', ':', '0', '0'] := by
  obtain ⟨hh, hm, hzero⟩ := h
  intro htext
  have hzeros : padded 2 0 = ['0', '0'] := by decide
  obtain ⟨hsign, hrest⟩ := cons.inj htext
  have hlen : (padded 2 hours).length = ['0', '0'].length :=
    length_padded (by decide) (by omega)
  have hrest' : padded 2 hours ++ ':' :: padded 2 minutes = ['0', '0'] ++ ':' :: ['0', '0'] := hrest
  obtain ⟨hhours, hrest⟩ := append_inj hrest' hlen
  have hminutes := (cons.inj hrest).2
  have heast : east = false := by
    cases east
    · rfl
    · exact absurd hsign (by decide)
  rw [← hzeros] at hhours hminutes
  exact hzero ⟨heast, padded_injective hhours, padded_injective hminutes⟩

/-- The fields of a match have the instant of a real date and time. -/
theorem calendarMillis_groups (hfit : groups.Fit digits) {millis : Nat} {instant : Int}
    (h : calendarMillis {
      year := fieldOr 0 groups.year, month := fieldOr 0 groups.month
      day := fieldOr 0 groups.day, hour := fieldOr 24 groups.hour
      minute := fieldOr 60 groups.minute, second := fieldOr 60 groups.second
      millis := millis } = some instant) :
    ∃ f : Fields, f.Real ∧ instant = f.instant ∧ f.millis = millis ∧
      groups.year = padded 4 f.year ∧ groups.month = padded 2 f.month ∧
      groups.day = padded 2 f.day ∧ groups.hour = padded 2 f.hour ∧
      groups.minute = padded 2 f.minute ∧ groups.second = padded 2 f.second := by
  have hreal := calendarMillis_eq_some (f := {
    year := (readDigits groups.year).getD 0, month := (readDigits groups.month).getD 0
    day := (readDigits groups.day).getD 0, hour := (readDigits groups.hour).getD 24
    minute := (readDigits groups.minute).getD 60, second := (readDigits groups.second).getD 60
    millis := millis }) |>.mp h
  obtain ⟨hreal, hinstant⟩ := hreal
  have hread : ∀ (field : List Char) (default width : Nat), field.length = width → 0 < width →
      (readDigits field).getD default ≠ default →
      field = padded width ((readDigits field).getD default) := by
    intro field default width hwidth hpos hne
    cases hread : readDigits field with
    | none => rw [hread] at hne; exact absurd rfl hne
    | some n => exact (eq_padded_of_some hwidth hpos hread).1
  have hyear := hreal.date.year_pos
  have hmonth := hreal.date.month_pos
  have hday := hreal.date.day_pos
  have hhour := hreal.hour_lt
  have hminute := hreal.minute_lt
  have hsecond := hreal.second_lt
  dsimp only at hyear hmonth hday hhour hminute hsecond
  exact ⟨_, hreal, hinstant, rfl, hread _ _ _ hfit.year.1 (by decide) (by omega),
    hread _ _ _ hfit.month.1 (by decide) (by omega), hread _ _ _ hfit.day.1 (by decide) (by omega),
    hread _ _ _ hfit.hour.1 (by decide) (by omega),
    hread _ _ _ hfit.minute.1 (by decide) (by omega),
    hread _ _ _ hfit.second.1 (by decide) (by omega)⟩

theorem offset_fits (hf : f.Real) {zone : Zone} (hz : zone.Real) :
    checkedI64 (f.instant - zone.millis) = some (f.instant - zone.millis) := by
  have hrange := hf.range
  apply checkedI64_eq
  unfold minInstantMs maxInstantMs at hrange
  cases zone with
  | utc => simp only [Zone.millis]; omega
  | offset east =>
    obtain ⟨hh, hm, -⟩ := hz
    cases east <;> simp only [Zone.millis, if_true, if_false, false_eq_true] <;> omega

/-- The groups of a date and time with a fraction and a zone. -/
def groupsOf (f : Fields) (fraction : Option (List Char)) (zone : Zone) : Captures :=
  { year := padded 4 f.year, month := padded 2 f.month, day := padded 2 f.day
    hour := padded 2 f.hour, minute := padded 2 f.minute, second := padded 2 f.second
    fraction := fraction, zone := zone.text }

theorem captures_offsetText (digits : Digits) (hf : f.Real)
    (hfraction : FractionOf fraction f.millis) {zone : Zone} (hzone : zone.Real) :
    captures digits (offsetText f fraction zone) = some (groupsOf f fraction zone) := by
  obtain ⟨hyear, hmonth, hday, hhour, hminute, hsecond, -⟩ := hf.small
  exact captures_eq_some.mpr ⟨rfl, padded_fit digits (by decide) hyear,
    padded_fit digits (by decide) hmonth, padded_fit digits (by decide) hday,
    padded_fit digits (by decide) hhour, padded_fit digits (by decide) hminute,
    padded_fit digits (by decide) hsecond, (hfraction.fits digits).1, hzone.isZone digits⟩

theorem fractionOf_of_fits {millis : Nat} (hfits : FractionFits digits fraction)
    (h : fractionMillis fraction = some millis) : FractionOf fraction millis := by
  cases fraction with
  | none => exact (some.inj h).symm
  | some fraction => exact ⟨hfits.1, hfits.2.1, h⟩

/-- `parse_offset_instant` accepts the texts of real dates and times with a
fraction and a zone, for the instant of the fields less the offset. -/
theorem parseOffsetInstant_eq_ok {value : String} {millis : Int} :
    parseOffsetInstant digits value = some (.ok millis) ↔
      ∃ f fraction zone, f.Real ∧ FractionOf fraction f.millis ∧ zone.Real ∧
        value.toList = offsetText f fraction zone ∧ millis = f.instant - zone.millis := by
  unfold parseOffsetInstant
  constructor
  · intro h
    split at h
    next => cases h
    next groups hgroups =>
      obtain ⟨htext, hfit⟩ := captures_eq_some.mp hgroups
      simp only [bind_eq_bind, bind_eq_some_iff] at h
      obtain ⟨_, hcount, h⟩ := h
      split at h
      next => cases h
      next instant hinstant =>
        obtain ⟨f, hf, rfl, rfl, hyear, hmonth, hday, hhour, hminute, hsecond⟩ :=
          calendarMillis_groups hfit hinstant
        have hfraction := fractionOf_of_fits hfit.fraction hcount
        have hvalue : ∀ zone : Zone, groups.zone = zone.text →
            value.toList = offsetText f groups.fraction zone := by
          intro zone hzone
          rw [htext, Captures.text, hyear, hmonth, hday, hhour, hminute, hsecond, hzone]
          rfl
        split at h
        next hutc =>
          cases h
          exact ⟨f, groups.fraction, .utc, hf, hfraction, trivial, hvalue .utc hutc,
            (sub_zero _).symm⟩
        next hutc =>
          simp only [bind_eq_some_iff] at h
          obtain ⟨hours, hhours, minutes, hminutes, h⟩ := h
          split at h
          next => cases h
          next hchecks =>
            obtain ⟨east, h', m', hzone, hreal, hh, hm, heast⟩ :=
              zone_of_checks hfit.zone hutc hhours hminutes hchecks
            refine ⟨f, groups.fraction, .offset east h' m', hf, hfraction, hreal,
              hvalue _ hzone, ?_⟩
            have hoffset : (if groups.zone.head? = some '+' then
              (fieldOr 24 hours * 60 + fieldOr 60 minutes) * 60000
              else -((fieldOr 24 hours * 60 + fieldOr 60 minutes) * 60000))
                = (Zone.offset east h' m').millis := by
              rw [hh, hm, Zone.millis]
              exact if_congr heast rfl rfl
            rw [hoffset, offset_fits hf hreal] at h
            exact (ok.inj (some.inj h)).symm
  · rintro ⟨f, fraction, zone, hf, hfraction, hzone, htext, rfl⟩
    have hcalendar := calendarMillis_eq_some.mpr ⟨hf, rfl⟩
    rw [htext, captures_offsetText digits hf hfraction hzone]
    simp only [groupsOf, (hfraction.fits digits).2, bind_eq_bind, bind_some,
      fieldOr_padded]
    unfold Fields.calendar at hcalendar
    rw [hcalendar]
    cases zone with
    | utc => simp [Zone.text, Zone.millis]
    | offset east hours minutes =>
      obtain ⟨hhours, hminutes⟩ := hzone.slices
      have hfits := offset_fits hf hzone
      obtain ⟨hh, hm, hzero⟩ := hzone
      have hutc : (Zone.offset east hours minutes).text ≠ ['Z'] := by
        intro h
        have hsign : signOf east = 'Z' := (cons.inj h).1
        cases east <;> exact absurd hsign (by decide)
      have hminus := Zone.Real.text_ne ⟨hh, hm, hzero⟩
      have heast : (Zone.offset east hours minutes).text.head? = some '+' ↔ east = true := by
        cases east <;> simp [Zone.text, signOf]
      have hchecks : ¬ ((hours : Int) > 23 ∨ (minutes : Int) > 59
          ∨ (Zone.offset east hours minutes).text = ['-', '0', '0', ':', '0', '0']) := by
        rintro (h | h | h)
        · omega
        · omega
        · exact hminus h
      refine (if_neg hutc).trans ?_
      rw [hhours, hminutes, bind_some, bind_some, fieldOr_padded, fieldOr_padded]
      refine (if_neg hchecks).trans ?_
      have hoffset : (if (Zone.offset east hours minutes).text.head? = some '+' then
        ((hours : Int) * 60 + minutes) * 60000 else -(((hours : Int) * 60 + minutes) * 60000))
          = (Zone.offset east hours minutes).millis := if_congr heast rfl rfl
      calc some (okOr (checkedI64 (f.instant - _)) timeOutOfRange)
        _ = some (okOr (checkedI64 (f.instant - (Zone.offset east hours minutes).millis))
              timeOutOfRange) := by exact congrArg (fun offset : Int =>
                some (okOr (checkedI64 (f.instant - offset)) timeOutOfRange)) hoffset
        _ = some (.ok (f.instant - (Zone.offset east hours minutes).millis)) := by
          rw [hfits]
          rfl

/-! ## §5 Round trips -/

theorem Fields.Real.text_size (h : f.Real) : size f.text.toList = 24 := by
  obtain ⟨hyear, hmonth, hday, hhour, hminute, hsecond, hmillis⟩ := h.small
  have hsize : ∀ {width n : Nat}, 0 < width → n < 10 ^ width → size (padded width n) = width :=
    fun hw hn => (size_digits fun _ => isDigit_of_mem_padded).trans (length_padded hw hn)
  have hmarks : ('-' : Char).utf8Size = 1 ∧ ('T' : Char).utf8Size = 1 ∧ (':' : Char).utf8Size = 1 ∧
      ('.' : Char).utf8Size = 1 ∧ ('Z' : Char).utf8Size = 1 := by decide
  unfold Fields.text instantText
  rw [String.toList_ofList]
  simp only [size_append, size_cons, size_nil, hmarks, hsize (by decide) hyear,
    hsize (by decide) hmonth, hsize (by decide) hday, hsize (by decide) hhour,
    hsize (by decide) hminute, hsize (by decide) hsecond, hsize (by decide) hmillis]

/-- Instants and their texts determine one another, and their orders agree. A
date-time with a zone is accepted for the instant of its fields less the offset. -/
theorem instants_roundTrip (digits : Digits) :
    (∀ millis, (∃ text, formatInstant millis = some text) ↔
      minInstantMs ≤ millis ∧ millis ≤ maxInstantMs) ∧
    (∀ millis text, formatInstant millis = some text → parseInstant text = some millis) ∧
    (∀ text, (∃ millis, parseInstant text = some millis) ↔
      ∃ f : Fields, f.Real ∧ f.text = text ∧ size text.toList = 24) ∧
    (∀ text millis, parseInstant text = some millis → formatInstant millis = some text) ∧
    (∀ millis millis' text text', formatInstant millis = some text →
      formatInstant millis' = some text' → (millis < millis' ↔ text < text')) ∧
    ∀ value millis, parseOffsetInstant digits value = some (.ok millis) ↔
      ∃ f fraction zone, f.Real ∧ FractionOf fraction f.millis ∧ zone.Real ∧
        value.toList = offsetText f fraction zone ∧ millis = f.instant - zone.millis := by
  refine ⟨fun millis => ⟨fun ⟨_, h⟩ => formatInstant_range h, fun h => ?_⟩,
    fun _ _ => parse_formatInstant, fun text => ⟨?_, ?_⟩, fun _ _ => format_parseInstant,
    fun millis millis' text text' h h' => ⟨formatInstant_lt h h', fun hlt => ?_⟩,
    fun _ _ => parseOffsetInstant_eq_ok⟩
  · obtain ⟨f, hf, rfl⟩ := exists_fields h
    exact ⟨f.text, formatInstant_instant hf⟩
  · rintro ⟨_, h⟩
    obtain ⟨f, hf, -, rfl⟩ := parseInstant_eq_some.mp h
    exact ⟨f, hf, rfl, hf.text_size⟩
  · rintro ⟨f, hf, rfl, -⟩
    exact ⟨f.instant, parseInstant_eq_some.mpr ⟨f, hf, rfl, rfl⟩⟩
  · -- the later text is not that of the same or of a later instant
    rcases lt_trichotomy millis millis' with hearlier | rfl | hlater
    · exact hearlier
    · obtain rfl : text = text' := some.inj (h.symm.trans h')
      exact absurd hlt (lt_irrefl text)
    · exact absurd (hlt.trans (formatInstant_lt h' h hlater)) (lt_irrefl text)

end Tessivum.Schedule
