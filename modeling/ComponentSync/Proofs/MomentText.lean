import ComponentSync.Time.Rfc3339
import Mathlib
/-! The RFC 3339 text of a moment reads back as the moment. The calendar half is Hinnant's pair
of day counts: `civilFromDays` gives a valid date that `daysFromCivil` counts back to the same
day, which rests on the split of a 400-year era into years and days of the year. The text half
shows that each field the writer pads to its width is read back by the reader's field, the sign
and width of the year included, and that the shortest of 3, 6 or 9 digits of fraction scale
back to the nanoseconds. A leap second is written as second 60 and read back as the 59th
second with a whole second more of fraction. -/
namespace ComponentSync.Time

/-! ### Calendar -/

section Calendar

/-- Day `doe` of a 400-year era that starts on 1 March falls in year `yoe` of the era, on day
`doy` of that year; `doy` reaches 365 only in a year whose February, which ends it, has a 29th. -/
theorem yearOfEra_bounds (doe : Int) (h0 : 0 ≤ doe) (h1 : doe ≤ 146096) :
    let yoe := (doe - doe / 1460 + doe / 36524 - doe / 146096) / 365
    let doy := doe - (365 * yoe + yoe / 4 - yoe / 100)
    0 ≤ yoe ∧ yoe ≤ 399 ∧ 0 ≤ doy ∧
      (doy ≤ 364 ∨ (doy = 365 ∧ (yoe + 1) % 4 = 0 ∧ ((yoe + 1) % 100 ≠ 0 ∨ (yoe + 1) % 400 = 0))) := by
  intro yoe doy
  -- write the day as centuries, four-year cycles, years and days; omega cannot see through the
  -- nested quotients by itself
  obtain ⟨c, r, hdoe, hr0, hr1⟩ : ∃ c r : Int, doe = 36524 * c + r ∧ 0 ≤ r ∧ r < 36524 :=
    ⟨doe / 36524, doe % 36524, by omega, by omega, by omega⟩
  obtain ⟨q, w, hr, hw0, hw1⟩ : ∃ q w : Int, r = 1461 * q + w ∧ 0 ≤ w ∧ w < 1461 :=
    ⟨r / 1461, r % 1461, by omega, by omega, by omega⟩
  obtain ⟨t, u, hw, hu0, hu1⟩ : ∃ t u : Int, w = 365 * t + u ∧ 0 ≤ u ∧ u < 365 :=
    ⟨w / 365, w % 365, by omega, by omega, by omega⟩
  have hc : doe / 36524 = c := by omega
  have hE : doe / 1460 = 25 * c + q + (24 * c + q + 365 * t + u) / 1460 := by omega
  by_cases hc4 : c = 4
  · -- the last day of the era
    have hdoe' : doe = 146096 := by omega
    have hy : yoe = 399 := by simp only [yoe]; rw [hdoe']; omega
    have hd : doy = 365 := by simp only [doy]; rw [hy, hdoe']; omega
    rw [hy, hd]
    omega
  · by_cases ht4 : t = 4
    · -- the last day of a four-year cycle
      have hg : doe / 146096 = 0 := by omega
      have hX : (24 * c + q + 365 * t + u) / 1460 = 1 := by omega
      have hy : yoe = 100 * c + 4 * q + 3 := by simp only [yoe]; omega
      have hd : doy = 365 := by simp only [doy]; rw [hy]; omega
      exact ⟨by omega, by omega, by omega, .inr ⟨hd, by omega, by omega⟩⟩
    · have hg : doe / 146096 = 0 := by omega
      have hX : (24 * c + q + 365 * t + u) / 1460 = 0 ∨
          ((24 * c + q + 365 * t + u) / 1460 = 1 ∧ 1 ≤ u) := by omega
      have hy : yoe = 100 * c + 4 * q + t := by simp only [yoe]; omega
      have h4 : yoe / 4 = 25 * c + q := by rw [hy]; omega
      have h100 : yoe / 100 = c := by rw [hy]; omega
      have hd : doy = u := by
        show doe - (365 * yoe + yoe / 4 - yoe / 100) = u
        rw [h4, h100, hy]
        omega
      exact ⟨by omega, by omega, by omega, .inl (by omega)⟩

theorem daysInMonth_le (y : Int) (m : Nat) : daysInMonth y m ≤ 31 := by
  unfold daysInMonth
  split
  · split <;> omega
  all_goals omega

theorem civilFromDays_spec (z : Int) :
    let c := civilFromDays z
    1 ≤ c.2.1 ∧ c.2.1 ≤ 12 ∧ 1 ≤ c.2.2 ∧ c.2.2 ≤ daysInMonth c.1 c.2.1 ∧
      daysFromCivil c.1 c.2.1 c.2.2 = z := by
  intro c
  obtain ⟨era, doe, hz, hdoe0, hdoe1, hera⟩ : ∃ era doe : Int, z + 719468 = era * 146097 + doe ∧
      0 ≤ doe ∧ doe ≤ 146096 ∧ (z + 719468) / 146097 = era :=
    ⟨(z + 719468) / 146097, (z + 719468) % 146097, by omega, by omega, by omega, rfl⟩
  have hsplit := yearOfEra_bounds doe hdoe0 hdoe1
  have hdoe : z + 719468 - era * 146097 = doe := by omega
  simp only [c, civilFromDays, hera, hdoe]
  simp only at hsplit
  generalize (doe - doe / 1460 + doe / 36524 - doe / 146096) / 365 = yoe at *
  generalize hdoy : doe - (365 * yoe + yoe / 4 - yoe / 100) = doy at *
  obtain ⟨hy0, hy1, hd0, hd1⟩ := hsplit
  -- the month counted from March
  generalize hmp : (5 * doy + 2) / 153 = mp
  have hlo : (153 * mp + 2) / 5 ≤ doy := by omega
  have hhi : doy < (153 * mp + 155) / 5 := by omega
  have hq : (yoe + era * 400) / 400 = era := by omega
  by_cases hfeb : mp = 11
  · -- February has a 29th day only in a leap year, which the last day of the era-year marks
    subst hfeb
    simp [daysFromCivil, daysInMonth, isLeapYear, hq]
    refine ⟨by omega, ?_, by omega⟩
    split <;> omega
  · obtain rfl | rfl | rfl | rfl | rfl | rfl | rfl | rfl | rfl | rfl | rfl :
        mp = 0 ∨ mp = 1 ∨ mp = 2 ∨ mp = 3 ∨ mp = 4 ∨ mp = 5 ∨ mp = 6 ∨ mp = 7 ∨ mp = 8 ∨
          mp = 9 ∨ mp = 10 := by omega
    all_goals simp [daysFromCivil, daysInMonth, hq]
    all_goals omega

/-- The fields of a calendar reading lie in their ranges; the second reaches 60 only in a leap
second. -/
theorem Instant.civil_bounds (t : Instant) :
    1 ≤ t.civil.month ∧ t.civil.month ≤ 12 ∧ 1 ≤ t.civil.day ∧
      t.civil.day ≤ daysInMonth t.civil.year t.civil.month ∧ t.civil.hour ≤ 23 ∧
      t.civil.minute ≤ 59 ∧ t.civil.second ≤ 60 := by
  obtain ⟨hm1, hm12, hd1, hdm, -⟩ := civilFromDays_spec (t.secs / 86400)
  have hsod : (t.secs % 86400).toNat < 86400 := by omega
  refine ⟨hm1, hm12, hd1, hdm, ?_, ?_, ?_⟩
  · show (t.secs % 86400).toNat / 3600 ≤ 23
    omega
  · show (t.secs % 86400).toNat % 3600 / 60 ≤ 59
    omega
  · show (t.secs % 86400).toNat % 60 + (if t.nanos ≥ 1000000000 then 1 else 0) ≤ 60
    split <;> omega

theorem Instant.ofCivil_civil (t : Instant) :
    Instant.ofCivil t.civil.year t.civil.month t.civil.day t.civil.hour t.civil.minute
      ((t.secs % 86400).toNat % 60) t.nanos = t := by
  obtain ⟨secs, nanos⟩ := t
  have hback : daysFromCivil (Instant.mk secs nanos).civil.year (Instant.mk secs nanos).civil.month
      (Instant.mk secs nanos).civil.day = secs / 86400 :=
    (civilFromDays_spec (secs / 86400)).2.2.2.2
  have hh : (Instant.mk secs nanos).civil.hour = (secs % 86400).toNat / 3600 := rfl
  have hmin : (Instant.mk secs nanos).civil.minute = (secs % 86400).toNat % 3600 / 60 := rfl
  simp only [Instant.ofCivil, hback, hh, hmin, Instant.mk.injEq, and_true]
  omega

theorem Instant.ofCivil_civil_of_lt {t : Instant} (h : t.nanos < 1000000000) :
    t.civil.second < 60 ∧ Instant.ofCivil t.civil.year t.civil.month t.civil.day t.civil.hour
      t.civil.minute t.civil.second t.civil.nanos = t := by
  have hs : t.civil.second = (t.secs % 86400).toNat % 60 := by
    show _ + (if t.nanos ≥ 1000000000 then 1 else 0) = _
    rw [if_neg (by omega), Nat.add_zero]
  have hn : t.civil.nanos = t.nanos := if_neg (by omega)
  rw [hs, hn]
  exact ⟨Nat.mod_lt _ (by decide), t.ofCivil_civil⟩

/-- In a leap second, which ends its minute, the reading's second is 60, and the reading names
the moment as the 59th second with a whole second more of fraction. -/
theorem Instant.ofCivil_civil_of_leap {t : Instant} (h : 1000000000 ≤ t.nanos)
    (h59 : t.secs % 60 = 59) :
    t.civil.second = 60 ∧ Instant.ofCivil t.civil.year t.civil.month t.civil.day t.civil.hour
      t.civil.minute 59 (t.civil.nanos + 1000000000) = t := by
  have hsod : (t.secs % 86400).toNat % 60 = 59 := by omega
  have hs : t.civil.second = (t.secs % 86400).toNat % 60 + 1 := by
    show _ + (if t.nanos ≥ 1000000000 then 1 else 0) = _
    rw [if_pos h]
  have hn : t.civil.nanos + 1000000000 = t.nanos := by
    show (if t.nanos ≥ 1000000000 then t.nanos - 1000000000 else t.nanos) + 1000000000 = _
    rw [if_pos h]
    omega
  rw [hs, hsod, hn]
  exact ⟨rfl, hsod ▸ t.ofCivil_civil⟩

theorem Instant.addSeconds_zero (t : Instant) : t.addSeconds 0 = t := by
  simp [Instant.addSeconds]

end Calendar

/-! ### Digits -/

section Digits

theorem digitValue_of_isDigit {c : Char} (h : c.isDigit = true) :
    digitValue c = some (c.toNat - '0'.toNat) := by
  have h' : '0' ≤ c ∧ c ≤ '9' := by
    simpa [Char.isDigit, Char.le_def] using h
  simp [digitValue, h']

/-- A text does not go on with a digit, so a number read before it ends there. -/
def NoDigitNext (rest : List Char) : Prop := ∀ c ∈ rest.head?, digitValue c = none

@[simp] theorem noDigitNext_nil : NoDigitNext [] := by
  simp [NoDigitNext]

@[simp] theorem noDigitNext_cons {c : Char} {rest : List Char} :
    NoDigitNext (c :: rest) ↔ digitValue c = none := by
  simp [NoDigitNext]

theorem foldl_digitValue {ds : List Char} (hds : ∀ c ∈ ds, c.isDigit = true) (init : Nat) :
    ds.foldl (fun n c => n * 10 + (digitValue c).getD 0) init = Nat.ofDigitChars 10 ds init := by
  induction ds generalizing init with
  | nil => rfl
  | cons c ds ih =>
    rw [List.foldl_cons, ih (fun c hc => hds c (List.mem_cons_of_mem _ hc)), Nat.ofDigitChars_cons,
      digitValue_of_isDigit (hds c List.mem_cons_self)]
    simp [Nat.mul_comm]

theorem takeWhile_digits {ds rest : List Char} (hds : ∀ c ∈ ds, c.isDigit = true)
    (hrest : NoDigitNext rest) :
    (ds ++ rest).takeWhile (fun c => (digitValue c).isSome) = ds := by
  induction ds with
  | nil =>
    cases rest with
    | nil => rfl
    | cons c rest => simp [noDigitNext_cons.mp hrest]
  | cons c ds ih =>
    rw [List.cons_append, List.takeWhile_cons_of_pos
        (by simp [digitValue_of_isDigit (hds c List.mem_cons_self)]),
      ih (fun c hc => hds c (List.mem_cons_of_mem _ hc))]

theorem dropWhile_digits_of_noDigitNext {rest : List Char} (hrest : NoDigitNext rest) :
    rest.dropWhile (fun c => (digitValue c).isSome) = rest := by
  cases rest with
  | nil => rfl
  | cons c rest => simp [noDigitNext_cons.mp hrest]

theorem readDigits_digits {max : Nat} {ds rest : List Char} (hne : ds ≠ [])
    (hds : ∀ c ∈ ds, c.isDigit = true) (hlen : ds.length ≤ max) (hrest : NoDigitNext rest)
    (hval : Nat.ofDigitChars 10 ds 0 ≤ i64Max) :
    readDigits max (ds ++ rest) = .ok (Nat.ofDigitChars 10 ds 0, rest) := by
  obtain ⟨c, ds', rfl⟩ := List.exists_cons_of_ne_nil hne
  have hc : (digitValue c).isNone = false := by
    simp [digitValue_of_isDigit (hds c List.mem_cons_self)]
  have htake := takeWhile_digits hds hrest
  rw [List.cons_append] at htake ⊢
  simp only [readDigits, hc, Bool.false_eq_true, if_false, htake, List.take_of_length_le hlen,
    foldl_digitValue hds]
  rw [if_neg (by omega)]
  simp

theorem padNat_toList (w n : Nat) :
    (padNat w n).toList =
      List.replicate (w - (Nat.toDigits 10 n).length) '0' ++ Nat.toDigits 10 n := by
  simp [padNat, ← String.length_toList]

theorem padNat_length {w n : Nat} (hw : 0 < w) (h : n < 10 ^ w) :
    (padNat w n).toList.length = w := by
  have := (Nat.length_toDigits_le_iff (by decide) hw).mpr h
  simp [padNat_toList]
  omega

theorem padNat_length_le {n k : Nat} (hk : 0 < k) (h : n < 10 ^ k) (w : Nat) :
    (padNat w n).toList.length ≤ max w k := by
  have := (Nat.length_toDigits_le_iff (by decide) hk).mpr h
  simp [padNat_toList]
  omega

theorem padNat_isDigit (w n : Nat) : ∀ c ∈ (padNat w n).toList, c.isDigit = true := by
  intro c hc
  rw [padNat_toList] at hc
  rcases List.mem_append.mp hc with h | h
  · rw [List.eq_of_mem_replicate h]
    rfl
  · exact Nat.isDigit_of_mem_toDigits (by decide) (by decide) h

theorem padNat_ne_nil (w n : Nat) : (padNat w n).toList ≠ [] := by
  simp [padNat_toList]

theorem ofDigitChars_padNat (w n : Nat) : Nat.ofDigitChars 10 (padNat w n).toList 0 = n := by
  rw [padNat_toList, Nat.ofDigitChars_append, Nat.ofDigitChars_replicate_zero]
  simp

theorem readDigits_padNat {max w n : Nat} {rest : List Char}
    (hlen : (padNat w n).toList.length ≤ max) (hrest : NoDigitNext rest) (hval : n ≤ i64Max) :
    readDigits max ((padNat w n).toList ++ rest) = .ok (n, rest) := by
  have := readDigits_digits (padNat_ne_nil w n) (padNat_isDigit w n) hlen hrest
    (by rw [ofDigitChars_padNat]; exact hval)
  rwa [ofDigitChars_padNat] at this

theorem skipBlanks_digit {c : Char} (hc : c.isDigit = true) (cs : List Char) :
    skipBlanks (c :: cs) = c :: cs := by
  have hn := Char.isDigit_iff_toNat.mp hc
  have : Text.isBlank c = false := by
    simp only [Text.isBlank, Bool.or_eq_false_iff, Bool.and_eq_false_iff, decide_eq_false_iff_not,
      beq_eq_false_iff_ne]
    simp at hn
    omega
  simp [skipBlanks, this]

theorem skipBlanks_padNat (w n : Nat) (rest : List Char) :
    skipBlanks ((padNat w n).toList ++ rest) = (padNat w n).toList ++ rest := by
  obtain ⟨c, cs, hcs⟩ := List.exists_cons_of_ne_nil (padNat_ne_nil w n)
  rw [hcs, List.cons_append]
  exact skipBlanks_digit (padNat_isDigit w n c (by simp [hcs])) _

theorem literal_skipBlanks {c : Char} (hc : Text.isBlank c = false) (r : List Char) :
    literal c (skipBlanks (c :: r)) = .ok r := by
  simp [skipBlanks, hc, literal]

end Digits

/-! ### Fields -/

section Fields

theorem field_padNat {w lo hi n : Nat} {rest : List Char} (hw : 0 < w) (hn : n < 10 ^ w)
    (hlo : lo ≤ n) (hhi : n ≤ hi) (hrest : NoDigitNext rest) (hmax : 10 ^ w ≤ i64Max) :
    field w lo hi ((padNat w n).toList ++ rest) = .ok (n, rest) := by
  simp only [field, skipBlanks_padNat,
    readDigits_padNat (Nat.le_of_eq (padNat_length hw hn)) hrest (by omega)]
  simp [bind, Except.bind, pure, Except.pure]
  exact ⟨hlo, hhi⟩

theorem yearField_renderYear {y : Int} (hy : y.natAbs < 10 ^ 6) {rest : List Char}
    (hrest : NoDigitNext rest) :
    yearField ((renderYear y).toList ++ rest) = .ok (y, rest) := by
  have hlen := padNat_length_le (k := 6) (by decide) hy 4
  unfold renderYear
  split
  · next h =>
    -- four digits and no sign: the reader's unsigned branch
    obtain ⟨c, cs, hcs⟩ := List.exists_cons_of_ne_nil (padNat_ne_nil 4 y.toNat)
    have hc := padNat_isDigit 4 y.toNat c (by simp [hcs])
    have hread : readDigits 4 ((padNat 4 y.toNat).toList ++ rest) = .ok (y.toNat, rest) :=
      readDigits_padNat (Nat.le_of_eq (padNat_length (by decide) (by omega))) hrest
        (by simp only [i64Max]; omega)
    rw [hcs, List.cons_append] at hread ⊢
    have hm : c ≠ '-' ∧ c ≠ '+' := by
      constructor <;> rintro rfl <;> simp at hc
    simp only [yearField, skipBlanks_digit hc]
    split
    next heq => exact absurd (List.cons.inj heq).1 hm.1
    next heq => exact absurd (List.cons.inj heq).1 hm.2
    next =>
      have hy0 : max y 0 = y := by omega
      simp only [hread, bind, Except.bind, pure, Except.pure, Int.ofNat_toNat, hy0]
      rw [if_neg (by omega)]
  · next h =>
    -- a sign, then the digits of the magnitude, named so that no rule about `natAbs` applies
    obtain ⟨n, hn⟩ : ∃ n, y.natAbs = n := ⟨_, rfl⟩
    rw [hn] at hlen ⊢
    have hread : readDigits i64Max ((padNat 4 n).toList ++ rest) = .ok (n, rest) :=
      readDigits_padNat (by simp only [i64Max]; omega) hrest (by simp only [i64Max]; omega)
    have hsign : (if y < 0 then "-" else "+").toList = [if y < 0 then '-' else '+'] := by
      split <;> rfl
    simp only [String.toList_append, hsign, List.cons_append, List.nil_append, yearField]
    by_cases hneg : y < 0
    · have hv : -(n : Int) = y := by omega
      simp [hneg, skipBlanks, Text.isBlank, hread, hv, bind, Except.bind, pure, Except.pure]
      omega
    · have hv : (n : Int) = y := by omega
      simp [hneg, skipBlanks, Text.isBlank, hread, hv, bind, Except.bind, pure, Except.pure]
      omega

theorem fractionField_padNat {k v : Nat} (hk0 : 0 < k) (hk : k ≤ 9) (hv : v < 10 ^ k)
    {rest : List Char} (hrest : NoDigitNext rest) :
    fractionField ((padNat k v).toList ++ rest) = .ok (v * 10 ^ (9 - k), rest) := by
  have hlen := padNat_length hk0 hv
  have hread : readDigits 9 ((padNat k v).toList ++ rest) = .ok (v, rest) :=
    readDigits_padNat (by omega) hrest
      (by have := Nat.pow_le_pow_right (show 0 < 10 by decide) hk; simp only [i64Max]; omega)
  simp [fractionField, hread, hlen, dropWhile_digits_of_noDigitNext hrest, bind, Except.bind, pure,
    Except.pure, Nat.pow_eq]

/-- The text of a fraction: nothing for none, else a point and 3, 6 or 9 digits that scale back
to the fraction. -/
theorem renderFraction_cases {nanos : Nat} (h : nanos < 10 ^ 9) :
    (nanos = 0 ∧ renderFraction nanos = "") ∨
      ∃ k v, 0 < k ∧ k ≤ 9 ∧ v < 10 ^ k ∧ v * 10 ^ (9 - k) = nanos ∧
        (renderFraction nanos).toList = '.' :: (padNat k v).toList := by
  unfold renderFraction
  by_cases h0 : nanos = 0
  · simp [h0]
  right
  by_cases h6 : nanos % 1000000 = 0
  · exact ⟨3, nanos / 1000000, by decide, by decide, by omega, by simp; omega, by simp [h0, h6]⟩
  by_cases h3 : nanos % 1000 = 0
  · exact ⟨6, nanos / 1000, by decide, by decide, by omega, by simp; omega, by simp [h0, h6, h3]⟩
  exact ⟨9, nanos, by decide, by decide, h, by simp, by simp [h0, h6, h3]⟩

end Fields

/-! ### Reading the text back -/

/-- A moment that its RFC 3339 text stands for exactly: its fraction is below a second, or below
two in a leap second, which ends a minute; and its date lies in the usable years. -/
def Instant.WellFormed (t : Instant) : Prop :=
  (t.nanos < 1000000000 ∨ (t.nanos < 2000000000 ∧ t.secs % 60 = 59)) ∧ t.inRange = true

instance (t : Instant) : Decidable t.WellFormed := inferInstanceAs (Decidable (_ ∧ _))

theorem Instant.rfc3339_toList (t : Instant) :
    (t.rfc3339 true).toList = (renderYear t.civil.year).toList ++ '-' ::
      ((padNat 2 t.civil.month).toList ++ '-' :: ((padNat 2 t.civil.day).toList ++ 'T' ::
      ((padNat 2 t.civil.hour).toList ++ ':' :: ((padNat 2 t.civil.minute).toList ++ ':' ::
      ((padNat 2 t.civil.second).toList ++ (renderFraction t.civil.nanos).toList ++ ['Z']))))) := by
  simp [Instant.rfc3339]

theorem Instant.parseRfc3339_rfc3339 {t : Instant} (h : t.WellFormed) :
    Instant.parseRfc3339 (t.rfc3339 true) = .ok t := by
  obtain ⟨hm1, hm12, hd1, hdm, hh, hmin, hs⟩ := t.civil_bounds
  have hrange : minYear ≤ t.civil.year ∧ t.civil.year ≤ maxYear := by
    simpa [Instant.inRange] using h.2
  have hN : t.civil.nanos < 10 ^ 9 := by
    show (if t.nanos ≥ 1000000000 then t.nanos - 1000000000 else t.nanos) < _
    have := h.1
    split <;> omega
  have hdm31 := daysInMonth_le t.civil.year t.civil.month
  -- each field is read back up to the separator after it
  have hM : ∀ r, field 2 1 12 ((padNat 2 t.civil.month).toList ++ '-' :: r) =
      .ok (t.civil.month, '-' :: r) := fun _ =>
    field_padNat (by decide) (by simp; omega) hm1 hm12 (noDigitNext_cons.mpr (by decide)) (by decide)
  have hD : ∀ r, field 2 1 31 ((padNat 2 t.civil.day).toList ++ 'T' :: r) =
      .ok (t.civil.day, 'T' :: r) := fun _ =>
    field_padNat (by decide) (by simp; omega) hd1 (by omega) (noDigitNext_cons.mpr (by decide))
      (by decide)
  have hH : ∀ r, field 2 0 23 ((padNat 2 t.civil.hour).toList ++ ':' :: r) =
      .ok (t.civil.hour, ':' :: r) := fun _ =>
    field_padNat (by decide) (by simp; omega) (by omega) hh (noDigitNext_cons.mpr (by decide))
      (by decide)
  have hMi : ∀ r, field 2 0 59 ((padNat 2 t.civil.minute).toList ++ ':' :: r) =
      .ok (t.civil.minute, ':' :: r) := fun _ =>
    field_padNat (by decide) (by simp; omega) (by omega) hmin (noDigitNext_cons.mpr (by decide))
      (by decide)
  have hS : ∀ r, NoDigitNext r → field 2 0 60 ((padNat 2 t.civil.second).toList ++ r) =
      .ok (t.civil.second, r) := fun _ hr =>
    field_padNat (by decide) (by simp; omega) (by omega) hs hr (by decide)
  unfold Instant.parseRfc3339
  rw [t.rfc3339_toList, yearField_renderYear (by simp only [minYear, maxYear] at hrange; omega)
    (noDigitNext_cons.mpr (by decide))]
  simp only [bind, Except.bind, pure, Except.pure, literal_skipBlanks (c := '-') (by decide),
    literal_skipBlanks (c := ':') (by decide), hM, hD, dateTimeSeparator, hH, hMi]
  generalize hNdef : t.civil.nanos = N at hN
  -- the fraction is written only when it is not zero
  rcases renderFraction_cases hN with ⟨rfl, hfr⟩ | ⟨k, v, hk0, hk9, hv, rfl, hfr⟩
  case' inl =>
    simp only [hfr, String.toList_empty, List.append_nil]
    rw [hS ['Z'] (noDigitNext_cons.mpr (by decide))]
  case' inr =>
    have hF : fractionField ((padNat k v).toList ++ ['Z']) = .ok (v * 10 ^ (9 - k), ['Z']) :=
      fractionField_padNat hk0 hk9 hv (noDigitNext_cons.mpr (by decide))
    simp only [hfr, List.append_assoc, List.cons_append]
    rw [hS _ (noDigitNext_cons.mpr (by decide))]
    simp only [optionalFraction, hF]
  -- what is read names the moment; a leap second is read back as second 59 and a second more
  all_goals
    by_cases hleap : t.nanos < 1000000000
    · obtain ⟨hsec, hof⟩ := t.ofCivil_civil_of_lt hleap
      rw [hNdef] at hof
      simp [optionalFraction, zoneField, offsetField, startsWithUtc, endOfText, skipBlanks,
        Text.isBlank, pure, Except.pure, momentOf, Nat.ne_of_lt hsec, hof, Instant.addSeconds_zero, h.2, hrange.1,
        hrange.2, hdm]
    · obtain ⟨hsec, hof⟩ := t.ofCivil_civil_of_leap (Nat.le_of_not_lt hleap)
        ((h.1.resolve_left hleap).2)
      rw [hNdef] at hof
      simp [optionalFraction, zoneField, offsetField, startsWithUtc, endOfText, skipBlanks,
        Text.isBlank, pure, Except.pure, momentOf, hsec, hof, Instant.addSeconds_zero, h.2, hrange.1, hrange.2, hdm]

end ComponentSync.Time
