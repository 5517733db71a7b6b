import MuduoPlus.OrderRepository

namespace MuduoPlus

/-- The day of a date, counted from the epoch: the inverse of `civilFromDays`. -/
def daysFromCivil (year : Int) (month day : Nat) : Int :=
  let y := year - (if month ≤ 2 then 1 else 0)
  let era := y / 400
  let yoe := (y % 400).toNat
  let mp := if month ≤ 2 then month + 9 else month - 3
  let doy := (153 * mp + 2) / 5 + day - 1
  let doe := yoe * 365 + yoe / 4 - yoe / 100 + doy
  era * 146097 + doe - 719468

/-- The seconds since the epoch that a `DATETIME` column takes from a text: the digits in their
places, and a date that exists. -/
def sqlDatetime (s : Bytes) : Option Int :=
  let year := digitsValue (s.take 4)
  let month := digitsValue ((s.drop 5).take 2)
  let day := digitsValue ((s.drop 8).take 2)
  let hour := digitsValue ((s.drop 11).take 2)
  let minute := digitsValue ((s.drop 14).take 2)
  let second := digitsValue ((s.drop 17).take 2)
  let days := daysFromCivil year month day
  if s.map (fun b => if isDigit b then 48 else b) = ascii "0000-00-00 00:00:00" ∧
      civilFromDays days = ((year : Int), month, day) ∧ hour < 24 ∧ minute < 60 ∧ second < 60 then
    some (days * 86400 + (hour * 3600 + minute * 60 + second))
  else none

section Calendar

/-- The days of an era less one for each leap year that is over, so that a year has 365 of
them. -/
def leaplessDays (doe : Nat) : Nat := doe - doe / 1460 + doe / 36524 - doe / 146096

/-- The first day of a year of an era. -/
def yearStart (yoe : Nat) : Nat := 365 * yoe + yoe / 4 - yoe / 100

theorem leaplessDays_mono {a b : Nat} (hab : a ≤ b) (hb : b < 146097) :
    leaplessDays a ≤ leaplessDays b := by
  -- a day that 1460 divides is never the last one of the era, so no step goes down
  induction b, hab using Nat.le_induction with
  | base => exact Nat.le_refl _
  | succ b _ ih =>
    have hstep : leaplessDays b ≤ leaplessDays (b + 1) := by
      unfold leaplessDays
      omega
    exact (ih (by omega)).trans hstep

theorem leaplessDays_yearStart :
    ∀ yoe < 400, 365 * yoe ≤ leaplessDays (yearStart yoe) := by
  decide +kernel

theorem leaplessDays_before_yearStart :
    ∀ yoe < 400, 0 < yoe → leaplessDays (yearStart yoe - 1) < 365 * yoe := by
  decide +kernel

variable {doe yoe : Nat}

theorem yearOfEra_lt (hdoe : doe < 146097) : leaplessDays doe / 365 < 400 := by
  unfold leaplessDays
  omega

/-- The days before a year of the era are days of the era up to now. -/
theorem yearStart_le (hdoe : doe < 146097) (hyoe : leaplessDays doe / 365 = yoe) :
    yearStart yoe ≤ doe := by
  -- otherwise the day is at most the last one of the year before, which counts for that year
  by_contra hlt
  have hlast := yearOfEra_lt hdoe
  have hpos : 0 < yoe := by
    rcases Nat.eq_zero_or_pos yoe with rfl | hpos
    · exact absurd (Nat.zero_le doe) hlt
    · exact hpos
  have hbefore := leaplessDays_before_yearStart yoe (by omega) hpos
  have hstart : yearStart yoe < 146097 + 1 := by
    unfold yearStart
    omega
  have hmono := leaplessDays_mono (a := doe) (b := yearStart yoe - 1) (by omega) (by omega)
  omega

/-- No year has more than 366 days. -/
theorem le_yearStart_add (hdoe : doe < 146097) (hyoe : leaplessDays doe / 365 = yoe) :
    doe ≤ yearStart yoe + 365 := by
  by_contra hlt
  have hlast := yearOfEra_lt hdoe
  have hnext : yearStart (yoe + 1) ≤ yearStart yoe + 366 := by
    unfold yearStart
    omega
  by_cases hend : yoe = 399
  · rw [hend] at hlt
    exact hlt (by change doe ≤ 146096; omega)
  · have hstart := leaplessDays_yearStart (yoe + 1) (by omega)
    have hmono := leaplessDays_mono (a := yearStart (yoe + 1)) (b := doe) (by omega) hdoe
    omega

theorem civilFromDays_eq (days : Int) :
    ∃ (era : Int) (yoe doy mp : Nat), yoe < 400 ∧ doy ≤ 365 ∧ mp = (5 * doy + 2) / 153 ∧
      days = era * 146097 + ((yearStart yoe + doy : Nat) : Int) - 719468 ∧
      civilFromDays days =
        ((yoe : Int) + era * 400 + (if (if mp < 10 then mp + 3 else mp - 9) ≤ 2 then 1 else 0),
          if mp < 10 then mp + 3 else mp - 9, doy - (153 * mp + 2) / 5 + 1) := by
  have hdoe : ((days + 719468) % 146097).toNat < 146097 := by omega
  have hle := yearStart_le hdoe rfl
  have hge := le_yearStart_add hdoe rfl
  refine ⟨(days + 719468) / 146097, leaplessDays ((days + 719468) % 146097).toNat / 365,
    ((days + 719468) % 146097).toNat -
      yearStart (leaplessDays ((days + 719468) % 146097).toNat / 365), _, yearOfEra_lt hdoe,
    by omega, rfl, ?_, rfl⟩
  rw [Nat.add_sub_cancel' hle]
  omega

theorem daysFromCivil_civilFromDays (days : Int) :
    daysFromCivil (civilFromDays days).1 (civilFromDays days).2.1 (civilFromDays days).2.2 =
      days := by
  obtain ⟨era, yoe, doy, mp, hyoe, hdoy, hmp, hdays, hcivil⟩ := civilFromDays_eq days
  rw [hcivil, hdays]
  have hmonth : (if mp < 10 then mp + 3 else mp - 9) ≤ 2 ↔ 10 ≤ mp := by
    split
    · omega
    · omega
  have hplace : (if (if mp < 10 then mp + 3 else mp - 9) ≤ 2 then
      (if mp < 10 then mp + 3 else mp - 9) + 9 else (if mp < 10 then mp + 3 else mp - 9) - 3) =
      mp := by
    split <;> split <;> omega
  have hday : (153 * mp + 2) / 5 + (doy - (153 * mp + 2) / 5 + 1) - 1 = doy := by omega
  unfold daysFromCivil
  dsimp only
  rw [hplace, hday]
  have hy : (yoe : Int) + era * 400 +
      (if (if mp < 10 then mp + 3 else mp - 9) ≤ 2 then 1 else 0) -
      (if (if mp < 10 then mp + 3 else mp - 9) ≤ 2 then 1 else 0) = yoe + era * 400 := by omega
  have hera : ((yoe : Int) + era * 400) / 400 = era := by omega
  have hrest : (((yoe : Int) + era * 400) % 400).toNat = yoe := by omega
  rw [hy, hera, hrest, yearStart, Nat.mul_comm yoe 365]

theorem daysFromCivil_bounds {year month day : Nat} (hyear : year ≤ 4000000)
    (hmonth : month ≤ 40000) (hday : day ≤ 40000) :
    -10000000000 ≤ daysFromCivil year month day ∧ daysFromCivil year month day ≤ 10000000000 := by
  unfold daysFromCivil
  dsimp only
  have hy : -1 ≤ (year : Int) - (if month ≤ 2 then 1 else 0) ∧
      (year : Int) - (if month ≤ 2 then 1 else 0) ≤ 4000000 := by
    split
    · omega
    · omega
  have hmp : (if month ≤ 2 then month + 9 else month - 3) ≤ 40009 := by
    split
    · omega
    · omega
  generalize (year : Int) - (if month ≤ 2 then 1 else 0) = y at hy ⊢
  generalize (if month ≤ 2 then month + 9 else month - 3) = mp at hmp ⊢
  have hyoe : (y % 400).toNat < 400 := by omega
  generalize (y % 400).toNat = yoe at hyoe ⊢
  have hdoy : (153 * mp + 2) / 5 + day - 1 ≤ 2000000 := by omega
  generalize (153 * mp + 2) / 5 + day - 1 = doy at hdoy ⊢
  have hdoe : yoe * 365 + yoe / 4 - yoe / 100 + doy ≤ 3000000 := by omega
  generalize yoe * 365 + yoe / 4 - yoe / 100 + doy = doe at hdoe ⊢
  omega

theorem civilFromDays_bounds (days : Int) (hlo : -200000 ≤ days) (hhi : days ≤ 200000) :
    1000 ≤ (civilFromDays days).1 ∧ (civilFromDays days).1 < 10000 ∧
      (civilFromDays days).2.1 < 100 ∧ (civilFromDays days).2.2 < 100 := by
  obtain ⟨era, yoe, doy, mp, hyoe, hdoy, hmp, hdays, hcivil⟩ := civilFromDays_eq days
  have hstart : yearStart yoe ≤ 146096 := by
    unfold yearStart
    omega
  rw [hcivil]
  dsimp only
  refine ⟨?_, ?_, ?_, by omega⟩
  · split <;> omega
  · split <;> omega
  · split <;> omega

end Calendar

section Text

theorem digitsValue_twoDigits {n : Nat} (h : n < 100) : digitsValue (twoDigits n) = n := by
  have htens := toNat_digitByte (d := n / 10 % 10) (Nat.mod_lt _ (by omega))
  have hones := toNat_digitByte (d := n % 10) (Nat.mod_lt _ (by omega))
  simp only [digitsValue, twoDigits, digitByte, List.foldl_cons, List.foldl_nil, htens, hones]
  omega

theorem length_decimal_of_four {n : Nat} (hlo : 1000 ≤ n) (hhi : n < 10000) :
    (decimal n).length = 4 := by
  have hlog : Nat.log 10 n = 3 := Nat.log_eq_of_pow_le_of_lt_pow (by omega) (by omega)
  rw [decimal, if_neg (by omega), List.length_map, List.length_reverse,
    Nat.length_digits 10 n (by omega) (by omega), hlog]

theorem mask_digits {s : Bytes} (h : ∀ b ∈ s, isDigit b = true) :
    s.map (fun b => if isDigit b then 48 else b) = List.replicate s.length 48 := by
  rw [List.eq_replicate_iff, List.length_map]
  refine ⟨rfl, ?_⟩
  intro b hb
  obtain ⟨d, hd, rfl⟩ := List.mem_map.mp hb
  rw [if_pos (h d hd)]

theorem mask_twoDigits (n : Nat) :
    (twoDigits n).map (fun b => if isDigit b then 48 else b) = [48, 48] := by
  have hdigits : ∀ b ∈ twoDigits n, isDigit b = true := by
    intro b hb
    simp only [twoDigits, List.mem_cons, List.not_mem_nil, or_false] at hb
    rcases hb with rfl | rfl
    · exact isDigit_digitByte _
    · exact isDigit_digitByte _
  exact mask_digits hdigits

/-- The digits are read from the places where they are written. -/
theorem sqlDatetime_fields {year : Bytes} {month day hour minute second : Nat}
    (hlength : year.length = 4) (hyear : ∀ b ∈ year, isDigit b = true) (hmonth : month < 100)
    (hday : day < 100) (hhour : hour < 24) (hminute : minute < 60) (hsecond : second < 60)
    (hdate : civilFromDays (daysFromCivil (digitsValue year) month day) =
      ((digitsValue year : Int), month, day)) :
    sqlDatetime (year ++ ascii "-" ++ twoDigits month ++ ascii "-" ++ twoDigits day ++ ascii " " ++
        twoDigits hour ++ ascii ":" ++ twoDigits minute ++ ascii ":" ++ twoDigits second) =
      some (daysFromCivil (digitsValue year) month day * 86400 +
        (hour * 3600 + minute * 60 + second)) := by
  have hdash : ascii "-" = [45] := by simp [ascii]
  have hblank : ascii " " = [32] := by simp [ascii]
  have hcolon : ascii ":" = [58] := by simp [ascii]
  have hmask : ascii "0000-00-00 00:00:00" = List.replicate 4 48 ++ [45] ++ [48, 48] ++ [45] ++
      [48, 48] ++ [32] ++ [48, 48] ++ [58] ++ [48, 48] ++ [58] ++ [48, 48] := by decide
  have hshape : (year ++ ascii "-" ++ twoDigits month ++ ascii "-" ++ twoDigits day ++ ascii " " ++
      twoDigits hour ++ ascii ":" ++ twoDigits minute ++ ascii ":" ++ twoDigits second).map
        (fun b => if isDigit b then 48 else b) = ascii "0000-00-00 00:00:00" := by
    rw [hmask, hdash, hblank, hcolon, ← hlength, ← mask_digits hyear]
    simp only [List.map_append, mask_twoDigits]
    rfl
  have hparts := fun n (h : n < 100) => digitsValue_twoDigits h
  obtain ⟨a, b, c, d, rfl⟩ : ∃ a b c d, year = [a, b, c, d] := List.length_eq_four.mp hlength
  unfold sqlDatetime
  rw [hshape, hdash, hblank, hcolon]
  simp only [twoDigits, List.cons_append, List.nil_append, List.take_succ_cons, List.take_zero,
    List.drop_succ_cons, List.drop_zero] at hparts ⊢
  rw [hparts month hmonth, hparts day hday, hparts hour (by omega), hparts minute (by omega),
    hparts second (by omega), if_pos ⟨trivial, hdate, hhour, hminute, hsecond⟩]

theorem digitsValue_le (ds : Bytes) : digitsValue ds ≤ 256 * 11 ^ ds.length := by
  induction ds using List.reverseRecOn with
  | nil => decide
  | append_singleton ds d ih =>
    have hd := d.toNat_lt
    have hpos : 1 ≤ 11 ^ ds.length := Nat.one_le_pow _ _ (by omega)
    rw [digitsValue_append, List.length_append, List.length_singleton, Nat.pow_succ]
    omega

/-- The times of a `DATETIME` column are far inside of what 64 bits can count. -/
theorem sqlDatetime_bounds {s : Bytes} {seconds : Int} (h : sqlDatetime s = some seconds) :
    -2 ^ 63 ≤ seconds ∧ seconds < 2 ^ 63 := by
  have hpart : ∀ k, digitsValue ((s.drop k).take 2) ≤ 256 * 11 ^ 2 := by
    intro k
    have hlength : ((s.drop k).take 2).length ≤ 2 := List.length_take_le _ _
    exact (digitsValue_le _).trans
      (Nat.mul_le_mul_left 256 (Nat.pow_le_pow_right (by omega) hlength))
  have hyear : digitsValue (s.take 4) ≤ 256 * 11 ^ 4 := by
    have hlength : (s.take 4).length ≤ 4 := List.length_take_le _ _
    exact (digitsValue_le _).trans
      (Nat.mul_le_mul_left 256 (Nat.pow_le_pow_right (by omega) hlength))
  have hmonth := hpart 5
  have hday := hpart 8
  unfold sqlDatetime at h
  dsimp only at h
  split at h
  next hdate =>
    obtain ⟨_, _, hhour, hminute, hsecond⟩ := hdate
    have hseconds := Option.some.inj h
    have hdays := daysFromCivil_bounds (hyear.trans (by omega)) (hmonth.trans (by omega))
      (hday.trans (by omega))
    omega
  next => cases h

/-- A `DATETIME` column reads back the time that `TimeToSQL` writes. -/
theorem sqlDatetime_gmtimeText {tt : Int64} (hlo : -10000000000 ≤ tt.toInt)
    (hhi : tt.toInt ≤ 10000000000) : sqlDatetime (gmtimeText tt) = some tt.toInt := by
  obtain ⟨hylo, hyhi, hmonth, hday⟩ :=
    civilFromDays_bounds (tt.toInt / 86400) (by omega) (by omega)
  have hback := daysFromCivil_civilFromDays (tt.toInt / 86400)
  unfold gmtimeText
  generalize hcivil : civilFromDays (tt.toInt / 86400) = civil at *
  obtain ⟨year, month, day⟩ := civil
  dsimp only at hylo hyhi hmonth hday hback ⊢
  obtain ⟨n, rfl⟩ := Int.eq_ofNat_of_zero_le (by omega : 0 ≤ year)
  have hvalue := digitsValue_decimal n
  rw [decimalInt_natCast, sqlDatetime_fields (length_decimal_of_four (by omega) (by omega)) isDigit_decimal
    hmonth hday (by omega) (by omega) (by omega), hvalue, hback]
  · congr 1
    omega
  · rw [hvalue, hback, hcivil]

theorem TimePoint.seconds_bounds (t : TimePoint) :
    -10000000000 ≤ t.seconds.toInt ∧ t.seconds.toInt ≤ 10000000000 := by
  have hlo := Int64.le_toInt t
  have hhi := Int64.toInt_lt t
  have hdiv : t.seconds.toInt = t.toInt.tdiv 1000000000 :=
    Int64.toInt_div_of_ne_right t 1000000000 (by decide)
  have hsign : Int.sign 1000000000 = 1 := rfl
  rw [hdiv, Int.tdiv_eq_ediv, hsign]
  split
  · omega
  · omega

theorem sqlDatetime_seconds (t : TimePoint) :
    sqlDatetime (gmtimeText t.seconds) = some t.seconds.toInt :=
  sqlDatetime_gmtimeText t.seconds_bounds.1 t.seconds_bounds.2

end Text

end MuduoPlus
