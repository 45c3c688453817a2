import NotificationRelay.Time.Calendar

/-! The numbers of days. Each day has a date whose number it is. -/
namespace NotificationRelay.Time

/-- The year of an era that holds a day of it. -/
theorem yearOfEra_spec {doe year : Int} (low : 0 ≤ doe) (high : doe < 146097)
    (is : year = (doe - doe / 1460 + doe / 36524 - doe / 146096) / 365) :
    0 ≤ year ∧ year < 400 ∧ 0 ≤ doe - (365 * year + year / 4 - year / 100) ∧
      doe - (365 * year + year / 4 - year / 100) ≤ 366 := by
  -- the last day of an era belongs to its fourth century, though it has one day more than the others
  obtain ⟨century, same⟩ : ∃ century, century = doe / 36524 - doe / 146096 := ⟨_, rfl⟩
  have bounds : 0 ≤ century ∧ century ≤ 3 ∧ 36524 * century ≤ doe ∧ doe ≤ 36524 * century + 36524 := by
    omega
  have days : year = (doe - doe / 1460 + century) / 365 := by omega
  clear same is
  have hundreds : year / 100 = century := by omega
  have fours : year / 4 ≤ doe / 1460 := by omega
  have fours' : doe / 1460 ≤ year / 4 + 2 := by omega
  omega

/-- The month, counted from March, that holds a day of a year. -/
theorem marchMonth_spec {doy month : Int} (low : 0 ≤ doy) (high : doy ≤ 366)
    (is : month = (5 * doy + 2) / 153) :
    0 ≤ month ∧ month ≤ 11 ∧ 1 ≤ doy - (153 * month + 2) / 5 + 1 := by
  omega

theorem toDayNumber_ofDayNumber (n : Int) : (Date.ofDayNumber n).toDayNumber = n := by
  obtain ⟨era, eraIs⟩ : ∃ era, era = (n + 719468) / 146097 := ⟨_, rfl⟩
  obtain ⟨doe, doeIs⟩ : ∃ doe, doe = (n + 719468) % 146097 := ⟨_, rfl⟩
  obtain ⟨year, yearIs⟩ : ∃ year,
    year = (doe - doe / 1460 + doe / 36524 - doe / 146096) / 365 := ⟨_, rfl⟩
  obtain ⟨doy, doyIs⟩ : ∃ doy, doy = doe - (365 * year + year / 4 - year / 100) := ⟨_, rfl⟩
  obtain ⟨month, monthIs⟩ : ∃ month, month = (5 * doy + 2) / 153 := ⟨_, rfl⟩
  have days : 0 ≤ doe ∧ doe < 146097 := by omega
  have years := yearOfEra_spec days.1 days.2 yearIs
  rw [← doyIs] at years
  have months := marchMonth_spec years.2.2.1 years.2.2.2 monthIs
  have date : Date.ofDayNumber n =
      ⟨if (if month < 10 then month + 3 else month - 9) ≤ 2 then year + era * 400 + 1
        else year + era * 400,
        (if month < 10 then month + 3 else month - 9).toNat,
        (doy - (153 * month + 2) / 5 + 1).toNat⟩ := by
    rw [monthIs, doyIs, yearIs, doeIs, eraIs]
    rfl
  have whole : (year + era * 400) / 400 = era := by omega
  have part : (year + era * 400) % 400 = year := by omega
  have day : ((doy - (153 * month + 2) / 5 + 1).toNat : Int) = doy - (153 * month + 2) / 5 + 1 := by
    omega
  rw [date, Date.toDayNumber]
  dsimp only
  by_cases early : month < 10
  · have shifted : (((month + 3).toNat + 9) % 12 : Nat) = month := by omega
    have after : ¬(month + 3 ≤ 2) := by omega
    have after' : ¬((month + 3).toNat ≤ 2) := by omega
    rw [if_pos early, if_neg after, if_neg after', shifted, day, whole, part]
    omega
  · have shifted : (((month - 9).toNat + 9) % 12 : Nat) = month := by omega
    have before : month - 9 ≤ 2 := by omega
    have before' : (month - 9).toNat ≤ 2 := by omega
    rw [if_neg early, if_pos before, if_pos before', shifted, day, Int.add_sub_cancel, whole, part]
    omega

end NotificationRelay.Time
