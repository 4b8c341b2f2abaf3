import LiteHarness.Automation.CivilDays
import LiteHarness.Foundation.Jumps

/-!
# Time zones

A time zone is an offset from UTC in whole minutes, whose changes lie thirty hours apart. Where the
offsets stay below fifteen hours they are a drift, and `zonedLocalToUtc` is its correction in two
rounds: it finds the preferred instant of a local time, and says that the time does not exist only
where it does not (`zonedLocalToUtc_spec`).
-/

namespace LiteHarness.Automation

open Foundation

/-- A time zone, whose offset is constant but for single changes. -/
structure Zone where
  /-- The offset of local time from UTC at an instant. -/
  minutes : ℤ → ℤ
  spaced : Spaced (30 * hourMs) minutes

namespace Zone

def offset (zone : Zone) (instant : ℤ) : ℤ := zone.minutes instant * minuteMs

/-- The local time of an instant. -/
def wall (zone : Zone) (instant : ℤ) : ℤ := instant + zone.offset instant

/-- The offsets of the zone stay below fifteen hours. -/
def Near (zone : Zone) : Prop := ∀ t, -900 < zone.minutes t ∧ zone.minutes t < 900

theorem Near.drift {zone : Zone} (h : zone.Near) : Drift (15 * hourMs) zone.offset := by
  refine ⟨fun t ↦ ?_, fun p q hpq hp hq ↦ ?_⟩
  · have hnear := h t
    rw [offset, hourMs, minuteMs]
    omega
  · have hjump : ∀ t, JumpsAt zone.offset t → JumpsAt zone.minutes t := by
      intro t ht heq
      exact ht (congrArg (· * minuteMs) heq)
    have hgap := zone.spaced p q hpq (hjump p hp) (hjump q hq)
    omega

end Zone

/-! ## The formatter -/

/-- The first instant of the year 100, and the last instant that a `Date` can hold. -/
def firstInstant : ℤ := firstDay * dayMs

def lastInstant : ℤ := 8640000000000000

/-- The formatter knows the zone: it reads local times off instants. -/
def Reads (Z : ZoneHost) (timeZone : JsString) (zone : Zone) : Prop :=
  ∀ t, firstInstant ≤ t → t ≤ lastInstant →
    Z.zonedParts t timeZone = .ok (partsOf (zone.wall t))

/-- The local time lies in the years that are read, with a margin for the offsets. -/
def Covered (localTime : ℤ) : Prop :=
  firstInstant + 30 * hourMs ≤ localTime ∧ localTime + 15 * hourMs ≤ lastInstant

variable {Z : ZoneHost} {timeZone : JsString} {zone : Zone} {day hour minute candidate target : ℤ}

/-! ## Corrections -/

/-- One round of the loop. -/
theorem correctCandidate_succ (hreads : Reads Z timeZone zone) (year month date : ℤ)
    (hfirst : firstInstant ≤ candidate) (hlast : candidate ≤ lastInstant)
    (hwall : firstInstant ≤ zone.wall candidate) (hminute : candidate % minuteMs = 0)
    (iterations : ℕ) :
    correctCandidate Z timeZone year month date hour minute target (iterations + 1) candidate =
      if candidate + zone.offset candidate = target then .ok candidate
      else correctCandidate Z timeZone year month date hour minute target iterations
        (target - zone.offset candidate) := by
  have hday : firstDay ≤ dayOf (zone.wall candidate) := by
    rw [firstInstant, dayMs] at hwall
    rw [dayOf, dayMs]
    omega
  have hwhole : zone.wall candidate % minuteMs = 0 := by
    rw [Zone.wall, Zone.offset, minuteMs] at *
    omega
  have hrepresented := dateUTC_partsOf hday
  rw [hwhole, sub_zero] at hrepresented
  rw [correctCandidate, zonedParts, hreads candidate hfirst hlast]
  change (if target - dateUTC _ _ _ _ _ = 0 then _ else _) = _
  rw [hrepresented, Zone.wall]
  by_cases hlands : candidate + zone.offset candidate = target
  · rw [if_pos (by omega), if_pos hlands]
  · rw [if_neg (by omega), if_neg hlands]
    congr 1
    ring

variable (target) in
/-- The check behind the loop. -/
theorem correctCandidate_zero (hreads : Reads Z timeZone zone) (hday : firstDay ≤ day)
    (hhour : 0 ≤ hour ∧ hour ≤ 23) (hminute : 0 ≤ minute ∧ minute ≤ 59)
    (hfirst : firstInstant ≤ candidate) (hlast : candidate ≤ lastInstant)
    (hwall : firstInstant ≤ zone.wall candidate) (hwhole : candidate % minuteMs = 0) :
    correctCandidate Z timeZone (civilDay (day * dayMs)).year ((civilDay (day * dayMs)).month + 1)
      (civilDay (day * dayMs)).day hour minute target 0 candidate =
      if candidate + zone.offset candidate = clockTime day hour minute then .ok candidate
      else .error .nonexistentLocalTime := by
  have hwallDay : firstDay ≤ dayOf (zone.wall candidate) := by
    rw [firstInstant, dayMs] at hwall
    rw [dayOf, dayMs]
    omega
  have hclockDay : firstDay ≤ dayOf (clockTime day hour minute) := by
    rw [dayOf, clockTime, dayMs, hourMs, minuteMs]
    omega
  have hwallWhole : zone.wall candidate % minuteMs = 0 := by
    rw [Zone.wall, Zone.offset, minuteMs] at *
    omega
  have hclockWhole : clockTime day hour minute % minuteMs = 0 := by
    rw [clockTime, dayMs, hourMs, minuteMs]
    omega
  have hparts : partsOf (zone.wall candidate) = partsOf (clockTime day hour minute) ↔
      candidate + zone.offset candidate = clockTime day hour minute := by
    constructor
    · intro heq
      have hwallBack := dateUTC_partsOf hwallDay
      have hclockBack := dateUTC_partsOf hclockDay
      rw [heq, hclockBack, hwallWhole, hclockWhole, sub_zero, sub_zero] at hwallBack
      exact hwallBack.symm
    · intro heq
      exact congrArg partsOf heq
  rw [correctCandidate, zonedParts, hreads candidate hfirst hlast,
    ← partsOf_clockTime hhour hminute]
  change (if partsOf (zone.wall candidate) ≠ partsOf (clockTime day hour minute) then _ else _) = _
  by_cases hlands : candidate + zone.offset candidate = clockTime day hour minute
  · rw [if_neg (not_not.mpr (hparts.mpr hlands)), if_pos hlands]
  · rw [if_pos (mt hparts.mp hlands), if_neg hlands]

/-- The instants that are tried lie in the years that are read. -/
theorem Covered.tried (hcovered : Covered target) (hnear : zone.Near)
    (htried : target - 15 * hourMs ≤ candidate ∧ candidate ≤ target + 15 * hourMs) :
    firstInstant ≤ candidate ∧ candidate ≤ lastInstant ∧ firstInstant ≤ zone.wall candidate := by
  obtain ⟨hfirst, hlast⟩ := hcovered
  have hsmall := hnear.drift.small candidate
  rw [Zone.wall]
  rw [hourMs] at *
  omega

/-- **What `zonedLocalToUtc` finds** is the preferred instant of the local time, and it fails where
the local time does not exist. -/
theorem zonedLocalToUtc_spec (hreads : Reads Z timeZone zone) (hnear : zone.Near)
    (hhour : 0 ≤ hour ∧ hour ≤ 23) (hminute : 0 ≤ minute ∧ minute ≤ 59)
    (hcovered : Covered (clockTime day hour minute)) :
    match zonedLocalToUtc Z timeZone (civilDay (day * dayMs)).year
      ((civilDay (day * dayMs)).month + 1) (civilDay (day * dayMs)).day hour minute with
    | .ok c => Preferred zone.offset (clockTime day hour minute) c
    | .error e => e = .nonexistentLocalTime ∧ ∀ t, zone.wall t ≠ clockTime day hour minute := by
  have hdrift := hnear.drift
  have hday : firstDay ≤ day := by
    obtain ⟨hfirst, -⟩ := hcovered
    rw [firstInstant, clockTime, dayMs, hourMs, minuteMs] at hfirst
    omega
  have hdayOf : dayOf (day * dayMs) = day := by
    rw [dayOf, dayMs]
    omega
  have htarget : dateUTC (civilDay (day * dayMs)).year ((civilDay (day * dayMs)).month + 1 - 1)
      (civilDay (day * dayMs)).day hour minute = clockTime day hour minute := by
    have hback := dateUTC_civilDay (hdayOf ▸ hday) 0 hour minute
    rwa [add_zero, add_zero, hdayOf, ← add_sub_cancel_right (civilDay (day * dayMs)).month 1]
      at hback
  have hwhole : clockTime day hour minute % minuteMs = 0 := by
    rw [clockTime, dayMs, hourMs, minuteMs]
    omega
  rw [zonedLocalToUtc, htarget]
  set time := clockTime day hour minute with htime
  have hround : ∀ c, time - 15 * hourMs ≤ c ∧ c ≤ time + 15 * hourMs → c % minuteMs = 0 →
      ∀ k, correctCandidate Z timeZone (civilDay (day * dayMs)).year
        ((civilDay (day * dayMs)).month + 1) (civilDay (day * dayMs)).day hour minute time
        (k + 1) c =
        if c + zone.offset c = time then .ok c
        else correctCandidate Z timeZone (civilDay (day * dayMs)).year
          ((civilDay (day * dayMs)).month + 1) (civilDay (day * dayMs)).day hour minute time k
          (time - zone.offset c) := by
    intro c htried hc k
    obtain ⟨hfirst, hlast, hwall⟩ := hcovered.tried hnear htried
    exact correctCandidate_succ hreads _ _ _ hfirst hlast hwall hc k
  have hcorrected : ∀ c, (time - zone.offset c) % minuteMs = 0 := by
    intro c
    rw [Zone.offset, minuteMs] at *
    omega
  by_cases hzero : time + zone.offset time = time
  · rw [hround time (hdrift.target_near time) hwhole, if_pos hzero]
    exact Preferred.of_first (by omega) hzero
  rw [hround time (hdrift.target_near time) hwhole, if_neg hzero]
  obtain ⟨u, hu⟩ : ∃ u, u = time - zone.offset time := ⟨_, rfl⟩
  obtain ⟨v, hv⟩ : ∃ v, v = time - zone.offset u := ⟨_, rfl⟩
  have huTried := hdrift.correction_near time time
  have hvTried := hdrift.correction_near time u
  have huWhole := hcorrected time
  have hvWhole := hcorrected u
  rw [← hu] at huTried huWhole ⊢
  rw [← hv] at hvTried hvWhole
  by_cases hfirst : u + zone.offset u = time
  · rw [hround u huTried huWhole, if_pos hfirst]
    exact Preferred.of_first hu hfirst
  rw [hround u huTried huWhole, if_neg hfirst, ← hv]
  by_cases hsecond : v + zone.offset v = time
  · rw [hround v hvTried hvWhole, if_pos hsecond]
    exact Preferred.of_second hdrift hu hfirst hv hsecond
  -- The two rounds found nothing, and the others repeat them.
  have hback := hdrift.correction_back hu hfirst hv hsecond
  obtain ⟨hvFirst, hvLast, hvWall⟩ := hcovered.tried hnear hvTried
  have hend := correctCandidate_zero time hreads hday hhour hminute hvFirst hvLast hvWall hvWhole
  rw [← htime, if_neg hsecond] at hend
  rw [hround v hvTried hvWhole, if_neg hsecond, hback, hround u huTried huWhole, if_neg hfirst,
    ← hv, hround v hvTried hvWhole, if_neg hsecond, hback, hround u huTried huWhole, if_neg hfirst,
    ← hv, hend]
  refine ⟨rfl, fun t hlands ↦ ?_⟩
  have hv' := hdrift.eq_of_lands hu hfirst hlands
  rw [← hv] at hv'
  exact hsecond (hv' ▸ hlands)

end LiteHarness.Automation
