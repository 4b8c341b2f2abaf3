import LiteHarness.Automation.Zones

/-!
# Daily occurrences

`nextDailyOccurrence` goes through the dates from today on and returns the first instant of the time
that comes later (`nextDailyOccurrence_spec`). A date is passed over where the time does not exist
on it, or where its instant does not come later. From an occurrence on these are the dates on which
the time does not exist, there are no three of them in a row, and so the occurrences are on the very
dates that have the time (`occurrences_spec`).
-/

namespace LiteHarness.Automation

open Foundation

variable {Z : ZoneHost} {timeZone localTime : JsString} {zone : Zone} {hour minute after : ℤ}

/-! ## The search -/

theorem localTime?_bounds {text : JsString} (h : localTime? text = some (hour, minute)) :
    (0 ≤ hour ∧ hour ≤ 23) ∧ 0 ≤ minute ∧ minute ≤ 59 := by
  unfold localTime? at h
  split at h
  · dsimp only at h
    split_ifs at h with hdigits
    obtain ⟨rfl, rfl⟩ := Prod.mk.inj (Option.some.inj h)
    omega
  · exact absurd h nofun

/-- The time exists on the day. -/
def Zone.Has (zone : Zone) (hour minute day : ℤ) : Prop :=
  ∃ t, zone.wall t = clockTime day hour minute

/-- The instant of the time on the day. -/
def Zone.Occurs (zone : Zone) (hour minute day instant : ℤ) : Prop :=
  Preferred zone.offset (clockTime day hour minute) instant

/-- The time of the day does not come later. -/
def Zone.Passed (zone : Zone) (hour minute after day : ℤ) : Prop :=
  ∀ c, zone.Occurs hour minute day c → c ≤ after

/-- What is returned comes later and on the first of the days, counted from `today`, whose time
does; where an error is thrown the time comes later on none of them. -/
def Zone.Searched (zone : Zone) (hour minute after today : ℤ) (offsets : List ℤ) :
    Except ScheduleError ℤ → Prop
  | .ok next => after < next ∧ ∃ front k back, offsets = front ++ k :: back ∧
      zone.Occurs hour minute (today + k) next ∧
      ∀ j ∈ front, zone.Passed hour minute after (today + j)
  | .error _ => ∀ j ∈ offsets, zone.Passed hour minute after (today + j)

theorem Zone.Searched.cons {today k : ℤ} {offsets : List ℤ} {result : Except ScheduleError ℤ}
    (hpassed : zone.Passed hour minute after (today + k))
    (h : zone.Searched hour minute after today offsets result) :
    zone.Searched hour minute after today (k :: offsets) result := by
  rcases result with e | next
  · exact List.forall_mem_cons.mpr ⟨hpassed, h⟩
  · obtain ⟨hlater, front, k', back, rfl, hoccurs, hfront⟩ := h
    exact ⟨hlater, k :: front, k', back, rfl, hoccurs, List.forall_mem_cons.mpr ⟨hpassed, hfront⟩⟩

/-- The loop over the days. -/
theorem searchDays_spec (hreads : Reads Z timeZone zone) (hnear : zone.Near)
    (hhour : 0 ≤ hour ∧ hour ≤ 23) (hminute : 0 ≤ minute ∧ minute ≤ 59)
    (htoday : firstDay ≤ dayOf (zone.wall after)) {offsets : List ℤ}
    (hcovered : ∀ k ∈ offsets, Covered (clockTime (dayOf (zone.wall after) + k) hour minute)) :
    zone.Searched hour minute after (dayOf (zone.wall after)) offsets
      (searchDays Z timeZone hour minute (partsOf (zone.wall after)) after offsets) := by
  induction offsets with
  | nil => exact nofun
  | cons k offsets ih =>
    have hrest := ih fun j hj ↦ hcovered j (List.mem_cons_of_mem k hj)
    have hdate : dateUTC (partsOf (zone.wall after)).year ((partsOf (zone.wall after)).month - 1)
        ((partsOf (zone.wall after)).day + k) 0 0 = (dayOf (zone.wall after) + k) * dayMs := by
      have hback := dateUTC_civilDay htoday k 0 0
      change dateUTC _ ((civilDay (zone.wall after)).month + 1 - 1) _ _ _ = _
      rw [add_sub_cancel_right]
      refine hback.trans ?_
      rw [clockTime, zero_mul, zero_mul, add_zero, add_zero]
    have hfound := zonedLocalToUtc_spec hreads hnear hhour hminute (hcovered k List.mem_cons_self)
    rw [searchDays, hdate]
    rcases hresult : zonedLocalToUtc Z timeZone
      (civilDay ((dayOf (zone.wall after) + k) * dayMs)).year
      ((civilDay ((dayOf (zone.wall after) + k) * dayMs)).month + 1)
      (civilDay ((dayOf (zone.wall after) + k) * dayMs)).day hour minute with e | c
    · rw [hresult] at hfound
      obtain ⟨rfl, hmissing⟩ := hfound
      exact hrest.cons fun c hc ↦ absurd hc.lands (hmissing c)
    · rw [hresult] at hfound
      dsimp only at hfound ⊢
      by_cases hlater : after < c
      · rw [if_pos hlater]
        exact ⟨hlater, [], k, offsets, rfl, hfound, nofun⟩
      · rw [if_neg hlater]
        refine hrest.cons fun c' hc' ↦ ?_
        rw [hc'.unique hfound]
        exact not_lt.mp hlater

/-- An instant from which days can be searched: it lies in the years that are read, with a margin
for the dates from today on. -/
def Searchable (after : ℤ) : Prop :=
  firstInstant + 4 * dayMs ≤ after ∧ after + 6 * dayMs ≤ lastInstant

/-- The first of the days from today on whose time comes later. -/
def Zone.Next (zone : Zone) (hour minute after : ℤ) : Except ScheduleError ℤ → Prop
  | .ok next => after < next ∧ ∃ day, dayOf (zone.wall after) ≤ day ∧
      day ≤ dayOf (zone.wall after) + 3 ∧ zone.Occurs hour minute day next ∧
      ∀ d, dayOf (zone.wall after) ≤ d → d < day → zone.Passed hour minute after d
  | .error _ => ∀ d, dayOf (zone.wall after) ≤ d → d ≤ dayOf (zone.wall after) + 3 →
      zone.Passed hour minute after d

/-- **What `nextDailyOccurrence` returns** is the instant of the time on the first date, of today
and the three after it, on which it comes later; and it throws where there is none. -/
theorem nextDailyOccurrence_spec (hreads : Reads Z timeZone zone) (hnear : zone.Near)
    (hlocal : localTime? localTime = some (hour, minute)) (hafter : Searchable after) :
    zone.Next hour minute after (nextDailyOccurrence Z timeZone localTime after) := by
  obtain ⟨hhour, hminute⟩ := localTime?_bounds hlocal
  obtain ⟨hfirst, hlast⟩ := hafter
  have hsmall := hnear.drift.small after
  have hday : dayOf (zone.wall after) * dayMs ≤ zone.wall after ∧
      zone.wall after < dayOf (zone.wall after) * dayMs + dayMs := by
    rw [dayOf, dayMs]
    omega
  have hcovered : ∀ k ∈ [0, 1, 2, 3],
      Covered (clockTime (dayOf (zone.wall after) + k) hour minute) := by
    intro k hk
    have hk' : 0 ≤ k ∧ k ≤ 3 := by
      simp only [List.mem_cons, List.not_mem_nil, or_false] at hk
      omega
    rw [Zone.wall] at hday ⊢
    rw [Covered, clockTime]
    rw [dayMs, hourMs] at *
    rw [minuteMs]
    omega
  have htoday : firstDay ≤ dayOf (zone.wall after) := by
    rw [Zone.wall] at hday ⊢
    rw [firstInstant, dayMs] at *
    rw [hourMs] at *
    omega
  have hsearched := searchDays_spec hreads hnear hhour hminute htoday hcovered
  rw [nextDailyOccurrence, hlocal]
  dsimp only
  rw [zonedParts, hreads after (by rw [dayMs] at hfirst; omega) (by rw [dayMs] at hlast; omega)]
  change zone.Next hour minute after (searchDays Z timeZone hour minute _ after [0, 1, 2, 3])
  generalize searchDays Z timeZone hour minute (partsOf (zone.wall after)) after [0, 1, 2, 3] =
    result at hsearched ⊢
  rcases result with e | next
  · intro d hd hd'
    have hpassed := hsearched (d - dayOf (zone.wall after)) (by
      simp only [List.mem_cons, List.not_mem_nil, or_false]
      omega)
    rwa [add_sub_cancel] at hpassed
  · obtain ⟨hlater, front, k, back, hoffsets, hoccurs, hfront⟩ := hsearched
    have hk : k ∈ [0, 1, 2, 3] := by
      rw [hoffsets]
      exact List.mem_append_right front List.mem_cons_self
    have hsorted : (front ++ k :: back).Pairwise (· < ·) := hoffsets ▸ by decide
    simp only [List.mem_cons, List.not_mem_nil, or_false] at hk
    refine ⟨hlater, dayOf (zone.wall after) + k, by omega, by omega, hoccurs, fun d hd hd' ↦ ?_⟩
    have hmem : d - dayOf (zone.wall after) ∈ front ++ k :: back := by
      rw [← hoffsets]
      simp only [List.mem_cons, List.not_mem_nil, or_false]
      omega
    rcases List.mem_append.mp hmem with hmem | hmem
    · have hpassed := hfront _ hmem
      rwa [add_sub_cancel] at hpassed
    · -- The offsets go up, so that the days behind are later ones.
      rcases List.mem_cons.mp hmem with heq | hmem
      · omega
      · have hbehind := (List.pairwise_cons.mp (List.pairwise_append.mp hsorted).2.1).1 _ hmem
        omega

/-! ## Occurrences one after the other -/

section Occurrences

variable (Z timeZone localTime)

/-- The occurrences of a time, each of which is looked for from the one before. -/
def occurrences : ℕ → ℤ → Except ScheduleError (List ℤ)
  | 0, _ => .ok []
  | count + 1, after => do
    let next ← nextDailyOccurrence Z timeZone localTime after
    let rest ← occurrences count next
    .ok (next :: rest)

end Occurrences

/-- Each of the instants is that of the time on the next day that has it. -/
inductive Zone.Consecutive (zone : Zone) (hour minute : ℤ) : ℤ → List ℤ → Prop
  | nil (day : ℤ) : zone.Consecutive hour minute day []
  | cons {day next instant : ℤ} {instants : List ℤ} (later : day < next)
      (occurs : zone.Occurs hour minute next instant)
      (between : ∀ d, day < d → d < next → ¬zone.Has hour minute d)
      (rest : zone.Consecutive hour minute next instants) :
      zone.Consecutive hour minute day (instant :: instants)

theorem Zone.Occurs.dayOf_wall (hhour : 0 ≤ hour ∧ hour ≤ 23) (hminute : 0 ≤ minute ∧ minute ≤ 59)
    {day instant : ℤ} (h : zone.Occurs hour minute day instant) :
    dayOf (zone.wall instant) = day := by
  have hlands : zone.wall instant = clockTime day hour minute := h.lands
  rw [hlands, dayOf, clockTime, dayMs, hourMs, minuteMs]
  omega

/-- Behind an occurrence a day is passed over only where it does not have the time. -/
theorem Zone.Passed.not_has (hnear : zone.Near) {day d instant : ℤ}
    (hoccurs : zone.Occurs hour minute day instant) (hd : day < d)
    (h : zone.Passed hour minute instant d) : ¬zone.Has hour minute d := by
  rintro ⟨t, ht⟩
  obtain ⟨c, hc⟩ := Preferred.exists_of_lands hnear.drift ht
  have hlt := Preferred.lt hnear.drift hoccurs hc (by
    rw [clockTime, clockTime, dayMs, hourMs]
    omega)
  exact absurd (h c hc) (not_le.mpr hlt)

/-- **From an occurrence on** the next one is on the next day that has the time. -/
theorem next_of_occurs (hreads : Reads Z timeZone zone) (hnear : zone.Near)
    (hlocal : localTime? localTime = some (hour, minute)) {day instant : ℤ}
    (hoccurs : zone.Occurs hour minute day instant) (hinstant : Searchable instant) :
    ∃ next later, nextDailyOccurrence Z timeZone localTime instant = .ok later ∧
      (day < next ∧ next ≤ day + 3) ∧ zone.Occurs hour minute next later ∧
      ∀ d, day < d → d < next → ¬zone.Has hour minute d := by
  obtain ⟨hhour, hminute⟩ := localTime?_bounds hlocal
  have hday := hoccurs.dayOf_wall hhour hminute
  have hnext := nextDailyOccurrence_spec hreads hnear hlocal hinstant
  generalize nextDailyOccurrence Z timeZone localTime instant = result at hnext
  rcases result with e | later
  · -- No three days in a row are without the time.
    have hmissing : ∀ k : ℤ, 1 ≤ k → k ≤ 3 → ¬zone.Has hour minute (day + k) := fun k hk hk' ↦
      Zone.Passed.not_has hnear hoccurs (by omega) (hnext (day + k) (by omega) (by omega))
    have hstep : ∀ k : ℤ, clockTime (day + k) hour minute =
        clockTime day hour minute + k * dayMs := by
      intro k
      rw [clockTime, clockTime]
      ring
    rcases hnear.drift.exists_lands (clockTime (day + 1) hour minute)
      (clockTime (day + 2) hour minute) (clockTime (day + 3) hour minute)
      (by rw [hstep, hstep, dayMs]; omega) (by rw [hstep, hstep, dayMs, hourMs]; omega)
      (by rw [hstep, hstep, dayMs]; omega) (by rw [hstep, hstep, dayMs, hourMs]; omega)
      (by rw [hstep, hstep, dayMs, hourMs]; omega) with hhas | hhas | hhas
    · exact absurd hhas (hmissing 1 (by omega) (by omega))
    · exact absurd hhas (hmissing 2 (by omega) (by omega))
    · exact absurd hhas (hmissing 3 (by omega) (by omega))
  · obtain ⟨hlater, next, hfrom, hto, hoccurs', hpassed⟩ := hnext
    rw [hday] at hfrom hto hpassed
    have hlt : day < next := by
      rcases hfrom.lt_or_eq with hlt | rfl
      · exact hlt
      · exact absurd hlater (by rw [hoccurs'.unique hoccurs]; exact lt_irrefl instant)
    exact ⟨next, later, rfl, ⟨hlt, hto⟩, hoccurs', fun d hd hd' ↦
      Zone.Passed.not_has hnear hoccurs hd (hpassed d hd.le hd')⟩

/-- **The occurrences** behind one are on the days that have the time, once on each. -/
theorem occurrences_spec (hreads : Reads Z timeZone zone) (hnear : zone.Near)
    (hlocal : localTime? localTime = some (hour, minute)) (count : ℕ) {day instant : ℤ}
    (hoccurs : zone.Occurs hour minute day instant) (hfirst : firstInstant + 4 * dayMs ≤ instant)
    (hlast : instant + (5 * count + 6) * dayMs ≤ lastInstant) :
    ∃ instants, occurrences Z timeZone localTime count instant = .ok instants ∧
      instants.length = count ∧ zone.Consecutive hour minute day instants := by
  induction count generalizing day instant with
  | zero => exact ⟨[], rfl, rfl, .nil day⟩
  | succ count ih =>
    have hlast' : instant + 6 * dayMs ≤ lastInstant := by
      push_cast at hlast
      rw [dayMs] at *
      omega
    obtain ⟨next, later, hnext, ⟨hlt, hle⟩, hoccurs', hbetween⟩ :=
      next_of_occurs hreads hnear hlocal hoccurs ⟨hfirst, hlast'⟩
    have hlands := hoccurs.lands
    have hlands' := hoccurs'.lands
    have hsmall := hnear.drift.small instant
    have hsmall' := hnear.drift.small later
    rw [clockTime] at hlands hlands'
    have hrange : firstInstant + 4 * dayMs ≤ later ∧
        later + (5 * count + 6) * dayMs ≤ lastInstant := by
      have hgt := Preferred.lt hnear.drift hoccurs hoccurs' (by
        rw [clockTime, clockTime, dayMs, hourMs]
        omega)
      push_cast at hlast
      rw [dayMs, hourMs] at *
      omega
    obtain ⟨instants, hrest, hlength, hconsecutive⟩ := ih hoccurs' hrange.1 hrange.2
    refine ⟨later :: instants, ?_, congrArg (· + 1) hlength,
      .cons hlt hoccurs' hbetween hconsecutive⟩
    rw [occurrences, hnext]
    change (occurrences Z timeZone localTime count later >>= fun rest ↦ .ok (later :: rest)) = _
    rw [hrest]
    rfl

end LiteHarness.Automation
