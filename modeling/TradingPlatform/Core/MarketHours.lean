import TradingPlatform.Core.Clock
import TradingPlatform.Dict

/-!
# The hours of the exchange

Both clocks answer whether the regular session is open and when it opens next, with the same code
on the time of day in New York. The time zone is not part of the program, and
`TradingPlatform.Zone` asks one thing of it: that half past nine comes once a day, and parts the
instants of the day before it from those after it. A zone that goes forward and back at two in the
morning, on any days at all, is one (`TradingPlatform.Zone.eastern`).

The next open is what it should be, the first half past nine of a trading day that is still to come
(`TradingPlatform.nextOpen_spec`). What is not is the trading days: the two days of an early close
are among the holidays, so the table with their closing hours is never looked up for them, the
session is closed throughout, and the next open passes over it. `TradingPlatform.coherent_iff` says
at which instants this shows – from half past nine of the last trading day before to the close at
one – and that there is nothing else wrong.
-/

namespace TradingPlatform

/-! ### The session of a day -/

/-- Half past nine, on the clock of the exchange. -/
def opensAt (d : Date) : ℤ := d * microsPerDay + (9 * 60 + 30) * 60 * microsPerSecond

/-- The full hour at which the session of a day ends. -/
def closesAt (d : Date) (hour : ℕ) : ℤ := d * microsPerDay + hour * 3600 * microsPerSecond

/-- The early closes of 2026. -/
def nyseEarlyCloses2026 : Dict Date ℕ :=
  (Dict.empty.set (.ofYmd 2026 11 27) 13).set (.ofYmd 2026 12 24) 13

/-! ### The time zone of the exchange -/

/-- A time zone: the time on its clocks at an instant, and the instant at which they show a time.
All that is asked is that half past nine comes once a day. -/
structure Zone where
  wall : Time → ℤ
  instant : ℤ → Time
  wall_instant : ∀ d : Date, wall (instant (opensAt d)) = opensAt d
  wall_lt_iff : ∀ (t : Time) (d : Date), wall t < opensAt d ↔ t < instant (opensAt d)

/-- The date on the clocks of a zone. -/
def Zone.today (zone : Zone) (now : Time) : Date := Time.date (zone.wall now)

/-! ### The clocks -/

theorem isTradingDay_of_later {d : ℤ} (hlater : Date.ofYmd 2027 1 1 ≤ d) (hd : Date.weekday d < 5) :
    isTradingDay d = true := by
  have hall : ∀ h ∈ nyseHolidays2026, h < Date.ofYmd 2027 1 1 := by decide
  rw [isTradingDay, if_neg (not_le.mpr hd), decide_eq_true_iff]
  intro hmem
  exact absurd (hall d hmem) (not_lt.mpr hlater)

/-- Trading days do not end: the list of holidays does, and of three days in a row one is a
weekday. -/
theorem exists_isTradingDay (d : ℤ) : ∃ n : ℕ, isTradingDay (d + n) = true := by
  -- the list ends before day 20819, the first of January 2027
  obtain ⟨e, hde, hlater, hweekday⟩ : ∃ e : ℤ, d ≤ e ∧ 20819 ≤ e ∧ (e + 719169) % 7 < 5 := by
    by_cases h : (max d 20819 + 719169) % 7 < 5
    · exact ⟨max d 20819, by omega, by omega, h⟩
    · exact ⟨max d 20819 + 2, by omega, by omega, by omega⟩
  refine ⟨(e - d).toNat, ?_⟩
  rw [show d + ((e - d).toNat : ℤ) = e by omega]
  refine isTradingDay_of_later ?_ ?_
  · exact le_trans (by decide) hlater
  · show (e + 719163 + 6) % 7 < 5
    omega

/-- The loop that goes on day by day while the day is no trading day. -/
def firstTradingDay (d : Date) : Date := d + Nat.find (exists_isTradingDay d)

/-- `market_open` of both clocks. -/
def sessionOpen (zone : Zone) (now : Time) : Bool :=
  let wall := zone.wall now
  let today := zone.today now
  if ¬isTradingDay today then false
  else
    let hour := (nyseEarlyCloses2026.get? today).getD 16
    decide (opensAt today ≤ wall ∧ wall < closesAt today hour)

/-- `next_open` of both clocks. -/
def nextSession (zone : Zone) (now : Time) : Time :=
  let candidate := zone.today now
  if zone.wall now < opensAt candidate ∧ isTradingDay candidate then
    zone.instant (opensAt candidate)
  else
    zone.instant (opensAt (firstTradingDay (candidate + 1)))

/-- The clock of the system. -/
structure WallClock where
  now : Time

def WallClock.marketOpen (zone : Zone) (clock : WallClock) : Bool := sessionOpen zone clock.now

def WallClock.nextOpen (zone : Zone) (clock : WallClock) : Time := nextSession zone clock.now

/-- A clock that is set and advanced. -/
structure BacktestClock where
  current : Time

def BacktestClock.set (_ : BacktestClock) (t : Time) : BacktestClock := ⟨t⟩

def BacktestClock.marketOpen (zone : Zone) (clock : BacktestClock) : Bool :=
  sessionOpen zone clock.current

def BacktestClock.nextOpen (zone : Zone) (clock : BacktestClock) : Time :=
  nextSession zone clock.current

/-! ### What the calendar should say -/

/-- The days with a session: the trading days, and the weekdays of an early close. -/
def HasSession (d : Date) : Prop :=
  isTradingDay d = true ∨ d.weekday < 5 ∧ d ∈ nyseEarlyCloses2026.keys

/-- **What the calendar should say at an instant**: the next open is later, the market is open
then, no session starts before it; and on a weekday of an early close the market is open from half
past nine up to the closing hour. -/
structure Coherent (zone : Zone) (marketOpen : Time → Bool) (nextOpen : Time → Time)
    (now : Time) : Prop where
  later : now < nextOpen now
  isOpen : marketOpen (nextOpen now) = true
  first : ∀ d, HasSession d → now < zone.instant (opensAt d) →
    ¬zone.instant (opensAt d) < nextOpen now
  early : ∀ hour, (zone.today now).weekday < 5 →
    nyseEarlyCloses2026.get? (zone.today now) = some hour →
    (marketOpen now = true ↔
      opensAt (zone.today now) ≤ zone.wall now ∧ zone.wall now < closesAt (zone.today now) hour)

/-- From the last open before an early close to that close. -/
def NearEarlyClose (wall : ℤ) : Prop :=
  opensAt (.ofYmd 2026 11 25) ≤ wall ∧ wall < closesAt (.ofYmd 2026 11 27) 13 ∨
    opensAt (.ofYmd 2026 12 23) ≤ wall ∧ wall < closesAt (.ofYmd 2026 12 24) 13

instance (wall : ℤ) : Decidable (NearEarlyClose wall) :=
  inferInstanceAs (Decidable (_ ∨ _))

/-! ### The trading days -/

theorem firstTradingDay_spec (d : Date) : isTradingDay (firstTradingDay d) = true :=
  Nat.find_spec (exists_isTradingDay d)

theorem le_firstTradingDay (d : ℤ) : d ≤ firstTradingDay d :=
  le_add_of_nonneg_right (Int.natCast_nonneg _)

/-- No trading day is passed over. -/
theorem firstTradingDay_le {d e : ℤ} (hde : d ≤ e) (he : isTradingDay e = true) :
    firstTradingDay d ≤ e := by
  have hfind : Nat.find (exists_isTradingDay d) ≤ (e - d).toNat := by
    refine Nat.find_min' _ ?_
    rwa [show d + ((e - d).toNat : ℤ) = e by omega]
  show d + (Nat.find (exists_isTradingDay d) : ℤ) ≤ e
  omega

theorem opensAt_lt_iff {d e : ℤ} : opensAt d < opensAt e ↔ d < e := by
  have hday : microsPerDay = 86400000000 := rfl
  simp only [opensAt, hday]
  omega

variable {zone : Zone} {now : Time}

/-- The opening of an earlier day is over, that of a later day is still to come. -/
theorem lt_opensAt_of_today_lt {d : ℤ} (h : zone.today now < d) : zone.wall now < opensAt d := by
  have hday : microsPerDay = 86400000000 := rfl
  have hmod := Int.emod_add_mul_ediv (zone.wall now) microsPerDay
  have hlt := Int.emod_lt_of_pos (zone.wall now) (show 0 < microsPerDay by decide)
  have htoday : zone.wall now / microsPerDay < d := h
  simp only [opensAt, microsPerSecond]
  rw [hday] at *
  omega

theorem today_le_of_lt_opensAt {d : ℤ} (h : zone.wall now < opensAt d) : zone.today now ≤ d := by
  have hday : microsPerDay = 86400000000 := rfl
  have hmod := Int.emod_add_mul_ediv (zone.wall now) microsPerDay
  have hnonneg := Int.emod_nonneg (zone.wall now) (show microsPerDay ≠ 0 by decide)
  show zone.wall now / microsPerDay ≤ d
  simp only [opensAt, microsPerSecond, hday] at h
  rw [hday] at *
  omega

/-- **The next open** is half past nine of the first trading day for which that is still to
come. -/
theorem nextSession_spec (zone : Zone) (now : Time) :
    ∃ d : ℤ, nextSession zone now = zone.instant (opensAt d) ∧ isTradingDay d = true ∧
      zone.wall now < opensAt d ∧
      ∀ e : ℤ, isTradingDay e = true → zone.wall now < opensAt e → d ≤ e := by
  by_cases htoday : zone.wall now < opensAt (zone.today now) ∧ isTradingDay (zone.today now)
  · refine ⟨zone.today now, if_pos htoday, htoday.2, htoday.1, fun e _ he => ?_⟩
    exact today_le_of_lt_opensAt he
  · refine ⟨firstTradingDay (zone.today now + 1), if_neg htoday, firstTradingDay_spec _, ?_, ?_⟩
    · refine lt_opensAt_of_today_lt ?_
      exact lt_of_lt_of_le (lt_add_one _) (le_firstTradingDay _)
    · intro e he hlt
      refine firstTradingDay_le ?_ he
      -- today itself is not the day: its opening is over, or it is no trading day
      refine Int.add_one_le_iff.mpr (lt_of_le_of_ne (today_le_of_lt_opensAt hlt) ?_)
      rintro rfl
      exact htoday ⟨hlt, he⟩

/-! ### The session -/

theorem today_instant_opensAt (zone : Zone) (d : ℤ) :
    zone.today (zone.instant (opensAt d)) = d := by
  have hday : microsPerDay = 86400000000 := rfl
  show zone.wall (zone.instant (opensAt d)) / microsPerDay = d
  rw [zone.wall_instant]
  simp only [opensAt, microsPerSecond, hday]
  omega

/-- The session of a trading day is open at half past nine. -/
theorem sessionOpen_of_isTradingDay (zone : Zone) {d : ℤ} (hd : isTradingDay d = true) :
    sessionOpen zone (zone.instant (opensAt d)) = true := by
  have hhour : 13 ≤ (nyseEarlyCloses2026.get? d).getD 16 := by
    rw [nyseEarlyCloses2026, Dict.get?_set, Dict.get?_set]
    split_ifs <;> simp
  have hclose : opensAt d < closesAt d ((nyseEarlyCloses2026.get? d).getD 16) := by
    have hday : microsPerDay = 86400000000 := rfl
    simp only [opensAt, closesAt, microsPerSecond, hday]
    omega
  rw [sessionOpen, today_instant_opensAt, zone.wall_instant]
  simp [hd, hclose]

/-- No session is open on a day that is no trading day. -/
theorem sessionOpen_of_not_isTradingDay (h : isTradingDay (zone.today now) = false) :
    sessionOpen zone now = false := by
  rw [sessionOpen, h]
  rfl

/-! ### The days of an early close -/

/-- The first trading day of these, whose session is the last one before an early close. -/
structure PassedOver (before early : ℤ) : Prop where
  trading : isTradingDay before = true
  later : before ≤ early
  none : ∀ e : ℤ, before < e → e ≤ early → isTradingDay e = false

theorem passedOver_thanksgiving : PassedOver (Date.ofYmd 2026 11 25) (Date.ofYmd 2026 11 27) where
  trading := by decide
  later := by decide
  none := by
    intro e hlt hle
    have hfirst : (20782 : ℤ) < e := hlt
    have hlast : e ≤ (20784 : ℤ) := hle
    obtain rfl | rfl : e = 20783 ∨ e = 20784 := by omega
    · decide
    · decide

theorem passedOver_christmas : PassedOver (Date.ofYmd 2026 12 23) (Date.ofYmd 2026 12 24) where
  trading := by decide
  later := by decide
  none := by
    intro e hlt hle
    have hfirst : (20810 : ℤ) < e := hlt
    have hlast : e ≤ (20811 : ℤ) := hle
    obtain rfl : e = 20811 := by omega
    decide

/-- **When the next open passes over an early close**: once the last open before it is over. -/
theorem PassedOver.passes_iff {before early d : ℤ} (h : PassedOver before early)
    (hd : isTradingDay d = true) (hlt : zone.wall now < opensAt d)
    (hleast : ∀ e : ℤ, isTradingDay e = true → zone.wall now < opensAt e → d ≤ e) :
    zone.wall now < opensAt early ∧ early < d ↔
      opensAt before ≤ zone.wall now ∧ zone.wall now < opensAt early := by
  constructor
  · rintro ⟨hearly, hpass⟩
    refine ⟨?_, hearly⟩
    by_contra hc
    have hle := hleast before h.trading (not_le.mp hc)
    have hlater := h.later
    omega
  · rintro ⟨hbefore, hearly⟩
    refine ⟨hearly, ?_⟩
    have hopen : before < d := opensAt_lt_iff.mp (lt_of_le_of_lt hbefore hlt)
    by_contra hc
    rw [h.none d hopen (not_lt.mp hc)] at hd
    exact absurd hd (by decide)

/-- A time within the session of an early close is a time of that day. -/
theorem today_eq_of_early {early : ℤ} (hopen : opensAt early ≤ zone.wall now)
    (hclose : zone.wall now < closesAt early 13) : zone.today now = early := by
  have hday : microsPerDay = 86400000000 := rfl
  simp only [opensAt, closesAt, microsPerSecond, hday] at hopen hclose
  show zone.wall now / microsPerDay = early
  rw [hday]
  omega

/-- The next open does not pass over the day and its session is not denied: the time is not between
the last open before it and its close. -/
theorem PassedOver.coherent_at_iff {before early d : ℤ} (h : PassedOver before early)
    (hd : isTradingDay d = true) (hlt : zone.wall now < opensAt d)
    (hleast : ∀ e : ℤ, isTradingDay e = true → zone.wall now < opensAt e → d ≤ e) :
    (¬(zone.wall now < opensAt early ∧ early < d) ∧
        (zone.today now = early →
          ¬(opensAt early ≤ zone.wall now ∧ zone.wall now < closesAt early 13))) ↔
      ¬(opensAt before ≤ zone.wall now ∧ zone.wall now < closesAt early 13) := by
  rw [h.passes_iff hd hlt hleast]
  have hlater := h.later
  have hday : microsPerDay = 86400000000 := rfl
  have hopens : opensAt before ≤ opensAt early := by
    simp only [opensAt, hday]
    omega
  have hcloses : opensAt early < closesAt early 13 := by
    simp only [opensAt, closesAt, microsPerSecond]
    omega
  constructor
  · rintro ⟨hpass, hsession⟩ ⟨hbefore, hclose⟩
    by_cases hopen : opensAt early ≤ zone.wall now
    · exact hsession (today_eq_of_early hopen hclose) ⟨hopen, hclose⟩
    · exact hpass ⟨hbefore, not_le.mp hopen⟩
  · intro hnot
    refine ⟨fun hpass => hnot ⟨hpass.1, hpass.2.trans hcloses⟩, fun _ hsession => ?_⟩
    exact hnot ⟨hopens.trans hsession.1, hsession.2⟩

theorem mem_keys_earlyCloses (d : Date) :
    d ∈ nyseEarlyCloses2026.keys ↔ d = .ofYmd 2026 12 24 ∨ d = .ofYmd 2026 11 27 := by
  rw [nyseEarlyCloses2026, Dict.mem_keys_set, Dict.mem_keys_set]
  simp [Dict.keys, Dict.empty]

/-- What is asked of the days of an early close alone. -/
theorem coherent_session_iff_early {d : ℤ} (hnext : nextSession zone now = zone.instant (opensAt d))
    (hd : isTradingDay d = true) (hlt : zone.wall now < opensAt d)
    (hleast : ∀ e : ℤ, isTradingDay e = true → zone.wall now < opensAt e → d ≤ e) :
    Coherent zone (sessionOpen zone) (nextSession zone) now ↔
      ∀ early ∈ nyseEarlyCloses2026.keys,
        ¬(zone.wall now < opensAt early ∧ early < d) ∧
          (zone.today now = early →
            ¬(opensAt early ≤ zone.wall now ∧ zone.wall now < closesAt early 13)) := by
  have hstart : ∀ e : Date, zone.instant (opensAt e) < nextSession zone now ↔ e < d := by
    intro e
    rw [hnext, ← zone.wall_lt_iff, zone.wall_instant]
    exact opensAt_lt_iff
  have hlisted : ∀ early ∈ nyseEarlyCloses2026.keys, Date.weekday early < 5 ∧
      isTradingDay early = false ∧ nyseEarlyCloses2026.get? early = some 13 := by
    intro early hearly
    obtain rfl | rfl := (mem_keys_earlyCloses early).mp hearly
    · decide
    · decide
  constructor
  · intro h early hearly
    obtain ⟨hweekday, hclosed, hhour⟩ := hlisted early hearly
    refine ⟨fun ⟨hstill, hpass⟩ => ?_, ?_⟩
    · -- the session that is passed over starts before the next open
      refine h.first early (Or.inr ⟨hweekday, hearly⟩) ((zone.wall_lt_iff _ _).mp hstill) ?_
      exact (hstart early).mpr hpass
    · rintro rfl hsession
      have hopen := (h.early 13 hweekday hhour).mpr hsession
      rw [sessionOpen_of_not_isTradingDay hclosed] at hopen
      exact absurd hopen (by decide)
  · intro h
    refine ⟨?_, ?_, fun e he hstill hpass => ?_, fun hour hweekday hhour => ?_⟩
    · rw [hnext]
      exact (zone.wall_lt_iff _ _).mp hlt
    · rw [hnext]
      exact sessionOpen_of_isTradingDay zone hd
    · have hwall := (zone.wall_lt_iff now e).mpr hstill
      rcases he with he | ⟨-, he⟩
      · exact absurd ((hstart e).mp hpass) (not_lt.mpr (hleast e he hwall))
      · exact (h e he).1 ⟨hwall, (hstart e).mp hpass⟩
    · have hmem := Dict.mem_keys_of_get? hhour
      obtain ⟨-, hclosed, hhour'⟩ := hlisted _ hmem
      obtain rfl : 13 = hour := Option.some_inj.mp (hhour'.symm.trans hhour)
      rw [sessionOpen_of_not_isTradingDay hclosed]
      exact iff_of_false (by decide) ((h _ hmem).2 rfl)

/-- **When the calendar says what it should**: away from the early closes. -/
theorem coherent_session_iff (zone : Zone) (now : Time) :
    Coherent zone (sessionOpen zone) (nextSession zone) now ↔ ¬NearEarlyClose (zone.wall now) := by
  obtain ⟨d, hnext, hd, hlt, hleast⟩ := nextSession_spec zone now
  rw [coherent_session_iff_early hnext hd hlt hleast, NearEarlyClose, not_or,
    ← passedOver_thanksgiving.coherent_at_iff hd hlt hleast,
    ← passedOver_christmas.coherent_at_iff hd hlt hleast]
  simp only [mem_keys_earlyCloses]
  constructor
  · intro h
    exact ⟨h _ (Or.inr rfl), h _ (Or.inl rfl)⟩
  · rintro ⟨hthanksgiving, hchristmas⟩ early (rfl | rfl)
    · exact hchristmas
    · exact hthanksgiving

/-- **When both clocks say what they should**: at every instant but those from the last open before
an early close to that close. -/
theorem coherent_iff (zone : Zone) (now : Time) :
    (Coherent zone (fun t => (WallClock.mk t).marketOpen zone)
        (fun t => (WallClock.mk t).nextOpen zone) now ↔ ¬NearEarlyClose (zone.wall now)) ∧
      ∀ clock : BacktestClock,
        (Coherent zone (fun t => (clock.set t).marketOpen zone)
          (fun t => (clock.set t).nextOpen zone) now ↔ ¬NearEarlyClose (zone.wall now)) :=
  ⟨coherent_session_iff zone now, fun _ => coherent_session_iff zone now⟩

/-! ### New York -/

def microsPerHour : ℤ := 3600 * microsPerSecond

/-- The offset from UTC at noon of a day. -/
def easternOffset (summer : Date → Bool) (d : Date) : ℤ :=
  (if summer d then -4 else -5) * microsPerHour

theorem easternOffset_cases (summer : Date → Bool) (d : Date) :
    easternOffset summer d = -14400000000 ∨ easternOffset summer d = -18000000000 := by
  rw [easternOffset]
  split
  · exact Or.inl (by decide)
  · exact Or.inr (by decide)

/-- The clocks change at two in the morning, as they show it before the change. -/
def easternWall (summer : Date → Bool) (t : Time) : ℤ :=
  let d := Time.date t
  let before := easternOffset summer (d - 1)
  if t < d * microsPerDay + 2 * microsPerHour - before then t + before
  else t + easternOffset summer d

/-- The instant at which the clocks show a time, the first where there are two. A time that the
clocks leap over is taken by the offset before the leap. -/
def easternInstant (summer : Date → Bool) (wall : ℤ) : Time :=
  let d := Time.date wall
  let hours := wall - d * microsPerDay
  let before := easternOffset summer (d - 1)
  if hours < 2 * microsPerHour ∨
      hours < 3 * microsPerHour ∧ before < easternOffset summer d then wall - before
  else wall - easternOffset summer d

theorem opensAt_eq (d : ℤ) : opensAt d = d * 86400000000 + 34200000000 := by
  have hday : microsPerDay = 86400000000 := rfl
  simp only [opensAt, microsPerSecond, hday]
  omega

/-- At half past nine the offset is that of the day. -/
theorem easternInstant_opensAt (summer : Date → Bool) (d : ℤ) :
    easternInstant summer (opensAt d) = opensAt d - easternOffset summer d := by
  have hdate : Time.date (opensAt d) = d := by
    show opensAt d / 86400000000 = d
    rw [opensAt_eq]
    omega
  have hhours : opensAt d - d * microsPerDay = 34200000000 := by
    show opensAt d - d * 86400000000 = 34200000000
    rw [opensAt_eq]
    omega
  rw [easternInstant, hdate, hhours, if_neg]
  rintro (h | ⟨h, -⟩)
  · exact absurd h (by decide)
  · exact absurd h (by decide)

theorem easternWall_eq (summer : Date → Bool) (t : ℤ) :
    easternWall summer t =
      if t < Time.date t * 86400000000 + 7200000000 - easternOffset summer (Time.date t - 1) then
        t + easternOffset summer (Time.date t - 1)
      else t + easternOffset summer (Time.date t) := rfl

/-- The clocks show less than half past nine of a day before the instant that is half past nine by
the offset of that day. -/
theorem easternWall_lt_iff (summer : Date → Bool) (t d : ℤ) :
    easternWall summer t < opensAt d ↔ t < opensAt d - easternOffset summer d := by
  obtain ⟨today, htoday⟩ : ∃ today : ℤ, Time.date t = today := ⟨_, rfl⟩
  have hle : today * 86400000000 ≤ t := htoday ▸ Int.ediv_mul_le t (by decide)
  have hlt : t < (today + 1) * 86400000000 :=
    htoday ▸ Int.lt_mul_of_ediv_lt (by decide) (lt_add_one (t / 86400000000))
  rw [easternWall_eq, opensAt_eq, htoday]
  have hbefore := easternOffset_cases summer (today - 1)
  have hafter := easternOffset_cases summer today
  -- on the day itself the offset is the same; a day apart, five hours make no difference
  rcases eq_or_ne d today with rfl | hne
  · split_ifs <;> omega
  · have hday := easternOffset_cases summer d
    split_ifs <;> omega

/-- New York, with summer time on any days. -/
def Zone.eastern (summer : Date → Bool) : Zone where
  wall := easternWall summer
  instant := easternInstant summer
  wall_instant := by
    intro d
    have hbefore := easternOffset_cases summer (d - 1)
    have hday := easternOffset_cases summer d
    rw [easternInstant_opensAt, easternWall_eq]
    have hdate : Time.date (opensAt d - easternOffset summer d) = d := by
      show (opensAt d - easternOffset summer d) / 86400000000 = d
      rw [opensAt_eq]
      omega
    rw [hdate, if_neg, sub_add_cancel]
    rw [opensAt_eq]
    omega
  wall_lt_iff := by
    intro t d
    rw [easternInstant_opensAt]
    exact easternWall_lt_iff summer t d

/-- Ten in the morning of the day after Thanksgiving, in New York. -/
def blackFriday : Time := (Date.ofYmd 2026 11 27) * microsPerDay + 15 * microsPerHour

/-- **A session that is under way is denied**, by both clocks. -/
theorem not_coherent_blackFriday :
    ¬Coherent (.eastern fun _ => false)
        (fun t => (WallClock.mk t).marketOpen (.eastern fun _ => false))
        (fun t => (WallClock.mk t).nextOpen (.eastern fun _ => false)) blackFriday ∧
      ¬Coherent (.eastern fun _ => false)
        (fun t => ((BacktestClock.mk 0).set t).marketOpen (.eastern fun _ => false))
        (fun t => ((BacktestClock.mk 0).set t).nextOpen (.eastern fun _ => false)) blackFriday ∧
      (WallClock.mk blackFriday).marketOpen (.eastern fun _ => false) = false := by
  have hnear : NearEarlyClose ((Zone.eastern fun _ => false).wall blackFriday) := by decide
  have hnot : ¬Coherent (.eastern fun _ => false) (sessionOpen (.eastern fun _ => false))
      (nextSession (.eastern fun _ => false)) blackFriday := fun h =>
    (coherent_session_iff (.eastern fun _ => false) blackFriday).mp h hnear
  exact ⟨hnot, hnot, by decide⟩

end TradingPlatform
