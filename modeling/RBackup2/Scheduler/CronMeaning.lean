import RBackup2.Scheduler.ScheduleCalc
import RBackup2.Lib.Cron

/-!
# What a cron expression means

`calculate_next_cron_run` puts a zero in front of the five fields and hands them to the `cron`
crate, which numbers the days of the week from 1 for Sunday and refuses long steps.  The documents
number them from 1 for Monday.

* `calculateNextRun_isLeast` — what is calculated, for a crate that keeps to its documentation.
* `cron_meaning_iff` — it is what the crontab reading gives, at every time, exactly when the day
  fields select the same days in both readings.
* `sameDays_of_noDayNumbers`, `sameDays_iff_of_dayNumbers` — they do when the days of the week are
  given by names, and do not when they are given by numbers, unless it is the whole week.
-/

set_option autoImplicit false

namespace RBackup2

open Calendar Cron

/-- The crontab reading: 1 is Monday, 0 and 7 are Sunday, and a step may be of any length. -/
def crontab (rule : DayRule) : Dialect := ⟨.weekdaysFromZero, rule, false⟩

/-- The reading of the `cron` crate: 1 is Sunday, a day has to match all fields, and no step goes
    beyond the last number of its field. -/
def cronCrate : Dialect := ⟨.weekdaysFromOne, .both, true⟩

/-- The readings from which the crate is asked to look ahead.  Its calendar ends with the year
    2100, so these may be all up to 2071; they include those of 1970 to 2024. -/
def Horizon (known : Set DateTime) : Prop :=
  ∀ now, -1 ≤ now → now < seconds 1735689600 → now ∈ known

/-- The crate reads six fields as documented, and `after(&now).next()` is the least later time that
    matches all of them. -/
structure CronCrate.Documented (cron : CronCrate) (known : Set DateTime) : Prop where
  horizon : Horizon known
  accepts : ∀ text second x, parseSix text = some (second, x) →
    cronCrate.takes .minutes second = true → cronCrate.inRange x = true →
    ∃ p, cron.fromStr text = .ok p ∧ ∀ now ∈ known, ∀ t, cron.next p now = some t ↔
      IsLeast {u | now < u ∧ cronCrate.Matches second x u} t
  rejects : ∀ text second x, parseSix text = some (second, x) → cronCrate.inRange x = false →
    ∃ e, cron.fromStr text = .error e

theorem Horizon.univ : Horizon Set.univ := fun _ _ _ => Set.mem_univ _

/-- The instant before a moment of the years 2000 to 2024 is one of the readings. -/
theorem Horizon.mem {known : Set DateTime} (h : Horizon known) {t : Moment}
    (hlo : 2000 ≤ t.date.year) (hhi : t.date.year ≤ 2024) : t.instant - 1 ∈ known := by
  have hge := t.date.le_toDays
  have hlt := t.date.toDays_lt
  have hmono := daysBeforeYear_mono hlo
  have hmono' := daysBeforeYear_mono (show t.date.year + 1 ≤ 2025 by omega)
  have h1970 : daysBeforeYear 2000 - daysBeforeYear 1970 = 10957 := rfl
  have h2025 : daysBeforeYear 2025 - daysBeforeYear 1970 = 20089 := rfl
  obtain ⟨hour, minute, second⟩ := And.intro t.hour_lt (And.intro t.minute_lt t.second_lt)
  refine h _ ?_ ?_
  · unfold Moment.instant
    omega
  · unfold Moment.instant seconds
    omega

/-- The instants at which a five-field expression runs. -/
def RunsAt (x : Expr) (u : DateTime) : Prop :=
  cronCrate.inRange x = true ∧ cronCrate.Matches .zero x u

theorem calculateNextRun_isLeast {cron : CronCrate} {known : Set DateTime}
    (hcron : cron.Documented known) {s : Schedule} {e : String} {x : Expr} (hs : s.isCron = true)
    (he : s.cronExpression = some e) (hx : parseFive e = some x) (last : Option DateTime)
    {now : DateTime} (hnow : now ∈ known) (t : DateTime) :
    calculateNextRun cron s last now = .ok t ↔ IsLeast {u | now < u ∧ RunsAt x u} t := by
  have hsix := parseSix_zero hx
  unfold calculateNextRun calculateNextCronRun
  rw [if_pos hs, he]
  simp only
  cases hin : cronCrate.inRange x with
  | false =>
    obtain ⟨err, herr⟩ := hcron.rejects _ _ _ hsix hin
    rw [herr]
    constructor
    · intro h; cases h
    · intro h
      have hruns := h.1.2.1
      rw [hin] at hruns
      cases hruns
  | true =>
    obtain ⟨p, hp, hnext⟩ := hcron.accepts _ _ _ hsix cronCrate.takes_zero hin
    have hset : {u | now < u ∧ RunsAt x u} =
        {u | now < u ∧ cronCrate.Matches .zero x u} := by
      ext u
      exact ⟨fun h => ⟨h.1, h.2.2⟩, fun h => ⟨h.1, hin, h.2⟩⟩
    rw [hp, hset, ← hnext now hnow t]
    simp only
    cases cron.next p now with
    | none => exact ⟨fun h => (by cases h), fun h => (by cases h)⟩
    | some next =>
      simp only [Except.ok.injEq, Option.some.injEq]

/-! ## The two readings -/

/-- **The day fields select the same days in both readings**, and the crate takes the expression
    if there is such a day. -/
def SameDays (rule : DayRule) (x : Expr) : Prop :=
  ∀ month day weekday, 1 ≤ month → month ≤ 12 → 1 ≤ day → day ≤ monthLength true month →
    weekday < 7 → (crontab rule).matchesDay x month day weekday =
      (cronCrate.inRange x && cronCrate.matchesDay x month day weekday)

theorem SameDays.matches_iff {rule : DayRule} {x : Expr} (h : SameDays rule x) (u : DateTime) :
    (crontab rule).Matches .zero x u ↔ RunsAt x u := by
  have hday : ∀ t : Moment, (crontab rule).matchesMoment .zero x t =
      (cronCrate.inRange x && cronCrate.matchesMoment .zero x t) := by
    intro t
    have hlen := Nat.le_trans t.date.day_le (monthLength_le_leap _ _)
    have hsame := h _ _ _ t.date.month_pos t.date.month_le t.date.day_pos hlen t.date.weekday_lt
    unfold Dialect.matchesMoment
    rw [hsame]
    exact Bool.and_left_comm _ _ _
  unfold RunsAt Dialect.Matches
  constructor
  · rintro ⟨t, rfl, ht⟩
    rw [hday, Bool.and_eq_true] at ht
    exact ⟨ht.1, t, rfl, ht.2⟩
  · rintro ⟨hin, t, rfl, ht⟩
    exact ⟨t, rfl, by rw [hday, hin, ht]; rfl⟩

/-- The instants of the years 2000 to 2024 tell the two readings apart. -/
theorem sameDays_of_matches {known : Set DateTime} (hknown : Horizon known) {rule : DayRule}
    {x : Expr} (hx : (crontab rule).inRange x = true)
    (h : ∀ u, u - 1 ∈ known → ((crontab rule).Matches .zero x u ↔ RunsAt x u)) :
    SameDays rule x := by
  intro month day weekday hm hm' hd hd' hw
  obtain ⟨date, ⟨hlo, hhi⟩, rfl, rfl, rfl⟩ := exists_date hm hm' hd hd' hw
  obtain ⟨t, rfl, ht⟩ := Dialect.exists_moment hx date
  have hu := h t.instant (hknown.mem hlo hhi)
  unfold RunsAt at hu
  rw [Dialect.matches_moment, Dialect.matches_moment, ht, ht] at hu
  rw [Bool.eq_iff_iff, Bool.and_eq_true]
  exact hu

/-- The day fields have to match both, by the rule or because one starts with `*`. -/
def Conjoined (rule : DayRule) (x : Expr) : Prop :=
  rule = .both ∨ x.dayOfMonth.starred = true ∨ x.dayOfWeek.starred = true

theorem Conjoined.matchesDay {rule : DayRule} {x : Expr} (h : Conjoined rule x)
    (month day weekday : Nat) : (crontab rule).matchesDay x month day weekday =
      (x.month.selects .months month && (x.dayOfMonth.selects .daysOfMonth day &&
        x.dayOfWeek.selects .weekdaysFromZero weekday)) := by
  unfold Dialect.matchesDay crontab
  cases rule with
  | both => rfl
  | either =>
    have hstar : (x.dayOfMonth.starred || x.dayOfWeek.starred) = true := by
      rcases h with h | h | h
      · cases h
      · rw [h, Bool.true_or]
      · rw [h, Bool.or_true]
    simp only [hstar, if_true]

/-- No step of the expression goes beyond the last number of its field. -/
def shortSteps (x : Expr) : Bool :=
  x.minute.shortSteps .minutes && x.hour.shortSteps .hours &&
    x.dayOfMonth.shortSteps .daysOfMonth && x.month.shortSteps .months &&
    x.dayOfWeek.shortSteps .weekdaysFromOne

/-- The crate takes what a crontab takes, up to the steps and the numbers of the days of the
    week. -/
theorem cronCrate_inRange {rule : DayRule} {x : Expr} (hx : (crontab rule).inRange x = true) :
    x.dayOfWeek.inRange .weekdaysFromZero = true ∧
      cronCrate.inRange x = (shortSteps x && x.dayOfWeek.inRange .weekdaysFromOne) := by
  unfold Dialect.inRange Dialect.takes crontab at hx
  simp only [Bool.not_false, Bool.true_or, Bool.and_true, Bool.and_eq_true] at hx
  obtain ⟨⟨⟨⟨hm, hh⟩, hd⟩, hmo⟩, hw⟩ := hx
  refine ⟨hw, ?_⟩
  unfold Dialect.inRange Dialect.takes cronCrate shortSteps
  simp only [hm, hh, hd, hmo, Bool.not_true, Bool.false_or, Bool.true_and]
  rw [Bool.and_comm (x.dayOfWeek.inRange _)]
  simp only [Bool.and_assoc]

/-- Some day is one of those of the month and the day-of-month field. -/
def HasDate (x : Expr) : Prop :=
  ∃ month day, 1 ≤ month ∧ month ≤ 12 ∧ 1 ≤ day ∧ day ≤ monthLength true month ∧
    x.month.selects .months month = true ∧ x.dayOfMonth.selects .daysOfMonth day = true

/-- Two readings that agree on a date take the same days of the week for it, and the crate takes
    the expression. -/
theorem SameDays.week {rule : DayRule} {x : Expr} (h : SameDays rule x)
    (hrule : Conjoined rule x) (hdate : HasDate x) :
    ∀ w < 7, x.dayOfWeek.selects .weekdaysFromZero w =
      (cronCrate.inRange x && x.dayOfWeek.selects .weekdaysFromOne w) := by
  intro w hw
  obtain ⟨month, day, hm, hm', hd, hd', hmonth, hday⟩ := hdate
  have hsame := h month day w hm hm' hd hd' hw
  rw [hrule.matchesDay, hmonth, hday, Bool.true_and, Bool.true_and] at hsame
  rw [hsame]
  simp [Dialect.matchesDay, cronCrate, hmonth, hday]

theorem SameDays.inRange {rule : DayRule} {x : Expr} (h : SameDays rule x)
    (hrule : Conjoined rule x) (hx : (crontab rule).inRange x = true) (hdate : HasDate x) :
    cronCrate.inRange x = true := by
  obtain ⟨k, -, -, hk⟩ := Field.exists_selects (cronCrate_inRange hx).1
  have hsel := h.week hrule hdate (k % 7) (Nat.mod_lt _ (by omega))
  rw [show x.dayOfWeek.selects .weekdaysFromZero (k % 7) = true from hk] at hsel
  exact (Bool.and_eq_true_iff.1 hsel.symm).1

/-- **Without day numbers** the two readings agree if no step is too long. -/
theorem sameDays_of_noDayNumbers {rule : DayRule} {x : Expr} (hrule : Conjoined rule x)
    (hx : (crontab rule).inRange x = true) (hsteps : shortSteps x = true)
    (hnames : ∀ i ∈ x.dayOfWeek.items, i.base.isNumbers = false) : SameDays rule x := by
  intro month day weekday _ _ _ _ _
  obtain ⟨hzero, hin⟩ := cronCrate_inRange hx
  obtain ⟨hone, hsame⟩ := Field.selects_weekdays hnames hzero
  rw [hrule.matchesDay, hin, hsteps, hone, hsame, Bool.true_and, Bool.true_and]
  rfl

/-- **With day numbers** they agree only on the whole week, written without a 0 and without long
    steps. -/
theorem sameDays_iff_of_dayNumbers {rule : DayRule} {x : Expr} (hrule : Conjoined rule x)
    (hx : (crontab rule).inRange x = true)
    (hnumbers : ∀ i ∈ x.dayOfWeek.items, i.base.isNumbers = true) (hdate : HasDate x) :
    SameDays rule x ↔ cronCrate.inRange x = true ∧
      ∀ w < 7, x.dayOfWeek.selects .weekdaysFromZero w = true := by
  obtain ⟨hzero, hin⟩ := cronCrate_inRange hx
  constructor
  · intro h
    have htaken := h.inRange hrule hx hdate
    have hone : x.dayOfWeek.inRange .weekdaysFromOne = true :=
      (Bool.and_eq_true_iff.1 (hin.symm.trans htaken)).2
    refine ⟨htaken, (Field.selects_weekdays_iff hnumbers hone hzero).1 fun w hw => ?_⟩
    rw [h.week hrule hdate w hw, htaken, Bool.true_and]
  · rintro ⟨htaken, hall⟩ month day weekday - - - - hw
    have hone : x.dayOfWeek.inRange .weekdaysFromOne = true :=
      (Bool.and_eq_true_iff.1 (hin.symm.trans htaken)).2
    have hsame := (Field.selects_weekdays_iff hnumbers hone hzero).2 hall weekday hw
    rw [hrule.matchesDay, htaken, hsame, Bool.true_and]
    rfl

/-! ## What is calculated -/

/-- **What a cron schedule waits for**: at every time, the time calculated is the least later
    minute that matches in the crontab reading, if and only if the day fields select the same days
    in both readings. -/
theorem cron_meaning_iff (rule : DayRule) {cron : CronCrate} {known : Set DateTime}
    (hcron : cron.Documented known) {s : Schedule} {e : String} {x : Expr} (hs : s.isCron = true)
    (he : s.cronExpression = some e) (hx : parseFive e = some x)
    (hvalid : (crontab rule).inRange x = true) :
    (∀ last, ∀ now ∈ known, ∀ t, calculateNextRun cron s last now = .ok t ↔
      IsLeast {u | now < u ∧ (crontab rule).Matches .zero x u} t) ↔ SameDays rule x := by
  constructor
  · intro h
    refine sameDays_of_matches hcron.horizon hvalid fun u hu => ?_
    rw [← isLeast_pred_iff ((crontab rule).Matches .zero x), ← isLeast_pred_iff (RunsAt x),
      ← h none _ hu u]
    exact calculateNextRun_isLeast hcron hs he hx none hu u
  · intro h last now hnow t
    have hset : {u | now < u ∧ (crontab rule).Matches .zero x u} =
        {u | now < u ∧ RunsAt x u} := by
      ext u
      exact and_congr_right fun _ => h.matches_iff u
    rw [hset]
    exact calculateNextRun_isLeast hcron hs he hx last hnow t

/-- The crate, as it is documented. -/
noncomputable def CronCrate.reference : CronCrate where
  Parsed := Field × Expr
  fromStr := fun text =>
    match parseSix text with
    | none => .error "Invalid expression"
    | some (second, x) =>
      if cronCrate.takes .minutes second && cronCrate.inRange x then .ok (second, x)
      else .error "Invalid expression"
  next := fun p now =>
    open Classical in
    if h : ∃ t, IsLeast {u | now < u ∧ cronCrate.Matches p.1 p.2 u} t then some h.choose else none

theorem CronCrate.reference_documented : CronCrate.reference.Documented Set.univ where
  horizon := Horizon.univ
  accepts := by
    intro text second x hparse hsec hx
    refine ⟨(second, x), ?_, fun now _ t => ?_⟩
    · simp [CronCrate.reference, hparse, hsec, hx]
    · unfold CronCrate.reference
      simp only
      constructor
      · intro h
        split at h
        · rename_i hex
          cases h
          exact hex.choose_spec
        · cases h
      · intro h
        rw [dif_pos ⟨t, h⟩]
        exact congrArg some ((Exists.choose_spec ⟨t, h⟩ : IsLeast _ _).unique h)
  rejects := by
    intro text second x hparse hx
    exact ⟨"Invalid expression", by simp [CronCrate.reference, hparse, hx]⟩

/-- The schedule of the tests, every night at two. -/
theorem cron_meaning_iff_nightly :
    let x : Expr := ⟨.zero, ⟨⟨.numbers 2 2, 1, Nat.one_pos⟩, []⟩, ⟨⟨.star, 1, Nat.one_pos⟩, []⟩,
      ⟨⟨.star, 1, Nat.one_pos⟩, []⟩, ⟨⟨.star, 1, Nat.one_pos⟩, []⟩⟩
    ∀ last now t, calculateNextRun .reference (.cronAt "0 2 * * *" 1 1 none) last now = .ok t ↔
      IsLeast {u | now < u ∧ (crontab .either).Matches .zero x u} t := by
  intro x last now
  have hvalid : (crontab .either).inRange x = true := by decide
  refine (cron_meaning_iff .either CronCrate.reference_documented (s := .cronAt _ 1 1 none)
    (by decide) rfl (show parseFive "0 2 * * *" = some x by decide) hvalid).2 ?_ last now
    (Set.mem_univ now)
  exact sameDays_of_noDayNumbers (.inr (.inl rfl)) hvalid (by decide) (by decide)

/-- 13:00 on a Sunday. -/
def sundayAfternoon : Moment where
  date := ⟨2025, 1, 5, by decide, by decide, by decide, by decide⟩
  hour := 13
  minute := 0
  second := 0
  hour_lt := by decide
  minute_lt := by decide
  second_lt := by decide

/-- The documents give `0 13 * * 1,3,5` for Monday, Wednesday and Friday; the crate runs it on
    Sunday. -/
theorem monday_runs_on_sunday :
    ¬ ∃ rule, ∀ (cron : CronCrate) (s : Schedule) (e : String) (x : Expr),
      cron.Documented Set.univ → s.isCron = true → s.cronExpression = some e →
      parseFive e = some x → (crontab rule).inRange x = true → ∀ last now t,
        calculateNextRun cron s last now = .ok t ↔
          IsLeast {u | now < u ∧ (crontab rule).Matches .zero x u} t := by
  rintro ⟨rule, h⟩
  let n (k : Nat) : Item := ⟨.numbers k k, 1, Nat.one_pos⟩
  let star : Field := ⟨⟨.star, 1, Nat.one_pos⟩, []⟩
  let x : Expr := ⟨.zero, ⟨n 13, []⟩, star, star, ⟨n 1, [n 3, n 5]⟩⟩
  have hs : (Schedule.cronAt "0 13 * * 1,3,5" 1 1 none).isCron = true := by decide
  have hx : parseFive "0 13 * * 1,3,5" = some x := by decide
  have hvalid : (crontab rule).inRange x = true := by cases rule <;> decide
  have hmeaning := h .reference _ _ x CronCrate.reference_documented hs rfl hx hvalid
  have hiff : ∀ u, RunsAt x u ↔ (crontab rule).Matches .zero x u := by
    intro u
    rw [← isLeast_pred_iff (RunsAt x), ← isLeast_pred_iff ((crontab rule).Matches .zero x),
      ← hmeaning none (u - 1) u]
    exact (calculateNextRun_isLeast CronCrate.reference_documented hs rfl hx none
      (Set.mem_univ _) u).symm
  have hsunday : RunsAt x sundayAfternoon.instant :=
    ⟨by decide, Dialect.matches_moment.2 (by decide)⟩
  have hmonday := Dialect.matches_moment.1 ((hiff _).1 hsunday)
  revert hmonday
  cases rule <;> decide

end RBackup2
