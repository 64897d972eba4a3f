import Mathlib.Data.Int.LeastGreatest
import RBackup2.Scheduler.CronMeaning

/-!
# Which cron expressions are accepted

`calculate_next_cron_run` accepts whatever the `cron` crate makes of the expression with a zero in
front: six fields, or seven with one for the year.

* `calculateNextRun_reads` — the calculation succeeds while the crate's reading runs again.
* `cron_acceptance_iff` — an expression is treated as a crontab exactly when the crate takes its
  steps and its days of the week, if it is one, and takes no date from its fields, if it is not.
* `cronCrate_day_iff` — which comes to short steps and days of the week from 1 to 7.
* `own_seconds_accepted` — six fields with seconds of their own are read one position off.
-/

set_option autoImplicit false

namespace RBackup2

open Calendar Cron

/-- The crate reads six fields, or seven with a year, in a syntax that extends that of a crontab,
    and `after(&now).next()` is the least later time at which they run.  It has shorthands that
    start with `@`, so this is about texts that start with a zero. -/
structure CronCrate.Reads (cron : CronCrate) (syn : FieldSyntax) (known : Set DateTime) :
    Prop where
  horizon : Horizon known
  crontab : syn.Extends cronCrate
  accepts : ∀ e : String, syn.Accepts ("0 " ++ e) →
    ∃ p, cron.fromStr ("0 " ++ e) = .ok p ∧ ∀ now ∈ known, ∀ t, cron.next p now = some t ↔
      IsLeast {u | now < u ∧ syn.RunsAt ("0 " ++ e) u} t
  rejects : ∀ e : String, ¬ syn.Accepts ("0 " ++ e) →
    ∃ err, cron.fromStr ("0 " ++ e) = .error err

/-- Five fields of a crontab, days of the week from 0 to 7. -/
def IsCrontab (rule : DayRule) (e : String) : Prop :=
  ∃ x, parseFive e = some x ∧ (crontab rule).inRange x = true

/-- Nothing but a crontab expression is accepted, and one is while it has a future occurrence. -/
structure CronAcceptance (rule : DayRule) (cron : CronCrate) (known : Set DateTime) (s : Schedule)
    (e : String) : Prop where
  only : ∀ last, ∀ now ∈ known, ∀ t, calculateNextRun cron s last now = .ok t → IsCrontab rule e
  every : ∀ x, parseFive e = some x → (crontab rule).inRange x = true → ∀ last, ∀ now ∈ known,
    (∃ u, now < u ∧ (crontab rule).Matches .zero x u) →
      ∃ t, calculateNextRun cron s last now = .ok t

theorem exists_isLeast_later {P : Int → Prop} {now : Int} (h : ∃ u, now < u ∧ P u) :
    ∃ t, IsLeast {u | now < u ∧ P u} t := by
  obtain ⟨t, ht, hle⟩ := Int.exists_least_of_bdd (P := fun u => now < u ∧ P u)
    ⟨now, fun u hu => Int.le_of_lt hu.1⟩ h
  exact ⟨t, ht, hle⟩

section Reads

variable {cron : CronCrate} {syn : FieldSyntax} {known : Set DateTime}
  (hcron : cron.Reads syn known) {s : Schedule} {e : String} (hs : s.isCron = true)
  (he : s.cronExpression = some e)

include hcron hs he

/-- **The calculation succeeds exactly if the expression runs again** in the crate's reading. -/
theorem calculateNextRun_reads (last : Option DateTime) {now : DateTime} (hnow : now ∈ known) :
    (∃ t, calculateNextRun cron s last now = .ok t) ↔
      ∃ u, now < u ∧ syn.RunsAt ("0 " ++ e) u := by
  unfold calculateNextRun calculateNextCronRun
  rw [if_pos hs, he]
  simp only
  by_cases hacc : syn.Accepts ("0 " ++ e)
  · obtain ⟨p, hp, hnext⟩ := hcron.accepts e hacc
    rw [hp]
    simp only
    constructor
    · rintro ⟨t, ht⟩
      cases hn : cron.next p now with
      | none => rw [hn] at ht; cases ht
      | some next => exact ⟨next, ((hnext now hnow next).1 hn).1⟩
    · intro h
      obtain ⟨t, ht⟩ := exists_isLeast_later h
      exact ⟨t, by rw [(hnext now hnow t).2 ht]⟩
  · obtain ⟨err, herr⟩ := hcron.rejects e hacc
    rw [herr]
    constructor
    · rintro ⟨t, ht⟩
      cases ht
    · rintro ⟨u, -, hrun⟩
      exact absurd hrun.1 hacc

/-- A crontab expression is accepted if the crate takes its fields, while it has a day in the
    crate's reading. -/
theorem calculateNextRun_crontab {rule : DayRule} {x : Expr} (hx : parseFive e = some x)
    (hvalid : (crontab rule).inRange x = true) (last : Option DateTime) {now : DateTime}
    (hnow : now ∈ known) : (∃ t, calculateNextRun cron s last now = .ok t) ↔
      cronCrate.inRange x = true ∧ cronCrate.HasDay x := by
  have hsix := parseSix_zero hx
  have hacc := hcron.crontab.accepts_six hsix
  rw [calculateNextRun_reads hcron hs he last hnow]
  rw [← Dialect.occurs_later_iff (d := cronCrate) hvalid now]
  constructor
  · rintro ⟨u, hlt, hrun⟩
    exact ⟨(hacc.1 hrun.1).2, u, hlt, (hcron.crontab.runsAt_six rfl hsix hrun.1 u).1 hrun⟩
  · rintro ⟨hin, u, hlt, hmatch⟩
    have haccepts := hacc.2 ⟨cronCrate.takes_zero, hin⟩
    exact ⟨u, hlt, (hcron.crontab.runsAt_six rfl hsix haccepts u).2 hmatch⟩

/-- Some reading has a time exactly if the fields are taken and name a date. -/
theorem calculateNextRun_names_iff :
    (∃ last, ∃ now ∈ known, ∃ t, calculateNextRun cron s last now = .ok t) ↔
      syn.TakesRest e ∧ ∃ date, syn.Names e date := by
  have hfirst : (-1 : DateTime) ∈ known := hcron.horizon (-1) (by decide) (by decide)
  constructor
  · rintro ⟨last, now, hnow, h⟩
    obtain ⟨u, -, hrun⟩ := (calculateNextRun_reads hcron hs he last hnow).1 h
    exact hcron.crontab.names_of_runsAt hrun
  · intro h
    have hrun := (hcron.crontab.runs_iff (show (-1 : Int) < 0 by decide)).2 h
    exact ⟨none, -1, hfirst, (calculateNextRun_reads hcron hs he none hfirst).2 hrun⟩

end Reads

/-- **Exactly which expressions are treated as a crontab**: a crontab expression that has a day
must have one in the crate's reading, which starts with days of the week from 1 to 7 and no long
steps; and the fields of any other text must not be taken, or must not name a date. -/
theorem cron_acceptance_iff (rule : DayRule) (cron : CronCrate) (syn : FieldSyntax)
    (known : Set DateTime) (hcron : cron.Reads syn known) (s : Schedule) (hs : s.isCron = true)
    (e : String) (he : s.cronExpression = some e) :
    CronAcceptance rule cron known s e ↔
      (∀ x, parseFive e = some x → (crontab rule).inRange x = true → (crontab rule).HasDay x →
        cronCrate.inRange x = true ∧ cronCrate.HasDay x) ∧
      (¬ IsCrontab rule e → ¬ (syn.TakesRest e ∧ ∃ date, syn.Names e date)) := by
  rw [← calculateNextRun_names_iff hcron hs he]
  constructor
  · intro h
    refine ⟨fun x hx hvalid hday => ?_, fun hnot ⟨last, now, hnow, t, ht⟩ => ?_⟩
    · have hzero : (0 : DateTime) ∈ known := hcron.horizon 0 (by decide) (by decide)
      have hlater := (Dialect.occurs_later_iff hvalid 0).2 hday
      exact (calculateNextRun_crontab hcron hs he hx hvalid none hzero).1
        (h.every x hx hvalid none 0 hzero hlater)
    · exact hnot (h.only last now hnow t ht)
  · rintro ⟨hevery, honly⟩
    refine ⟨fun last now hnow t ht => ?_, fun x hx hvalid last now hnow hlater => ?_⟩
    · by_contra hnot
      exact honly hnot ⟨last, now, hnow, t, ht⟩
    · have hday := (Dialect.occurs_later_iff hvalid now).1 hlater
      exact (calculateNextRun_crontab hcron hs he hx hvalid last hnow).2
        (hevery x hx hvalid hday)

/-- Where the crate takes the fields, it finds a day if one of the selected months has one of the
selected days; a day of the week there always is. -/
theorem cronCrate_hasDay_iff {x : Expr} (hin : cronCrate.inRange x = true) :
    cronCrate.HasDay x ↔ HasDate x := by
  have hweek : x.dayOfWeek.inRange .weekdaysFromOne = true :=
    Dialect.inRange_of_takes (Bool.and_eq_true_iff.1 hin).2
  constructor
  · rintro ⟨month, day, weekday, hm, hm', hd, hd', -, hday⟩
    simp only [Dialect.matchesDay, cronCrate, Bool.and_eq_true] at hday
    exact ⟨month, day, hm, hm', hd, hd', hday.1, hday.2.1⟩
  · rintro ⟨month, day, hm, hm', hd, hd', hmonth, hday⟩
    obtain ⟨k, -, hlast, hk⟩ := Field.exists_selects hweek
    have hlast' : k ≤ 7 := hlast
    have hk' : x.dayOfWeek.selects .weekdaysFromOne (k - 1) = true := hk
    refine ⟨month, day, k - 1, hm, hm', hd, hd', by omega, ?_⟩
    simp [Dialect.matchesDay, cronCrate, hmonth, hday, hk']

/-- **What is asked of a crontab expression** is, with a rule or an expression that conjoins the
day fields, just that no step is too long and the days of the week are within 1 to 7. -/
theorem cronCrate_day_iff {rule : DayRule} {x : Expr} (hrule : Conjoined rule x)
    (hvalid : (crontab rule).inRange x = true) (hday : (crontab rule).HasDay x) :
    (cronCrate.inRange x = true ∧ cronCrate.HasDay x) ↔
      shortSteps x = true ∧ x.dayOfWeek.inRange .weekdaysFromOne = true := by
  rw [← Bool.and_eq_true, ← (cronCrate_inRange hvalid).2]
  refine and_iff_left_of_imp fun hin => (cronCrate_hasDay_iff hin).2 ?_
  obtain ⟨month, day, weekday, hm, hm', hd, hd', -, hsel⟩ := hday
  rw [hrule.matchesDay, Bool.and_eq_true, Bool.and_eq_true] at hsel
  exact ⟨month, day, hm, hm', hd, hd', hsel.1, hsel.2.1⟩

/-! ## Some expressions -/

/-- A crate that reads texts in a given syntax. -/
noncomputable def CronCrate.ofSyntax (syn : FieldSyntax) : CronCrate where
  Parsed := String
  fromStr := fun text => if syn.Accepts text then .ok text else .error "Invalid expression"
  next := fun text now =>
    open Classical in
    if h : ∃ t, IsLeast {u | now < u ∧ syn.RunsAt text u} t then some h.choose else none

theorem CronCrate.ofSyntax_reads {syn : FieldSyntax} (hsyn : syn.Extends cronCrate) :
    (CronCrate.ofSyntax syn).Reads syn Set.univ where
  horizon := Horizon.univ
  crontab := hsyn
  accepts := by
    intro e hacc
    refine ⟨"0 " ++ e, if_pos hacc, fun now _ t => ?_⟩
    unfold CronCrate.ofSyntax
    simp only
    constructor
    · intro h
      split at h
      · rename_i hex
        cases h
        exact hex.choose_spec
      · cases h
    · intro h
      rw [dif_pos ⟨t, h⟩]
      exact congrArg some ((Exists.choose_spec ⟨t, h⟩ : IsLeast _ _).unique h)
  rejects := by
    intro e hacc
    exact ⟨"Invalid expression", if_neg hacc⟩

/-- The crate with no other fields than those of a crontab. -/
noncomputable def CronCrate.plain : CronCrate := .ofSyntax (.plain cronCrate)

theorem CronCrate.plain_reads : CronCrate.plain.Reads (.plain cronCrate) Set.univ :=
  CronCrate.ofSyntax_reads (FieldSyntax.plain_extends cronCrate)

/-- The schedule of the tests is treated as a crontab. -/
theorem cron_acceptance_iff_nightly :
    CronAcceptance .either .plain Set.univ (.cronAt "0 2 * * *" 1 1 none) "0 2 * * *" := by
  refine (cron_acceptance_iff .either .plain _ _ CronCrate.plain_reads _ (by decide) _ rfl).2
    ⟨fun x hx hvalid hday => ?_, fun hnot => absurd ⟨_, rfl, by decide⟩ hnot⟩
  have hstar : x.dayOfWeek.starred = true := by
    cases hx
    rfl
  refine (cronCrate_day_iff (.inr (.inr hstar)) hvalid hday).2 ?_
  cases hx
  decide

/-- Midnight of 2 January 2025. -/
def secondOfJanuary : Moment :=
  { sundayAfternoon with
    date := { sundayAfternoon.date with day := 2, day_pos := by decide, day_le := by decide }
    hour := 0
    hour_lt := by decide }

/-- A crontab expression that the crate does not take. -/
theorem refused_not_accepted {rule : DayRule} {e : String} {x : Expr}
    (hx : parseFive e = some x) (hvalid : (crontab rule).inRange x = true)
    (hday : (crontab rule).HasDay x) (hin : cronCrate.inRange x = false) :
    ¬ CronAcceptance rule .plain Set.univ (.cronAt e 1 1 none) e := by
  intro h
  have hlater := (Dialect.occurs_later_iff hvalid 0).2 hday
  have hok := (calculateNextRun_crontab CronCrate.plain_reads (s := .cronAt e 1 1 none) (by rfl)
    rfl hx hvalid none (Set.mem_univ 0)).1 (h.every x hx hvalid none 0 (Set.mem_univ 0) hlater)
  rw [hin] at hok
  cases hok.1

/-- Six fields with their own seconds, every day at two, are taken for the second of every month;
    and a crontab expression for Sunday, and one with a step of 90 minutes, are refused. -/
theorem own_seconds_accepted : CronCrate.plain.Reads (.plain cronCrate) Set.univ ∧
    ∀ rule, ∀ e ∈ ["0 0 2 * * *", "0 2 * * 0", "*/90 * * * *"],
      ¬ CronAcceptance rule .plain Set.univ (.cronAt e 1 1 none) e := by
  refine ⟨CronCrate.plain_reads, fun rule e he => ?_⟩
  simp only [List.mem_cons, List.not_mem_nil, or_false] at he
  rcases he with rfl | rfl | rfl
  · intro h
    have hrun : (FieldSyntax.plain cronCrate).RunsAt ("0 " ++ "0 0 2 * * *")
        secondOfJanuary.instant := ⟨by decide, secondOfJanuary, rfl, by decide⟩
    obtain ⟨t, ht⟩ := (calculateNextRun_reads CronCrate.plain_reads
      (s := .cronAt "0 0 2 * * *" 1 1 none) (by decide) rfl none (Set.mem_univ 0)).2
      ⟨_, by decide, hrun⟩
    obtain ⟨x, hx, -⟩ := h.only none 0 (Set.mem_univ 0) t ht
    exact absurd hx (by rw [show parseFive "0 0 2 * * *" = none by decide]; simp)
  · refine refused_not_accepted rfl ?_ ⟨1, 1, 0, by decide, by decide, by decide, by decide,
      by decide, ?_⟩ (by decide) <;> cases rule <;> decide
  · refine refused_not_accepted rfl ?_ ⟨1, 1, 0, by decide, by decide, by decide, by decide,
      by decide, ?_⟩ (by decide) <;> cases rule <;> decide

end RBackup2
