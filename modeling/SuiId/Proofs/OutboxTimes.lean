import SuiId.Store.Outbox

/-!
# The times of the mail outbox

The queries compare texts and mean times.  Two texts of `rusqlite` compare as their times do, and so
`claim_one_eligible` and `requeue_stuck_sending` find the rows that they look for.  The cutoff of
`count_stuck_pending` has a `T` where the column has a space, and a space is before a `T`: of the
day of the cutoff every row is counted, whatever its time.
-/

namespace SuiId

open Lib Lib.Timestamps

/-- The instant lies in one of the years 1 to 9999. -/
def CommonEra (t : DateTime) : Prop := 1 ≤ yearOf (dayNumber t) ∧ yearOf (dayNumber t) ≤ 9999

instance (t : DateTime) : Decidable (CommonEra t) :=
  inferInstanceAs (Decidable (1 ≤ yearOf (dayNumber t) ∧ yearOf (dayNumber t) ≤ 9999))

variable {t t' : DateTime}

theorem CommonEra.fourDigitYear (h : CommonEra t) : FourDigitYear (dayNumber t) := by
  unfold CommonEra at h
  unfold FourDigitYear
  omega

theorem sqlText_lt_iff (h : CommonEra t) (h' : CommonEra t') :
    sqlText t < sqlText t' ↔ t < t' :=
  render_lt_iff ' ' h.fourDigitYear h'.fourDigitYear

theorem sqlText_lt_rfc3339_iff (h : CommonEra t) (h' : CommonEra t') :
    sqlText t < rfc3339 t' ↔ dayNumber t ≤ dayNumber t' :=
  render_lt_iff_of_separator (by decide) h.fourDigitYear h'.fourDigitYear

/-- The times of a row. -/
structure EmailOutboxRow.InCommonEra (row : EmailOutboxRow) : Prop where
  nextAttemptAt : CommonEra row.nextAttemptAt
  createdAt : CommonEra row.createdAt
  updatedAt : CommonEra row.updatedAt

namespace EmailOutbox

section Queries

variable {outbox : EmailOutbox} (hrows : ∀ row ∈ outbox, row.InCommonEra)

include hrows

variable {now : DateTime} {row : EmailOutboxRow}

theorem eligibleText_eq (hnow : CommonEra now) (hrow : row ∈ outbox) :
    eligibleText now row = eligible now row := by
  have hlt := sqlText_lt_iff hnow (hrows row hrow).nextAttemptAt
  simp only [eligibleText, eligible, hlt, Int.not_lt]

/-- The row that is claimed is one of the first that are due. -/
theorem claimableText_eq (hnow : CommonEra now) (hrow : row ∈ outbox) :
    claimableText outbox now row = claimable outbox now row := by
  have hall : (outbox.rows.all fun r => !eligibleText now r ||
      decide (¬ sqlText r.nextAttemptAt < sqlText row.nextAttemptAt)) =
      outbox.rows.all fun r => !eligible now r || row.nextAttemptAt ≤ r.nextAttemptAt := by
    rw [Bool.eq_iff_iff, List.all_eq_true, List.all_eq_true]
    refine forall₂_congr fun r hr => ?_
    have hlt := sqlText_lt_iff (hrows r hr).nextAttemptAt (hrows row hrow).nextAttemptAt
    simp only [eligibleText_eq hrows hnow hr, hlt, Int.not_lt]
  rw [claimableText, claimable, eligibleText_eq hrows hnow hrow, hall]

theorem requeueStuckSendingText_eq {threshold : DateTime} (hthreshold : CommonEra threshold)
    (now : DateTime) :
    requeueStuckSendingText outbox threshold now = requeueStuckSending outbox threshold now := by
  simp only [requeueStuckSendingText, requeueStuckSending, Table.update]
  congr 1
  refine List.map_congr_left fun r hr => ?_
  have hlt := sqlText_lt_iff (hrows r hr).updatedAt hthreshold
  rw [stuckText, stuck, decide_eq_decide.mpr hlt]

/-- The rows that are counted are those of the cutoff's day and of the days before. -/
theorem countStuckPending_eq {stuckThreshold : Int} (hcutoff : CommonEra (now - stuckThreshold)) :
    countStuckPending outbox stuckThreshold now = outbox.count fun r =>
      r.state = .queued && dayNumber r.createdAt ≤ dayNumber (now - stuckThreshold) := by
  refine List.countP_congr fun r hr => ?_
  have hlt := sqlText_lt_rfc3339_iff (hrows r hr).createdAt hcutoff
  simp only [hlt]

end Queries

/-- If one condition implies the other, the same number of rows meet them exactly when no row meets
the other alone. -/
private theorem countP_eq_iff {rows : List EmailOutboxRow} {p q : EmailOutboxRow → Bool}
    (himp : ∀ r ∈ rows, q r = true → p r = true) :
    rows.countP p = rows.countP q ↔ ∀ r ∈ rows, p r = true → q r = true := by
  induction rows with
  | nil => simp
  | cons r rows ih =>
    obtain ⟨hr, hrest⟩ := List.forall_mem_cons.mp himp
    have hle := List.countP_mono_left hrest
    rw [List.forall_mem_cons, ← ih hrest, List.countP_cons, List.countP_cons]
    cases hq : q r with
    | true => simp [hr hq]
    | false =>
      cases hp : p r with
      | true =>
        simp only [if_true, Bool.false_eq_true, if_false, imp_false, not_true_eq_false, false_and,
          iff_false]
        omega
      | false => simp

/-- What the three queries are to do, in terms of times. -/
structure ComparesTimes (outbox : EmailOutbox) (now threshold : DateTime) (stuckThreshold : Int) :
    Prop where
  claim : ∀ row ∈ outbox, claimableText outbox now row = true ↔ row.state = .queued ∧
    row.nextAttemptAt ≤ now ∧ ∀ r ∈ outbox, r.state = .queued → r.nextAttemptAt ≤ now →
      row.nextAttemptAt ≤ r.nextAttemptAt
  requeue : ∀ later, requeueStuckSendingText outbox threshold later = outbox.update
    (fun r => r.state = .sending && r.updatedAt < threshold)
    fun r => { r with state := .queued, nextAttemptAt := later, updatedAt := later }
  count : countStuckPending outbox stuckThreshold now = outbox.count fun r =>
    r.state = .queued && r.createdAt < now - stuckThreshold

/-- A queued row of the cutoff's day that is not older than the cutoff. -/
def CreatedLateThatDay (outbox : EmailOutbox) (cutoff : DateTime) : Prop :=
  ∃ r ∈ outbox, r.state = .queued ∧ dayNumber r.createdAt = dayNumber cutoff ∧
    cutoff ≤ r.createdAt

theorem claimable_iff (outbox : EmailOutbox) (now : DateTime) (row : EmailOutboxRow) :
    claimable outbox now row = true ↔ row.state = .queued ∧ row.nextAttemptAt ≤ now ∧
      ∀ r ∈ outbox, r.state = .queued → r.nextAttemptAt ≤ now →
        row.nextAttemptAt ≤ r.nextAttemptAt := by
  simp only [claimable, eligible, Bool.and_eq_true, decide_eq_true_eq, List.all_eq_true,
    Bool.or_eq_true, Bool.not_eq_true', Bool.and_eq_false_iff, decide_eq_false_iff_not, and_assoc]
  refine and_congr Iff.rfl (and_congr Iff.rfl (forall₂_congr fun r _ => ?_))
  by_cases hqueued : r.state = .queued
  · simp only [hqueued, not_true_eq_false, false_or, imp_iff_not_or]
  · simp only [hqueued, not_false_eq_true, true_or, false_implies]

variable {cutoff : Int}

/-- A time is before the cutoff, given that its day is not later, unless it is late that day. -/
private theorem lt_cutoff_iff {t : Int} :
    (dayNumber t ≤ dayNumber cutoff → t < cutoff) ↔
      (dayNumber t = dayNumber cutoff → ¬ cutoff ≤ t) := by
  unfold dayNumber
  omega

private theorem dayNumber_le_of_lt {t : Int} (h : t < cutoff) :
    dayNumber t ≤ dayNumber cutoff := by
  unfold dayNumber
  omega

/-- The queries of the outbox compare times exactly when no queued row was created on the day of
the cutoff, at the cutoff or after it. -/
theorem outbox_compares_times_iff {outbox : EmailOutbox}
    (hrows : ∀ row ∈ outbox, row.InCommonEra) {now threshold : DateTime} {stuckThreshold : Int}
    (hnow : CommonEra now) (hthreshold : CommonEra threshold)
    (hcutoff : CommonEra (now - stuckThreshold)) :
    ComparesTimes outbox now threshold stuckThreshold ↔
      ¬ CreatedLateThatDay outbox (now - stuckThreshold) := by
  have hclaim : ∀ row ∈ outbox, claimableText outbox now row = true ↔ row.state = .queued ∧
      row.nextAttemptAt ≤ now ∧ ∀ r ∈ outbox, r.state = .queued → r.nextAttemptAt ≤ now →
        row.nextAttemptAt ≤ r.nextAttemptAt := fun row hrow => by
    rw [claimableText_eq hrows hnow hrow, claimable_iff]
  have hcount : countStuckPending outbox stuckThreshold now = (outbox.count fun r =>
      r.state = .queued && r.createdAt < now - stuckThreshold) ↔
      ¬ CreatedLateThatDay outbox (now - stuckThreshold) := by
    rw [countStuckPending_eq hrows hcutoff, Table.count, Table.count, countP_eq_iff]
    · simp only [Bool.and_eq_true, decide_eq_true_eq, and_imp, CreatedLateThatDay, not_exists,
        not_and]
      refine forall₂_congr fun r _ => forall_congr' fun hqueued => ?_
      rw [and_iff_right hqueued]
      exact lt_cutoff_iff
    · simp only [Bool.and_eq_true, decide_eq_true_eq]
      exact fun r _ h => ⟨h.1, dayNumber_le_of_lt h.2⟩
  rw [← hcount]
  exact ⟨fun h => h.count, fun h =>
    ⟨hclaim, fun later => requeueStuckSendingText_eq hrows hthreshold later, h⟩⟩

/-! ## Another time of the same day -/

private def queuedAt (createdAt : DateTime) : EmailOutboxRow where
  id := 1
  state := .queued
  template := "t"
  recipientEnc := []
  payloadEnc := []
  attemptCount := 0
  nextAttemptAt := createdAt
  lastError := none
  locale := none
  createdAt := createdAt
  updatedAt := createdAt

/-- One second after midnight, of a day on which nothing is late at midnight. -/
def lateOutbox : EmailOutbox := ⟨[queuedAt (seconds 1)], by decide⟩

/-- The row is counted as older than midnight. -/
theorem late_row_is_counted :
    countStuckPending lateOutbox (seconds 3600) (seconds 3600) = 1 ∧
      (lateOutbox.count fun r =>
        r.state = .queued && r.createdAt < seconds 3600 - seconds 3600) = 0 := by
  decide +kernel

/-- The same row, with a cutoff of the next day. -/
theorem late_row_the_next_day :
    ComparesTimes lateOutbox (seconds 90000) (seconds 0) (seconds 3600) := by
  refine (outbox_compares_times_iff (fun row hrow => ?_) (by decide) (by decide)
    (by decide)).mpr ?_
  · rw [List.mem_singleton.mp hrow]
    exact ⟨by decide, by decide, by decide⟩
  · rintro ⟨row, hrow, -, hday, -⟩
    rw [List.mem_singleton.mp hrow] at hday
    exact absurd hday (by decide)

end EmailOutbox

end SuiId
