import SuiId.Lib.Digits

/-!
# Instants as text

An instant is a number of nanoseconds since the epoch.  Its date in the Gregorian calendar is
counted in years that begin with March: `marchDays` is the number of days before such a year, and
`marchYear` its inverse.

`render` writes an instant with a date of fixed width, a clock of fixed width, and a fraction of 0,
3, 6 or 9 digits, whichever is the shortest that loses nothing.  `render_lt_iff` says that two texts
with the same separator compare as the instants do, and `render_lt_iff_of_separator` what is left
of that when the separators differ: the dates.
-/

namespace Lib.Timestamps

/-! ## The calendar -/

/-- The days before the first of March of a year, from the first of March of year 0. -/
def marchDays (y : Int) : Int := 365 * y + y / 4 - y / 100 + y / 400

/-- The year from March to February that a day lies in. -/
def marchYear (n : Int) : Int :=
  let century := min (n % 146097 / 36524) 3
  let leap := (n % 146097 - 36524 * century) / 1461
  let rest := min ((n % 146097 - 36524 * century - 1461 * leap) / 365) 3
  400 * (n / 146097) + 100 * century + 4 * leap + rest

/-- The day of the year from March on. -/
def dayOfYear (n : Int) : Int := n - marchDays (marchYear n)

/-- The months since March: their lengths repeat after five. -/
def marchMonth (n : Int) : Int := (5 * dayOfYear n + 2) / 153

/-- The day of the month. -/
def dayOfMonth (n : Int) : Int := dayOfYear n - (153 * marchMonth n + 2) / 5 + 1

/-- The months since January of year 0. -/
def monthIndex (n : Int) : Int := 12 * marchYear n + marchMonth n + 2

/-- The year. -/
def yearOf (n : Int) : Int := monthIndex n / 12

/-- The month. -/
def monthOf (n : Int) : Int := monthIndex n % 12 + 1

theorem marchDays_parts {e c q r : Int} (hc : 0 ≤ c ∧ c ≤ 3) (hq : 0 ≤ q ∧ q ≤ 24)
    (hr : 0 ≤ r ∧ r ≤ 3) :
    marchDays (400 * e + 100 * c + 4 * q + r) = 146097 * e + 36524 * c + 1461 * q + 365 * r := by
  unfold marchDays
  omega

theorem marchDays_mono {y y' : Int} (h : y ≤ y') : marchDays y ≤ marchDays y' := by
  unfold marchDays
  omega

theorem marchDays_succ (y : Int) : marchDays (y + 1) ≤ marchDays y + 366 := by
  unfold marchDays
  omega

/-- A day lies in its year. -/
theorem marchYear_bounds (n : Int) :
    marchDays (marchYear n) ≤ n ∧ n < marchDays (marchYear n + 1) := by
  simp only [marchYear]
  generalize hcentury : min (n % 146097 / 36524) 3 = c
  generalize hleap : (n % 146097 - 36524 * c) / 1461 = q
  generalize hrest : min ((n % 146097 - 36524 * c - 1461 * q) / 365) 3 = r
  have hc : 0 ≤ c ∧ c ≤ 3 := by omega
  have hq : 0 ≤ q ∧ q ≤ 24 := by omega
  have hr : 0 ≤ r ∧ r ≤ 3 := by omega
  have hday : n = 146097 * (n / 146097) + n % 146097 := by omega
  generalize n / 146097 = e at *
  have hparts := marchDays_parts (e := e) hc hq hr
  refine ⟨by omega, ?_⟩
  -- the next year begins a year, a leap cycle, a century or an era
  by_cases hr3 : r = 3
  · by_cases hq24 : q = 24
    · by_cases hc3 : c = 3
      · have hnext := marchDays_parts (e := e + 1) (c := 0) (q := 0) (r := 0)
          (by omega) (by omega) (by omega)
        have hyear : 400 * e + 100 * c + 4 * q + r + 1 = 400 * (e + 1) + 100 * 0 + 4 * 0 + 0 := by
          omega
        rw [hyear]
        omega
      · have hnext := marchDays_parts (e := e) (c := c + 1) (q := 0) (r := 0)
          (by omega) (by omega) (by omega)
        have hyear : 400 * e + 100 * c + 4 * q + r + 1 = 400 * e + 100 * (c + 1) + 4 * 0 + 0 := by
          omega
        rw [hyear]
        omega
    · have hnext := marchDays_parts (e := e) (c := c) (q := q + 1) (r := 0)
        (by omega) (by omega) (by omega)
      have hyear : 400 * e + 100 * c + 4 * q + r + 1 = 400 * e + 100 * c + 4 * (q + 1) + 0 := by
        omega
      rw [hyear]
      omega
  · have hnext := marchDays_parts (e := e) (c := c) (q := q) (r := r + 1)
      (by omega) (by omega) (by omega)
    have hyear : 400 * e + 100 * c + 4 * q + r + 1 = 400 * e + 100 * c + 4 * q + (r + 1) := by
      omega
    rw [hyear]
    omega

theorem dayOfYear_bounds (n : Int) : 0 ≤ dayOfYear n ∧ dayOfYear n ≤ 365 := by
  have hbounds := marchYear_bounds n
  have hsucc := marchDays_succ (marchYear n)
  unfold dayOfYear
  omega

theorem marchMonth_bounds (n : Int) : 0 ≤ marchMonth n ∧ marchMonth n ≤ 11 := by
  have hbounds := dayOfYear_bounds n
  unfold marchMonth
  omega

theorem dayOfMonth_bounds (n : Int) : 1 ≤ dayOfMonth n ∧ dayOfMonth n ≤ 31 := by
  have hbounds := dayOfYear_bounds n
  unfold dayOfMonth marchMonth
  omega

theorem monthOf_bounds (n : Int) : 1 ≤ monthOf n ∧ monthOf n ≤ 12 := by
  unfold monthOf
  omega

variable {n n' t t' : Int} {w : Nat}

theorem marchYear_mono (h : n ≤ n') : marchYear n ≤ marchYear n' := by
  by_contra hlt
  have hnext : marchYear n' + 1 ≤ marchYear n := by omega
  have hmono := marchDays_mono hnext
  have hlower := (marchYear_bounds n).1
  have hupper := (marchYear_bounds n').2
  omega

/-- A later day has a later month, or the same month and a later day of it. -/
theorem monthIndex_of_lt (h : n < n') :
    monthIndex n < monthIndex n' ∨ monthIndex n = monthIndex n' ∧ dayOfMonth n < dayOfMonth n' := by
  have hyears := marchYear_mono (Int.le_of_lt h)
  have hmonth := marchMonth_bounds n
  have hmonth' := marchMonth_bounds n'
  by_cases hyear : marchYear n = marchYear n'
  · have hdays : dayOfYear n < dayOfYear n' := by
      unfold dayOfYear
      rw [hyear]
      omega
    unfold monthIndex dayOfMonth
    unfold marchMonth at *
    omega
  · left
    unfold monthIndex
    omega

theorem lt_iff_date :
    n < n' ↔ yearOf n < yearOf n' ∨ yearOf n = yearOf n' ∧
      (monthOf n < monthOf n' ∨ monthOf n = monthOf n' ∧ dayOfMonth n < dayOfMonth n') := by
  have hlt : n < n' ↔ monthIndex n < monthIndex n' ∨
      monthIndex n = monthIndex n' ∧ dayOfMonth n < dayOfMonth n' := by
    refine ⟨monthIndex_of_lt, fun h => ?_⟩
    rcases Int.lt_trichotomy n n' with hn | rfl | hn
    · exact hn
    · omega
    · have hback := monthIndex_of_lt hn
      omega
  rw [hlt]
  unfold yearOf monthOf
  omega

/-! ## Fields -/

section Order

variable {α : Type} [LT α]

/-- Texts of the same length in front decide, or leave it to the rest. -/
theorem append_lt_append_iff {a a' b b' : List α} (h : a.length = a'.length) :
    a ++ b < a' ++ b' ↔ a < a' ∨ a = a' ∧ b < b' := by
  induction a generalizing a' with
  | nil =>
    cases a' with
    | nil => simp [List.not_lt_nil]
    | cons x a' => cases h
  | cons x a ih =>
    cases a' with
    | nil => cases h
    | cons x' a' =>
      simp only [List.cons_append, List.cons_lt_cons_iff, List.cons.injEq, ih (Nat.succ.inj h)]
      constructor
      · rintro (hx | ⟨hx, ha | ⟨ha, hb⟩⟩)
        · exact Or.inl (Or.inl hx)
        · exact Or.inl (Or.inr ⟨hx, ha⟩)
        · exact Or.inr ⟨⟨hx, ha⟩, hb⟩
      · rintro ((hx | ⟨hx, ha⟩) | ⟨⟨hx, ha⟩, hb⟩)
        · exact Or.inl hx
        · exact Or.inr ⟨hx, Or.inl ha⟩
        · exact Or.inr ⟨hx, Or.inr ⟨ha, hb⟩⟩

end Order

/-- The last `w` decimal digits of a number. -/
def field (w n : Nat) : List Char := (Digits.fixed 10 w n).map Nat.digitChar

@[simp] theorem length_field (w n : Nat) : (field w n).length = w := by
  rw [field, List.length_map, Digits.length_fixed]

theorem field_succ (w n : Nat) :
    field (w + 1) n = field w (n / 10) ++ [Nat.digitChar (n % 10)] := by
  rw [field, Digits.fixed, List.map_append]
  rfl

/-- A wide field is a field after another. -/
theorem field_add (v w n : Nat) : field (v + w) n = field v (n / 10 ^ w) ++ field w n := by
  induction w generalizing n with
  | zero => rw [Nat.pow_zero, Nat.div_one, Nat.add_zero]; exact (List.append_nil _).symm
  | succ w ih =>
    rw [← Nat.add_assoc, field_succ, ih, field_succ w, Nat.div_div_eq_div_mul, Nat.pow_succ,
      Nat.mul_comm 10, List.append_assoc]

/-- A field loses what does not fit. -/
theorem field_mod (w n : Nat) : field w (n % 10 ^ w) = field w n := by
  induction w generalizing n with
  | zero => rfl
  | succ w ih =>
    have hhigh : n % 10 ^ (w + 1) / 10 = n / 10 % 10 ^ w := by
      rw [Nat.pow_succ, Nat.mul_comm, Nat.mod_mul_right_div_self]
    have hlow : n % 10 ^ (w + 1) % 10 = n % 10 := by
      rw [Nat.pow_succ, Nat.mul_comm, Nat.mod_mul_right_mod]
    rw [field_succ, field_succ, hhigh, hlow, ih]

theorem digitChar_lt_digitChar_iff :
    ∀ d < 10, ∀ d' < 10, Nat.digitChar d < Nat.digitChar d' ↔ d < d' := by
  decide

theorem digitChar_inj : ∀ d < 10, ∀ d' < 10, Nat.digitChar d = Nat.digitChar d' ↔ d = d' := by
  decide

theorem eq_of_field_eq {n n' : Nat} (hn : n < 10 ^ w) (hn' : n' < 10 ^ w)
    (h : field w n = field w n') : n = n' := by
  induction w generalizing n n' with
  | zero =>
    rw [Nat.pow_zero] at hn hn'
    omega
  | succ w ih =>
    rw [Nat.pow_succ] at hn hn'
    rw [field_succ, field_succ] at h
    obtain ⟨hhigh, hlow⟩ := List.append_inj' h rfl
    have hdiv := ih (by omega) (by omega) hhigh
    have hmod := (digitChar_inj (n % 10) (Nat.mod_lt n (by omega)) (n' % 10)
      (Nat.mod_lt n' (by omega))).mp (List.cons.inj hlow).1
    omega

theorem field_inj {n n' : Nat} (hn : n < 10 ^ w) (hn' : n' < 10 ^ w) :
    field w n = field w n' ↔ n = n' :=
  ⟨eq_of_field_eq hn hn', fun h => h ▸ rfl⟩

/-- Fields of the same width compare as their numbers. -/
theorem field_lt_field_iff {n n' : Nat} (hn : n < 10 ^ w) (hn' : n' < 10 ^ w) :
    field w n < field w n' ↔ n < n' := by
  induction w generalizing n n' with
  | zero =>
    rw [Nat.pow_zero] at hn hn'
    have hsame : n = n' := by omega
    simp [field, Digits.fixed, hsame]
  | succ w ih =>
    rw [Nat.pow_succ] at hn hn'
    rw [field_succ, field_succ, append_lt_append_iff (by simp), ih (by omega) (by omega),
      field_inj (by omega) (by omega), List.cons_lt_cons_iff,
      digitChar_lt_digitChar_iff _ (Nat.mod_lt n (by omega)) _ (Nat.mod_lt n' (by omega))]
    simp only [List.not_lt_nil, and_false, or_false]
    omega

/-! ## The text of an instant -/

/-- The day of an instant, counted from March 1 of the year 0. -/
def dayNumber (t : Int) : Int := t / 86400000000000 + 719468

/-- The second of the day. -/
def secondOf (t : Int) : Nat := (t % 86400000000000 / 1000000000).toNat

/-- The nanosecond of the second. -/
def nanosOf (t : Int) : Nat := (t % 1000000000).toNat

/-- Four digits, and a sign with as many as it takes for the years that have more. -/
def yearText (y : Int) : List Char :=
  if 0 ≤ y ∧ y ≤ 9999 then field 4 y.toNat
  else (if y < 0 then '-' else '+') :: (Nat.toDigits 10 y.natAbs).leftpad 4 '0'

/-- The date of a day. -/
def dateText (n : Int) : List Char :=
  yearText (yearOf n) ++ '-' :: (field 2 (monthOf n).toNat ++ '-' :: field 2 (dayOfMonth n).toNat)

/-- The time of a second. -/
def clockText (s : Nat) : List Char :=
  field 2 (s / 3600) ++ ':' :: (field 2 (s / 60 % 60) ++ ':' :: field 2 (s % 60))

/-- The fraction of a second, in the shortest of its four forms. -/
def fractionText (nanos : Nat) : List Char :=
  if nanos = 0 then []
  else if nanos % 1000000 = 0 then '.' :: field 3 (nanos / 1000000)
  else if nanos % 1000 = 0 then '.' :: field 6 (nanos / 1000)
  else '.' :: field 9 nanos

/-- The offset at the end. -/
def utcOffset : List Char := ['+', '0', '0', ':', '0', '0']

/-- An instant in UTC, with a separator between the date and the clock. -/
def render (separator : Char) (t : Int) : List Char :=
  dateText (dayNumber t) ++
    separator :: (clockText (secondOf t) ++ (fractionText (nanosOf t) ++ utcOffset))

/-- The year has four digits. -/
def FourDigitYear (n : Int) : Prop := 0 ≤ yearOf n ∧ yearOf n ≤ 9999

instance (n : Int) : Decidable (FourDigitYear n) :=
  inferInstanceAs (Decidable (0 ≤ yearOf n ∧ yearOf n ≤ 9999))

theorem secondOf_lt (t : Int) : secondOf t < 86400 := by
  unfold secondOf
  omega

theorem nanosOf_lt (t : Int) : nanosOf t < 1000000000 := by
  unfold nanosOf
  omega

theorem lt_iff_clock :
    t < t' ↔ dayNumber t < dayNumber t' ∨ dayNumber t = dayNumber t' ∧
      (secondOf t < secondOf t' ∨ secondOf t = secondOf t' ∧ nanosOf t < nanosOf t') := by
  unfold dayNumber secondOf nanosOf
  omega

@[simp] theorem length_clockText (s : Nat) : (clockText s).length = 8 := by
  simp [clockText]

theorem length_dateText (h : FourDigitYear n) : (dateText n).length = 10 := by
  have hyear : yearText (yearOf n) = field 4 (yearOf n).toNat := if_pos h
  simp [dateText, hyear]

/-! ## Its order -/

theorem dateText_lt_iff (h : FourDigitYear n) (h' : FourDigitYear n') :
    dateText n < dateText n' ↔ n < n' := by
  have hyear : yearText (yearOf n) = field 4 (yearOf n).toNat := if_pos h
  have hyear' : yearText (yearOf n') = field 4 (yearOf n').toNat := if_pos h'
  have hmonth := monthOf_bounds n
  have hmonth' := monthOf_bounds n'
  have hday := dayOfMonth_bounds n
  have hday' := dayOfMonth_bounds n'
  unfold FourDigitYear at h h'
  rw [lt_iff_date, dateText, dateText, hyear, hyear', append_lt_append_iff (by simp),
    List.cons_lt_cons_iff, append_lt_append_iff (by simp), List.cons_lt_cons_iff,
    field_lt_field_iff (by omega) (by omega), field_lt_field_iff (by omega) (by omega),
    field_lt_field_iff (by omega) (by omega), field_inj (by omega) (by omega),
    field_inj (by omega) (by omega)]
  simp only [Char.lt_irrefl, false_or, true_and]
  omega

theorem dateText_inj (h : FourDigitYear n) (h' : FourDigitYear n') :
    dateText n = dateText n' ↔ n = n' := by
  refine ⟨fun hsame => ?_, fun hsame => hsame ▸ rfl⟩
  have hlt : ¬ n < n' := fun hlt => by
    rw [← dateText_lt_iff h h', hsame] at hlt
    exact List.lt_irrefl _ hlt
  have hgt : ¬ n' < n := fun hgt => by
    rw [← dateText_lt_iff h' h, hsame] at hgt
    exact List.lt_irrefl _ hgt
  omega

theorem clockText_lt_iff {s s' : Nat} (h : s < 86400) (h' : s' < 86400) :
    clockText s < clockText s' ↔ s < s' := by
  rw [clockText, clockText, append_lt_append_iff (by simp), List.cons_lt_cons_iff,
    append_lt_append_iff (by simp), List.cons_lt_cons_iff,
    field_lt_field_iff (by omega) (by omega), field_lt_field_iff (by omega) (by omega),
    field_lt_field_iff (by omega) (by omega), field_inj (by omega) (by omega),
    field_inj (by omega) (by omega)]
  simp only [Char.lt_irrefl, false_or, true_and]
  omega

theorem clockText_inj {s s' : Nat} (h : s < 86400) (h' : s' < 86400) :
    clockText s = clockText s' ↔ s = s' := by
  refine ⟨fun hsame => ?_, fun hsame => hsame ▸ rfl⟩
  have hlt : ¬ s < s' := fun hlt => by
    rw [← clockText_lt_iff h h', hsame] at hlt
    exact List.lt_irrefl _ hlt
  have hgt : ¬ s' < s := fun hgt => by
    rw [← clockText_lt_iff h' h, hsame] at hgt
    exact List.lt_irrefl _ hgt
  omega

/-- Groups of three digits without the zeros at the end, and the offset after them. -/
def groupText : List Nat → List Char
  | [] => utcOffset
  | g :: gs => if (g :: gs).all (· = 0) then utcOffset else field 3 g ++ groupText gs

/-- The offset is before every digit. -/
private theorem utcOffset_lt_field (g : Nat) (rest : List Char) :
    utcOffset < field 3 g ++ rest ∧ ¬ field 3 g ++ rest < utcOffset := by
  have hdigit : ∀ d < 10, '+' < Nat.digitChar d ∧ ¬ Nat.digitChar d < '+' ∧
      Nat.digitChar d ≠ '+' := by decide
  obtain ⟨hlt, hnot, hne⟩ := hdigit (g / 10 / 10 % 10) (Nat.mod_lt _ (by omega))
  have hfield : field 3 g = Nat.digitChar (g / 10 / 10 % 10) ::
      [Nat.digitChar (g / 10 % 10), Nat.digitChar (g % 10)] := rfl
  rw [hfield, List.cons_append, utcOffset, List.cons_lt_cons_iff, List.cons_lt_cons_iff]
  exact ⟨Or.inl hlt, fun h => h.elim hnot fun h => hne h.1⟩

private theorem zeros_lt {gs gs' : List Nat} (hlength : gs.length = gs'.length)
    (hzero : gs.all (· = 0) = true) :
    gs < gs' ↔ gs'.all (· = 0) = false := by
  induction gs generalizing gs' with
  | nil =>
    obtain rfl : gs' = [] := List.eq_nil_of_length_eq_zero hlength.symm
    simp
  | cons g gs ih =>
    cases gs' with
    | nil => cases hlength
    | cons g' gs' =>
      simp only [List.all_cons, Bool.and_eq_true, decide_eq_true_eq] at hzero
      rw [List.cons_lt_cons_iff, ih (Nat.succ.inj hlength) hzero.2, hzero.1]
      by_cases hg : g' = 0
      · simp [hg]
      · simp [hg, Nat.pos_of_ne_zero hg]

theorem groupText_lt_iff {gs gs' : List Nat} (hlength : gs.length = gs'.length)
    (h : ∀ g ∈ gs, g < 1000) (h' : ∀ g ∈ gs', g < 1000) :
    groupText gs < groupText gs' ↔ gs < gs' := by
  induction gs generalizing gs' with
  | nil =>
    obtain rfl : gs' = [] := List.eq_nil_of_length_eq_zero hlength.symm
    simp [groupText]
  | cons g gs ih =>
    cases gs' with
    | nil => cases hlength
    | cons g' gs' =>
      have hg : g < 1000 := h g List.mem_cons_self
      have hg' : g' < 1000 := h' g' List.mem_cons_self
      rw [groupText, groupText]
      cases hzero : (g :: gs).all (· = 0) with
      | true =>
        rw [zeros_lt hlength hzero, if_pos rfl]
        cases hzero' : (g' :: gs').all (· = 0) with
        | true => simp
        | false => simpa using (utcOffset_lt_field g' _).1
      | false =>
        cases hzero' : (g' :: gs').all (· = 0) with
        | true =>
          have hback := (zeros_lt hlength.symm hzero').mpr hzero
          have hnot := (utcOffset_lt_field g (groupText gs)).2
          rw [if_neg Bool.false_ne_true, if_pos rfl]
          exact iff_of_false hnot (List.lt_asymm hback)
        | false =>
          have hrest := ih (Nat.succ.inj hlength) (fun x hx => h x (List.mem_cons_of_mem g hx))
            fun x hx => h' x (List.mem_cons_of_mem g' hx)
          rw [if_neg Bool.false_ne_true, if_neg Bool.false_ne_true,
            append_lt_append_iff (by simp), field_lt_field_iff hg hg', field_inj hg hg', hrest,
            List.cons_lt_cons_iff]

/-- A fraction is a point and its three groups. -/
private theorem fractionText_groups {n : Nat} (hn : n ≠ 0) :
    fractionText n ++ utcOffset =
      '.' :: groupText [n / 1000000, n / 1000 % 1000, n % 1000] := by
  have hmiddle : field 3 (n / 1000) = field 3 (n / 1000 % 1000) := (field_mod 3 (n / 1000)).symm
  have hlow : field 3 n = field 3 (n % 1000) := (field_mod 3 n).symm
  have hsix : field 6 (n / 1000) = field 3 (n / 1000000) ++ field 3 (n / 1000) := by
    have hdiv : n / 1000000 = n / 1000 / 10 ^ 3 := by omega
    rw [hdiv]
    exact field_add 3 3 (n / 1000)
  have hnine : field 9 n = field 6 (n / 1000) ++ field 3 n := field_add 6 3 n
  unfold fractionText
  rw [if_neg hn]
  by_cases hmillis : n % 1000000 = 0
  · have ha : n / 1000000 ≠ 0 := by omega
    have hb : n / 1000 % 1000 = 0 := by omega
    have hc : n % 1000 = 0 := by omega
    simp [hmillis, groupText, ha, hb, hc]
  · rw [if_neg hmillis]
    by_cases hmicros : n % 1000 = 0
    · have hb : n / 1000 % 1000 ≠ 0 := by omega
      rw [if_pos hmicros, hsix, hmiddle]
      simp [groupText, hb, hmicros]
    · rw [if_neg hmicros, hnine, hsix, hmiddle, hlow]
      simp [groupText, hmicros]

theorem fractionText_lt_iff {n n' : Nat} (h : n < 1000000000) (h' : n' < 1000000000) :
    fractionText n ++ utcOffset < fractionText n' ++ utcOffset ↔ n < n' := by
  by_cases hn : n = 0
  · subst hn
    by_cases hn' : n' = 0
    · simp [hn']
    · rw [fractionText_groups hn']
      have hplus : ('+' : Char) < '.' := by decide
      simp [fractionText, utcOffset, List.cons_lt_cons_iff, hplus, Nat.pos_of_ne_zero hn']
  · rw [fractionText_groups hn]
    by_cases hn' : n' = 0
    · subst hn'
      have hplus : ¬ ('.' : Char) < '+' := by decide
      simp [fractionText, utcOffset, List.cons_lt_cons_iff, hplus]
    · rw [fractionText_groups hn', List.cons_lt_cons_iff, groupText_lt_iff (by simp)]
      · simp only [Char.lt_irrefl, false_or, true_and, List.cons_lt_cons_iff, List.not_lt_nil,
          and_false, or_false]
        omega
      · simp only [List.mem_cons, List.not_mem_nil, or_false]
        omega
      · simp only [List.mem_cons, List.not_mem_nil, or_false]
        omega

theorem render_lt_iff (separator : Char) (h : FourDigitYear (dayNumber t))
    (h' : FourDigitYear (dayNumber t')) : render separator t < render separator t' ↔ t < t' := by
  have hlength : (dateText (dayNumber t)).length = (dateText (dayNumber t')).length :=
    (length_dateText h).trans (length_dateText h').symm
  rw [lt_iff_clock, render, render, append_lt_append_iff hlength, List.cons_lt_cons_iff,
    append_lt_append_iff (by simp), dateText_lt_iff h h', dateText_inj h h',
    clockText_lt_iff (secondOf_lt t) (secondOf_lt t'),
    clockText_inj (secondOf_lt t) (secondOf_lt t'),
    fractionText_lt_iff (nanosOf_lt t) (nanosOf_lt t')]
  simp only [Char.lt_irrefl, false_or, true_and]

/-- A text with the earlier separator is before one with the later unless its date is later. -/
theorem render_lt_iff_of_separator {separator separator' : Char} (hlt : separator < separator')
    (h : FourDigitYear (dayNumber t)) (h' : FourDigitYear (dayNumber t')) :
    render separator t < render separator' t' ↔ dayNumber t ≤ dayNumber t' := by
  have hlength : (dateText (dayNumber t)).length = (dateText (dayNumber t')).length :=
    (length_dateText h).trans (length_dateText h').symm
  rw [render, render, append_lt_append_iff hlength, List.cons_lt_cons_iff,
    dateText_lt_iff h h', dateText_inj h h']
  simp only [hlt, true_or, and_true]
  omega

/-! ## Its characters -/

/-- A digit, or one of the marks between the fields. -/
def isTimestampChar (c : Char) : Bool := c.isDigit || c ∈ ['-', ':', '.', '+']

private theorem field_chars {n : Nat} : ∀ c ∈ field w n, isTimestampChar c = true := by
  intro c hc
  obtain ⟨d, hd, rfl⟩ := List.mem_map.mp hc
  have hdigit : ∀ d < 10, isTimestampChar (Nat.digitChar d) = true := by decide
  exact hdigit d (Digits.lt_of_mem_fixed (by omega) hd)

private theorem yearText_chars (y : Int) : ∀ c ∈ yearText y, isTimestampChar c = true := by
  unfold yearText
  split
  · exact field_chars
  · intro c hc
    rcases List.mem_cons.mp hc with rfl | hc
    · split
      · decide
      · decide
    · rw [List.leftpad, List.mem_append, List.mem_replicate] at hc
      rcases hc with ⟨-, rfl⟩ | hc
      · decide
      · rw [isTimestampChar, Nat.isDigit_of_mem_toDigits (by omega) (by omega) hc]
        rfl

private theorem fractionText_chars (n : Nat) :
    ∀ c ∈ fractionText n, isTimestampChar c = true := by
  have hpoint {w m : Nat} : ∀ c ∈ '.' :: field w m, isTimestampChar c = true :=
    List.forall_mem_cons.mpr ⟨by decide, field_chars⟩
  unfold fractionText
  split
  · exact fun c hc => (List.not_mem_nil hc).elim
  · split
    · exact hpoint
    · split
      · exact hpoint
      · exact hpoint

/-- Nothing but the separator and the characters of a time. -/
theorem render_chars (separator : Char) (t : Int) :
    ∀ c ∈ render separator t, c = separator ∨ isTimestampChar c = true := by
  have hcolon : isTimestampChar ':' = true := by decide
  have hdash : isTimestampChar '-' = true := by decide
  have hoffset : ∀ c ∈ utcOffset, isTimestampChar c = true := List.all_eq_true.mp (by decide)
  have hdate : ∀ c ∈ dateText (dayNumber t), isTimestampChar c = true := by
    simp only [dateText, List.forall_mem_append, List.forall_mem_cons]
    exact ⟨yearText_chars _, hdash, field_chars, hdash, field_chars⟩
  have hclock : ∀ c ∈ clockText (secondOf t), isTimestampChar c = true := by
    simp only [clockText, List.forall_mem_append, List.forall_mem_cons]
    exact ⟨field_chars, hcolon, field_chars, hcolon, field_chars⟩
  simp only [render, List.forall_mem_append, List.forall_mem_cons, true_or, true_and]
  exact ⟨fun c hc => .inr (hdate c hc), fun c hc => .inr (hclock c hc),
    fun c hc => .inr (fractionText_chars _ c hc), fun c hc => .inr (hoffset c hc)⟩

end Lib.Timestamps
