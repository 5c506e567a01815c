import Mathlib.Algebra.Order.Floor.Ring
import Mathlib.Data.Int.Log
import Mathlib.Data.Rat.Floor
import Mathlib.Tactic.FieldSimp
import Mathlib.Tactic.GCongr
import Mathlib.Tactic.Linarith
import Mathlib.Tactic.Positivity

/-!
# Rounding

`roundHalfAway` is the rounding of SQL's `numeric` and of the usual decimal libraries' default
`ROUND_HALF_UP`: to the nearest integer, a tie going away from zero. What is used of it is that
it is monotone, odd, and the identity on integers, and how it meets the addition and the subtraction
of an integer: the one commutes with it above zero, the other fails to do so at the ties.

A `NumberFormat` has a base and a number of significant digits. `NumberFormat.roundTo` rounds to
its numbers by any nearest rounding of integers (`IsNearest`): it keeps the order and the numbers of
the format, and moves a number by half a unit of its last place at most. `double` is such a
rounding, that of IEEE 754's binary64 to the even neighbour.
-/

/-- The nearest integer, a tie going away from zero. -/
def roundHalfAway (q : ℚ) : ℤ :=
  if 0 ≤ q then ⌊q + 1 / 2⌋ else -⌊-q + 1 / 2⌋

@[simp]
theorem roundHalfAway_intCast (n : ℤ) : roundHalfAway n = n := by
  have hfloor : ∀ m : ℤ, ⌊(m : ℚ) + 1 / 2⌋ = m := by
    intro m
    rw [Int.floor_eq_iff]
    constructor <;> linarith
  unfold roundHalfAway
  split
  · exact hfloor n
  · have hneg : (-(n : ℚ)) = ((-n : ℤ) : ℚ) := by push_cast; ring
    rw [hneg, hfloor, neg_neg]

@[simp]
theorem roundHalfAway_zero : roundHalfAway 0 = 0 := by
  simpa using roundHalfAway_intCast 0

theorem roundHalfAway_nonneg {q : ℚ} (hq : 0 ≤ q) : 0 ≤ roundHalfAway q := by
  rw [roundHalfAway, if_pos hq]
  exact Int.floor_nonneg.2 (by linarith)

theorem roundHalfAway_nonpos {q : ℚ} (hq : q ≤ 0) : roundHalfAway q ≤ 0 := by
  unfold roundHalfAway
  split
  · rename_i h
    have hzero : q = 0 := le_antisymm hq h
    subst hzero
    norm_num
  · have : 0 ≤ ⌊-q + 1 / 2⌋ := Int.floor_nonneg.2 (by linarith)
    omega

theorem roundHalfAway_mono {p q : ℚ} (h : p ≤ q) : roundHalfAway p ≤ roundHalfAway q := by
  by_cases hp : 0 ≤ p
  · rw [roundHalfAway, roundHalfAway, if_pos hp, if_pos (hp.trans h)]
    exact Int.floor_le_floor (by linarith)
  · push Not at hp
    by_cases hq : 0 ≤ q
    · exact (roundHalfAway_nonpos hp.le).trans (roundHalfAway_nonneg hq)
    · rw [roundHalfAway, roundHalfAway, if_neg hp.not_ge, if_neg hq]
      have : ⌊-q + 1 / 2⌋ ≤ ⌊-p + 1 / 2⌋ := Int.floor_le_floor (by linarith)
      omega

/-- Rounding is odd. -/
theorem roundHalfAway_neg (q : ℚ) : roundHalfAway (-q) = -roundHalfAway q := by
  rcases lt_trichotomy q 0 with h | h | h
  · rw [roundHalfAway, if_pos (by linarith), roundHalfAway, if_neg (by linarith), neg_neg]
  · subst h
    simp
  · rw [roundHalfAway, if_neg (by linarith), roundHalfAway, if_pos h.le, neg_neg]

/-- Half-way between two integers. -/
def IsHalf (q : ℚ) : Prop :=
  ∃ n : ℤ, q = n + 1 / 2

theorem isHalf_iff {q : ℚ} : IsHalf q ↔ (⌊q⌋ : ℚ) + 1 / 2 = q := by
  constructor
  · rintro ⟨n, rfl⟩
    have hfloor : ⌊(n : ℚ) + 1 / 2⌋ = n := by
      rw [Int.floor_eq_iff]
      constructor <;> linarith
    rw [hfloor]
  · intro h
    exact ⟨_, h.symm⟩

instance (q : ℚ) : Decidable (IsHalf q) :=
  decidable_of_iff _ isHalf_iff.symm

/-- Above zero an integer can be taken out of a rounding. -/
theorem roundHalfAway_intCast_add {n : ℤ} {q : ℚ} (hn : 0 ≤ n) (hq : 0 ≤ q) :
    roundHalfAway (n + q) = n + roundHalfAway q := by
  have hcast : (0 : ℚ) ≤ n := Int.cast_nonneg hn
  rw [roundHalfAway, roundHalfAway, if_pos hq, if_pos (by linarith), add_assoc, Int.floor_intCast_add]

/-- What is taken off an integer can be rounded on its own, except at a tie: the one goes away from
zero and the other towards the integer. -/
theorem roundHalfAway_intCast_sub_iff {n : ℤ} {q : ℚ} (hq : 0 ≤ q) (hle : q ≤ n) :
    roundHalfAway (n - q) = n - roundHalfAway q ↔ ¬IsHalf q := by
  have hround : roundHalfAway (n - q) = n - ⌈q - 1 / 2⌉ := by
    have hsum : (n : ℚ) - q + 1 / 2 = n + -(q - 1 / 2) := by ring
    rw [roundHalfAway, if_pos (by linarith), hsum, Int.floor_intCast_add, Int.floor_neg]
    ring
  rw [hround, roundHalfAway, if_pos hq, sub_right_inj]
  -- Both are integers within a half of `q`, and only at a tie there are two of these.
  have hlow := Int.ceil_lt_add_one (q - 1 / 2)
  have hlow' := Int.le_ceil (q - 1 / 2)
  have hhigh := Int.floor_le (q + 1 / 2)
  have hhigh' := Int.lt_floor_add_one (q + 1 / 2)
  constructor
  · rintro heq ⟨m, rfl⟩
    have hup : ⌊(m : ℚ) + 1 / 2 + 1 / 2⌋ = m + 1 := by
      rw [Int.floor_eq_iff]
      push_cast
      constructor <;> linarith
    have hdown : ⌈(m : ℚ) + 1 / 2 - 1 / 2⌉ = m := by
      rw [Int.ceil_eq_iff]
      constructor <;> linarith
    omega
  · intro hhalf
    by_contra hne
    have hlt : ⌈q - 1 / 2⌉ < ⌊q + 1 / 2⌋ := by
      refine lt_of_le_of_ne (Int.lt_add_one_iff.1 ?_) hne
      have : (⌈q - 1 / 2⌉ : ℚ) < ⌊q + 1 / 2⌋ + 1 := by linarith
      exact_mod_cast this
    have hnext : (⌈q - 1 / 2⌉ : ℚ) + 1 ≤ ⌊q + 1 / 2⌋ := by exact_mod_cast hlt
    exact hhalf ⟨⌈q - 1 / 2⌉, by linarith⟩

/-! ### Nearest integers -/

/-- The nearest integer, a tie going to the even one. -/
def roundHalfEven (q : ℚ) : ℤ :=
  if IsHalf q then 2 * ((⌊q⌋ + 1) / 2) else ⌊q + 1 / 2⌋

/-- A rounding to an integer that is nearest, and the same on both sides of zero. -/
structure IsNearest (round : ℚ → ℤ) : Prop where
  near : ∀ q, |(round q : ℚ) - q| ≤ 1 / 2
  neg : ∀ q, round (-q) = -round q

theorem abs_floor_sub_le (q : ℚ) : |(⌊q + 1 / 2⌋ : ℚ) - q| ≤ 1 / 2 := by
  have hlow := Int.floor_le (q + 1 / 2)
  have hhigh := Int.lt_floor_add_one (q + 1 / 2)
  rw [abs_le]
  constructor <;> linarith

theorem isNearest_roundHalfAway : IsNearest roundHalfAway where
  near q := by
    unfold roundHalfAway
    split_ifs
    · exact abs_floor_sub_le q
    · have hnear := abs_floor_sub_le (-q)
      rw [abs_le] at hnear ⊢
      push_cast
      constructor <;> linarith [hnear.1, hnear.2]
  neg := roundHalfAway_neg

theorem isHalf_neg {q : ℚ} (h : IsHalf q) : IsHalf (-q) := by
  obtain ⟨n, rfl⟩ := h
  exact ⟨-n - 1, by push_cast; ring⟩

theorem isNearest_roundHalfEven : IsNearest roundHalfEven where
  near q := by
    unfold roundHalfEven
    split_ifs with h
    · rw [isHalf_iff] at h
      have heven : 2 * ((⌊q⌋ + 1) / 2) = ⌊q⌋ ∨ 2 * ((⌊q⌋ + 1) / 2) = ⌊q⌋ + 1 := by omega
      rw [abs_le]
      rcases heven with heven | heven
      · rw [heven]
        constructor <;> linarith
      · rw [heven]
        push_cast
        constructor <;> linarith
    · exact abs_floor_sub_le q
  neg q := by
    by_cases h : IsHalf q
    · have hneg := isHalf_neg h
      rw [roundHalfEven, if_pos hneg, roundHalfEven, if_pos h]
      obtain ⟨n, rfl⟩ := h
      have hfloor : ⌊(n : ℚ) + 1 / 2⌋ = n := by
        rw [Int.floor_eq_iff]
        constructor <;> linarith
      have hfloor' : ⌊-((n : ℚ) + 1 / 2)⌋ = -n - 1 := by
        rw [Int.floor_eq_iff]
        push_cast
        constructor <;> linarith
      rw [hfloor, hfloor']
      omega
    · have hneg : ¬IsHalf (-q) := fun hneg ↦ h (neg_neg q ▸ isHalf_neg hneg)
      rw [roundHalfEven, if_neg hneg, roundHalfEven, if_neg h, Int.floor_eq_iff]
      have hlow := Int.floor_le (q + 1 / 2)
      have hhigh := Int.lt_floor_add_one (q + 1 / 2)
      have hne : (⌊q + 1 / 2⌋ : ℚ) ≠ q + 1 / 2 := fun heq ↦
        h ⟨⌊q + 1 / 2⌋ - 1, by push_cast; linarith⟩
      have hlt := lt_of_le_of_ne hlow hne
      push_cast
      constructor <;> linarith

namespace IsNearest

variable {round : ℚ → ℤ} (h : IsNearest round)
include h

theorem eq_of_abs_lt {q : ℚ} {n : ℤ} (hn : |(n : ℚ) - q| < 1 / 2) : round q = n := by
  have hnear := abs_le.1 (h.near q)
  have hlt := abs_lt.1 hn
  have hlow : ((n - 1 : ℤ) : ℚ) < round q := by push_cast; linarith
  have hhigh : (round q : ℚ) < ((n + 1 : ℤ) : ℚ) := by push_cast; linarith
  have hlow' := Int.cast_lt.1 hlow
  have hhigh' := Int.cast_lt.1 hhigh
  omega

theorem intCast (n : ℤ) : round n = n :=
  h.eq_of_abs_lt (by norm_num)

theorem mono {p q : ℚ} (hpq : p ≤ q) : round p ≤ round q := by
  rcases hpq.eq_or_lt with rfl | hlt
  · exact le_rfl
  · have hp := abs_le.1 (h.near p)
    have hq := abs_le.1 (h.near q)
    have hsmall : (round p : ℚ) < ((round q + 1 : ℤ) : ℚ) := by push_cast; linarith
    exact Int.lt_add_one_iff.1 (Int.cast_lt.1 hsmall)

end IsNearest

/-! ### Formats of numbers -/

/-- A format of numbers: a base, the number of significant digits, and the least place a digit can
have, where there is one. -/
structure NumberFormat where
  base : ℕ
  digits : ℕ
  least : Option ℤ
  one_lt_base : 1 < base
  digits_pos : 0 < digits

namespace NumberFormat

variable (F : NumberFormat) (round : ℚ → ℤ)

/-- The place of the last digit of a number. -/
def place (q : ℚ) : ℤ :=
  F.least.elim (Int.log F.base |q| - (F.digits - 1)) (max (Int.log F.base |q| - (F.digits - 1)))

/-- The number rounded to the format. The format has no greatest number. -/
def roundTo (q : ℚ) : ℚ :=
  round (q / F.base ^ F.place q) * F.base ^ F.place q

/-- A number of the format: at most so many digits, and none below the least place. -/
def Holds (q : ℚ) : Prop :=
  ∃ n e : ℤ, q = n * F.base ^ e ∧ |n| < F.base ^ F.digits ∧ ∀ least ∈ F.least, least ≤ e

theorem base_pos : (0 : ℚ) < F.base :=
  Nat.cast_pos.2 (zero_lt_one.trans F.one_lt_base)

theorem one_lt_base' : (1 : ℚ) < F.base :=
  Nat.one_lt_cast.2 F.one_lt_base

theorem unit_pos (e : ℤ) : (0 : ℚ) < (F.base : ℚ) ^ e :=
  zpow_pos F.base_pos e

theorem place_abs (q : ℚ) : F.place |q| = F.place q := by
  rw [place, abs_abs, place]

theorem place_neg (q : ℚ) : F.place (-q) = F.place q := by
  rw [place, abs_neg, place]

theorem le_place (q : ℚ) : Int.log F.base |q| - (F.digits - 1) ≤ F.place q := by
  unfold place
  cases F.least with
  | none => exact le_rfl
  | some least => exact le_max_left _ _

theorem least_le_place {least : ℤ} (h : least ∈ F.least) (q : ℚ) : least ≤ F.place q := by
  unfold place
  cases hleast : F.least with
  | none =>
    rw [hleast] at h
    cases h
  | some l =>
    rw [hleast] at h
    cases h
    exact le_max_right _ _

/-- The last place is that of the last significant digit, or the least one. -/
theorem place_cases (q : ℚ) : F.place q = Int.log F.base |q| - (F.digits - 1) ∨
    ∃ least ∈ F.least, F.place q = least ∧ Int.log F.base |q| - (F.digits - 1) ≤ least := by
  unfold place
  cases F.least with
  | none => exact .inl rfl
  | some least =>
    rcases le_total least (Int.log F.base |q| - (F.digits - 1)) with h | h
    · exact .inl (max_eq_left h)
    · exact .inr ⟨least, rfl, max_eq_right h, h⟩


theorem lt_zpow_place {q : ℚ} (hq : 0 < q) :
    q < F.base ^ (F.place q + F.digits) := by
  have hlog := Int.lt_zpow_succ_log_self F.one_lt_base q
  have hplace := F.le_place q
  rw [abs_of_pos hq] at hplace
  exact hlog.trans_le (zpow_le_zpow_right₀ F.one_lt_base'.le (by omega))

/-- A multiple of a power of the base, down to the last place. -/
theorem zpow_eq_mul {e p : ℤ} (hle : p ≤ e) (n : ℤ) :
    (n : ℚ) * F.base ^ e = ((n * F.base ^ (e - p).toNat : ℤ) : ℚ) * F.base ^ p := by
  have hsplit : (F.base : ℚ) ^ e = F.base ^ (e - p).toNat * F.base ^ p := by
    rw [← zpow_natCast, ← zpow_add₀ F.base_pos.ne', Int.toNat_of_nonneg (by omega)]
    congr 1
    ring
  rw [hsplit]
  push_cast
  ring

variable {round} (h : IsNearest round)
include h

/-- What is kept at the last place of a number bounds the rounded number where it bounds the
number. -/
theorem le_roundTo {q : ℚ} {n : ℤ} (hle : n * (F.base : ℚ) ^ F.place q ≤ q) :
    n * (F.base : ℚ) ^ F.place q ≤ F.roundTo round q := by
  have hunit := F.unit_pos (F.place q)
  refine mul_le_mul_of_nonneg_right ?_ hunit.le
  rw [← h.intCast n]
  exact Int.cast_le.2 (h.mono ((le_div_iff₀ hunit).2 hle))

theorem roundTo_le {q : ℚ} {n : ℤ} (hle : q ≤ n * (F.base : ℚ) ^ F.place q) :
    F.roundTo round q ≤ n * (F.base : ℚ) ^ F.place q := by
  have hunit := F.unit_pos (F.place q)
  refine mul_le_mul_of_nonneg_right ?_ hunit.le
  rw [← h.intCast n]
  exact Int.cast_le.2 (h.mono ((div_le_iff₀ hunit).2 hle))

@[simp]
theorem roundTo_zero : F.roundTo round 0 = 0 := by
  have hzero : round 0 = 0 := by simpa using h.intCast 0
  rw [roundTo, zero_div, hzero, Int.cast_zero, zero_mul]

theorem roundTo_neg (q : ℚ) : F.roundTo round (-q) = -F.roundTo round q := by
  rw [roundTo, place_neg, neg_div, h.neg, roundTo]
  push_cast
  ring

theorem roundTo_nonneg {q : ℚ} (hq : 0 ≤ q) : 0 ≤ F.roundTo round q := by
  simpa using F.le_roundTo h (q := q) (n := 0) (by simpa using hq)

/-- Rounding keeps the order. -/
theorem roundTo_mono_of_pos {p q : ℚ} (hp : 0 < p) (hpq : p ≤ q) :
    F.roundTo round p ≤ F.roundTo round q := by
  have hq := hp.trans_le hpq
  have hlog := Int.log_mono_right (b := F.base) hp hpq
  have hlow := F.le_place p
  rw [abs_of_pos hp] at hlow
  have hdigits := F.digits_pos
  have hcases := F.place_cases q
  rw [abs_of_pos hq] at hcases
  by_cases hplace : F.place p = F.place q
  · have hunit := F.unit_pos (F.place q)
    rw [roundTo, roundTo, hplace]
    exact mul_le_mul_of_nonneg_right
      (Int.cast_le.2 (h.mono (div_le_div_of_nonneg_right hpq hunit.le))) hunit.le
  · -- the greater number has a higher last place, so a power of the base stands between them
    have hjump : F.place q = Int.log F.base q - (F.digits - 1) ∧
        Int.log F.base p < Int.log F.base q ∧ F.place p ≤ Int.log F.base q := by
      have hcases' := F.place_cases p
      rw [abs_of_pos hp] at hcases'
      rcases hcases with hq' | ⟨least, hleast, hq', hlow'⟩
      · rcases hcases' with hp' | ⟨least, hleast, hp', -⟩
        · omega
        · have := F.least_le_place hleast q
          omega
      · have := F.least_le_place hleast p
        rcases hcases' with hp' | ⟨least', hleast', hp', -⟩
        · omega
        · rw [Option.mem_unique hleast hleast'] at hq'
          omega
    obtain ⟨hq', hlt, hle⟩ := hjump
    have hbelow : p ≤ F.base ^ Int.log F.base q :=
      (Int.lt_zpow_succ_log_self F.one_lt_base p).le.trans
        (zpow_le_zpow_right₀ F.one_lt_base'.le (by omega))
    have habove : (F.base : ℚ) ^ Int.log F.base q ≤ q := Int.zpow_log_le_self F.one_lt_base hq
    have hp' := F.zpow_eq_mul hle 1
    have hq'' := F.zpow_eq_mul (e := Int.log F.base q) (p := F.place q) (by omega) 1
    rw [Int.cast_one, one_mul] at hp' hq''
    calc F.roundTo round p ≤ F.base ^ Int.log F.base q := by
          rw [hp'] at hbelow ⊢
          exact F.roundTo_le h hbelow
      _ ≤ F.roundTo round q := by
          rw [hq''] at habove ⊢
          exact F.le_roundTo h habove

theorem roundTo_mono {p q : ℚ} (hpq : p ≤ q) : F.roundTo round p ≤ F.roundTo round q := by
  rcases lt_or_ge 0 p with hp | hp
  · exact F.roundTo_mono_of_pos h hp hpq
  rcases le_or_gt 0 q with hq | hq
  · have hneg := F.roundTo_nonneg h (neg_nonneg.2 hp)
    rw [F.roundTo_neg h] at hneg
    exact (neg_nonneg.1 hneg).trans (F.roundTo_nonneg h hq)
  · have hmono := F.roundTo_mono_of_pos h (neg_pos.2 hq) (neg_le_neg hpq)
    rw [F.roundTo_neg h, F.roundTo_neg h] at hmono
    exact neg_le_neg_iff.1 hmono

/-- A number of the format is kept. -/
theorem roundTo_of_holds {q : ℚ} (hq : F.Holds q) : F.roundTo round q = q := by
  obtain ⟨n, e, rfl, hn, hleast⟩ := hq
  by_cases hzero : n = 0
  · rw [hzero, Int.cast_zero, zero_mul, F.roundTo_zero h]
  have hpos : 0 < |(n : ℚ) * F.base ^ e| := abs_pos.2
    (mul_ne_zero (Int.cast_ne_zero.2 hzero) (F.unit_pos e).ne')
  have hlt : |(n : ℚ) * F.base ^ e| < F.base ^ ((F.digits : ℤ) + e) := by
    rw [abs_mul, abs_of_pos (F.unit_pos e), zpow_add₀ F.base_pos.ne', zpow_natCast]
    exact mul_lt_mul_of_pos_right (by exact_mod_cast hn) (F.unit_pos e)
  have hlog := (Int.lt_zpow_iff_log_lt F.one_lt_base hpos).1 hlt
  have hplace : F.place (n * F.base ^ e) ≤ e := by
    rcases F.place_cases (n * F.base ^ e) with heq | ⟨least, hl, heq, -⟩
    · omega
    · rw [heq]
      exact hleast least hl
  have heq := F.zpow_eq_mul hplace n
  exact le_antisymm
    ((F.roundTo_le h (heq.le)).trans heq.ge) (heq.le.trans (F.le_roundTo h heq.ge))

omit h in
/-- A number with as many digits as the format has is one with fewer, at the next place. -/
theorem holds_of_le {n e : ℤ} (hn : |n| ≤ F.base ^ F.digits)
    (hleast : ∀ least ∈ F.least, least ≤ e) : F.Holds (n * F.base ^ e) := by
  rcases hn.lt_or_eq with hlt | heq
  · exact ⟨n, e, rfl, hlt, hleast⟩
  · obtain ⟨d, hd⟩ := Nat.exists_eq_add_one.2 F.digits_pos
    have hbase : (1 : ℤ) < F.base := by exact_mod_cast F.one_lt_base
    have hpower : (F.base : ℤ) ^ F.digits = F.base ^ d * F.base := by rw [hd, pow_succ]
    have hsmall : (F.base : ℤ) ^ d < F.base ^ F.digits := by
      rw [hpower]
      exact lt_mul_of_one_lt_right (by positivity) hbase
    have hnext : ∀ m : ℤ, n = m * F.base → |m| = F.base ^ d → F.Holds (n * F.base ^ e) := by
      intro m hm habs
      refine ⟨m, e + 1, ?_, habs ▸ hsmall, fun least hl ↦ (hleast least hl).trans (by omega)⟩
      rw [hm, zpow_add_one₀ F.base_pos.ne']
      push_cast
      ring
    rcases abs_choice n with habs | habs
    · refine hnext (F.base ^ d) ?_ (abs_of_nonneg (by positivity))
      rw [← habs, heq, hpower]
    · refine hnext (-F.base ^ d) ?_ (by rw [abs_neg, abs_of_nonneg (by positivity)])
      rw [neg_mul, ← hpower, ← heq, habs, neg_neg]

/-- What is rounded is a number of the format. -/
theorem holds_roundTo (q : ℚ) : F.Holds (F.roundTo round q) := by
  have hunit := F.unit_pos (F.place q)
  refine F.holds_of_le ?_ fun least hl ↦ F.least_le_place hl q
  have hbound : |q / F.base ^ F.place q| ≤ F.base ^ F.digits := by
    rw [abs_div, abs_of_pos hunit, div_le_iff₀ hunit, ← zpow_natCast, ← zpow_add₀ F.base_pos.ne',
      ← F.place_abs, add_comm]
    rcases (abs_nonneg q).eq_or_lt with hzero | hpos
    · rw [← hzero]
      exact (F.unit_pos _).le
    · exact (F.lt_zpow_place hpos).le
  obtain ⟨hlow, hhigh⟩ := abs_le.1 hbound
  have hcast : ((F.base ^ F.digits : ℤ) : ℚ) = F.base ^ F.digits := by push_cast; rfl
  rw [abs_le, ← h.intCast (F.base ^ F.digits), ← h.neg]
  exact ⟨h.mono (by rw [hcast]; exact hlow), h.mono (by rw [hcast]; exact hhigh)⟩

/-- Nothing is rounded to nothing where there is no least place. -/
theorem roundTo_pos (hleast : F.least = none) {q : ℚ} (hq : 0 < q) : 0 < F.roundTo round q := by
  have hplace : F.place q ≤ Int.log F.base q := by
    have hdigits := F.digits_pos
    rw [place, hleast, abs_of_pos hq]
    show Int.log F.base q - (F.digits - 1) ≤ _
    omega
  have hone : 1 ≤ q / F.base ^ F.place q := by
    rw [one_le_div (F.unit_pos _)]
    exact (zpow_le_zpow_right₀ F.one_lt_base'.le hplace).trans
      (Int.zpow_log_le_self F.one_lt_base hq)
  have hround : 1 ≤ round (q / F.base ^ F.place q) := by
    have hmono := h.mono hone
    rwa [show (1 : ℚ) = ((1 : ℤ) : ℚ) by norm_num, h.intCast] at hmono
  refine mul_pos ?_ (F.unit_pos _)
  exact_mod_cast hround

/-- How far a number is moved. -/
theorem abs_roundTo_sub_le (q : ℚ) : |F.roundTo round q - q| ≤ F.base ^ F.place q / 2 := by
  have hunit := F.unit_pos (F.place q)
  have hnear := mul_le_mul_of_nonneg_right (h.near (q / F.base ^ F.place q)) hunit.le
  rw [← abs_of_pos hunit, ← abs_mul, sub_mul, abs_of_pos hunit, div_mul_cancel₀ _ hunit.ne'] at hnear
  rw [roundTo]
  linarith

/-- The same, relative to the number. -/
theorem abs_roundTo_sub_le_mul (q : ℚ) : |F.roundTo round q - q| ≤
    (|q| * F.base ^ (1 - (F.digits : ℤ)) + F.least.elim 0 ((F.base : ℚ) ^ ·)) / 2 := by
  have hleast : (0 : ℚ) ≤ F.least.elim 0 ((F.base : ℚ) ^ ·) := by
    cases F.least with
    | none => exact le_rfl
    | some least => exact (F.unit_pos least).le
  rcases (abs_nonneg q).eq_or_lt with hzero | hpos
  · rw [abs_eq_zero.1 hzero.symm, F.roundTo_zero h, sub_zero, abs_zero, zero_mul, zero_add]
    linarith
  refine (F.abs_roundTo_sub_le h q).trans (div_le_div_of_nonneg_right ?_ (by norm_num))
  rcases F.place_cases q with heq | ⟨least, hl, heq, -⟩
  · have hsplit : F.place q = Int.log F.base |q| + (1 - (F.digits : ℤ)) := by omega
    rw [hsplit, zpow_add₀ F.base_pos.ne']
    exact le_add_of_le_of_nonneg (mul_le_mul_of_nonneg_right
      (Int.zpow_log_le_self F.one_lt_base hpos) (F.unit_pos _).le) hleast
  · rw [heq, Option.mem_def.1 hl]
    exact le_add_of_nonneg_left (mul_nonneg (abs_nonneg q) (F.unit_pos _).le)

end NumberFormat

/-! ### Double precision -/

/-- IEEE 754's binary64. -/
def binary64 : NumberFormat where
  base := 2
  digits := 53
  least := some (-1074)
  one_lt_base := by decide
  digits_pos := by decide

/-- The double that is nearest to a number. Infinity is not among them: what is too great for the
format stays a great number. -/
def double (q : ℚ) : ℚ :=
  binary64.roundTo roundHalfEven q

theorem double_zero : double 0 = 0 :=
  binary64.roundTo_zero isNearest_roundHalfEven

theorem double_nonneg {q : ℚ} (hq : 0 ≤ q) : 0 ≤ double q :=
  binary64.roundTo_nonneg isNearest_roundHalfEven hq

theorem double_mono {p q : ℚ} (hpq : p ≤ q) : double p ≤ double q :=
  binary64.roundTo_mono isNearest_roundHalfEven hpq

@[simp]
theorem double_double (q : ℚ) : double (double q) = double q :=
  binary64.roundTo_of_holds isNearest_roundHalfEven
    (binary64.holds_roundTo isNearest_roundHalfEven q)

/-- How far a double is from the number; what is below the least double is negligible. -/
theorem abs_double_sub_le (q : ℚ) : |double q - q| ≤ |q| / 2 ^ 53 + 1 / 2 ^ 200 := by
  have hrelative : (2 : ℚ) ^ (1 - (53 : ℤ)) = 1 / 2 ^ 52 := by norm_num
  have hsmall : (2 : ℚ) ^ (-200 : ℤ) = 1 / 2 ^ 200 := by norm_num
  have hleast : (2 : ℚ) ^ (-1074 : ℤ) ≤ 1 / 2 ^ 200 :=
    hsmall ▸ zpow_le_zpow_right₀ (by norm_num) (by norm_num)
  calc |double q - q| ≤ (|q| * 2 ^ (1 - (53 : ℤ)) + 2 ^ (-1074 : ℤ)) / 2 :=
        binary64.abs_roundTo_sub_le_mul isNearest_roundHalfEven q
    _ ≤ (|q| * (1 / 2 ^ 52) + 1 / 2 ^ 200) / 2 := by
        rw [hrelative]
        gcongr
    _ ≤ |q| / 2 ^ 53 + 1 / 2 ^ 200 := by linarith

/-! ### Decimals of a double -/

/-- The decimals of so many significant digits on both sides of a number, the nearer one first. -/
def nearestDecimals (x : ℚ) (digits : ℕ) : List ℚ :=
  let unit : ℚ := 10 ^ (Int.log 10 |x| - digits + 1)
  let below : ℚ := ⌊x / unit⌋ * unit
  let above : ℚ := (⌊x / unit⌋ + 1) * unit
  if x - below ≤ above - x then [below, above] else [above, below]

/-- `Number.prototype.toString`, as the decimal it writes: one of the fewest digits that reads back
as the same double, and the nearest of these. -/
def shortestDecimal (x : ℚ) : ℚ :=
  (((List.range' 1 17).flatMap (nearestDecimals x)).find? fun t ↦ double t = x).getD x

/-- It reads back. -/
theorem double_shortestDecimal {x : ℚ} (hx : double x = x) : double (shortestDecimal x) = x := by
  unfold shortestDecimal
  cases hfound : ((List.range' 1 17).flatMap (nearestDecimals x)).find? fun t ↦ double t = x with
  | none => exact hx
  | some t => exact of_decide_eq_true (List.find?_some (p := fun t ↦ double t = x) hfound)

/-! ### Errors that add up -/

/-- `x` is off `y` by what `k` roundings to a double come to, for numbers of the size of `b`. -/
structure Near (k : ℕ) (b x y : ℚ) : Prop where
  size : |y| ≤ b
  error : |x - y| ≤ ((1 + 1 / 2 ^ 52) ^ k - 1) * b

namespace Near

variable {k k' : ℕ} {b b' c x x' y y' : ℚ}

theorem refl (h : |y| ≤ b) : Near 0 b y y where
  size := h
  error := by rw [sub_self, abs_zero, pow_zero, sub_self, zero_mul]

theorem nonneg (h : Near k b x y) : 0 ≤ b :=
  (abs_nonneg y).trans h.size

theorem mono (h : Near k b x y) (hk : k ≤ k') (hb : b ≤ b') : Near k' b' x y where
  size := h.size.trans hb
  error := by
    refine h.error.trans (mul_le_mul (sub_le_sub_right (pow_le_pow_right₀ (by norm_num) hk) 1) hb
      h.nonneg (sub_nonneg.2 (one_le_pow₀ (by norm_num))))

theorem add (h : Near k b x y) (h' : Near k b' x' y') : Near k (b + b') (x + x') (y + y') where
  size := (abs_add_le y y').trans (add_le_add h.size h'.size)
  error := by
    rw [add_sub_add_comm, mul_add]
    exact (abs_add_le _ _).trans (add_le_add h.error h'.error)

theorem neg (h : Near k b x y) : Near k b (-x) (-y) where
  size := by rw [abs_neg]; exact h.size
  error := by rw [neg_sub_neg, abs_sub_comm]; exact h.error

theorem sub (h : Near k b x y) (h' : Near k b' x' y') : Near k (b + b') (x - x') (y - y') := by
  rw [sub_eq_add_neg, sub_eq_add_neg]
  exact h.add h'.neg

theorem mul_right (h : Near k b x y) (hc : 0 ≤ c) : Near k (b * c) (x * c) (y * c) where
  size := by
    rw [abs_mul, abs_of_nonneg hc]
    exact mul_le_mul_of_nonneg_right h.size hc
  error := by
    rw [← sub_mul, abs_mul, abs_of_nonneg hc, ← mul_assoc]
    exact mul_le_mul_of_nonneg_right h.error hc

theorem div (h : Near k b x y) (hc : 0 ≤ c) : Near k (b / c) (x / c) (y / c) := by
  rw [div_eq_mul_inv, div_eq_mul_inv, div_eq_mul_inv]
  exact h.mul_right (inv_nonneg.2 hc)

theorem abs_le (h : Near k b x y) : |x| ≤ (1 + 1 / 2 ^ 52) ^ k * b := by
  have hsum := abs_add_le (x - y) y
  rw [sub_add_cancel] at hsum
  linarith [h.error, h.size]

theorem le_pow_mul (h : Near k b x y) : b ≤ (1 + 1 / 2 ^ 52) ^ k * b :=
  le_mul_of_one_le_left h.nonneg (one_le_pow₀ (by norm_num))

/-- One rounding more, of a number that is not all too small. -/
theorem step (h : Near k b x y) (hx : |x' - x| ≤ (1 + 1 / 2 ^ 52) ^ k * b / 2 ^ 52) :
    Near (k + 1) b x' y where
  size := h.size
  error := by
    have hsum := abs_add_le (x' - x) (x - y)
    rw [sub_add_sub_cancel] at hsum
    have herror := h.error
    rw [pow_succ]
    linarith

theorem rounded (h : Near k b x y) (hb : 1 / 2 ^ 100 ≤ b) : Near (k + 1) b (double x) y := by
  refine h.step ((abs_double_sub_le x).trans ?_)
  have habs := h.abs_le
  have hpow := h.le_pow_mul
  set B := (1 + 1 / 2 ^ 52) ^ k * b
  have hleast : (1 : ℚ) / 2 ^ 200 ≤ 1 / 2 ^ 100 / 2 ^ 53 := by norm_num
  linarith

/-- So does a decimal that is read back. -/
theorem readsBack (h : Near k b x y) (hx : double x' = x) (hb : 1 / 2 ^ 100 ≤ b) :
    Near (k + 1) b x' y := by
  refine h.step ?_
  have hround := abs_double_sub_le x'
  rw [hx, abs_sub_comm] at hround
  have hsize := abs_add_le (x' - x) x
  rw [sub_add_cancel] at hsize
  have habs := h.abs_le
  have hpow := h.le_pow_mul
  set B := (1 + 1 / 2 ^ 52) ^ k * b
  have hleast : (1 : ℚ) / 2 ^ 200 ≤ 1 / 2 ^ 100 / 2 ^ 54 := by norm_num
  linarith

/-- A few roundings come to little. -/
theorem error_le (h : Near k b x y) (hk : k ≤ 9) : |x - y| ≤ b / 2 ^ 48 := by
  have hfew : ((1 : ℚ) + 1 / 2 ^ 52) ^ 9 - 1 ≤ 1 / 2 ^ 48 := by norm_num
  calc |x - y| ≤ ((1 + 1 / 2 ^ 52) ^ 9 - 1) * b := (h.mono hk le_rfl).error
    _ ≤ 1 / 2 ^ 48 * b := mul_le_mul_of_nonneg_right hfew h.nonneg
    _ = b / 2 ^ 48 := by ring

end Near
