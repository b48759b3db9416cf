import Mathlib.Data.Int.Log
import Mathlib.Data.Rat.Floor
import Mathlib.Algebra.Order.Monoid.WithTop
import Mathlib.Tactic.Linarith
import Mathlib.Tactic.NormNum
import Mathlib.Tactic.Positivity

/-!
# Non-negative doubles

A finite double is a rational that rounding leaves (`Double`), and rounding is to the nearest
multiple of the last place, ties to the even one (`roundNearest`). It is monotone
(`roundNearest_mono`) and rounds what it has rounded to itself (`roundNearest_idem`). What would
be rounded to `2 ^ 1024` or more is infinite.

Only what is not negative is modelled, so zero has no sign.
-/

namespace DiaryMemory

/-! ## Integers -/

/-- The nearest integer, of two the even one. -/
def roundEven (x : ℚ) : ℤ :=
  if x - ⌊x⌋ < 1 / 2 then ⌊x⌋
  else if 1 / 2 < x - ⌊x⌋ then ⌊x⌋ + 1
  else if ⌊x⌋ % 2 = 0 then ⌊x⌋
  else ⌊x⌋ + 1

theorem floor_le_roundEven (x : ℚ) : ⌊x⌋ ≤ roundEven x := by
  unfold roundEven
  split_ifs <;> omega

theorem roundEven_le_floor (x : ℚ) : roundEven x ≤ ⌊x⌋ + 1 := by
  unfold roundEven
  split_ifs <;> omega

theorem roundEven_mono {x y : ℚ} (h : x ≤ y) : roundEven x ≤ roundEven y := by
  rcases (Int.floor_le_floor h).eq_or_lt with heq | hlt
  · unfold roundEven
    rw [heq]
    split_ifs <;> first | omega | linarith
  · have hx := roundEven_le_floor x
    have hy := floor_le_roundEven y
    omega

@[simp]
theorem roundEven_intCast (m : ℤ) : roundEven m = m := by
  unfold roundEven
  rw [Int.floor_intCast, sub_self, if_pos (by norm_num)]

/-! ## The last place -/

/-- The exponent of the last place of the doubles around `q`. -/
def lastPlace (q : ℚ) : ℤ := max (-1074) (Int.log 2 q - 52)

/-- The nearest multiple of the last place. -/
def roundNearest (q : ℚ) : ℚ := roundEven (q / 2 ^ lastPlace q) * 2 ^ lastPlace q

theorem two_zpow_pos (e : ℤ) : (0 : ℚ) < 2 ^ e := zpow_pos (by norm_num) e

/-- A multiple of a place is one of every place before it. -/
theorem multiple_div {a e : ℤ} (h : a ≤ e) (m : ℤ) :
    ∃ n : ℤ, (m * 2 ^ e : ℚ) = n * 2 ^ a := by
  obtain ⟨k, rfl⟩ := Int.le.dest h
  refine ⟨m * 2 ^ k, ?_⟩
  rw [zpow_add₀ (by norm_num), zpow_natCast]
  push_cast
  ring

theorem roundNearest_le {q : ℚ} (m : ℤ) {e : ℤ} (he : lastPlace q ≤ e) (h : q ≤ m * 2 ^ e) :
    roundNearest q ≤ m * 2 ^ e := by
  obtain ⟨n, hn⟩ := multiple_div he m
  rw [hn] at h ⊢
  refine mul_le_mul_of_nonneg_right ?_ (two_zpow_pos _).le
  have hround := roundEven_mono ((div_le_iff₀ (two_zpow_pos _)).mpr h)
  rw [roundEven_intCast] at hround
  exact_mod_cast hround

theorem le_roundNearest {q : ℚ} (m : ℤ) {e : ℤ} (he : lastPlace q ≤ e) (h : m * 2 ^ e ≤ q) :
    m * 2 ^ e ≤ roundNearest q := by
  obtain ⟨n, hn⟩ := multiple_div he m
  rw [hn] at h ⊢
  refine mul_le_mul_of_nonneg_right ?_ (two_zpow_pos _).le
  have hround := roundEven_mono ((le_div_iff₀ (two_zpow_pos _)).mpr h)
  rw [roundEven_intCast] at hround
  exact_mod_cast hround

/-- A multiple of the last place is not rounded. -/
theorem roundNearest_of_multiple {q : ℚ} (m e : ℤ) (hq : q = m * 2 ^ e) (he : lastPlace q ≤ e) :
    roundNearest q = q := by
  refine le_antisymm ?_ ?_
  · conv_rhs => rw [hq]
    exact roundNearest_le m he hq.le
  · conv_lhs => rw [hq]
    exact le_roundNearest m he hq.ge

@[simp]
theorem roundNearest_zero : roundNearest 0 = 0 := by
  refine roundNearest_of_multiple 0 0 (by simp) ?_
  rw [lastPlace, Int.log_zero_right]
  omega

theorem lastPlace_mono {p q : ℚ} (hp : 0 < p) (h : p ≤ q) : lastPlace p ≤ lastPlace q :=
  max_le_max_left _ (Int.sub_le_sub_right (Int.log_mono_right hp h) 52)

theorem roundNearest_nonneg {q : ℚ} (h : 0 ≤ q) : 0 ≤ roundNearest q := by
  have hle := le_roundNearest 0 (le_refl (lastPlace q)) (by simpa using h)
  simpa using hle

/-- A power of two is not crossed. -/
theorem roundNearest_le_two_zpow {q : ℚ} {l : ℤ} (hl : lastPlace q ≤ l) (h : q ≤ 2 ^ l) :
    roundNearest q ≤ 2 ^ l := by
  have hle := roundNearest_le 1 hl (by simpa using h)
  simpa using hle

theorem two_zpow_le_roundNearest {q : ℚ} {l : ℤ} (hl : lastPlace q ≤ l) (h : 2 ^ l ≤ q) :
    2 ^ l ≤ roundNearest q := by
  have hle := le_roundNearest 1 hl (by simpa using h)
  simpa using hle

theorem roundNearest_mono {p q : ℚ} (hp : 0 ≤ p) (h : p ≤ q) : roundNearest p ≤ roundNearest q := by
  rcases hp.eq_or_lt with rfl | hp
  · rw [roundNearest_zero]
    exact roundNearest_nonneg h
  rcases (lastPlace_mono hp h).eq_or_lt with heq | hlt
  · rw [roundNearest, roundNearest, heq]
    refine mul_le_mul_of_nonneg_right ?_ (two_zpow_pos _).le
    exact_mod_cast roundEven_mono (div_le_div_of_nonneg_right h (two_zpow_pos _).le)
  · -- the greater one has a greater power of two below it
    have hq : 0 < q := hp.trans_le h
    have hlog : Int.log 2 p < Int.log 2 q := by
      unfold lastPlace at hlt
      omega
    have hplace : lastPlace q ≤ Int.log 2 q := by
      unfold lastPlace at hlt ⊢
      omega
    have hbelow : p ≤ 2 ^ Int.log 2 q := ((Int.lt_zpow_iff_log_lt (by norm_num) hp).mpr hlog).le
    have habove : (2 : ℚ) ^ Int.log 2 q ≤ q := Int.zpow_log_le_self (by norm_num) hq
    exact (roundNearest_le_two_zpow (hlt.le.trans hplace) hbelow).trans
      (two_zpow_le_roundNearest hplace habove)

theorem lastPlace_le_of_lt {q : ℚ} (hq : 0 < q) {l : ℤ} (h : q < 2 ^ (l + 1)) :
    lastPlace q ≤ max (-1074) (l - 52) := by
  have hlog : Int.log 2 q < l + 1 := (Int.lt_zpow_iff_log_lt (by norm_num) hq).mp h
  exact max_le_max_left _ (by omega)

/-- What has been rounded is not rounded again. -/
theorem roundNearest_idem {q : ℚ} (h : 0 ≤ q) :
    roundNearest (roundNearest q) = roundNearest q := by
  rcases h.eq_or_lt with rfl | hq
  · rw [roundNearest_zero, roundNearest_zero]
  rcases (roundNearest_nonneg hq.le).eq_or_lt with hzero | hv
  · rw [← hzero, roundNearest_zero]
  have hlt : q < 2 ^ (Int.log 2 q + 1) := Int.lt_zpow_succ_log_self (by norm_num) q
  have hplace : lastPlace q = max (-1074) (Int.log 2 q - 52) := rfl
  rcases lt_or_ge (Int.log 2 q + 1) (lastPlace q) with hsmall | hlarge
  · -- below the last place there is only zero and the place itself
    have hv' : roundNearest q ≤ 2 ^ lastPlace q :=
      roundNearest_le_two_zpow le_rfl (hlt.le.trans (zpow_le_zpow_right₀ (by norm_num) hsmall.le))
    have hnext : (2 : ℚ) ^ lastPlace q < 2 ^ (lastPlace q + 1) :=
      zpow_lt_zpow_right₀ (by norm_num) (by omega)
    refine roundNearest_of_multiple _ _ rfl ((lastPlace_le_of_lt hv (hv'.trans_lt hnext)).trans ?_)
    omega
  · have hv' : roundNearest q ≤ 2 ^ (Int.log 2 q + 1) := roundNearest_le_two_zpow hlarge hlt.le
    rcases hv'.eq_or_lt with heq | hlt'
    · rw [heq]
      refine roundNearest_of_multiple 1 (Int.log 2 q + 1) (by simp) ?_
      refine (lastPlace_le_of_lt (two_zpow_pos _)
        (zpow_lt_zpow_right₀ (by norm_num) (lt_add_one _))).trans ?_
      omega
    · exact roundNearest_of_multiple _ _ rfl (lastPlace_le_of_lt hv hlt')

/-- A power of two scales what has been rounded. -/
theorem roundNearest_mul_two_pow {q : ℚ} (h : 0 ≤ q) (hq : roundNearest q = q) (k : ℕ) :
    roundNearest (q * 2 ^ k) = q * 2 ^ k := by
  rcases h.eq_or_lt with rfl | hpos
  · rw [zero_mul, roundNearest_zero]
  have hlt : q * 2 ^ k < 2 ^ (Int.log 2 q + k + 1) := by
    rw [add_right_comm, zpow_add₀ (by norm_num), zpow_natCast]
    exact mul_lt_mul_of_pos_right (Int.lt_zpow_succ_log_self (by norm_num) q) (by positivity)
  refine roundNearest_of_multiple (roundEven (q / 2 ^ lastPlace q)) (lastPlace q + k) ?_ ?_
  · conv_lhs => rw [← hq, roundNearest]
    rw [zpow_add₀ (by norm_num), zpow_natCast, mul_assoc]
  · refine (lastPlace_le_of_lt (by positivity) hlt).trans ?_
    unfold lastPlace
    omega

theorem roundNearest_natCast_mul {m : ℕ} (k : ℕ) (h : m < 2 ^ 53) :
    roundNearest (m * 2 ^ k) = m * 2 ^ k := by
  refine roundNearest_mul_two_pow (Nat.cast_nonneg m) ?_ k
  rcases Nat.eq_zero_or_pos m with rfl | hm
  · simp
  have hm' : (0 : ℚ) < m := by exact_mod_cast hm
  have hlt : (m : ℚ) < 2 ^ ((52 : ℤ) + 1) := by
    norm_num
    exact_mod_cast h
  refine roundNearest_of_multiple m 0 (by simp) ((lastPlace_le_of_lt hm' hlt).trans ?_)
  omega

/-! ## Doubles -/

/-- What is rounded to this or more is infinite. -/
def overflow : ℚ := 2 ^ 1024

theorem two_pow_lt_overflow {n : ℕ} (h : n < 1024) : 2 ^ n < overflow :=
  pow_lt_pow_right₀ (by norm_num) h

/-- A finite double. -/
structure Double where
  value : ℚ
  nonneg : 0 ≤ value
  rounded : roundNearest value = value
  lt : value < overflow
  deriving DecidableEq

namespace Double

def ofNat (m : ℕ) (h : m < 2 ^ 53) : Double where
  value := m
  nonneg := Nat.cast_nonneg m
  rounded := by simpa using roundNearest_natCast_mul 0 h
  lt := by
    have hm : (m : ℚ) < 2 ^ 53 := by exact_mod_cast h
    exact hm.trans (two_pow_lt_overflow (by norm_num))

def twoPow (n : ℕ) (h : n < 1024) : Double where
  value := 2 ^ n
  nonneg := by positivity
  rounded := by simpa using @roundNearest_natCast_mul 1 n (by norm_num)
  lt := two_pow_lt_overflow h

end Double

/-- A double, or not a number. -/
inductive Binary64 where
  | finite (x : Double)
  | inf
  | nan
  deriving DecidableEq

namespace Binary64

/-- The double that is nearest. -/
def ofRat (q : ℚ) (h : 0 ≤ q) : Binary64 :=
  if hlt : roundNearest q < overflow then
    .finite ⟨roundNearest q, roundNearest_nonneg h, roundNearest_idem h, hlt⟩
  else .inf

def mul : Binary64 → Binary64 → Binary64
  | finite x, finite y => ofRat (x.value * y.value) (mul_nonneg x.nonneg y.nonneg)
  | finite x, inf => if x.value = 0 then nan else inf
  | inf, finite y => if y.value = 0 then nan else inf
  | inf, inf => inf
  | nan, _ => nan
  | _, nan => nan

/-- The strict order; nothing is less or greater than what is not a number. -/
def lt : Binary64 → Binary64 → Bool
  | finite x, finite y => x.value < y.value
  | finite _, inf => true
  | _, _ => false

/-- The exact value, above all rationals for what is not finite. -/
def toExt : Binary64 → WithTop ℚ
  | finite x => x.value
  | inf => ⊤
  | nan => ⊤

theorem ofRat_of_lt {q : ℚ} (h : 0 ≤ q) (hlt : roundNearest q < overflow) :
    ∃ x : Double, ofRat q h = finite x ∧ x.value = roundNearest q :=
  ⟨_, dif_pos hlt, rfl⟩

theorem ofRat_of_ge {q : ℚ} (h : 0 ≤ q) (hge : overflow ≤ roundNearest q) : ofRat q h = inf :=
  dif_neg (not_lt.mpr hge)

theorem inf_mul {y : Double} (h : y.value ≠ 0) : mul inf (finite y) = inf := if_neg h

/-- A product with infinity is not finite. -/
theorem mul_inf_ne (x z : Double) : mul (finite x) inf ≠ finite z := by
  rw [mul]
  split_ifs <;> nofun

/-- A product that no rounding changes is exact, or infinite. -/
theorem mul_of_rounded {x y : Double} (h : roundNearest (x.value * y.value) = x.value * y.value) :
    (∃ z : Double, mul (finite x) (finite y) = finite z ∧ z.value = x.value * y.value) ∨
      mul (finite x) (finite y) = inf ∧ overflow ≤ x.value * y.value := by
  rcases lt_or_ge (x.value * y.value) overflow with hlt | hge
  · obtain ⟨z, hz, hvalue⟩ := ofRat_of_lt (mul_nonneg x.nonneg y.nonneg) (by rw [h]; exact hlt)
    exact .inl ⟨z, hz, hvalue.trans h⟩
  · exact .inr ⟨ofRat_of_ge (mul_nonneg x.nonneg y.nonneg) (by rw [h]; exact hge), hge⟩

end Binary64

end DiaryMemory
