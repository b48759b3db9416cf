import DiaryMemory.Resilience
import Mathlib.Algebra.Order.BigOperators.Group.List

/-!
# What bounded retries do

`Honours` : what `run_with_retries` promises, over a whole run. The operation is called as often as the
policy allows and no more, every call but the last one failed and may be retried, the sleeps are
within the cap, and what leaves is what the last call gave.

A wait can be computed up to a bound : the power of two overflows at the attempt `1025`, and the
milliseconds of the log line from `waitLimit` seconds on. The promise is kept exactly where no
wait reaches it and `sleep` accepts each (`Attempt.Waits`).
-/

namespace DiaryMemory

/-! ## The greatest wait -/

/-- The last place of the doubles around the greatest wait. -/
def place : ℚ := 2 ^ 962

theorem place_pos : 0 < place := by
  unfold place
  positivity

theorem natCast_mul_place {m : ℕ} (h : m < 2 ^ 53) : roundNearest (m * place) = m * place :=
  roundNearest_natCast_mul 962 h

/-- From here on the milliseconds are not finite : half a place below `4611686018427388 * place`, the
first double whose product with `1000` overflows. -/
def waitLimit : ℚ := 9223372036854775 * 2 ^ 961

theorem waitLimit_eq : waitLimit = 9223372036854775 / 2 * place := by
  have hplace : place = 2 ^ 961 * 2 := pow_succ 2 961
  rw [waitLimit, hplace]
  generalize (2 : ℚ) ^ 961 = p
  ring

theorem waitLimit_pos : 0 < waitLimit := by
  rw [waitLimit_eq]
  exact mul_pos (by norm_num) place_pos

theorem overflow_eq : overflow = 4611686018427387904 * place := by
  have hpow : (4611686018427387904 : ℚ) = 2 ^ 62 := by norm_num
  rw [overflow, place, hpow, ← pow_add]

theorem roundNearest_overflow : roundNearest overflow = overflow := by
  have hround := @roundNearest_natCast_mul 1 1024 (by norm_num)
  rwa [Nat.cast_one, one_mul] at hround

/-- The greatest double. -/
theorem roundNearest_greatest :
    roundNearest (4611686018427387392 * place) = 4611686018427387392 * place := by
  have hround := @roundNearest_natCast_mul 9007199254740991 971 (by norm_num)
  have hpow : ((9007199254740991 : ℕ) : ℚ) * 2 ^ 971 = 4611686018427387392 * place := by
    have hplace : (2 : ℚ) ^ 971 = 2 ^ 9 * place := by rw [place, ← pow_add]
    rw [hplace]
    push_cast
    ring
  rwa [hpow] at hround

theorem lastPlace_of_range {x : ℚ} (hlow : 4503599627370496 ≤ x) (hhigh : x < 9007199254740992) :
    lastPlace (x * place) = 962 := by
  have hpos : 0 < x * place := mul_pos (by linarith) place_pos
  have hlow' : ((2 : ℕ) : ℚ) ^ (1014 : ℤ) ≤ x * place := by
    have hpow : ((2 : ℕ) : ℚ) ^ (1014 : ℤ) = 2 ^ 52 * place := by
      rw [place, ← pow_add]
      exact zpow_natCast 2 1014
    rw [hpow]
    exact mul_le_mul_of_nonneg_right (by linarith) place_pos.le
  have hhigh' : x * place < ((2 : ℕ) : ℚ) ^ (1015 : ℤ) := by
    have hpow : ((2 : ℕ) : ℚ) ^ (1015 : ℤ) = 2 ^ 53 * place := by
      rw [place, ← pow_add]
      exact zpow_natCast 2 1015
    rw [hpow]
    exact mul_lt_mul_of_pos_right (by linarith) place_pos
  have h₁ : 1014 ≤ Int.log 2 (x * place) :=
    (Int.zpow_le_iff_le_log (by norm_num) hpos).mp hlow'
  have h₂ : Int.log 2 (x * place) < 1015 :=
    (Int.lt_zpow_iff_log_lt (by norm_num) hpos).mp hhigh'
  unfold lastPlace
  omega

/-- Around the limit, the rounding is that of the multiple of the place. -/
theorem roundNearest_of_range {x : ℚ} (hlow : 4503599627370496 ≤ x)
    (hhigh : x < 9007199254740992) : roundNearest (x * place) = roundEven x * place := by
  have hzpow : (2 : ℚ) ^ (962 : ℤ) = place := zpow_natCast 2 962
  rw [roundNearest, lastPlace_of_range hlow hhigh, hzpow, mul_div_cancel_right₀ _ place_pos.ne']

theorem roundNearest_waitLimit : roundNearest waitLimit = 4611686018427388 * place := by
  have hround : roundEven (9223372036854775 / 2) = 4611686018427388 := by
    have hfloor : ⌊(9223372036854775 / 2 : ℚ)⌋ = 4611686018427387 := by
      rw [Int.floor_eq_iff]
      norm_num
    unfold roundEven
    rw [hfloor]
    norm_num
  rw [waitLimit_eq, roundNearest_of_range (by norm_num) (by norm_num), hround]
  norm_num

/-- Below the limit, the rounding is at most the last double below it. -/
theorem roundNearest_le_of_lt {q : ℚ} (h : 0 ≤ q) (hlt : q < waitLimit) :
    roundNearest q ≤ 4611686018427387 * place := by
  rcases le_or_gt q (4611686018427387 * place) with hle | hgt
  · have hfix : roundNearest (4611686018427387 * place) = 4611686018427387 * place := by
      simpa using @natCast_mul_place 4611686018427387 (by norm_num)
    exact (roundNearest_mono h hle).trans hfix.le
  obtain ⟨x, rfl⟩ : ∃ x, q = x * place :=
    ⟨q / place, (div_mul_cancel₀ q place_pos.ne').symm⟩
  rw [waitLimit_eq] at hlt
  have hlow : 4611686018427387 < x := lt_of_mul_lt_mul_right hgt place_pos.le
  have hhigh : x < 9223372036854775 / 2 := lt_of_mul_lt_mul_right hlt place_pos.le
  have hfloor : ⌊x⌋ = 4611686018427387 := by
    rw [Int.floor_eq_iff]
    push_cast
    constructor <;> linarith
  have hround : roundEven x = 4611686018427387 := by
    unfold roundEven
    rw [hfloor, if_pos (by push_cast; linarith)]
  rw [roundNearest_of_range (by linarith) (by linarith), hround]
  norm_num

theorem roundNearest_lt_waitLimit {q : ℚ} (h : 0 ≤ q) :
    roundNearest q < waitLimit ↔ q < waitLimit := by
  have hpos := place_pos
  constructor
  · intro hlt
    by_contra hge
    have hmono := roundNearest_mono waitLimit_pos.le (not_lt.mp hge)
    rw [roundNearest_waitLimit] at hmono
    rw [waitLimit_eq] at hlt
    linarith
  · intro hlt
    have hle := roundNearest_le_of_lt h hlt
    rw [waitLimit_eq]
    linarith

/-- The milliseconds of a double overflow from the limit on. -/
theorem milliseconds_lt_overflow (x : Double) :
    roundNearest (x.value * 1000) < overflow ↔ x.value < waitLimit := by
  have hpos := place_pos
  constructor
  · intro hlt
    by_contra hge
    have hx := roundNearest_mono waitLimit_pos.le (not_lt.mp hge)
    rw [x.rounded, roundNearest_waitLimit] at hx
    have hover : overflow ≤ x.value * 1000 := by
      rw [overflow_eq]
      linarith
    have hmono := roundNearest_mono (by rw [overflow_eq]; positivity) hover
    rw [roundNearest_overflow] at hmono
    linarith
  · intro hlt
    have hx := roundNearest_le_of_lt x.nonneg hlt
    rw [x.rounded] at hx
    have hgreatest : x.value * 1000 ≤ 4611686018427387392 * place := by linarith
    have hmono := roundNearest_mono (mul_nonneg x.nonneg (by norm_num)) hgreatest
    rw [roundNearest_greatest] at hmono
    rw [overflow_eq]
    linarith

/-! ## One wait -/

section Wait

variable {E T : Type} {policy : RetryPolicy}

theorem ok_of_retry_bind {α β : Type} {x : Except (RetryExn E) α} {f : α → Except (RetryExn E) β}
    {b : β} (h : x >>= f = .ok b) : ∃ a, x = .ok a ∧ f a = .ok b := by
  cases x with
  | error e => cases h
  | ok a => exact ⟨a, rfl, h⟩

/-- A wait below the limit. -/
def Binary64.Short (d : Binary64) : Prop := ∃ x, d = .finite x ∧ x.value < waitLimit

/-- The milliseconds of a wait are a number exactly below the limit. -/
theorem pyInt_milliseconds (d : Binary64) :
    (∃ ms, @pyInt E (d.mul (.finite (.ofNat 1000 (by decide)))) = .ok ms) ↔ d.Short := by
  cases d with
  | finite x =>
    have hthousand : x.value * (Double.ofNat 1000 (by decide)).value = x.value * 1000 :=
      congrArg (x.value * ·) Nat.cast_ofNat
    rcases lt_or_ge (roundNearest (x.value * 1000)) overflow with hlt | hge
    · obtain ⟨y, hy, -⟩ := Binary64.ofRat_of_lt
        (mul_nonneg x.nonneg (Double.ofNat 1000 (by decide)).nonneg) (hthousand ▸ hlt)
      exact ⟨fun _ => ⟨x, rfl, (milliseconds_lt_overflow x).mp hlt⟩,
        fun _ => ⟨_, by rw [Binary64.mul, hy]; rfl⟩⟩
    · have hinf := Binary64.ofRat_of_ge
        (mul_nonneg x.nonneg (Double.ofNat 1000 (by decide)).nonneg) (hthousand ▸ hge)
      constructor
      · rintro ⟨ms, hms⟩
        rw [Binary64.mul, hinf] at hms
        cases hms
      · rintro ⟨y, hy, hlt⟩
        cases hy
        exact absurd ((milliseconds_lt_overflow x).mpr hlt) (not_lt.mpr hge)
  | inf =>
    have hthousand : (Double.ofNat 1000 (by decide)).value ≠ 0 := Nat.cast_ne_zero.mpr (by decide)
    rw [Binary64.inf_mul hthousand]
    constructor
    · rintro ⟨ms, hms⟩
      cases hms
    · rintro ⟨x, hx, -⟩
      cases hx
  | nan =>
    constructor
    · rintro ⟨ms, hms⟩
      cases hms
    · rintro ⟨x, hx, -⟩
      cases hx

/-- The lesser of two numbers. -/
theorem toExt_pyMin {a b : Binary64} (ha : a ≠ .nan) (hb : b ≠ .nan) :
    pyMin a b ≠ .nan ∧ (pyMin a b).toExt = min a.toExt b.toExt := by
  cases a with
  | nan => exact absurd rfl ha
  | inf =>
    cases b with
    | nan => exact absurd rfl hb
    | inf => exact ⟨nofun, (min_self _).symm⟩
    | finite y => exact ⟨nofun, (min_eq_right le_top).symm⟩
  | finite x =>
    cases b with
    | nan => exact absurd rfl hb
    | inf => exact ⟨nofun, (min_eq_left le_top).symm⟩
    | finite y =>
      by_cases h : y.value < x.value
      · have hmin : pyMin (.finite x) (.finite y) = .finite y := if_pos (decide_eq_true h)
        rw [hmin]
        exact ⟨nofun, (min_eq_right (WithTop.coe_le_coe.mpr h.le)).symm⟩
      · have hmin : pyMin (.finite x) (.finite y) = .finite x :=
          if_neg fun hlt => h (of_decide_eq_true hlt)
        rw [hmin]
        exact ⟨nofun, (min_eq_left (WithTop.coe_le_coe.mpr (not_lt.mp h))).symm⟩

/-- The capped exponential term after the attempt, exactly. -/
def RetryPolicy.capped (policy : RetryPolicy) (attempt : ℕ) : WithTop ℚ :=
  min (2 ^ (attempt - 1) • policy.backoffBaseSeconds.toExt) policy.backoffCapSeconds.toExt

/-- The seconds to wait after an attempt, below the limit : a delay of the server, clamped, or else
the jitter's share of the capped exponential, rounded; its power of two is finite up to the attempt
`1024`. -/
def Attempt.Delay (a : Attempt E T) (policy : RetryPolicy) (attempt : ℕ) (seconds : ℚ) : Prop :=
  match a.serverDelay with
  | some delay => min delay.toExt policy.backoffCapSeconds.toExt = seconds ∧ seconds < waitLimit
  | none => attempt ≤ 1024 ∧ ∃ capped : ℚ, policy.capped attempt = capped ∧ capped < overflow ∧
      a.draw.value * capped < waitLimit ∧ seconds = roundNearest (a.draw.value * capped)

/-- There are seconds to wait after an attempt, and `sleep` accepts them. -/
def Attempt.Waits (a : Attempt E T) (policy : RetryPolicy) (attempt : ℕ) : Prop :=
  ∃ x : Double, a.Delay policy attempt x.value ∧ a.sleep (.finite x) = none

theorem Double.eq_of_value {x y : Double} (h : x.value = y.value) : x = y := by
  cases x
  cases y
  cases h
  rfl

theorem RetryPolicy.cap_ne_nan (policy : RetryPolicy) : policy.backoffCapSeconds ≠ .nan := by
  intro h
  have hpos := policy.cap_pos
  rw [h] at hpos
  cases hpos

theorem RetryPolicy.base_ne_nan (policy : RetryPolicy) : policy.backoffBaseSeconds ≠ .nan := by
  intro h
  have hpos := policy.base_pos
  rw [h] at hpos
  cases hpos

/-- The exponential term, exactly, or infinite. -/
theorem exponential_spec (policy : RetryPolicy) {n : ℕ} (h : n < 1024) :
    (∃ e, policy.backoffBaseSeconds.mul (.finite (.twoPow n h)) = .finite e ∧
      2 ^ n • policy.backoffBaseSeconds.toExt = (e.value : WithTop ℚ)) ∨
    (policy.backoffBaseSeconds.mul (.finite (.twoPow n h)) = .inf ∧
      (overflow : WithTop ℚ) ≤ 2 ^ n • policy.backoffBaseSeconds.toExt) := by
  cases hbase : policy.backoffBaseSeconds with
  | nan => exact absurd hbase policy.base_ne_nan
  | inf =>
    refine .inr ⟨Binary64.inf_mul (pow_ne_zero n (by norm_num : (2 : ℚ) ≠ 0)), ?_⟩
    have htop : 2 ^ n • (⊤ : WithTop ℚ) = ⊤ := by
      rw [← Nat.succ_pred_eq_of_pos (Nat.two_pow_pos n), succ_nsmul, add_top]
    exact htop ▸ le_top
  | finite b =>
    have hexact : roundNearest (b.value * (Double.twoPow n h).value) =
        b.value * (Double.twoPow n h).value := roundNearest_mul_two_pow b.nonneg b.rounded n
    have hvalue : 2 ^ n • (Binary64.finite b).toExt =
        ((b.value * (Double.twoPow n h).value : ℚ) : WithTop ℚ) := by
      change 2 ^ n • (b.value : WithTop ℚ) = _
      rw [← WithTop.coe_nsmul, nsmul_eq_mul, mul_comm]
      push_cast
      rfl
    rcases Binary64.mul_of_rounded hexact with ⟨e, he, hevalue⟩ | ⟨hinf, hge⟩
    · exact .inl ⟨e, he, by rw [hvalue, hevalue]⟩
    · exact .inr ⟨hinf, by rw [hvalue]; exact WithTop.coe_le_coe.mpr hge⟩

/-- The capped term is the lesser of the two, exactly, unless that is infinite. -/
theorem capped_spec (policy : RetryPolicy) {n : ℕ} (h : n < 1024) :
    (∃ c, pyMin (policy.backoffBaseSeconds.mul (.finite (.twoPow n h)))
        policy.backoffCapSeconds = .finite c ∧ policy.capped (n + 1) = c.value) ∨
    (pyMin (policy.backoffBaseSeconds.mul (.finite (.twoPow n h)))
        policy.backoffCapSeconds = .inf ∧ (overflow : WithTop ℚ) ≤ policy.capped (n + 1)) := by
  rw [RetryPolicy.capped, Nat.add_sub_cancel]
  have hcap := policy.cap_ne_nan
  rcases exponential_spec policy h with ⟨e, he, hvalue⟩ | ⟨hinf, hge⟩
  · obtain ⟨hnan, hmin⟩ := @toExt_pyMin (.finite e) _ nofun hcap
    rw [he, hvalue]
    left
    cases hfound : pyMin (.finite e) policy.backoffCapSeconds with
    | finite c => exact ⟨c, rfl, by rw [hfound] at hmin; exact hmin.symm⟩
    | nan => exact absurd hfound hnan
    | inf =>
      rw [hfound] at hmin
      have htop : (⊤ : WithTop ℚ) ≤ e.value := hmin.le.trans (min_le_left _ _)
      exact absurd htop (WithTop.coe_lt_top e.value).not_ge
  · rw [hinf]
    cases hbound : policy.backoffCapSeconds with
    | nan => exact absurd hbound hcap
    | inf => exact .inr ⟨rfl, le_min hge le_top⟩
    | finite c =>
      refine .inl ⟨c, rfl, min_eq_right (le_trans ?_ hge)⟩
      exact WithTop.coe_le_coe.mpr c.lt.le

theorem powTwo_of_lt {n : ℕ} (h : n < 1024) :
    @powTwo E n = .ok (.finite (.twoPow n h)) := dif_pos h

/-- The jitter's share of the capped term. -/
theorem draw_mul {draw c : Double} (hdraw : draw.value < 1) :
    ∃ x : Double, (Binary64.finite draw).mul (.finite c) = .finite x ∧ x.value ≤ c.value ∧
      x.value = roundNearest (draw.value * c.value) := by
  have hnonneg : 0 ≤ draw.value * c.value := mul_nonneg draw.nonneg c.nonneg
  have hle : roundNearest (draw.value * c.value) ≤ c.value := by
    have hmono := roundNearest_mono hnonneg (mul_le_of_le_one_left c.nonneg hdraw.le)
    rwa [c.rounded] at hmono
  obtain ⟨x, hx, hvalue⟩ := Binary64.ofRat_of_lt hnonneg (hle.trans_lt c.lt)
  exact ⟨x, hx, hvalue ▸ hle, hvalue⟩

theorem computeBackoff_of_lt (policy : RetryPolicy) (draw : Double) {n : ℕ} (h : n < 1024) :
    @computeBackoff E (n + 1) policy draw = .ok ((Binary64.finite draw).mul
      (pyMin (policy.backoffBaseSeconds.mul (.finite (.twoPow n h)))
        policy.backoffCapSeconds)) := by
  rw [computeBackoff, Nat.add_sub_cancel, powTwo_of_lt h]
  rfl

/-- The computed wait, where there is one, is within the cap. -/
theorem computeBackoff_le {draw : Double} (hdraw : draw.value < 1) {n : ℕ} {d : Binary64}
    (h : @computeBackoff E (n + 1) policy draw = .ok d) (hshort : d.Short) :
    d.toExt ≤ policy.backoffCapSeconds.toExt := by
  obtain ⟨y, rfl, -⟩ := hshort
  by_cases hn : n < 1024
  · rw [computeBackoff_of_lt policy draw hn] at h
    rcases capped_spec policy hn with ⟨c, hc, hvalue⟩ | ⟨hinf, -⟩
    · obtain ⟨x, hx, hle, -⟩ := @draw_mul draw c hdraw
      rw [hc, hx] at h
      cases h
      exact (WithTop.coe_le_coe.mpr hle).trans (hvalue ▸ min_le_right _ _)
    · rw [hinf] at h
      exact absurd (Except.ok.inj h) (Binary64.mul_inf_ne draw y)
  · rw [computeBackoff, Nat.add_sub_cancel, powTwo, dif_neg hn] at h
    cases h

/-- The computed wait is below the limit exactly where its factors are. -/
theorem computeBackoff_short (policy : RetryPolicy) {draw : Double} (hdraw : draw.value < 1)
    (n : ℕ) (x : Double) :
    @computeBackoff E (n + 1) policy draw = .ok (.finite x) ∧ x.value < waitLimit ↔
      n < 1024 ∧ ∃ capped : ℚ, policy.capped (n + 1) = capped ∧ capped < overflow ∧
        draw.value * capped < waitLimit ∧ x.value = roundNearest (draw.value * capped) := by
  by_cases hn : n < 1024
  · rw [computeBackoff_of_lt policy draw hn]
    rcases capped_spec policy hn with ⟨c, hc, hvalue⟩ | ⟨hinf, hge⟩
    · obtain ⟨y, hy, -, hround⟩ := @draw_mul draw c hdraw
      have hlimit := roundNearest_lt_waitLimit (mul_nonneg draw.nonneg c.nonneg)
      rw [hc, hy]
      constructor
      · rintro ⟨hd, hlt⟩
        cases hd
        exact ⟨hn, c.value, hvalue, c.lt, hlimit.mp (hround ▸ hlt), hround⟩
      · rintro ⟨-, capped, hcapped, -, hlt, hx⟩
        obtain rfl : c.value = capped := WithTop.coe_injective (hvalue.symm.trans hcapped)
        obtain rfl : y = x := Double.eq_of_value (hround.trans hx.symm)
        exact ⟨rfl, hround ▸ hlimit.mpr hlt⟩
    · rw [hinf]
      constructor
      · rintro ⟨hd, -⟩
        exact absurd (Except.ok.inj hd) (Binary64.mul_inf_ne draw x)
      · rintro ⟨-, capped, hcapped, hlt, -⟩
        rw [hcapped] at hge
        exact absurd (WithTop.coe_le_coe.mp hge) (not_le.mpr hlt)
  · rw [computeBackoff, Nat.add_sub_cancel, powTwo, dif_neg hn]
    constructor
    · rintro ⟨hd, -⟩
      cases hd
    · rintro ⟨hlt, -⟩
      exact absurd hlt hn

theorem waitAfter_eq_ok {a : Attempt E T} {attempt : ℕ} {d : Binary64} :
    waitAfter a attempt policy = .ok d ↔
      (∃ source, resolveDelay a attempt policy = .ok (d, source)) ∧ d.Short ∧ a.sleep d = none := by
  constructor
  · intro h
    obtain ⟨⟨delay, source⟩, hdelay, h⟩ := ok_of_retry_bind h
    obtain ⟨ms, hms, h⟩ := ok_of_retry_bind h
    cases hsleep : a.sleep delay with
    | some exc =>
      rw [hsleep] at h
      cases h
    | none =>
      rw [hsleep] at h
      cases h
      exact ⟨⟨source, hdelay⟩, (pyInt_milliseconds d).mp ⟨ms, hms⟩, hsleep⟩
  · rintro ⟨⟨source, hdelay⟩, hshort, hsleep⟩
    obtain ⟨ms, hms⟩ := (@pyInt_milliseconds E d).mpr hshort
    rw [waitAfter, hdelay]
    dsimp only [bind, Except.bind]
    rw [hms, hsleep]
    rfl

/-- The delay that is resolved, where it is below the limit. -/
theorem resolveDelay_short (a : Attempt E T) (policy : RetryPolicy) {attempt : ℕ} (h : 1 ≤ attempt)
    (x : Double) :
    (∃ source, resolveDelay a attempt policy = .ok (.finite x, source)) ∧ x.value < waitLimit ↔
      a.Delay policy attempt x.value := by
  obtain ⟨n, rfl⟩ : ∃ n, attempt = n + 1 := ⟨attempt - 1, by omega⟩
  cases hserver : a.serverDelay with
  | some delay =>
    have hdelay : delay ≠ .nan := fun h => a.delay_nonneg (hserver.trans (congrArg some h))
    obtain ⟨hnan, hmin⟩ := toExt_pyMin hdelay policy.cap_ne_nan
    rw [Attempt.Delay, hserver, resolveDelay, hserver]
    dsimp only
    rw [← hmin]
    refine and_congr_left fun _ => ⟨?_, fun hx => ⟨"retry_after", ?_⟩⟩
    · rintro ⟨source, hd⟩
      exact congrArg (fun y => Binary64.toExt y.1) (Except.ok.inj hd)
    · cases hfound : pyMin delay policy.backoffCapSeconds with
      | nan => exact absurd hfound hnan
      | inf =>
        rw [hfound] at hx
        exact absurd hx.symm (WithTop.coe_ne_top)
      | finite y =>
        rw [hfound] at hx
        obtain rfl : y = x := Double.eq_of_value (WithTop.coe_injective hx)
        rfl
  | none =>
    rw [Attempt.Delay, hserver, Nat.succ_le_iff, ← computeBackoff_short (E := E) policy a.draw_lt n x,
      resolveDelay, hserver]
    refine and_congr_left fun _ => ⟨?_, fun hd => ⟨"computed", ?_⟩⟩
    · rintro ⟨source, hd⟩
      obtain ⟨delay, hdelay, hd⟩ := ok_of_retry_bind hd
      cases hd
      exact hdelay
    · dsimp only
      rw [hd]
      rfl

/-- There is a wait exactly below the limit, where `sleep` accepts it. -/
theorem waitAfter_iff (a : Attempt E T) (policy : RetryPolicy) {attempt : ℕ} (h : 1 ≤ attempt) :
    (∃ d, waitAfter a attempt policy = .ok d) ↔ a.Waits policy attempt := by
  simp only [waitAfter_eq_ok]
  constructor
  · rintro ⟨d, hd, ⟨x, rfl, hlt⟩, hsleep⟩
    exact ⟨x, (resolveDelay_short a policy h x).mp ⟨hd, hlt⟩, hsleep⟩
  · rintro ⟨x, hx, hsleep⟩
    obtain ⟨hd, hlt⟩ := (resolveDelay_short a policy h x).mpr hx
    exact ⟨.finite x, hd, ⟨x, rfl, hlt⟩, hsleep⟩

/-- A wait is within the cap. -/
theorem waitAfter_le {a : Attempt E T} {attempt : ℕ} (h : 1 ≤ attempt) {d : Binary64}
    (hd : waitAfter a attempt policy = .ok d) :
    d ≠ .nan ∧ d.toExt ≤ policy.backoffCapSeconds.toExt := by
  obtain ⟨n, rfl⟩ : ∃ n, attempt = n + 1 := ⟨attempt - 1, by omega⟩
  obtain ⟨⟨source, hd⟩, hshort, -⟩ := waitAfter_eq_ok.mp hd
  refine ⟨fun hnan => ?_, ?_⟩
  · obtain ⟨x, hx, -⟩ := hshort
    cases hnan.symm.trans hx
  rw [resolveDelay] at hd
  split at hd
  · next delay hserver =>
    cases hd
    have hdelay : delay ≠ .nan := fun h => a.delay_nonneg (hserver.trans (congrArg some h))
    rw [(toExt_pyMin hdelay policy.cap_ne_nan).2]
    exact min_le_right _ _
  · obtain ⟨delay, hdelay, hd⟩ := ok_of_retry_bind hd
    cases hd
    exact computeBackoff_le a.draw_lt hdelay hshort

end Wait

/-! ## A run -/

section Run

variable {E T : Type} {policy : RetryPolicy} {script : ℕ → Attempt E T}

/-- The operation failed, and the failure may be retried. -/
def Attempt.Retried (a : Attempt E T) (exc : E) : Prop :=
  a.outcome = .error exc ∧ a.verdict ≠ .nonRetryableFailure

/-- Calls from an attempt on, one more than the sleeps between them. -/
def callsFrom (attempt : ℕ) : List Binary64 → List RetryEvent
  | [] => [.called attempt]
  | delay :: delays => .called attempt :: .slept delay :: callsFrom (attempt + 1) delays

/-- What leaves is what the last call gave. -/
def Leaves (a : Attempt E T) (out : Except (RetryExn E) T) : Prop :=
  (∃ result, a.outcome = .ok result ∧ out = .ok result) ∨
  ∃ exc, a.outcome = .error exc ∧ out = .error (.operation exc)

/-- The promise of `run_with_retries`, from an attempt on : one sleep between two calls, every
call but the last one failed and may be retried. -/
structure HonoursFrom (policy : RetryPolicy) (script : ℕ → Attempt E T) (attempt : ℕ)
    (run : Except (RetryExn E) T × List RetryEvent) (delays : List Binary64) : Prop where
  events : run.2 = callsFrom attempt delays
  calls_le : attempt + delays.length ≤ policy.maxAttempts
  retried : ∀ k, attempt ≤ k → k < attempt + delays.length → ∃ exc, (script k).Retried exc
  within : ∀ delay ∈ delays, delay ≠ .nan ∧ delay.toExt ≤ policy.backoffCapSeconds.toExt
  leaves : Leaves (script (attempt + delays.length)) run.1

/-- The promise of `run_with_retries` : that from the first attempt on, with the bound of all
the sleeps. -/
structure Honours (policy : RetryPolicy) (script : ℕ → Attempt E T)
    (run : Except (RetryExn E) T × List RetryEvent) (delays : List Binary64) : Prop
    extends HonoursFrom policy script 1 run delays where
  total : (delays.map Binary64.toExt).sum ≤
    (policy.maxAttempts - 1) • policy.backoffCapSeconds.toExt

/-! ### The rounds of the loop -/

section Rounds

variable {n : ℕ} {rest : List ℕ} {last : Option E} {exc : E}

theorem attemptsFrom_of_ok {result : T} (h : (script n).outcome = .ok result) :
    attemptsFrom policy script (n :: rest) last = (.ok result, [.called n]) := by
  rw [attemptsFrom, h]

theorem attemptsFrom_of_final (h : (script n).outcome = .error exc)
    (hfinal : (script n).verdict = .nonRetryableFailure) :
    attemptsFrom policy script (n :: rest) last = (.error (.operation exc), [.called n]) := by
  rw [attemptsFrom, h]
  exact if_pos hfinal

theorem attemptsFrom_of_exhausted (h : (script n).Retried exc) (hn : n = policy.maxAttempts) :
    attemptsFrom policy script [n] last = (.error (.operation exc), [.called n]) := by
  rw [attemptsFrom, h.1]
  dsimp only
  rw [if_neg h.2, if_pos hn]
  rfl

theorem attemptsFrom_of_wait (h : (script n).Retried exc) (hn : n ≠ policy.maxAttempts)
    {delay : Binary64} (hdelay : waitAfter (script n) n policy = .ok delay) :
    attemptsFrom policy script (n :: rest) last =
      ((attemptsFrom policy script rest (some exc)).1,
        .called n :: .slept delay :: (attemptsFrom policy script rest (some exc)).2) := by
  rw [attemptsFrom, h.1]
  dsimp only
  rw [if_neg h.2, if_neg hn, hdelay]

theorem attemptsFrom_of_raise (h : (script n).Retried exc) (hn : n ≠ policy.maxAttempts)
    {e : RetryExn E} (he : waitAfter (script n) n policy = .error e) :
    attemptsFrom policy script (n :: rest) last = (.error e, [.called n]) := by
  rw [attemptsFrom, h.1]
  dsimp only
  rw [if_neg h.2, if_neg hn, he]

end Rounds

/-- A computation that raises no exception of the operation. -/
theorem own_bind {α β : Type} {x : Except (RetryExn E) α} {f : α → Except (RetryExn E) β}
    (hx : ∀ exc, x ≠ .error (.operation exc)) (hf : ∀ a exc, f a ≠ .error (.operation exc)) (exc : E) :
    x >>= f ≠ .error (.operation exc) := by
  cases x with
  | error e => exact fun h => hx exc (congrArg Except.error (Except.error.inj h))
  | ok a => exact hf a exc

theorem pure_own {α : Type} (a : α) (exc : E) :
    (pure a : Except (RetryExn E) α) ≠ .error (.operation exc) := fun h => by cases h

theorem powTwo_own (n : ℕ) (exc : E) : powTwo n ≠ .error (.operation exc) := by
  unfold powTwo
  split <;> nofun

theorem pyInt_own (d : Binary64) (exc : E) : pyInt d ≠ .error (.operation exc) := by
  cases d <;> nofun

/-- What a wait raises is not the exception of the operation. -/
theorem waitAfter_own (a : Attempt E T) (attempt : ℕ) (policy : RetryPolicy) (exc : E) :
    waitAfter a attempt policy ≠ .error (.operation exc) := by
  refine own_bind (fun exc => ?_)
    (fun delay => own_bind (pyInt_own _) fun _ exc => ?_) exc
  rw [resolveDelay]
  split
  · exact pure_own _ exc
  · exact own_bind (own_bind (powTwo_own _) fun _ => pure_own _) (fun _ => pure_own _) exc
  · cases a.sleep delay.1 with
    | none => exact pure_own _ exc
    | some refused => exact nofun

/-- A run that ends at once. -/
theorem honoursFrom_nil {n : ℕ} {out : Except (RetryExn E) T} (hn : n ≤ policy.maxAttempts)
    (h : Leaves (script n) out) : HonoursFrom policy script n (out, [.called n]) [] :=
  ⟨rfl, hn, fun k hk hlt => absurd hlt (not_lt.mpr hk), by simp, h⟩

/-- A run that sleeps first. -/
theorem HonoursFrom.cons {n : ℕ} {exc : E} {delay : Binary64} {delays : List Binary64}
    {run : Except (RetryExn E) T × List RetryEvent} (hn : (script n).Retried exc)
    (hdelay : delay ≠ .nan ∧ delay.toExt ≤ policy.backoffCapSeconds.toExt)
    (h : HonoursFrom policy script (n + 1) run delays) :
    HonoursFrom policy script n (run.1, .called n :: .slept delay :: run.2) (delay :: delays) := by
  have hlength : n + (delay :: delays).length = n + 1 + delays.length := by
    rw [List.length_cons]
    omega
  refine ⟨by rw [h.events]; rfl, hlength ▸ h.calls_le, fun k hk hlt => ?_,
    List.forall_mem_cons.mpr ⟨hdelay, h.within⟩, hlength ▸ h.leaves⟩
  rcases hk.eq_or_lt with rfl | hk
  · exact ⟨exc, hn⟩
  · exact h.retried k hk (hlength ▸ hlt)

/-- The loop keeps the promise where every wait can be computed. -/
theorem honoursFrom_of_waits : ∀ (left n : ℕ) (last : Option E), 1 ≤ n →
    n + left = policy.maxAttempts →
    (∀ k, n ≤ k → k < policy.maxAttempts →
      (∀ j, n ≤ j → j ≤ k → ∃ exc, (script j).Retried exc) → (script k).Waits policy k) →
    ∃ delays, HonoursFrom policy script n
      (attemptsFrom policy script (List.range' n (left + 1)) last) delays := by
  intro left
  induction left with
  | zero =>
    intro n last hpos hn hwaits
    cases houtcome : (script n).outcome with
    | ok result =>
      rw [List.range'_succ, attemptsFrom_of_ok houtcome]
      exact ⟨[], honoursFrom_nil hn.le (.inl ⟨result, houtcome, rfl⟩)⟩
    | error exc =>
      refine ⟨[], ?_⟩
      rw [List.range'_succ]
      by_cases hfinal : (script n).verdict = .nonRetryableFailure
      · rw [attemptsFrom_of_final houtcome hfinal]
        exact honoursFrom_nil hn.le (.inr ⟨exc, houtcome, rfl⟩)
      · rw [List.range'_zero, attemptsFrom_of_exhausted ⟨houtcome, hfinal⟩ hn]
        exact honoursFrom_nil hn.le (.inr ⟨exc, houtcome, rfl⟩)
  | succ left ih =>
    intro n last hpos hn hwaits
    have hlt : n < policy.maxAttempts := by omega
    rw [List.range'_succ]
    cases houtcome : (script n).outcome with
    | ok result =>
      rw [attemptsFrom_of_ok houtcome]
      exact ⟨[], honoursFrom_nil hlt.le (.inl ⟨result, houtcome, rfl⟩)⟩
    | error exc =>
      by_cases hfinal : (script n).verdict = .nonRetryableFailure
      · rw [attemptsFrom_of_final houtcome hfinal]
        exact ⟨[], honoursFrom_nil hlt.le (.inr ⟨exc, houtcome, rfl⟩)⟩
      have hretried : (script n).Retried exc := ⟨houtcome, hfinal⟩
      have hself : ∀ j, n ≤ j → j ≤ n → ∃ exc, (script j).Retried exc := fun j hj hj' => by
        obtain rfl : j = n := by omega
        exact ⟨exc, hretried⟩
      obtain ⟨delay, hdelay⟩ :=
        (waitAfter_iff (script n) policy hpos).mpr (hwaits n le_rfl hlt hself)
      rw [attemptsFrom_of_wait hretried hlt.ne hdelay]
      obtain ⟨delays, hrest⟩ := ih (n + 1) (some exc) (by omega) (by omega) fun k hk hkmax hall =>
        hwaits k (by omega) hkmax fun j hj hjk => by
          rcases hj.eq_or_lt with rfl | hj
          · exact ⟨exc, hretried⟩
          · exact hall j hj hjk
      exact ⟨delay :: delays, hrest.cons hretried (waitAfter_le hpos hdelay)⟩

/-- A loop that keeps the promise could compute every wait it needed. -/
theorem waits_of_honoursFrom : ∀ (left n : ℕ) (last : Option E) (delays : List Binary64), 1 ≤ n →
    n + left = policy.maxAttempts →
    HonoursFrom policy script n
      (attemptsFrom policy script (List.range' n (left + 1)) last) delays →
    ∀ k, n ≤ k → k < policy.maxAttempts →
      (∀ j, n ≤ j → j ≤ k → ∃ exc, (script j).Retried exc) → (script k).Waits policy k := by
  intro left
  induction left with
  | zero =>
    intro n last delays hpos hn h k hk hkmax hall
    omega
  | succ left ih =>
    intro n last delays hpos hn h k hk hkmax hall
    have hlt : n < policy.maxAttempts := by omega
    obtain ⟨exc, hretried⟩ := hall n le_rfl hk
    rw [List.range'_succ] at h
    cases hwait : waitAfter (script n) n policy with
    | error e =>
      -- the error takes the place of the exception
      rw [attemptsFrom_of_raise hretried hlt.ne hwait] at h
      have hnone : delays = [] := by
        have hevents := h.events
        cases delays with
        | nil => rfl
        | cons delay delays => cases hevents
      subst hnone
      rcases h.leaves with ⟨result, hresult, hout⟩ | ⟨exc', -, hout⟩
      · cases hout
      · exact absurd (hwait.trans (congrArg Except.error (Except.error.inj hout)))
          (waitAfter_own _ _ _ _)
    | ok delay =>
      rcases hk.eq_or_lt with rfl | hk
      · exact (waitAfter_iff _ policy hpos).mp ⟨delay, hwait⟩
      rw [attemptsFrom_of_wait hretried hlt.ne hwait] at h
      obtain ⟨delay', delays, rfl⟩ : ∃ delay' delays', delays = delay' :: delays' := by
        have hevents := h.events
        cases delays with
        | nil => cases hevents
        | cons delay' delays => exact ⟨delay', delays, rfl⟩
      refine ih (n + 1) (some exc) delays (by omega) (by omega) ?_ k hk hkmax
        fun j hj => hall j (by omega)
      have hlength : n + (delay' :: delays).length = n + 1 + delays.length := by
        rw [List.length_cons]
        omega
      refine ⟨?_, hlength ▸ h.calls_le, fun j hj hlt => h.retried j (by omega) (hlength ▸ hlt),
        (List.forall_mem_cons.mp h.within).2, hlength ▸ h.leaves⟩
      have hevents := h.events
      exact (List.cons.inj (List.cons.inj hevents).2).2

theorem cap_nonneg (policy : RetryPolicy) : 0 ≤ policy.backoffCapSeconds.toExt := by
  cases policy.backoffCapSeconds with
  | finite c => exact WithTop.coe_le_coe.mpr c.nonneg
  | inf => exact le_top
  | nan => exact le_top

/-- The sleeps of a run are bounded together. -/
theorem HonoursFrom.honours {run : Except (RetryExn E) T × List RetryEvent}
    {delays : List Binary64} (h : HonoursFrom policy script 1 run delays) :
    Honours policy script run delays := by
  refine ⟨h, ?_⟩
  have hlength : delays.length ≤ policy.maxAttempts - 1 := by
    have := h.calls_le
    omega
  calc (delays.map Binary64.toExt).sum
      ≤ (delays.map Binary64.toExt).length • policy.backoffCapSeconds.toExt :=
        List.sum_le_card_nsmul _ _ (List.forall_mem_map.mpr fun d hd => (h.within d hd).2)
    _ ≤ (policy.maxAttempts - 1) • policy.backoffCapSeconds.toExt := by
        rw [List.length_map]
        exact nsmul_le_nsmul_left (cap_nonneg policy) hlength

end Run

/-- The promise is kept exactly where, as long as every failure may be retried, the wait after
each of them stays below the limit and `sleep` accepts it. -/
theorem retries_honoured {E T : Type} (policy : RetryPolicy) (script : ℕ → Attempt E T) :
    (∃ delays, Honours policy script (runWithRetries policy script) delays) ↔
      ∀ k, 1 ≤ k → k < policy.maxAttempts →
        (∀ j, 1 ≤ j → j ≤ k → ∃ exc, (script j).Retried exc) → (script k).Waits policy k := by
  obtain ⟨left, hleft⟩ : ∃ left, policy.maxAttempts = left + 1 :=
    ⟨policy.maxAttempts - 1, by have := policy.attempts_pos; omega⟩
  have hcount : 1 + left = policy.maxAttempts := by omega
  constructor
  · rintro ⟨delays, h⟩
    have hfrom := h.toHonoursFrom
    rw [runWithRetries, hleft] at hfrom
    exact waits_of_honoursFrom left 1 none delays le_rfl hcount hfrom
  · intro hwaits
    obtain ⟨delays, h⟩ := honoursFrom_of_waits left 1 none le_rfl hcount hwaits
    rw [runWithRetries, hleft]
    exact ⟨delays, h.honours⟩

/-- A failure that may be retried, without a delay of the server. -/
def Attempt.unreachable : Attempt String Unit where
  outcome := .error "APIConnectionError"
  verdict := .retryableFailure
  serverDelay := none
  delay_nonneg := nofun
  draw := .ofNat 0 (by decide)
  draw_lt := by
    change ((0 : ℕ) : ℚ) < 1
    norm_num
  sleep _ := none

/-- One attempt more than the exponential term has room for. -/
def RetryPolicy.persistent : RetryPolicy where
  maxAttempts := 1026
  backoffBaseSeconds := .finite (.ofNat 1 (by decide))
  backoffCapSeconds := .finite (.ofNat 8 (by decide))
  attempts_pos := by decide
  base_pos := by decide +kernel
  cap_pos := by decide +kernel

/-- After `1025` failures the power of two overflows, and no wait follows. -/
theorem retries_overflow : ¬ ∃ delays, Honours RetryPolicy.persistent
    (fun _ => Attempt.unreachable)
    (runWithRetries RetryPolicy.persistent fun _ => Attempt.unreachable) delays := by
  rintro ⟨delays, h⟩
  have hwaits := waits_of_honoursFrom 1025 1 none delays le_rfl rfl h.toHonoursFrom 1025
    (by decide) (by decide) fun j _ _ => ⟨"APIConnectionError", rfl, nofun⟩
  obtain ⟨x, ⟨hattempt, -⟩, -⟩ := hwaits
  exact absurd hattempt (by decide)

end DiaryMemory
