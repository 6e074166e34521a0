import Mathlib.Data.UInt

/-!
# The LoongArch64 one-shot timer

`set_oneshot_timer` of `axhal/src/platform/loongarch64_qemu_virt/time.rs`.  It
reads the tick counter, converts the deadline from nanoseconds to ticks, and
programs `TCFG` with the countdown rounded up to a multiple of 4,
`(init_value + 3) & !3`.  The subtraction and the rounding are plain `u64`
arithmetic, which wraps in a release build; `UInt64` arithmetic wraps the same way.
`NANOS_PER_TICK` comes from the platform configuration, so it is a parameter.

`setOneshotTimer_initVal` describes the countdown for every deadline and every
tick count.  It is always a multiple of 4.  When the deadline lies ahead, it is the
least multiple of 4 at or above the remaining ticks, unless the rounding itself
overflows.  A deadline already passed by `k ≥ 4` ticks wraps to a countdown of at
least `2 ^ 64 - k` ticks.
-/

namespace ThCore.Axhal

/-- `nanos_to_ticks`. -/
def nanosToTicks (nanosPerTick nanos : UInt64) : UInt64 :=
  nanos / nanosPerTick

/-- `ticks_to_nanos`: `u64` multiplication, which wraps in a release build. -/
def ticksToNanos (nanosPerTick ticks : UInt64) : UInt64 :=
  ticks * nanosPerTick

theorem toNat_ticksToNanos (nanosPerTick ticks : UInt64) :
    (ticksToNanos nanosPerTick ticks).toNat = ticks.toNat * nanosPerTick.toNat % 2 ^ 64 :=
  BitVec.toNat_mul _ _

/-- Ticks to nanoseconds and back gives the ticks again exactly when the product
fits a `u64`.  Nanoseconds to ticks and back never wraps: it rounds down to a
whole number of ticks. -/
theorem ticksToNanos_roundTrip {nanosPerTick : UInt64} (positive : 0 < nanosPerTick.toNat)
    (ticks nanos : UInt64) :
    (nanosToTicks nanosPerTick (ticksToNanos nanosPerTick ticks) = ticks ↔
        ticks.toNat * nanosPerTick.toNat < 2 ^ 64) ∧
      (ticksToNanos nanosPerTick (nanosToTicks nanosPerTick nanos)).toNat =
        nanos.toNat / nanosPerTick.toNat * nanosPerTick.toNat := by
  have back (ticks : UInt64) : (nanosToTicks nanosPerTick (ticksToNanos nanosPerTick ticks)).toNat =
      ticks.toNat * nanosPerTick.toNat % 2 ^ 64 / nanosPerTick.toNat := by
    rw [nanosToTicks, UInt64.toNat_div, toNat_ticksToNanos]
  refine ⟨⟨fun same => ?_, fun fits => UInt64.toNat.inj ?_⟩, ?_⟩
  · by_contra overflow
    have wrapped : ticks.toNat * nanosPerTick.toNat % 2 ^ 64 < ticks.toNat * nanosPerTick.toNat :=
      (Nat.mod_lt _ (by decide)).trans_le (Nat.le_of_not_lt overflow)
    have fewer := (Nat.div_lt_iff_lt_mul positive).mpr wrapped
    rw [← back, same] at fewer
    exact Nat.lt_irrefl _ fewer
  · rw [back, Nat.mod_eq_of_lt fits, Nat.mul_div_cancel _ positive]
  · rw [toNat_ticksToNanos, nanosToTicks, UInt64.toNat_div]
    exact Nat.mod_eq_of_lt ((Nat.div_mul_le_self _ _).trans_lt nanos.toNat_lt_size)

/-- At the 100 MHz timer of QEMU `virt` (10 ns a tick), the largest tick count
whose nanoseconds fit a `u64` converts back. -/
theorem ticksToNanos_roundTrip_qemu :
    0 < (10 : UInt64).toNat ∧
      (nanosToTicks 10 (ticksToNanos 10 1844674407370955161) = 1844674407370955161 ↔
          (1844674407370955161 : UInt64).toNat * (10 : UInt64).toNat < 2 ^ 64) ∧
        (ticksToNanos 10 (nanosToTicks 10 12345)).toNat = (12345 : UInt64).toNat / (10 : UInt64).toNat *
          (10 : UInt64).toNat :=
  ⟨by decide, ticksToNanos_roundTrip (by decide) _ _⟩

/-- The fields of `TCFG` that `set_oneshot_timer` writes. -/
structure Tcfg where
  initVal : UInt64
  periodic : Bool
  en : Bool
  deriving DecidableEq, Repr

/-- `set_oneshot_timer(deadline_ns)` with the tick counter at `ticksNow`: the
`TCFG` it programs. -/
def setOneshotTimer (nanosPerTick ticksNow deadlineNs : UInt64) : Tcfg :=
  let ticksDeadline := nanosToTicks nanosPerTick deadlineNs
  let initValue := ticksDeadline - ticksNow
  { initVal := (initValue + 3) &&& ~~~3, periodic := false, en := true }

/-- `& !3` clears the two low bits: it rounds down to a multiple of 4. -/
theorem toNat_and_not_three (y : UInt64) : (y &&& ~~~3).toNat = y.toNat / 4 * 4 := by
  have word : y.toNat < 2 ^ 64 := y.toNat_lt_size
  have mask : (y &&& ~~~3).toNat = y.toNat &&& (2 ^ 62 - 1) <<< 2 := rfl
  rw [mask, show y.toNat / 4 * 4 = y.toNat >>> 2 <<< 2 by
    rw [Nat.shiftLeft_eq, Nat.shiftRight_eq_div_pow]]
  apply Nat.eq_of_testBit_eq
  intro i
  rw [Nat.testBit_and, Nat.testBit_shiftLeft, Nat.testBit_shiftLeft, Nat.testBit_shiftRight,
    Nat.testBit_two_pow_sub_one]
  by_cases high : 2 ≤ i
  · rw [show 2 + (i - 2) = i by omega]
    by_cases inWord : i < 64
    · simp [high, show i - 2 < 62 by omega]
    · have beyond : y.toNat.testBit i = false :=
        Nat.testBit_lt_two_pow (word.trans_le (Nat.pow_le_pow_right (by decide) (by omega)))
      simp [beyond]
  · simp [high]

/-- The countdown as arithmetic on `Nat`: the wrapped difference, plus 3 wrapped,
rounded down to a multiple of 4. -/
theorem initVal_toNat (nanosPerTick ticksNow deadlineNs : UInt64) :
    (setOneshotTimer nanosPerTick ticksNow deadlineNs).initVal.toNat =
      ((2 ^ 64 - ticksNow.toNat + (nanosToTicks nanosPerTick deadlineNs).toNat) % 2 ^ 64 + 3)
        % 2 ^ 64 / 4 * 4 := by
  rw [setOneshotTimer, toNat_and_not_three]
  rfl

/-- For every deadline and tick count: the countdown is a multiple of 4; when the
deadline lies `d` ticks ahead and `d + 3` fits a `u64`, it is the least multiple of
4 at or above `d`; when the deadline has passed by `k ≥ 4` ticks, the subtraction
wraps and the countdown is at least `2 ^ 64 - k` ticks. -/
theorem setOneshotTimer_initVal (nanosPerTick ticksNow deadlineNs : UInt64) :
    (setOneshotTimer nanosPerTick ticksNow deadlineNs).initVal.toNat % 4 = 0 ∧
      (ticksNow.toNat ≤ (nanosToTicks nanosPerTick deadlineNs).toNat →
        (nanosToTicks nanosPerTick deadlineNs).toNat - ticksNow.toNat + 3 < 2 ^ 64 →
        (nanosToTicks nanosPerTick deadlineNs).toNat - ticksNow.toNat ≤
            (setOneshotTimer nanosPerTick ticksNow deadlineNs).initVal.toNat ∧
          (setOneshotTimer nanosPerTick ticksNow deadlineNs).initVal.toNat <
            (nanosToTicks nanosPerTick deadlineNs).toNat - ticksNow.toNat + 4) ∧
      ((nanosToTicks nanosPerTick deadlineNs).toNat + 4 ≤ ticksNow.toNat →
        2 ^ 64 - (ticksNow.toNat - (nanosToTicks nanosPerTick deadlineNs).toNat) ≤
          (setOneshotTimer nanosPerTick ticksNow deadlineNs).initVal.toNat) := by
  have now := ticksNow.toNat_lt_size
  have deadline := (nanosToTicks nanosPerTick deadlineNs).toNat_lt_size
  have exact := initVal_toNat nanosPerTick ticksNow deadlineNs
  simp only [UInt64.size] at now deadline
  refine ⟨by omega, fun ahead fits => ?_, fun passed => ?_⟩ <;> omega

/-- A deadline 100 ticks in the past gets a countdown of at least `2 ^ 64 - 100`
ticks. -/
theorem setOneshotTimer_initVal_passed :
    2 ^ 64 - 100 ≤ (setOneshotTimer 10 100 0).initVal.toNat :=
  (setOneshotTimer_initVal 10 100 0).2.2 (by decide)

end ThCore.Axhal
