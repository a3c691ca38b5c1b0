import FactorSeal.Service.Live

/-! # The clock of a request (protocol/service/time.rs)

A request is measured from its start on two clocks. The wall reading goes on by the larger of the two elapsed times, and
the deadline of a delivery is what is left of it on the monotonic clock. One truncates a sum to whole seconds, the other
subtracts with saturation; they agree to the nanosecond (`expired_iff_deadlineAt_le`).

Durations and points of time are in nanoseconds. A point of the monotonic clock is after the boot; one of the wall clock
may lie before 1970. -/

namespace FactorSeal

open Wire Except

abbrev SystemTime := Int

/-- `Duration::MAX`. -/
def maxDuration : Nat := 2 ^ 64 * 1000000000 - 1

/-- The end of the monotonic clock: 64 signed bits of seconds. -/
def instantEnd : Nat := 2 ^ 63 * 1000000000

/-- `Instant::checked_add`. -/
def Instant.checkedAdd (instant duration : Nat) : Option Instant :=
  if instant + duration < instantEnd then some (instant + duration) else none

/-- `saturating_duration_since`. -/
def Instant.since (later earlier : Nat) : Nat := later - earlier

/-- `duration_since`, nothing if the clock was set back. -/
def SystemTime.since (later earlier : Int) : Nat := (later - earlier).toNat

/-- time.rs:5-12. -/
structure RequestTime where
  wall : UInt64
  monotonic : Instant
  started : Instant
  systemStarted : SystemTime
  wallFraction : Nat
deriving DecidableEq, Repr

namespace RequestTime

variable {deadline : UInt64} {now : Nat} {systemNow : Int}

/-- `new`, with the readings it takes: the fraction is that of the second the request starts in. -/
def new (wall : UInt64) (monotonic started : Instant) (systemStarted : SystemTime) : RequestTime :=
  ⟨wall, monotonic, started, systemStarted, if 0 ≤ systemStarted then systemStarted.toNat % 1000000000 else 0⟩

variable (clock : RequestTime)

/-- What has passed on the clock that went further; one that was set back has not moved. -/
def elapsed (monotonicNow : Instant) (systemNow : SystemTime) : Nat :=
  max (SystemTime.since systemNow clock.systemStarted) (Instant.since monotonicNow clock.started)

/-- time.rs:36-52. -/
def sampleAt (monotonicNow : Instant) (systemNow : SystemTime) : UInt64 × Instant :=
  (saturatingAdd clock.wall
      (UInt64.ofNat (asSecs (min (clock.elapsed monotonicNow systemNow + clock.wallFraction) maxDuration))),
    (Instant.checkedAdd clock.monotonic (Instant.since monotonicNow clock.started)).getD monotonicNow)

/-- What is left until a wall deadline, with saturation at each step. -/
def remaining (wall : UInt64) (now : Instant) (systemNow : SystemTime) : Nat :=
  (wall.toNat - clock.wall.toNat) * 1000000000 - clock.wallFraction - clock.elapsed now systemNow

/-- time.rs:62-71. -/
def deadlineAt (wall : UInt64) (now : Instant) (systemNow : SystemTime) : Instant :=
  (Instant.checkedAdd now (clock.remaining wall now systemNow)).getD now

/-- `check` at a reading of the two clocks. -/
def checkAt (deadline : Option UInt64) (now : Instant) (systemNow : SystemTime) : VaultResult Unit :=
  checkClock (clock.sampleAt now systemNow).1 deadline

variable {clock}

/-! ## Both sides of a deadline -/

theorem toNat_saturatingAdd (a b : UInt64) : (saturatingAdd a b).toNat = min (a.toNat + b.toNat) (2 ^ 64 - 1) := by
  unfold saturatingAdd
  split
  next h =>
    rw [UInt64.toNat_add, Nat.mod_eq_of_lt h]
    omega
  next h =>
    rw [UInt64.toNat_ofNat']
    omega

theorem toNat_sampleAt (now : Nat) (systemNow : Int) : (clock.sampleAt now systemNow).1.toNat =
    min (clock.wall.toNat + min (clock.elapsed now systemNow + clock.wallFraction) maxDuration / 1000000000)
      (2 ^ 64 - 1) := by
  have hsecs : asSecs (min (clock.elapsed now systemNow + clock.wallFraction) maxDuration) < 2 ^ 64 := by
    unfold asSecs maxDuration
    omega
  rw [sampleAt, toNat_saturatingAdd, UInt64.toNat_ofNat_of_lt' hsecs]
  rfl

theorem checkAt_eq_expired : clock.checkAt (some deadline) now systemNow = .error .expired ↔
      deadline.toNat ≤ (clock.sampleAt now systemNow).1.toNat := by
  rw [checkAt, checkClock, isLive]
  by_cases h : (clock.sampleAt now systemNow).1 < deadline
  · rw [ensure_of (by simpa using h)]
    have hlt := UInt64.lt_iff_toNat_lt.1 h
    simp only [reduceCtorEq, false_iff]
    omega
  · rw [ensure_of_not (by simpa using h)]
    have hle := mt UInt64.lt_iff_toNat_lt.2 h
    simp only [true_iff]
    omega

/-- The reading has passed a deadline when so many nanoseconds have. -/
theorem le_sampleAt_iff : deadline.toNat ≤ (clock.sampleAt now systemNow).1.toNat ↔
      (deadline.toNat - clock.wall.toNat) * 1000000000 ≤ clock.elapsed now systemNow + clock.wallFraction := by
  have hdeadline := deadline.toNat_lt
  have hwall := clock.wall.toNat_lt
  rw [toNat_sampleAt, maxDuration]
  omega

theorem remaining_eq_zero_iff : clock.remaining deadline now systemNow = 0 ↔
      (deadline.toNat - clock.wall.toNat) * 1000000000 ≤ clock.elapsed now systemNow + clock.wallFraction := by
  rw [remaining]
  omega

theorem deadlineAt_eq (h : now + clock.remaining deadline now systemNow < instantEnd) :
    clock.deadlineAt deadline now systemNow = now + clock.remaining deadline now systemNow := by
  rw [deadlineAt, Instant.checkedAdd, if_pos h, Option.getD_some]

theorem expired_iff_deadlineAt_le (h : now + clock.remaining deadline now systemNow < instantEnd) :
    clock.checkAt (some deadline) now systemNow = .error .expired ↔ clock.deadlineAt deadline now systemNow ≤ now := by
  rw [checkAt_eq_expired, le_sampleAt_iff, ← remaining_eq_zero_iff, deadlineAt_eq h]
  constructor
  · intro h
    rw [h]
    exact Nat.le_refl _
  · intro h
    exact Nat.le_zero.1 (Nat.le_of_add_le_add_left h)

theorem elapsed_mono {later : Nat} {systemLater : Int} (h : now ≤ later)
    (hsystem : systemNow ≤ systemLater) : clock.elapsed now systemNow ≤ clock.elapsed later systemLater := by
  unfold elapsed Instant.since SystemTime.since
  omega

theorem sampleAt_mono {later : Nat} {systemLater : Int} (h : now ≤ later) (hsystem : systemNow ≤ systemLater) :
    (clock.sampleAt now systemNow).1.toNat ≤ (clock.sampleAt later systemLater).1.toNat := by
  have hmono := clock.elapsed_mono h hsystem
  rw [toNat_sampleAt, toNat_sampleAt]
  omega

theorem elapsed_start : clock.elapsed clock.started clock.systemStarted = 0 := by
  unfold elapsed Instant.since SystemTime.since
  rw [Int.sub_self, Nat.sub_self]
  rfl

theorem le_since_add {total fraction start : Nat} (h : start + (total - fraction) ≤ now) :
    total ≤ Instant.since now start + fraction := by
  unfold Instant.since
  omega

/-- The monotonic clock alone ends a request, whatever the wall clock says. -/
theorem expired_of_deadlineAt_start_le (systemNow : Int)
    (hfits : clock.started + clock.remaining deadline clock.started clock.systemStarted < instantEnd)
    (h : clock.deadlineAt deadline clock.started clock.systemStarted ≤ now) :
    clock.checkAt (some deadline) now systemNow = .error .expired := by
  rw [deadlineAt_eq hfits, remaining, elapsed_start, Nat.sub_zero] at h
  rw [checkAt_eq_expired, le_sampleAt_iff]
  have hsince := le_since_add h
  have helapsed : Instant.since now clock.started ≤ clock.elapsed now systemNow := Nat.le_max_right _ _
  omega

end RequestTime

/-- **The clock of a request.** A wall deadline has passed exactly when the monotonic deadline computed for it is not in the
future; the wall reading does not go back while the wall clock does not; and the deadline as it was at the start of the
request, measured on the monotonic clock, ends the request wherever the wall clock has been set. -/
theorem requestTime_deadlines (clock : RequestTime) :
    (∀ (deadline : UInt64) (now : Instant) (systemNow : SystemTime),
      now + clock.remaining deadline now systemNow < instantEnd →
      (clock.checkAt (some deadline) now systemNow = .error .expired ↔
        clock.deadlineAt deadline now systemNow ≤ now)) ∧
    (∀ (now later : Instant) (systemNow systemLater : SystemTime), now ≤ later → systemNow ≤ systemLater →
      (clock.sampleAt now systemNow).1 ≤ (clock.sampleAt later systemLater).1) ∧
    (∀ (deadline : UInt64) (now : Instant) (systemNow : SystemTime),
      clock.started + clock.remaining deadline clock.started clock.systemStarted < instantEnd →
      clock.deadlineAt deadline clock.started clock.systemStarted ≤ now →
      clock.checkAt (some deadline) now systemNow = .error .expired) := by
  refine ⟨?_, ?_, ?_⟩
  · intro deadline now systemNow hfits
    exact RequestTime.expired_iff_deadlineAt_le hfits
  · intro now later systemNow systemLater hle hsystem
    exact UInt64.le_iff_toNat_le.2 (RequestTime.sampleAt_mono hle hsystem)
  · intro deadline now systemNow hfits hle
    exact RequestTime.expired_of_deadlineAt_start_le systemNow hfits hle

end FactorSeal
