import Mathlib.Algebra.GroupWithZero.Nat
import Mathlib.Algebra.Ring.Int.Defs

/-!
# Hooked sleeps

A hooked sleep adds a timer that schedules the calling fiber again, and yields. `addtimer` takes
the delay as `uint64_t`; each of the three functions computes it in a type of its own.
-/
namespace Dwframe

/-- `struct timespec`; both fields are `long`. -/
structure Timespec where
  tv_sec : Int64
  tv_nsec : Int64

/-- The whole milliseconds, as a number. -/
def Timespec.total (req : Timespec) : Int :=
  req.tv_sec.toInt * 1000 + req.tv_nsec.toInt / 1000000

inductive SleepCall where
  | sleep (seconds : UInt32)
  | usleep (usec : UInt32)
  | nanosleep (req : Timespec)

/-- What a call does before it returns 0. -/
inductive Slept where
  /-- The system's own function is called. -/
  | system
  /-- `addtimer(ms, schedule(fiber))` and `YieldToHold`. -/
  | timer (ms : UInt64)
  deriving DecidableEq

namespace SleepCall

/-- A result of `long` arithmetic; none where it is undefined. -/
def long (value : Int) : Option Int :=
  if -2 ^ 63 ≤ value ∧ value < 2 ^ 63 then some value else none

/-- `int ms = req->tv_sec*1000+req->tv_nsec/1000/1000`. -/
def nanosleepMs (req : Timespec) : Option Int := do
  let sec ← long (req.tv_sec.toInt * 1000)
  let ms ← long (sec + (req.tv_nsec.toInt.tdiv 1000).tdiv 1000)
  return ms.bmod (2 ^ 32)

/-- The first argument of `addtimer`. -/
def delay : SleepCall → Option UInt64
  | .sleep seconds => some (seconds * 1000).toUInt64
  | .usleep usec => some (usec / 1000).toUInt64
  | .nanosleep req => (nanosleepMs req).map .ofInt

/-- `sleep`, `usleep` and `nanosleep`; `hook_enable` is `t_hook_enable`. -/
def hooked (hook_enable : Bool) (call : SleepCall) : Option Slept :=
  if hook_enable = false then some .system else call.delay.map .timer

/-! ### Durations -/

/-- The duration asked for, in nanoseconds. -/
def requested : SleepCall → Int
  | .sleep seconds => seconds.toNat * 1000000000
  | .usleep usec => usec.toNat * 1000
  | .nanosleep req => req.tv_sec.toInt * 1000000000 + req.tv_nsec.toInt

/-- The argument is a duration. -/
def Valid : SleepCall → Prop
  | .nanosleep req => 0 ≤ req.tv_sec.toInt ∧ 0 ≤ req.tv_nsec.toInt ∧ req.tv_nsec.toInt < 1000000000
  | _ => True

/-- The timer is set to the whole milliseconds of the duration; the fiber wakes less than one
early. -/
structure Exact (call : SleepCall) (ms : UInt64) : Prop where
  floor : (ms.toNat : Int) = call.requested / 1000000
  early : call.requested < (ms.toNat + 1) * 1000000

/-- The duration fits the type the delay is computed in. -/
def Fits : SleepCall → Prop
  | .sleep seconds => seconds.toNat * 1000 < 2 ^ 32
  | .usleep _ => True
  | .nanosleep req => req.total < 2 ^ 31

variable {call : SleepCall} {ms : UInt64}

/-- A hooked sleep less than one millisecond early is all that the floor leaves open. -/
theorem exact_iff_floor : Exact call ms ↔ (ms.toNat : Int) = call.requested / 1000000 := by
  constructor
  · exact Exact.floor
  · intro floor
    refine ⟨floor, ?_⟩
    rw [floor]
    omega

theorem exact_sleep (seconds : UInt32) :
    Exact (.sleep seconds) (seconds * 1000).toUInt64 ↔ seconds.toNat * 1000 < 2 ^ 32 := by
  have wrapped : (seconds * 1000).toUInt64.toNat = seconds.toNat * 1000 % 2 ^ 32 := by
    rw [UInt32.toNat_toUInt64, UInt32.toNat_mul]
    rfl
  rw [exact_iff_floor, wrapped, requested]
  omega

theorem exact_usleep (usec : UInt32) : Exact (.usleep usec) (usec / 1000).toUInt64 := by
  have divided : (usec / 1000).toUInt64.toNat = usec.toNat / 1000 := by
    rw [UInt32.toNat_toUInt64, UInt32.toNat_div]
    rfl
  rw [exact_iff_floor, divided, requested]
  omega

/-- `int` passed on as `uint64_t`: a negative value becomes huge. -/
theorem toNat_ofInt_bmod {total : Int} (nonneg : 0 ≤ total) (small : total < 2 ^ 63) :
    ((UInt64.ofInt (total.bmod (2 ^ 32))).toNat : Int) = total ↔ total < 2 ^ 31 := by
  have widened : ((UInt64.ofInt (total.bmod (2 ^ 32))).toNat : Int) =
      total.bmod (2 ^ 32) % 2 ^ 64 := by
    rw [UInt64.ofInt, UInt64.toNat_ofNat']
    omega
  -- a total from 2^31 on is taken into [-2^31, 2^31), and a negative one from there above 2^63
  rw [widened, Int.bmod_def]
  split <;> omega

theorem nanosleepMs_eq {req : Timespec} (valid : Valid (.nanosleep req)) :
    nanosleepMs req = if req.total < 2 ^ 63 then some (req.total.bmod (2 ^ 32)) else none := by
  obtain ⟨sec, nsec, below⟩ := valid
  have parts : (req.tv_nsec.toInt.tdiv 1000).tdiv 1000 = req.tv_nsec.toInt / 1000000 := by
    rw [Int.tdiv_eq_ediv_of_nonneg nsec, Int.tdiv_eq_ediv_of_nonneg (by omega)]
    omega
  rw [nanosleepMs, parts]
  split
  case isTrue fits =>
    rw [Timespec.total] at fits
    -- the sum is the larger of the two, so the product fits as well
    have seconds : long (req.tv_sec.toInt * 1000) = some (req.tv_sec.toInt * 1000) :=
      if_pos ⟨by omega, by omega⟩
    have sum : long (req.tv_sec.toInt * 1000 + req.tv_nsec.toInt / 1000000) = some req.total :=
      if_pos ⟨by omega, fits⟩
    rw [seconds]
    show (long _ >>= _) = _
    rw [sum]
    rfl
  case isFalse exceeds =>
    rw [Timespec.total] at exceeds
    -- the product overflows, or the sum does
    by_cases fits : req.tv_sec.toInt * 1000 < 2 ^ 63
    · have seconds : long (req.tv_sec.toInt * 1000) = some (req.tv_sec.toInt * 1000) :=
        if_pos ⟨by omega, fits⟩
      have sum : long (req.tv_sec.toInt * 1000 + req.tv_nsec.toInt / 1000000) = none :=
        if_neg fun inside => exceeds inside.2
      rw [seconds]
      show (long _ >>= _) = _
      rw [sum]
      rfl
    · have seconds : long (req.tv_sec.toInt * 1000) = none := if_neg fun inside => fits inside.2
      rw [seconds]
      rfl

theorem exact_nanosleep {req : Timespec} (valid : Valid (.nanosleep req)) :
    (∃ ms, delay (.nanosleep req) = some ms ∧ Exact (.nanosleep req) ms) ↔
      req.total < 2 ^ 31 := by
  have whole : req.total = requested (.nanosleep req) / 1000000 := by
    rw [Timespec.total, requested]
    omega
  have nonneg : 0 ≤ req.total := by
    obtain ⟨sec, nsec, -⟩ := valid
    rw [Timespec.total]
    omega
  rw [delay, nanosleepMs_eq valid]
  constructor
  · rintro ⟨ms, passed, exact⟩
    split at passed
    case isTrue small =>
      cases passed
      have floor := exact.floor
      rw [← whole] at floor
      exact (toNat_ofInt_bmod nonneg small).mp floor
    case isFalse => cases passed
  · intro fits
    have small : req.total < 2 ^ 63 := by omega
    refine ⟨_, by rw [if_pos small]; rfl, ?_⟩
    rw [exact_iff_floor, ← whole]
    exact (toNat_ofInt_bmod nonneg small).mpr fits

/-- A hooked sleep sets its timer to the whole milliseconds of the duration if and only if the
duration fits the type the delay is computed in. -/
theorem hooked_exact_iff (valid : call.Valid) :
    (∃ ms, hooked true call = some (.timer ms) ∧ Exact call ms) ↔ call.Fits := by
  have timer : ∀ ms, hooked true call = some (.timer ms) ↔ call.delay = some ms := by
    intro ms
    rw [hooked, if_neg (by decide)]
    cases call.delay <;> simp
  simp only [timer]
  cases call with
  | sleep seconds =>
    rw [Fits, ← exact_sleep]
    simp only [delay, Option.some.injEq, exists_eq_left']
  | usleep usec => exact iff_of_true ⟨_, rfl, exact_usleep usec⟩ trivial
  | nanosleep req => exact exact_nanosleep valid

/-- `nanosleep` for 25 days and 20 hours. -/
theorem hooked_exact_days :
    let call := SleepCall.nanosleep ⟨2147483, 646000000⟩
    (∃ ms, hooked true call = some (.timer ms) ∧ Exact call ms) ↔ call.Fits :=
  hooked_exact_iff ⟨by decide, by decide, by decide⟩

/-- `sleep(4294968)`, for 49 days, waits for 704 milliseconds; `nanosleep` for 2147484 seconds
waits for ever. -/
theorem hooked_wraps :
    hooked true (.sleep 4294968) = some (.timer 704) ∧ ¬Exact (.sleep 4294968) 704 ∧
    hooked true (.nanosleep ⟨2147484, 0⟩) = some (.timer 18446744071562068320) ∧
    ¬Exact (.nanosleep ⟨2147484, 0⟩) 18446744071562068320 := by
  refine ⟨rfl, fun exact => ?_, rfl, fun exact => ?_⟩
  · exact absurd exact.floor (by decide)
  · exact absurd exact.floor (by decide)

end SleepCall

end Dwframe
