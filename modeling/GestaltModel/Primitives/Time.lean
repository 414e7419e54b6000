import Mathlib.Tactic.Common

-- Times are nanoseconds since the zero value of `time.Time`, and durations are nanoseconds.
namespace Time

def millisecond : Int := 1000000

def second : Int := 1000 * millisecond

def minute : Int := 60 * second

def day : Int := 1440 * minute

-- `Time.Truncate`
def truncate (d t : Int) : Int :=
  t - t % d

-- `Time.MarshalJSON` accepts the years from 0 to 9999.
def Marshals (t : Int) : Prop :=
  -366 * day ≤ t ∧ t < 3652059 * day

instance : DecidablePred Marshals :=
  fun _ => inferInstanceAs <| Decidable (_ ∧ _)

-- `Time.UnixNano`, which has 64 bits and wraps around before the year 1678 and after 2262.
def unixNano (t : Int) : Int :=
  (t - 719162 * day).bmod 18446744073709551616

theorem truncate_le {d : Int} (h : 0 < d) (t : Int) : truncate d t ≤ t := by
  have := Int.emod_nonneg t (by omega : d ≠ 0)
  simp only [truncate]
  omega

theorem truncate_truncate (d t : Int) : truncate d (truncate d t) = truncate d t := by
  simp [truncate, Int.sub_emod]

theorem truncate_mono {d s t : Int} (h : 0 < d) (hst : s ≤ t) : truncate d s ≤ truncate d t := by
  have hs := Int.mul_ediv_add_emod s d
  have ht := Int.mul_ediv_add_emod t d
  have hd := Int.mul_le_mul_of_nonneg_left (Int.ediv_le_ediv h hst) (Int.le_of_lt h)
  simp only [truncate]
  omega

end Time
