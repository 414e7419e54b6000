import GestaltModel.Primitives.Time
import Mathlib.Algebra.Order.Ring.Int
import Mathlib.Order.Monotone.Basic

namespace Time

variable (year : Int)

-- The year before the year 1 is the year 0, which is a leap year.
def IsLeap : Prop :=
  year % 4 = 0 ∧ (year % 100 ≠ 0 ∨ year % 400 = 0)

instance : DecidablePred IsLeap :=
  fun _ => inferInstanceAs <| Decidable (_ ∧ _)

def monthLengths : List Nat :=
  [31, if IsLeap year then 29 else 28, 31, 30, 31, 30, 31, 31, 30, 31, 30, 31]

def yearLength : Nat :=
  if IsLeap year then 366 else 365

def daysIn (month : Nat) (year : Int) : Nat :=
  (monthLengths year).getD (month - 1) 0

-- The days from the start of the year 1 to the start of a year.
def daysBeforeYear : Int :=
  365 * (year - 1) + (year - 1) / 4 - (year - 1) / 100 + (year - 1) / 400

structure Date where
  year : Int
  month : Nat
  day : Nat
  valid : 0 < month ∧ 0 < day ∧ day ≤ daysIn month year

-- The days from the start of the year 1.
def Date.toDays (date : Date) : Int :=
  daysBeforeYear date.year + ((monthLengths date.year).take (date.month - 1)).sum + (date.day - 1)

-- The year of a day and the days of the year before it. A cycle of 400 years has centuries, these
-- spans of four years. The last century of a cycle and the last year of a span are one day longer.
def yearAndDay (days : Int) : Int × Nat :=
  let n400 := days / 146097
  let days := days % 146097
  let n100 := min (days / 36524) 3
  let days := days - 36524 * n100
  let n4   := days / 1461
  let days := days % 1461
  let n1   := min (days / 365) 3
  (400 * n400 + 100 * n100 + 4 * n4 + n1 + 1, (days - 365 * n1).toNat)

-- Blocks of given lengths follow each other: the block of the position `n`, and the position in it.
def locate : List Nat → Nat → Nat × Nat
  | [], n => (0, n)
  | l :: ls, n => if n < l then (0, n) else ((locate ls (n - l)).1 + 1, (locate ls (n - l)).2)

theorem locate_spec (h : n < ls.sum) :
    (ls.take (locate ls n).1).sum + (locate ls n).2 = n ∧
    (locate ls n).2 < ls.getD (locate ls n).1 0 := by
  induction ls generalizing n
  case nil => exact absurd h (Nat.not_lt_zero _)
  case cons l ls hi =>
    rw [List.sum_cons] at h
    rw [locate]
    split
    case isTrue hl => exact ⟨Nat.zero_add _, hl⟩
    case isFalse hl =>
      have ⟨hs, hm⟩ := hi (by omega : n - l < ls.sum)
      refine ⟨?_, hm⟩
      rw [List.take_succ_cons, List.sum_cons]
      omega

theorem daysIn_le (month : Nat) (year : Int) : daysIn month year ≤ 31 := by
  have h : ∀ n ∈ monthLengths year, n ≤ 31 := by
    rw [monthLengths]
    split <;> decide
  rw [daysIn, List.getD_eq_getElem?_getD]
  cases hn : (monthLengths year)[month - 1]?
  case none => exact Nat.zero_le _
  case some n => exact h n (List.mem_of_getElem? hn)

theorem Date.day_le (date : Date) : date.day ≤ 31 :=
  Nat.le_trans date.valid.right.right (daysIn_le ..)

theorem Date.month_le (date : Date) : date.month ≤ 12 := by
  have ⟨_, hp, hd⟩ := date.valid
  by_contra hm
  have hl : (monthLengths date.year).length ≤ date.month - 1 :=
    Nat.le_sub_one_of_lt (Nat.lt_of_not_le hm)
  rw [daysIn, List.getD_eq_getElem?_getD, List.getElem?_eq_none hl] at hd
  exact absurd (Nat.lt_of_lt_of_le hp hd) (Nat.lt_irrefl 0)

theorem sum_monthLengths : (monthLengths year).sum = yearLength year := by
  rw [monthLengths, yearLength]
  split <;> rfl

section Cycle

variable {a b c e : Int} (hb : 0 ≤ b ∧ b ≤ 3) (hc : 0 ≤ c ∧ c ≤ 24) (he : 0 ≤ e ∧ e ≤ 3)

include hb hc he

theorem daysBeforeYear_cycle :
    daysBeforeYear (400 * a + 100 * b + 4 * c + e + 1) =
      146097 * a + 36524 * b + 1461 * c + 365 * e := by
  rw [daysBeforeYear]
  omega

theorem isLeap_cycle :
    IsLeap (400 * a + 100 * b + 4 * c + e + 1) ↔ e = 3 ∧ (c = 24 → b = 3) := by
  rw [IsLeap]
  omega

end Cycle

theorem yearAndDay_spec (days : Int) :
    daysBeforeYear (yearAndDay days).1 + (yearAndDay days).2 = days ∧
    (yearAndDay days).2 < yearLength (yearAndDay days).1 := by
  simp only [yearAndDay]
  generalize hb : min (days % 146097 / 36524) 3 = b
  generalize hr : days % 146097 - 36524 * b = r
  generalize he : min (r % 1461 / 365) 3 = e
  have hb' : 0 ≤ b ∧ b ≤ 3 := by omega
  -- The last century of a cycle ends with its own leap year, and the other ones do not.
  have hr' : 0 ≤ r ∧ r < 36524 + (if b = 3 then 1 else 0) := by split <;> omega
  have hc' : 0 ≤ r / 1461 ∧ r / 1461 ≤ 24 := by omega
  have he' : 0 ≤ e ∧ e ≤ 3 := by omega
  rw [yearLength, daysBeforeYear_cycle hb' hc' he']
  simp only [isLeap_cycle hb' hc' he']
  refine ⟨by omega, ?_⟩
  split <;> omega

-- The date of a day that is counted from the start of the year 1.
def Date.ofDays (days : Int) : Date where
  year := (yearAndDay days).1
  month := (locate (monthLengths (yearAndDay days).1) (yearAndDay days).2).1 + 1
  day := (locate (monthLengths (yearAndDay days).1) (yearAndDay days).2).2 + 1
  valid :=
    have h := sum_monthLengths _ ▸ (yearAndDay_spec days).right
    ⟨Nat.succ_pos _, Nat.succ_pos _, (locate_spec h).right⟩

theorem Date.toDays_ofDays (days : Int) : (Date.ofDays days).toDays = days := by
  have ⟨hd, hl⟩ := yearAndDay_spec days
  have ⟨hs, _⟩ := locate_spec (sum_monthLengths _ ▸ hl)
  simp only [Date.toDays, Date.ofDays, Nat.add_sub_cancel]
  omega

theorem daysBeforeYear_succ :
    daysBeforeYear (year + 1) = daysBeforeYear year + yearLength year := by
  rw [daysBeforeYear, daysBeforeYear, yearLength]
  split
  case isTrue h => rw [IsLeap] at h; omega
  case isFalse h => rw [IsLeap] at h; omega

theorem daysBeforeYear_le {year year' : Int} (h : year ≤ year') :
    daysBeforeYear year ≤ daysBeforeYear year' :=
  monotone_int_of_le_succ (fun year => by rw [daysBeforeYear_succ]; omega) h

theorem daysBeforeYear_le_iff {year days : Int} :
    daysBeforeYear year ≤ days ↔ year ≤ (yearAndDay days).1 := by
  have ⟨he, hl⟩ := yearAndDay_spec days
  constructor
  case mp =>
    intro h
    by_contra hy
    have := daysBeforeYear_le (by omega : (yearAndDay days).1 + 1 ≤ year)
    rw [daysBeforeYear_succ] at this
    omega
  case mpr =>
    intro h
    have := daysBeforeYear_le h
    omega

theorem marshals_iff :
    Marshals t ↔ 0 ≤ (Date.ofDays (t / day)).year ∧ (Date.ofDays (t / day)).year < 10000 := by
  have hd : Marshals t ↔ -366 ≤ t / day ∧ t / day < 3652059 := by
    simp only [Marshals, day, minute, second, millisecond]
    omega
  have h₁ : daysBeforeYear 0 = -366 := rfl
  have h₂ : daysBeforeYear 10000 = 3652059 := rfl
  rw [hd, ← h₁, ← h₂, ← not_le, daysBeforeYear_le_iff, daysBeforeYear_le_iff, not_le]
  rfl

end Time
