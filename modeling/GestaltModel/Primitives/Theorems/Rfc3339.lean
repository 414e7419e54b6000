import GestaltModel.Primitives.Rfc3339
import GestaltModel.Primitives.Text

namespace Time

open Reader

variable {width n : Nat} {cs cs' : List Char}

theorem isDigit_of_mem_appendInt (h : c ∈ appendInt width n) : c.isDigit := by
  induction width generalizing n
  case zero =>
    rw [appendInt] at h
    split at h
    case isTrue  => exact nomatch h
    case isFalse => exact Nat.isDigit_of_mem_toDigits (by decide) (by decide) h
  case succ width hi =>
    rcases List.mem_append.mp h with h | h
    case inl => exact hi h
    case inr =>
      rw [List.mem_singleton.mp h, Nat.isDigit_digitChar]
      exact decide_eq_true (Nat.mod_lt _ (by decide))

theorem length_appendInt (h : n < 10 ^ width) : (appendInt width n).length = width := by
  induction width generalizing n
  case zero =>
    have : n = 0 := by omega
    rw [this]
    rfl
  case succ width hi =>
    have : n / 10 < 10 ^ width := Nat.div_lt_of_lt_mul (by omega)
    rw [appendInt, List.length_append, hi this]
    rfl

theorem lt_length_appendInt (h : 10 ^ width ≤ n) : width < (appendInt width n).length := by
  induction width generalizing n
  case zero =>
    rw [appendInt, if_neg (by omega)]
    exact Nat.length_toDigits_pos
  case succ width hi =>
    have : 10 ^ width ≤ n / 10 := by omega
    rw [appendInt, List.length_append]
    exact Nat.add_lt_add_right (hi this) 1

theorem ofDigitChars_appendInt : Nat.ofDigitChars 10 (appendInt width n) 0 = n := by
  induction width generalizing n
  case zero =>
    rw [appendInt]
    split
    case isTrue h => exact h.symm
    case isFalse  => exact Nat.ofDigitChars_ten_toDigits
  case succ width hi =>
    have := Nat.mod_lt n (by decide : 10 > 0)
    rw [appendInt, Nat.ofDigitChars_append, hi, Nat.ofDigitChars_cons_digitChar_of_lt_ten this,
      Nat.ofDigitChars_nil]
    exact Nat.div_add_mod n 10

theorem not_isSpace_of_isDigit (h : c.isDigit) : Text.isSpace c = false := by
  have hc : 48 ≤ c.toNat ∧ c.toNat ≤ 57 := Char.isDigit_iff_toNat.mp h
  simp [Text.isSpace]
  omega

theorem formatRFC3339_head (t : Int) :
    ∃ c ∈ (formatRFC3339 t).toList.head?, Text.isSpace c = false := by
  rw [formatRFC3339, String.toList_ofList, appendDate, appendYear]
  split
  case isTrue => exact ⟨_, rfl, by decide⟩
  case isFalse =>
    have hd {c} := @isDigit_of_mem_appendInt 4 (Date.ofDays (t / day)).year.natAbs c
    cases h : appendInt 4 (Date.ofDays (t / day)).year.natAbs
    case nil       => exact absurd h (by simp [appendInt])
    case cons c cs => exact ⟨c, rfl, not_isSpace_of_isDigit (hd (h ▸ List.mem_cons_self))⟩

namespace Reader

theorem bind_eq {f : α → Reader β} (h : x cs = some (a, cs')) :
    (x >>= f) cs = f a cs' := by
  simp only [bind, StateT.bind, h]
  rfl

theorem bind_eq_none {f : α → Reader β} (h : x cs = none) :
    (x >>= f) cs = none := by
  simp only [bind, StateT.bind, h]
  rfl

theorem orElse_eq {x y : Reader α} (h : x cs = some (a, cs')) :
    (x <|> y) cs = some (a, cs') := by
  change (x cs <|> y cs) = _
  rw [h]
  rfl

theorem number_append (hl : ds.length = width) (hd : ∀ c ∈ ds, c.isDigit) :
    number width (ds ++ cs) = some (Nat.ofDigitChars 10 ds 0, cs) := by
  rw [number, ← hl, List.take_left, List.drop_left, if_pos]
  exact ⟨by rw [List.length_append]; omega, List.all_eq_true.mpr hd⟩

theorem number_appendInt (h : n < 10 ^ width) :
    number width (appendInt width n ++ cs) = some (n, cs) := by
  rw [number_append (length_appendInt h) fun _ => isDigit_of_mem_appendInt, ofDigitChars_appendInt]

theorem literal_cons : literal c (c :: cs) = some ((), cs) :=
  if_pos rfl

theorem zone_utc : zone ('Z' :: cs) = some (0, cs) := by
  rw [zone, if_pos rfl]

theorem fraction_utc : fraction ('Z' :: cs) = some (0, 'Z' :: cs) := by
  rw [fraction, if_neg]
  exact fun h => absurd h.left (by decide)

theorem literal_eq_none (h : c' ≠ c) : literal c (c' :: cs) = none :=
  if_neg h

theorem date_appendDate (h : 0 ≤ d.year ∧ d.year < 10000) :
    date (appendDate d ++ cs) = some (d, cs) := by
  have hy : (d.year.natAbs : Int) = d.year := by omega
  have hm := d.month_le
  have hd := d.day_le
  simp only [appendDate, appendYear, if_neg (by omega : ¬d.year < 0), List.append_assoc,
    List.cons_append]
  rw [date, bind_eq (number_appendInt (by omega)), bind_eq literal_cons,
    bind_eq (number_appendInt (by omega)), bind_eq literal_cons,
    bind_eq (number_appendInt (by omega))]
  simp only [hy]
  rw [dif_pos d.valid]
  rfl

theorem date_appendDate_eq_none (h : ¬(0 ≤ d.year ∧ d.year < 10000)) :
    date (appendDate d ++ cs) = none := by
  simp only [appendDate, appendYear, List.append_assoc, List.cons_append]
  rw [date]
  split
  case isTrue =>
    refine bind_eq_none (if_neg fun hd => ?_)
    exact absurd (List.all_eq_true.mp hd.right _ List.mem_cons_self) (by decide)
  case isFalse hn =>
    have hl := lt_length_appendInt (by omega : 10 ^ 4 ≤ d.year.natAbs)
    have hd {c} := @isDigit_of_mem_appendInt 4 d.year.natAbs c
    generalize appendInt 4 d.year.natAbs = ds at *
    have hlt : (ds.take 4).length = 4 := by simp; omega
    obtain ⟨c, rest, hc⟩ := List.exists_cons_of_length_pos (by simp; omega : 0 < (ds.drop 4).length)
    rw [← List.take_append_drop 4 ds, hc, List.append_assoc,
      bind_eq (number_append hlt fun _ hm => hd (List.mem_of_mem_take hm))]
    refine bind_eq_none (literal_eq_none fun he => ?_)
    have := hd (List.mem_of_mem_drop (hc ▸ List.mem_cons_self))
    exact absurd (he ▸ this) (by decide)

theorem clock_appendClock (h : seconds < 86400) :
    clock (appendClock seconds ++ cs) = some (seconds, cs) := by
  simp only [appendClock, List.append_assoc, List.cons_append]
  rw [clock, bind_eq (orElse_eq (number_appendInt (by omega))), bind_eq literal_cons,
    bind_eq (number_appendInt (by omega)), bind_eq literal_cons,
    bind_eq (number_appendInt (by omega)), if_pos (by omega)]
  change some (_, cs) = _
  congr 2
  omega

end Reader

theorem parseRFC3339_formatRFC3339 (t : Int) :
    parseRFC3339 (formatRFC3339 t) = if Marshals t then some (truncate second t) else none := by
  have hs : (t % day / second).toNat < 86400 := by
    simp only [day, minute, second, millisecond]
    omega
  rw [parseRFC3339, formatRFC3339, String.toList_ofList]
  by_cases h : Marshals t
  case pos =>
    rw [if_pos h, time, bind_eq (date_appendDate (marshals_iff.mp h)),
      bind_eq literal_cons, bind_eq (clock_appendClock hs),
      bind_eq fraction_utc, bind_eq zone_utc]
    change some _ = _
    rw [Date.toDays_ofDays, truncate]
    simp only [day, minute, second, millisecond]
    congr 1
    omega
  case neg =>
    rw [if_neg h, time,
      bind_eq_none (date_appendDate_eq_none (mt marshals_iff.mpr h))]

example : formatRFC3339 (2 * day + 61 * second + 5) = "0001-01-03T00:01:01Z" := by decide +kernel

example : parseRFC3339 "0001-01-03T00:01:01Z" = some (2 * day + 61 * second) := by decide +kernel

end Time
