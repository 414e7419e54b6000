import Mathlib.Data.Countable.Basic
import Mathlib.Logic.Denumerable
import Mathlib.Logic.Equiv.List
import GestaltModel.Primitives.GoMap

-- Texts can be numbered, and so can the maps between them.
instance Text.countableChar : Countable Char :=
  Function.Injective.countable (f := Char.toNat) fun _ _ => Char.toNat_inj.mp

instance Text.countableString : Countable String :=
  Function.Injective.countable (f := String.toList) fun _ _ h => String.toList_injective h

instance : Countable (GoMap String) :=
  Function.Injective.countable (f := Finmap.entries) fun _ _ => Finmap.ext

namespace Text

variable (α : Type) [Countable α]

-- A text for each value of a type, which starts with a dash and then counts.
noncomputable def numeral (a : α) : String :=
  .singleton '-' ++ .ofList (List.replicate ((exists_injective_nat α).choose a) 'A')

theorem numeral_eq_of_append {s s' : String} {a b : α}
    (h : s ++ numeral α a = s' ++ numeral α b) : a = b := by
  have hd : ∀ n, '-' ∉ (String.ofList (List.replicate n 'A')).toList := by simp
  simp only [numeral, ← String.append_assoc] at h
  have hc := congrArg (cutLast '-') h
  rw [cutLast_append (hd _), cutLast_append (hd _)] at hc
  have hl := congrArg (fun o => o.elim 0 fun c => c.2.toList.length) hc
  simp only [Option.elim_some, String.toList_ofList, List.length_replicate] at hl
  exact (exists_injective_nat α).choose_spec hl

theorem numeral_injective : Function.Injective (numeral α) :=
  fun _ _ h => numeral_eq_of_append α (congrArg ("" ++ ·) h)

theorem dash_mem_numeral {a : α} : '-' ∈ (numeral α a).toList := by
  simp [numeral]

end Text
