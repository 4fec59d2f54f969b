import Mathlib.Data.List.Nodup
import TeachLang.Proofs.Text.Delimited
import TeachLang.Ty

/-! # Names of types

The name of a type is a word of letters and underscores, and no two types have the same.
-/

namespace TeachLang
namespace Ty

theorem mem_all (ty : Ty) : ty ∈ all := by
  cases ty <;> decide

theorem name_injective : Function.Injective name := by
  have hnodup : (all.map name).Nodup := by decide +kernel
  exact fun a b h => List.inj_on_of_nodup_map hnodup (mem_all a) (mem_all b) h

theorem name_toList_inj {a b : Ty} (h : a.name.toList = b.name.toList) : a = b :=
  name_injective (String.toList_inj.1 h)

theorem isLine_name (ty : Ty) : IsLine ty.name.toList := by
  have hall : ∀ ty ∈ all, IsLine ty.name.toList := by decide +kernel
  exact hall ty ty.mem_all

/-- The name of a type ends in front of a comma. -/
theorem delimited_name : Delimited (fun _ => True) (· = ',') (fun ty : Ty => ty.name.toList) := by
  have hcomma : ∀ ty ∈ all, ',' ∉ ty.name.toList := by decide +kernel
  exact ((delimited_run (· ≠ ',')).weaken (by simp)).comp (f := fun ty : Ty => ty.name.toList)
    (fun ty _ _ hc => ne_of_mem_of_not_mem hc (hcomma ty ty.mem_all)) fun _ _ _ _ => name_toList_inj

end Ty
end TeachLang
