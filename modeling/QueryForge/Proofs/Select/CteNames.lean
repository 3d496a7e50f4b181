import Mathlib.Data.List.Nodup
import QueryForge.Proofs.Determined
import QueryForge.Proofs.Select.Sources

/-!
# Names of random common table expressions

A random common table expression is called `cte` and its number, so no two of a statement have the
same name. The catalog is not asked, so a table may have such a name as well.
-/

namespace QueryForge

variable {tables : List Table} {o : QueryOptions} {table : Table}

namespace CteSource

def numberedName (index : Nat) : String := "cte" ++ index.repr

/-- A name of the form `cte` and some decimal digits. -/
def IsNumberedName (name : String) : Prop :=
  ∃ digits, digits ≠ [] ∧ (∀ d ∈ digits, d.isDigit) ∧ name.toList = "cte".toList ++ digits

theorem numberedName_injective {i j : Nat} (h : numberedName i = numberedName j) : i = j :=
  Sql.append_repr_injective "cte" h

theorem isNumberedName_numberedName (index : Nat) : IsNumberedName (numberedName index) := by
  obtain ⟨d, ds, same, -⟩ := Sql.exists_repr_eq_cons index
  refine ⟨index.repr.toList, ?_, fun c hc => Sql.isDigit_of_mem_repr hc, ?_⟩
  · rw [same]
    exact List.cons_ne_nil d ds
  · exact String.toList_append

namespace Drawn

variable {index : Nat} {d : CteSource}

theorem name_cte (h : Drawn tables o index d) : d.cte.name = numberedName index := by
  cases h
  rfl

end Drawn

theorem map_name_cte {indices : List Nat} {drawn : List CteSource}
    (h : List.Forall₂ (Drawn tables o) indices drawn) :
    (drawn.map CteSource.cte).map Cte.name = indices.map numberedName := by
  induction h with
  | nil => rfl
  | cons hd _ ih => exact congrArg₂ List.cons hd.name_cte ih

end CteSource

namespace Select.Origin.Drawn

variable {g : Origin}

/-- The numbers of the common table expressions are below their greatest amount and increase. -/
theorem map_name_ctes (h : g.Drawn tables o table) :
    ∃ indices : List Nat, indices.Sublist (List.range o.maxCtes.toNat) ∧
      (g.ctes.map CteSource.cte).map Cte.name = indices.map CteSource.numberedName := by
  obtain ⟨indices, within, drawn⟩ := h.ctes
  exact ⟨indices, within, CteSource.map_name_cte drawn⟩

theorem nodup_names_ctes (h : g.Drawn tables o table) :
    ((g.ctes.map CteSource.cte).map Cte.name).Nodup := by
  obtain ⟨indices, within, names⟩ := h.map_name_ctes
  rw [names]
  refine List.Nodup.map ?_ (List.nodup_range.sublist within)
  intro i j
  exact CteSource.numberedName_injective

theorem exists_index (h : g.Drawn tables o table) :
    ∀ cte ∈ g.ctes.map CteSource.cte, ∃ i < o.maxCtes.toNat,
      cte.name = CteSource.numberedName i := by
  intro cte hc
  obtain ⟨indices, within, names⟩ := h.map_name_ctes
  have mem : cte.name ∈ indices.map CteSource.numberedName :=
    names ▸ List.mem_map_of_mem hc
  obtain ⟨i, hi, same⟩ := List.mem_map.1 mem
  exact ⟨i, List.mem_range.1 (within.subset hi), same.symm⟩

end Select.Origin.Drawn
end QueryForge
