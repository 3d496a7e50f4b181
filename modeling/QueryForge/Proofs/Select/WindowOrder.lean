import QueryForge.Proofs.ErrorRegistry
import QueryForge.Proofs.Lookup
import QueryForge.Proofs.Select.NamedWindows

/-!
# Windows as a map and as a list

A registered definition replaces the one of its name, and the names stay in the order in which
they were registered first. Windows in the order of their names are one list for each map.
-/

namespace QueryForge.NamedWindows

variable {w : NamedWindows} {name : String} {entries : List (String × WindowDefinition Expr)}

theorem lookup_putEntry {other : String} {definition : WindowDefinition Expr} :
    (putEntry other definition entries).lookup name =
      if name = other then some definition else entries.lookup name := by
  induction entries with
  | nil => exact lookup_cons_eq_ite
  | cons entry rest ih =>
    obtain ⟨next, kept⟩ := entry
    rw [putEntry]
    by_cases same : next = other
    · subst same
      rw [if_pos rfl, lookup_cons_eq_ite, lookup_cons_eq_ite]
      by_cases h : name = next
      · rw [if_pos h, if_pos h]
      · rw [if_neg h, if_neg h, if_neg h]
    · rw [if_neg same, lookup_cons_eq_ite, lookup_cons_eq_ite, ih]
      by_cases h : name = next
      · rw [if_pos h, if_neg (h ▸ same), if_pos h]
      · rw [if_neg h, if_neg h]

/-- The definition of a name is the one registered last, or the one that was there. -/
theorem find?_putAll :
    (w.putAll entries).find? name = (lastValue? name entries).or (w.find? name) :=
  foldl_eq_lastValue? (fun w => w.find? name) (fun _ _ => lookup_putEntry) w entries

theorem find?_eq_none_iff : w.find? name = none ↔ name ∉ w.names := lookup_eq_none_iff_notMem

/-- The names are the first occurrences of the old names and the registered ones. -/
theorem names_putAll : (w.putAll entries).names = (w.names ++ entries.map Prod.fst).eraseDups := by
  induction entries generalizing w with
  | nil =>
    rw [List.map_nil, List.append_nil]
    exact (ErrorRegistry.eraseDups_of_nodup w.nodup).symm
  | cons entry rest ih =>
    have put : (w.put entry.1 entry.2).names =
        if entry.1 ∈ w.names then w.names else w.names ++ [entry.1] := map_fst_putEntry ..
    refine (ih (w := w.put entry.1 entry.2)).trans ?_
    rw [put, List.map_cons]
    by_cases known : entry.1 ∈ w.names
    · rw [if_pos known, ErrorRegistry.eraseDups_append_of_mem known]
    · rw [if_neg known, List.append_assoc, List.singleton_append]

/-- The same windows in the order of their names. -/
def byName (w : NamedWindows) : NamedWindows where
  entries := w.entries.mergeSort fun e f => decide (e.1 ≤ f.1)
  nodup := ((List.mergeSort_perm ..).map Prod.fst).nodup_iff.2 w.nodup

theorem byName_perm (w : NamedWindows) : w.byName.entries.Perm w.entries :=
  List.mergeSort_perm ..

theorem find?_byName : w.byName.find? name = w.find? name :=
  lookup_eq_of_perm w.byName.nodup w.byName_perm

theorem sorted_byName (w : NamedWindows) : w.byName.names.Pairwise (· < ·) := by
  have order : w.byName.entries.Pairwise fun e f => decide (e.1 ≤ f.1) = true := by
    refine List.pairwise_mergeSort (fun a b c => ?_) (fun a b => ?_) _
    · simp only [decide_eq_true_eq]
      exact String.le_trans
    · rw [Bool.or_eq_true, decide_eq_true_eq, decide_eq_true_eq]
      exact String.le_total a.1 b.1
  have weak : w.byName.names.Pairwise (· ≤ ·) :=
    List.pairwise_map.2 (order.imp fun h => of_decide_eq_true h)
  refine weak.imp₂ (fun a b le apart => ?_) w.byName.nodup
  exact not_not.1 fun above => apart (String.le_antisymm le (String.not_lt.1 above))

end QueryForge.NamedWindows
