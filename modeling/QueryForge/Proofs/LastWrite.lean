import Mathlib.Data.List.DropRight

/-!
# The last write

Calls that write the same place replace each other, so it holds what the last of them has written.
Calls that add to a list line up behind the last call that replaces it.
-/

namespace QueryForge

variable {κ β δ : Type}

/-- What the last of the writing calls has written. -/
def lastWrite? (written : κ → Option β) (calls : List κ) : Option β :=
  (calls.filterMap written).getLast?

/-- The list of the last replacing call, or none, and then what is added behind that call. -/
def collected (replaced : κ → Option (List β)) (added : κ → Option β) (calls : List κ) : List β :=
  (lastWrite? replaced calls).getD [] ++
    (calls.rtakeWhile fun c => (replaced c).isNone).filterMap added

theorem lastWrite?_concat (written : κ → Option β) (calls : List κ) (c : κ) :
    lastWrite? written (calls ++ [c]) = (written c).or (lastWrite? written calls) := by
  unfold lastWrite?
  rw [List.filterMap_append, List.getLast?_append]
  cases hc : written c with
  | none => rw [List.filterMap_cons_none hc, List.filterMap_nil, List.getLast?_nil]
  | some b => rw [List.filterMap_cons_some hc, List.filterMap_nil, List.getLast?_singleton]

section Collected

variable {replaced : κ → Option (List β)} {added : κ → Option β} {c : κ}

theorem collected_concat_of_replaced {items : List β} (h : replaced c = some items)
    (calls : List κ) : collected replaced added (calls ++ [c]) = items := by
  have behind : (calls ++ [c]).rtakeWhile (fun c => (replaced c).isNone) = [] :=
    List.rtakeWhile_concat_neg _ _ _ (by simp [h])
  unfold collected
  rw [lastWrite?_concat, h, behind, List.filterMap_nil, List.append_nil]
  rfl

theorem collected_concat_of_kept (h : replaced c = none) (calls : List κ) :
    collected replaced added (calls ++ [c]) =
      collected replaced added calls ++ (added c).toList := by
  have behind : (calls ++ [c]).rtakeWhile (fun c => (replaced c).isNone) =
      calls.rtakeWhile (fun c => (replaced c).isNone) ++ [c] :=
    List.rtakeWhile_concat_pos _ _ _ (by simp [h])
  have single : [c].filterMap added = (added c).toList := by
    cases hc : added c with
    | none => rw [List.filterMap_cons_none hc]; rfl
    | some b => rw [List.filterMap_cons_some hc]; rfl
  unfold collected
  rw [lastWrite?_concat, h, behind, List.filterMap_append, single, Option.none_or,
    List.append_assoc]

end Collected

section Runs

variable {step : δ → κ → δ}

/-- A place that every call overwrites or leaves alone. -/
theorem foldl_eq_lastWrite (place : δ → Option β) (written : κ → Option β)
    (writes : ∀ d c, place (step d c) = (written c).or (place d)) (d : δ) (calls : List κ) :
    place (calls.foldl step d) = (lastWrite? written calls).or (place d) := by
  induction calls using List.reverseRecOn with
  | nil => rfl
  | append_singleton calls c ih =>
    rw [List.foldl_append, List.foldl_cons, List.foldl_nil, writes, ih, lastWrite?_concat,
      Option.or_assoc]

/-- A list that starts empty and that every call replaces or adds to. -/
theorem foldl_eq_collected (place : δ → List β) {replaced : κ → Option (List β)}
    {added : κ → Option β}
    (replaces : ∀ d c items, replaced c = some items → place (step d c) = items)
    (adds : ∀ d c, replaced c = none → place (step d c) = place d ++ (added c).toList)
    {d : δ} (empty : place d = []) (calls : List κ) :
    place (calls.foldl step d) = collected replaced added calls := by
  induction calls using List.reverseRecOn with
  | nil => exact empty
  | append_singleton calls c ih =>
    rw [List.foldl_append, List.foldl_cons, List.foldl_nil]
    cases hc : replaced c with
    | none => rw [adds _ c hc, ih, collected_concat_of_kept hc]
    | some items => rw [replaces _ c items hc, collected_concat_of_replaced hc]

end Runs
end QueryForge
