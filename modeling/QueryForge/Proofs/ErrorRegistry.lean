import QueryForge.ErrorRegistry

/-!
# Registries of errors as sets in order

Adding texts keeps the first occurrence of each, and a message is expected exactly if some entry
occurs in it.
-/

namespace QueryForge.ErrorRegistry

theorem eraseDups_of_nodup {texts : List String} (h : texts.Nodup) : texts.eraseDups = texts := by
  induction texts with
  | nil => rfl
  | cons t rest ih =>
    obtain ⟨fresh, hr⟩ := List.nodup_cons.1 h
    have keep : rest.filter (fun s => !s == t) = rest :=
      List.filter_eq_self.2 fun s hs => by
        have : s ≠ t := fun he => fresh (he ▸ hs)
        simpa using this
    rw [List.eraseDups_cons, keep, ih hr]

theorem eraseDups_append_of_mem {text : String} {texts : List String} (known : text ∈ texts)
    (rest : List String) : (texts ++ text :: rest).eraseDups = (texts ++ rest).eraseDups := by
  have drop : (text :: rest).removeAll texts = rest.removeAll texts := by
    simp [List.removeAll, known]
  rw [List.eraseDups_append, List.eraseDups_append, drop]

theorem entries_add (r : ErrorRegistry) (text : String) (rest : List String) :
    ((r.add text).entries ++ rest).eraseDups = (r.entries ++ text :: rest).eraseDups := by
  unfold add
  split
  · next known => exact (eraseDups_append_of_mem known rest).symm
  · rw [List.append_assoc, List.singleton_append]

/-- The registry lists the first occurrences of its old entries and the added texts. -/
theorem entries_addAll (r : ErrorRegistry) (texts : List String) :
    (r.addAll texts).entries = (r.entries ++ texts).eraseDups := by
  induction texts generalizing r with
  | nil => rw [List.append_nil, eraseDups_of_nodup r.nodup]; rfl
  | cons t rest ih => exact (ih (r.add t)).trans (entries_add r t rest)

theorem addAll_addAll (r : ErrorRegistry) (texts more : List String) :
    (r.addAll texts).addAll more = r.addAll (texts ++ more) :=
  List.foldl_append.symm

theorem occursIn_iff {pattern text : List Char} :
    occursIn pattern text = true ↔ pattern <:+: text := by
  induction text with
  | nil => rw [occursIn, List.isEmpty_iff, List.infix_nil]
  | cons c rest ih =>
    rw [occursIn, Bool.or_eq_true, List.isPrefixOf_iff_prefix, ih, List.infix_cons_iff]

/-- A message that contains an entry is expected. -/
theorem isExpected_of_mem {r : ErrorRegistry} {e : String} (h : e ∈ r.entries)
    (before after : String) : r.isExpected (before ++ e ++ after) = true := by
  refine List.any_eq_true.2 ⟨e, h, occursIn_iff.2 ⟨before.toList, after.toList, ?_⟩⟩
  rw [String.toList_append, String.toList_append]

end QueryForge.ErrorRegistry
