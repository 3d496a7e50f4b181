import QueryForge.Select.Build

/-!
# Registering windows

Windows with new names line up behind the registered ones.
-/

namespace QueryForge

namespace NamedWindows

theorem putEntry_of_notMem {name : String} {definition : WindowDefinition Expr}
    {entries : List (String × WindowDefinition Expr)} (h : name ∉ entries.map Prod.fst) :
    putEntry name definition entries = entries ++ [(name, definition)] := by
  induction entries with
  | nil => rfl
  | cons entry rest ih =>
    rw [List.map_cons, List.mem_cons, not_or] at h
    rw [putEntry, if_neg (Ne.symm h.1), ih h.2, List.cons_append]

theorem mem_putEntry {name : String} {definition : WindowDefinition Expr}
    {entries : List (String × WindowDefinition Expr)} {e : String × WindowDefinition Expr}
    (h : e ∈ putEntry name definition entries) : e ∈ entries ∨ e = (name, definition) := by
  induction entries with
  | nil => exact .inr (List.mem_singleton.1 h)
  | cons entry rest ih =>
    rw [putEntry] at h
    split at h
    · next same =>
      rcases List.mem_cons.1 h with rfl | hr
      · exact .inr (same ▸ rfl)
      · exact .inl (List.mem_cons_of_mem entry hr)
    · rcases List.mem_cons.1 h with rfl | hr
      · exact .inl List.mem_cons_self
      · exact (ih hr).imp_left (List.mem_cons_of_mem entry)

/-- Nothing is registered but what was there or is put. -/
theorem mem_putAll {w : NamedWindows} {entries : List (String × WindowDefinition Expr)}
    {e : String × WindowDefinition Expr} (h : e ∈ (w.putAll entries).entries) :
    e ∈ w.entries ∨ e ∈ entries := by
  induction entries generalizing w with
  | nil => exact .inl h
  | cons entry rest ih =>
    rcases ih h with hw | hr
    · rcases mem_putEntry hw with hw | rfl
      · exact .inl hw
      · exact .inr List.mem_cons_self
    · exact .inr (List.mem_cons_of_mem entry hr)

theorem mem_names_putAll {w : NamedWindows} {entries : List (String × WindowDefinition Expr)}
    {name : String} :
    name ∈ (w.putAll entries).names ↔ name ∈ w.names ∨ name ∈ entries.map Prod.fst := by
  induction entries generalizing w with
  | nil => exact (or_iff_left List.not_mem_nil).symm
  | cons entry rest ih =>
    have put : name ∈ (w.put entry.1 entry.2).names ↔ name ∈ w.names ∨ name = entry.1 := by
      change name ∈ (putEntry entry.1 entry.2 w.entries).map Prod.fst ↔ _
      rw [map_fst_putEntry]
      split
      · next known => exact (or_iff_left_of_imp fun same => same ▸ known).symm
      · rw [List.mem_append, List.mem_singleton]
        rfl
    refine ih.trans ?_
    rw [put, List.map_cons, List.mem_cons, or_assoc]

theorem entries_putAll {w : NamedWindows} {entries : List (String × WindowDefinition Expr)}
    (h : ((w.entries ++ entries).map Prod.fst).Nodup) :
    (w.putAll entries).entries = w.entries ++ entries := by
  induction entries generalizing w with
  | nil => rw [List.append_nil]; rfl
  | cons entry rest ih =>
    have fresh : entry.1 ∉ w.entries.map Prod.fst := by
      rw [List.map_append, List.map_cons] at h
      exact fun hm => (List.nodup_append.1 h).2.2 _ hm _ List.mem_cons_self rfl
    have step : (w.put entry.1 entry.2).entries = w.entries ++ [entry] := putEntry_of_notMem fresh
    have all : w.putAll (entry :: rest) = (w.put entry.1 entry.2).putAll rest := rfl
    rw [all, ih, step, List.append_assoc, List.singleton_append]
    rwa [step, List.append_assoc, List.singleton_append]

/-- Registering all windows of a list anew yields the same list. -/
theorem putAll_entries (w : NamedWindows) : empty.putAll w.entries = w := by
  have same : (empty.putAll w.entries).entries = w.entries := entries_putAll w.nodup
  obtain ⟨entries, nodup⟩ := w
  exact (NamedWindows.mk.injEq ..).mpr same

end NamedWindows

/-- Definitions that are registered one after the other are put into the windows in that order. -/
theorem Select.foldl_addWindowDefinition (s : Select)
    (entries : List (String × WindowDefinition Expr)) :
    entries.foldl (fun s w => s.addWindowDefinition w.1 w.2) s =
      s.update fun c => { c with windows := c.windows.putAll entries } := by
  induction entries generalizing s with
  | nil => cases s; rfl
  | cons w rest ih => exact ih _

end QueryForge
