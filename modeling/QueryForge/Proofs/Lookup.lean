import Mathlib.Data.List.Forall2
import Mathlib.Data.List.Nodup
import Mathlib.Data.List.Perm.Basic
import QueryForge.Proofs.LastWrite

/-!
# Named entries

A list of named entries is looked up from its front, and what was written last stands at its back.
The two agree where a name occurs once. Entries in the order of their names are told apart by
lookups alone.
-/

namespace QueryForge

variable {α β : Type} {name : String}

section Lookup

variable {e : String × α} {es fs : List (String × α)}

theorem lookup_cons_eq_ite :
    (e :: es).lookup name = if name = e.1 then some e.2 else es.lookup name := by
  by_cases h : name = e.1
  · rw [if_pos h, h]
    exact List.lookup_cons_self
  · rw [if_neg h, List.lookup_cons, beq_eq_false_iff_ne.2 h]

theorem lookup_eq_none_iff_notMem : es.lookup name = none ↔ name ∉ es.map Prod.fst := by
  rw [List.lookup_eq_none_iff, List.mem_map]
  constructor
  · rintro h ⟨e, he, rfl⟩
    exact absurd (h e he) (by simp)
  · intro h e he
    exact bne_iff_ne.2 fun same => h ⟨e, he, same.symm⟩

theorem lookup_eq_some_iff_mem (nodup : (es.map Prod.fst).Nodup) {a : α} :
    es.lookup name = some a ↔ (name, a) ∈ es := by
  induction es with
  | nil => exact iff_of_false nofun List.not_mem_nil
  | cons e rest ih =>
    obtain ⟨fresh, nodup⟩ := List.nodup_cons.1 nodup
    rw [lookup_cons_eq_ite, List.mem_cons]
    by_cases h : name = e.1
    · have behind : (name, a) ∉ rest := fun mem =>
        fresh (h ▸ List.mem_map.2 ⟨(name, a), mem, rfl⟩)
      rw [if_pos h, or_iff_left behind, Option.some.injEq, eq_comm, Prod.ext_iff]
      exact (and_iff_right h).symm
    · have front : (name, a) ≠ e := fun same => h (congrArg Prod.fst same)
      rw [if_neg h, ih nodup, or_iff_right front]

theorem lookup_eq_of_perm (nodup : (es.map Prod.fst).Nodup) (perm : es.Perm fs) :
    es.lookup name = fs.lookup name := by
  have nodup' := (perm.map Prod.fst).nodup_iff.1 nodup
  refine Option.ext fun a => ?_
  rw [lookup_eq_some_iff_mem nodup, lookup_eq_some_iff_mem nodup', perm.mem_iff]

theorem length_filter_eq_count :
    (es.filter fun e => e.1 == name).length = (es.map Prod.fst).count name := by
  rw [List.count, List.countP_map, List.countP_eq_length_filter]
  rfl

/-- Entries in the order of their names are equal if they have the same lookups. -/
theorem eq_of_lookup_eq (order : (es.map Prod.fst).Pairwise (· < ·))
    (order' : (fs.map Prod.fst).Pairwise (· < ·))
    (same : ∀ name, es.lookup name = fs.lookup name) : es = fs := by
  have apart {a b : String} (h : a < b) : a ≠ b := fun e => String.lt_irrefl _ (e ▸ h)
  have nodup : (es.map Prod.fst).Nodup := order.imp apart
  have nodup' : (fs.map Prod.fst).Nodup := order'.imp apart
  have perm : es.Perm fs := by
    refine (List.perm_ext_iff_of_nodup (nodup.of_map _) (nodup'.of_map _)).2 fun e => ?_
    rw [← lookup_eq_some_iff_mem nodup, ← lookup_eq_some_iff_mem nodup', same]
  refine List.Perm.eq_of_pairwise (fun e f _ _ below above => ?_) (List.pairwise_map.1 order)
    (List.pairwise_map.1 order') perm
  exact absurd above (String.lt_asymm below)

end Lookup

/-- The value of the last entry of that name. -/
def lastValue? (name : String) (es : List (String × α)) : Option α :=
  lastWrite? (fun e => if e.1 = name then some e.2 else none) es

section LastValue

variable {e : String × α} {es : List (String × α)}

theorem lastValue?_concat :
    lastValue? name (es ++ [e]) = if e.1 = name then some e.2 else lastValue? name es := by
  unfold lastValue?
  rw [lastWrite?_concat]
  by_cases h : e.1 = name
  · rw [if_pos h, if_pos h, Option.some_or]
  · rw [if_neg h, if_neg h, Option.none_or]

/-- Where each entry replaces what its name held, the last one of a name is held. -/
theorem foldl_eq_lastValue? {σ : Type} (held : σ → Option α) {put : σ → String × α → σ}
    (writes : ∀ s e, held (put s e) = if name = e.1 then some e.2 else held s) (s : σ)
    (es : List (String × α)) : held (es.foldl put s) = (lastValue? name es).or (held s) := by
  refine foldl_eq_lastWrite held _ (fun s e => ?_) s es
  rw [writes]
  by_cases h : name = e.1
  · rw [if_pos h, if_pos h.symm, Option.some_or]
  · rw [if_neg h, if_neg (Ne.symm h), Option.none_or]

theorem lastValue?_eq_lookup_reverse : lastValue? name es = es.reverse.lookup name := by
  induction es using List.reverseRecOn with
  | nil => rfl
  | append_singleton es e ih =>
    rw [lastValue?_concat, List.reverse_concat, lookup_cons_eq_ite, ih]
    exact if_congr eq_comm rfl rfl

/-- Where a name occurs at most once, its first value is its last one. -/
theorem lastValue?_eq_lookup (once : (es.filter fun e => e.1 == name).length ≤ 1) :
    lastValue? name es = es.lookup name := by
  induction es using List.reverseRecOn with
  | nil => rfl
  | append_singleton es e ih =>
    rw [List.filter_append, List.length_append] at once
    rw [lastValue?_concat, List.lookup_append]
    by_cases h : e.1 = name
    · have front : es.lookup name = none := by
        rw [lookup_eq_none_iff_notMem, List.mem_map]
        rintro ⟨f, hf, same⟩
        have found : f ∈ es.filter fun e => e.1 == name := List.mem_filter.2 ⟨hf, by simp [same]⟩
        have here : [e].filter (fun e => e.1 == name) = [e] :=
          List.filter_cons_of_pos (by simp [h])
        have counted := List.length_pos_of_mem found
        rw [here, List.length_singleton] at once
        omega
      rw [if_pos h, front, Option.none_or, lookup_cons_eq_ite, if_pos h.symm]
    · rw [if_neg h, ih (by omega), lookup_cons_eq_ite, if_neg (Ne.symm h), List.lookup_nil,
        Option.or_none]

end LastValue

section Related

variable {R : α → β → Prop} {es : List (String × α)} {fs : List (String × β)}

/-- Entry by entry the names are the same and the values are related. -/
def EntriesRelated (R : α → β → Prop) (es : List (String × α)) (fs : List (String × β)) : Prop :=
  List.Forall₂ (fun e f => e.1 = f.1 ∧ R e.2 f.2) es fs

namespace EntriesRelated

theorem map_fst (h : EntriesRelated R es fs) : es.map Prod.fst = fs.map Prod.fst := by
  induction h with
  | nil => rfl
  | cons first _ ih => rw [List.map_cons, List.map_cons, first.1, ih]

theorem lookup (h : EntriesRelated R es fs) :
    Option.Rel R (es.lookup name) (fs.lookup name) := by
  induction h with
  | nil => exact .none
  | cons first _ ih =>
    rw [lookup_cons_eq_ite, lookup_cons_eq_ite, first.1]
    split
    · exact .some first.2
    · exact ih

theorem lastValue? (h : EntriesRelated R es fs) :
    Option.Rel R (QueryForge.lastValue? name es) (QueryForge.lastValue? name fs) := by
  rw [lastValue?_eq_lookup_reverse, lastValue?_eq_lookup_reverse]
  exact lookup (List.rel_reverse h)

end EntriesRelated

theorem mapM_eq_some_iff_forall₂ {f : α → Option β} {as : List α} {bs : List β} :
    as.mapM f = some bs ↔ List.Forall₂ (fun a b => f a = some b) as bs := by
  induction as generalizing bs with
  | nil =>
    rw [List.mapM_nil, List.forall₂_nil_left_iff]
    exact Option.some_inj.trans eq_comm
  | cons a as ih =>
    rw [List.mapM_cons, Option.bind_eq_bind, Option.bind_eq_some_iff, List.forall₂_cons_left_iff]
    refine exists_congr fun b => ?_
    rw [Option.bind_eq_bind, Option.bind_eq_some_iff]
    constructor
    · rintro ⟨first, rest, others, same⟩
      obtain rfl := Option.some.inj same
      exact ⟨rest, first, ih.1 others, rfl⟩
    · rintro ⟨rest, first, others, rfl⟩
      exact ⟨first, rest, ih.2 others, rfl⟩

/-- Taking the values of entries one by one keeps the names. -/
theorem mapM_entries_eq_some_iff {f : α → Option β} {es : List (String × α)}
    {fs : List (String × β)} :
    es.mapM (fun e => (f e.2).map (e.1, ·)) = some fs ↔
      EntriesRelated (fun a b => f a = some b) es fs := by
  rw [mapM_eq_some_iff_forall₂]
  refine iff_of_eq (congrArg (List.Forall₂ · es fs) ?_)
  funext e f
  rw [Option.map_eq_some_iff, eq_iff_iff]
  constructor
  · rintro ⟨b, found, rfl⟩
    exact ⟨rfl, found⟩
  · rintro ⟨same, found⟩
    exact ⟨f.2, found, by rw [same]⟩

end Related

end QueryForge
