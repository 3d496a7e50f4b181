import Mathlib.Data.Fin.Basic
import Mathlib.Data.List.FinRange
import Mathlib.Data.List.Sort
import Mathlib.Data.Set.List
import QueryForge.Draw.Choice
import QueryForge.Proofs.Draw.Answers

/-!
# Samples of a list

A sample has one element for each of its positions, which are all different. So equal elements of
the list may both be taken, and no element is taken twice. A subset goes through its positions from
the first to the last one, which makes it a sublist. The draws give such samples and no others, and
every one of them can be drawn.
-/

namespace QueryForge.Draw

variable {α β : Type} {nan : Prop}

/-- All requests on the way are well-formed, and the results are exactly the values of the property:
the draw ensures what these have in common and nothing more. -/
def RangesOver (d : Draw α) (P : α → Prop) : Prop :=
  ∀ Q : α → Prop, d.Ensures False Q ↔ ∀ a, P a → Q a

namespace RangesOver

variable {d : Draw α} {P : α → Prop}

theorem ensures (h : d.RangesOver P) : d.Ensures nan P := ((h P).2 fun _ ha => ha).relax False.elim

theorem run (h : d.RangesOver P) {σ : Type} (source : WordSource σ) (s : σ) :
    P (d.run source s).1 := by
  have strict : d.Ensures False P := h.ensures
  exact strict.run source s

theorem congr {P' : α → Prop} (h : d.RangesOver P) (same : ∀ a, P a ↔ P' a) : d.RangesOver P' := by
  intro Q
  simp only [h Q, same]

theorem pure (a : α) : (Pure.pure a : Draw α).RangesOver fun b => a = b := by
  intro Q
  constructor
  · rintro h _ rfl
    exact h
  · intro h
    exact h a rfl

theorem request {r : Request} (h : r.WellFormed) : (Draw.request r).RangesOver r.Permits :=
  fun _ => and_iff_right (.inl h)

theorem bind {f : α → Draw β} {R : α → β → Prop} (h : d.RangesOver P)
    (hf : ∀ a, P a → (f a).RangesOver (R a)) : (d >>= f).RangesOver fun b => ∃ a, P a ∧ R a b := by
  intro Q
  calc (d >>= f).Ensures False Q ↔ ∀ a, P a → (f a).Ensures False Q := ensures_bind.trans (h _)
    _ ↔ ∀ a, P a → ∀ b, R a b → Q b := forall₂_congr fun a ha => hf a ha Q
    _ ↔ ∀ b, (∃ a, P a ∧ R a b) → Q b := by
      constructor
      · rintro all b ⟨a, ha, hb⟩
        exact all a ha b hb
      · intro all a ha b hb
        exact all b ⟨a, ha, hb⟩

end RangesOver

section Samples

variable {choices taken : List α} {amount : Nat}

/-- The elements at that many different positions of a list, in any order. -/
def IsSample (choices : List α) (amount : Nat) (taken : List α) : Prop :=
  ∃ places : List (Fin choices.length),
    places.Nodup ∧ places.length = amount ∧ places.map (choices[·]) = taken

/-- The elements at that many positions of a list, from the first of them to the last. -/
def IsOrderedSample (choices : List α) (amount : Nat) (taken : List α) : Prop :=
  ∃ places : List (Fin choices.length),
    places.Pairwise (· < ·) ∧ places.length = amount ∧ places.map (choices[·]) = taken

theorem isOrderedSample_iff :
    IsOrderedSample choices amount taken ↔ taken.Sublist choices ∧ taken.length = amount := by
  constructor
  · rintro ⟨places, increasing, rfl, rfl⟩
    exact ⟨List.map_getElem_sublist increasing, List.length_map _⟩
  · rintro ⟨sublist, rfl⟩
    obtain ⟨places, rfl, increasing⟩ := List.sublist_eq_map_getElem sublist
    exact ⟨places, increasing, (List.length_map _).symm, rfl⟩

/-- A part of a list in the order of the list, which is empty only for the empty list. -/
structure IsNonemptySubset (choices taken : List α) : Prop where
  sublist : taken.Sublist choices
  empty : choices = [] → taken = []
  bounds : choices ≠ [] → 1 ≤ taken.length ∧ taken.length ≤ choices.length

/-- The permitted answers are the lists of different positions. -/
theorem permits_positions_iff {length : Nat} {drawn : List Nat} :
    (Request.positions length amount).Permits drawn ↔
      ∃ places : List (Fin length),
        places.Nodup ∧ places.length = amount ∧ places.map Fin.val = drawn := by
  constructor
  · rintro ⟨amounts, distinct, below⟩
    lift drawn to List (Fin length) using below
    exact ⟨drawn, distinct.of_map _, (List.length_map _).symm.trans amounts, rfl⟩
  · rintro ⟨places, distinct, amounts, rfl⟩
    refine ⟨(List.length_map _).trans amounts, distinct.map Fin.val_injective, ?_⟩
    intro i hi
    obtain ⟨place, -, rfl⟩ := List.mem_map.1 hi
    exact place.isLt

theorem filterMap_places (choices : List α) (places : List (Fin choices.length)) :
    (places.map Fin.val).filterMap (choices.toArray[·]?) = places.map (choices[·]) := by
  rw [List.filterMap_map, ← List.filterMap_eq_map]
  refine List.filterMap_congr fun i _ => ?_
  simp

theorem zipIdx_eq_map (choices : List α) :
    choices.zipIdx = (List.finRange choices.length).map fun i => (choices[i], i.val) := by
  refine List.ext_getElem (by simp) fun i _ _ => ?_
  simp

/-- The positions of a list that were drawn come in the order in which sorting puts them. -/
theorem filter_finRange_eq_mergeSort {n : Nat} {places : List (Fin n)} (distinct : places.Nodup) :
    (List.finRange n).filter (· ∈ places) = places.mergeSort := by
  have kept : ((List.finRange n).filter (· ∈ places)).Perm places := by
    refine (List.perm_ext_iff_of_nodup ((List.nodup_finRange n).filter _) distinct).2 fun i => ?_
    simp
  have increasing : ((List.finRange n).filter (· ∈ places)).Pairwise (· ≤ ·) :=
    ((List.pairwise_lt_finRange n).filter _).imp Fin.le_of_lt
  exact (kept.trans (List.mergeSort_perm places _).symm).eq_of_pairwise
    (fun _ _ _ _ => Fin.le_antisymm) increasing (List.pairwise_mergeSort' (· ≤ ·) places)

/-- Going through the list and keeping what was drawn gives the same elements as sorting the
positions first and then looking up each. -/
theorem atPositions_eq_mergeSort {places : List (Fin choices.length)} (distinct : places.Nodup) :
    atPositions choices (places.map Fin.val) = places.mergeSort.map (choices[·]) := by
  have kept : ((fun item : α × Nat => (places.map Fin.val).contains item.2) ∘
      fun i : Fin choices.length => (choices[i], i.val)) = fun i => decide (i ∈ places) := by
    funext i
    simp [Fin.val_inj]
  rw [atPositions, zipIdx_eq_map, List.filter_map, List.map_map, kept,
    filter_finRange_eq_mergeSort distinct]
  rfl

example : atPositions ['a', 'b', 'a'] [2, 0] = ['a', 'a'] := by decide

/-- Whatever different positions are drawn, the subset is one of the list, and each subset comes
from drawing its positions in their order. -/
theorem exists_atPositions_iff :
    (∃ drawn, (Request.positions choices.length amount).Permits drawn ∧
      atPositions choices drawn = taken) ↔ IsOrderedSample choices amount taken := by
  constructor
  · rintro ⟨drawn, permitted, rfl⟩
    obtain ⟨places, distinct, rfl, rfl⟩ := permits_positions_iff.1 permitted
    have sorted : places.mergeSort.Pairwise (· ≤ ·) := List.pairwise_mergeSort' (· ≤ ·) places
    have different := (List.mergeSort_perm places (· ≤ ·)).nodup_iff.2 distinct
    have increasing : places.mergeSort.Pairwise (· < ·) :=
      (sorted.and different).imp fun ⟨le, ne⟩ => lt_of_le_of_ne le ne
    exact ⟨places.mergeSort, increasing, (List.mergeSort_perm places _).length_eq,
      (atPositions_eq_mergeSort distinct).symm⟩
  · rintro ⟨places, increasing, amounts, rfl⟩
    have distinct : places.Nodup := increasing.imp Fin.ne_of_lt
    have sorted : places.mergeSort = places :=
      List.mergeSort_of_pairwise (increasing.imp fun lt => decide_eq_true (Fin.le_of_lt lt))
    refine ⟨places.map Fin.val, permits_positions_iff.2 ⟨places, distinct, amounts, rfl⟩, ?_⟩
    rw [atPositions_eq_mergeSort distinct, sorted]

/-- A pick takes the elements at the drawn positions as they come. -/
theorem exists_filterMap_iff :
    (∃ drawn : List Nat, (Request.positions choices.length amount).Permits drawn ∧
      drawn.filterMap (choices.toArray[·]?) = taken) ↔ IsSample choices amount taken := by
  constructor
  · rintro ⟨drawn, permitted, rfl⟩
    obtain ⟨places, distinct, amounts, rfl⟩ := permits_positions_iff.1 permitted
    exact ⟨places, distinct, amounts, (filterMap_places choices places).symm⟩
  · rintro ⟨places, distinct, amounts, rfl⟩
    exact ⟨places.map Fin.val, permits_positions_iff.2 ⟨places, distinct, amounts, rfl⟩,
      filterMap_places choices places⟩

end Samples

theorem subset_rangesOver (choices : List α) (amount : Nat) :
    (subset choices amount).RangesOver (IsOrderedSample choices (min amount choices.length)) := by
  have drawn : (positions choices.length (min amount choices.length)).RangesOver _ :=
    .request (Nat.min_le_right _ _)
  exact (drawn.bind fun drawn _ => .pure (atPositions choices drawn)).congr fun _ =>
    exists_atPositions_iff

theorem pickDistinct_rangesOver (choices : List α) (amount : Nat) :
    (pickDistinct choices amount).RangesOver (IsSample choices (min amount choices.length)) := by
  have drawn : (positions choices.length (min amount choices.length)).RangesOver _ :=
    .request (Nat.min_le_right _ _)
  exact (drawn.bind fun drawn _ => .pure (drawn.filterMap (choices.toArray[·]?))).congr fun _ =>
    exists_filterMap_iff

theorem nonemptySubset_rangesOver (choices : List α) :
    (nonemptySubset choices).RangesOver (IsNonemptySubset choices) := by
  unfold nonemptySubset
  split
  · next h =>
    obtain rfl := List.isEmpty_iff.1 h
    refine (RangesOver.pure []).congr fun taken => ?_
    constructor
    · rintro rfl
      exact ⟨.slnil, fun _ => rfl, fun ne => absurd rfl ne⟩
    · intro h
      exact (h.empty rfl).symm
  · next h =>
    have nonempty : choices ≠ [] := fun he => h (List.isEmpty_iff.2 he)
    have hl := List.length_pos_iff.2 nonempty
    have range : (Request.within (.ofPosition choices.length) 1 choices.length).WellFormed := by
      change (1 : Int) ≤ choices.length
      omega
    refine ((RangesOver.request range).bind fun size _ =>
      subset_rangesOver choices size.toNat).congr fun taken => ?_
    simp only [isOrderedSample_iff]
    constructor
    · rintro ⟨size, ⟨least, greatest⟩, sublist, length⟩
      exact ⟨sublist, fun he => absurd he nonempty, fun _ => by omega⟩
    · rintro ⟨sublist, -, bounds⟩
      obtain ⟨least, greatest⟩ := bounds nonempty
      -- the size that is drawn first can be that of any sublist, which is then not cut
      have permitted : (1 : Int) ≤ taken.length ∧ (taken.length : Int) ≤ choices.length := by omega
      exact ⟨taken.length, permitted, sublist, by omega⟩

/-- A subset and a pick of different elements have as many elements as were asked for, or all of
the list. Whatever the words are, the elements stand at different positions, those of a subset in
the order of the list. Every choice of that kind can be drawn. -/
theorem sampling_sound (choices : List α) (amount : Nat) :
    (subset choices amount).RangesOver (IsOrderedSample choices (min amount choices.length)) ∧
    (∀ size taken, IsOrderedSample choices size taken ↔
      taken.Sublist choices ∧ taken.length = size) ∧
    (nonemptySubset choices).RangesOver (IsNonemptySubset choices) ∧
    (pickDistinct choices amount).RangesOver (IsSample choices (min amount choices.length)) ∧
    ∀ {σ : Type} (source : WordSource σ) (state : σ),
      IsOrderedSample choices (min amount choices.length)
        ((subset choices amount).run source state).1 ∧
      IsNonemptySubset choices ((nonemptySubset choices).run source state).1 ∧
      IsSample choices (min amount choices.length)
        ((pickDistinct choices amount).run source state).1 := by
  have ordered := subset_rangesOver choices amount
  have nonempty := nonemptySubset_rangesOver choices
  have distinct := pickDistinct_rangesOver choices amount
  exact ⟨ordered, fun _ _ => isOrderedSample_iff, nonempty, distinct, fun source state =>
    ⟨ordered.run source state, nonempty.run source state, distinct.run source state⟩⟩

end QueryForge.Draw
