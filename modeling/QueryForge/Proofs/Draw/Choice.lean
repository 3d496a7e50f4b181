import Mathlib.Data.List.Forall2
import QueryForge.Proofs.Binary64.Rounding
import QueryForge.Proofs.Draw.Sampling

/-!
# Choices from lists

Each choice keeps within its list: a picked element is one of the list, and a subset keeps the
order of the list and has one element for every drawn position.
-/

namespace QueryForge.Draw

variable {α β : Type} {nan : Prop}

theorem chance_ensures {p : Double} (h : p.IsChanceOr nan) :
    (chance p).Ensures nan fun _ => True :=
  ⟨h.imp_right fun ⟨passed, undefined⟩ => ⟨passed, congrArg Request.chance undefined⟩,
    fun _ _ => trivial⟩

theorem isChance_of_isImpossible {p : Double} (h : p.IsImpossible) : p.IsChance := by
  cases p with
  | finite x =>
    have none : x.signedUnits = 0 := h
    rw [Double.IsChance, none]
    exact ⟨Int.le_refl 0, Int.natCast_nonneg _⟩
  | _ => cases h

theorem isChance_of_isCertain {p : Double} (h : p.IsCertain) : p.IsChance := by
  cases p with
  | finite x =>
    have all : x.signedUnits = Binary64.unitsPerOne := h
    rw [Double.IsChance, all]
    exact ⟨Int.natCast_nonneg _, Int.le_refl _⟩
  | _ => cases h

theorem chance_never {p : Double} (h : p.IsImpossible) :
    (chance p).Ensures nan fun answer => answer = false :=
  ⟨.inl (isChance_of_isImpossible h), fun _ permitted => permitted.1 h⟩

theorem chance_always {p : Double} (h : p.IsCertain) :
    (chance p).Ensures nan fun answer => answer = true :=
  ⟨.inl (isChance_of_isCertain h), fun _ permitted => permitted.2 h⟩

theorem even_isChance : Literal.even.IsChanceOr nan := .inl (by decide +kernel)

theorem within_ensures {low high : Int} (h : low ≤ high) :
    (within low high).Ensures nan fun i => low ≤ i ∧ i ≤ high :=
  ⟨.inl h, fun _ hi => hi⟩

theorem withinWide_ensures {low high : Int} (h : low ≤ high) :
    (withinWide low high).Ensures nan fun i => low ≤ i ∧ i ≤ high :=
  ⟨.inl h, fun _ hi => hi⟩

theorem word32_ensures : word32.Ensures nan fun _ => True := ⟨.inl trivial, fun _ _ => trivial⟩

theorem word64_ensures : word64.Ensures nan fun _ => True := ⟨.inl trivial, fun _ _ => trivial⟩

theorem fits_ensures {type : NumberType} {value : Int} (h : type.Holds value) :
    (fits type value).Ensures nan fun _ => True :=
  ⟨.inl h, fun _ _ => trivial⟩

theorem unit_ensures : unit.Ensures nan Binary64.IsFraction := by
  refine word64_ensures.bind fun word _ => .pure (Binary64.isFraction_ofFraction ?_)
  rw [Nat.shiftRight_eq_div_pow]
  have := word.toNat_lt
  omega

theorem sometimes_ensures {p : Double} (hp : p.IsChanceOr nan) {d : Draw α} {P : α → Prop}
    (h : d.Ensures nan P) : (sometimes p d).Ensures nan fun drawn => ∀ a, drawn = some a → P a := by
  refine (chance_ensures hp).bind fun wanted _ => ?_
  cases wanted with
  | true => exact h.map fun a ha b hb => Option.some.inj hb ▸ ha
  | false => exact .pure fun a ha => nomatch ha

theorem sometimes_always {p : Double} (h : p.IsCertain) {d : Draw α}
    {P : α → Prop} (hd : d.Ensures nan P) :
    (sometimes p d).Ensures nan fun drawn => ∃ a, drawn = some a ∧ P a := by
  refine (chance_always h).bind ?_
  rintro _ rfl
  exact hd.map fun a ha => ⟨a, rfl, ha⟩

theorem each_ensures {draw : α → Draw β} {P : α → β → Prop} {items : List α}
    (h : ∀ a ∈ items, (draw a).Ensures nan (P a)) :
    (each draw items).Ensures nan (List.Forall₂ P items) := by
  induction items with
  | nil => exact .pure .nil
  | cons a rest ih =>
    refine (h a List.mem_cons_self).bind fun b hb => ?_
    refine (ih fun c hc => h c (List.mem_cons_of_mem a hc)).bind fun bs hbs => ?_
    exact .pure (.cons hb hbs)

/-- Everything drawn was drawn for some element. -/
theorem exists_of_forall₂ {P : α → β → Prop} {items : List α} {drawn : List β}
    (h : List.Forall₂ P items drawn) : ∀ b ∈ drawn, ∃ a ∈ items, P a b := by
  induction h with
  | nil => exact fun b hb => (nomatch hb)
  | cons hab _ ih =>
    refine List.forall_mem_cons.2 ⟨⟨_, List.mem_cons_self, hab⟩, fun b hb => ?_⟩
    obtain ⟨a, ha, hp⟩ := ih b hb
    exact ⟨a, List.mem_cons_of_mem _ ha, hp⟩

theorem pick_ensures {choices : List α} (h : choices ≠ []) :
    (pick choices h).Ensures nan fun a => a ∈ choices := by
  have hl := List.length_pos_iff.2 h
  have range : (0 : Int) ≤ choices.length - 1 := by omega
  refine Ensures.bind (P := fun i : Int => 0 ≤ i ∧ i ≤ choices.length - 1)
    ⟨.inl range, fun _ hi => hi⟩ fun i hi => .pure ?_
  have hlt : i.toNat < choices.length := by omega
  rw [List.getD_eq_getElem?_getD, List.getElem?_eq_getElem hlt]
  exact List.getElem_mem hlt

theorem pickMaybe_ensures (choices : List α) :
    (pickMaybe choices).Ensures nan fun drawn =>
      (drawn = none ∧ choices = []) ∨ ∃ a ∈ choices, drawn = some a := by
  cases choices with
  | nil => exact .pure (.inl ⟨rfl, rfl⟩)
  | cons first rest => exact (pick_ensures _).map fun a ha => .inr ⟨a, ha, rfl⟩

/-- Every element may be picked. -/
theorem forall_of_pickMaybe {choices : List α} {P : Option α → Prop}
    (h : (pickMaybe choices).Ensures nan P) : ∀ a ∈ choices, P (some a) := by
  intro a ha
  cases choices with
  | nil => exact nomatch ha
  | cons first rest =>
    obtain ⟨i, hi, same⟩ := List.getElem_of_mem ha
    have range : (0 : Int) ≤ i ∧ (i : Int) ≤ (first :: rest).length - 1 := by omega
    have picked : P (some ((first :: rest).getD i first)) := h.2 (i : Int) range
    rwa [List.getD_eq_getElem?_getD, List.getElem?_eq_getElem hi, Option.getD_some, same] at picked

theorem smallNumber_ensures {max : Nat} (h : max < 2 ^ 64) :
    (smallNumber max).Ensures nan fun n => n ≤ max := by
  refine unit_ensures.bind fun a ha => unit_ensures.bind fun b hb => ?_
  have word := Binary64.floor_mul_succ_lt (ha.mul hb) h
  have holds : NumberType.unsigned64.Holds (a * b * (.ofNat max + .ofNat 1)).floor := by
    unfold NumberType.Holds
    omega
  exact (fits_ensures holds).bind fun _ _ => .pure (Nat.min_le_right _ _)

theorem subset_ensures (choices : List α) (amount : Nat) :
    (subset choices amount).Ensures nan fun drawn =>
      drawn.Sublist choices ∧ drawn.length = min amount choices.length :=
  (subset_rangesOver choices amount).ensures.mono fun _ => isOrderedSample_iff.1

theorem nonemptySubset_ensures (choices : List α) :
    (nonemptySubset choices).Ensures nan fun drawn =>
      drawn.Sublist choices ∧ (choices ≠ [] → drawn ≠ []) := by
  refine (nonemptySubset_rangesOver choices).ensures.mono fun drawn h => ⟨h.sublist, ?_⟩
  intro nonempty
  exact List.length_pos_iff.1 (h.bounds nonempty).1

end QueryForge.Draw
