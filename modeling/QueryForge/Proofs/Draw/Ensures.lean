import QueryForge.Select.Random.Source

/-!
# What a draw ensures

A draw ensures a property if every request on its way is sound and every result satisfies the
property, whatever permitted answers the requests get. A building draw must besides not be refused
by a setter. The rules follow the ways in which draws are put together, so each generator has one
specification and its callers do not look inside it.
-/

namespace QueryForge

/-- A probability, or a NaN if such are let pass. -/
def Double.IsChanceOr (nan : Prop) (p : Double) : Prop := p.IsChance ∨ nan ∧ p = .nan

theorem Double.IsChanceOr.of_mem {p : Double} {chances : List Double} (h : p.IsChance ∨ p = .nan)
    (mem : p ∈ chances) : p.IsChanceOr (.nan ∈ chances) := by
  rcases h with chance | rfl
  · exact .inl chance
  · exact .inr ⟨mem, rfl⟩

/-- A well-formed request. If `nan` holds, a chance that is a NaN is let pass, the one ill-formed
request that options can lead to. -/
def Request.Sound (nan : Prop) (r : Request) : Prop := r.WellFormed ∨ nan ∧ r = .chance .nan

namespace Draw

variable {α β : Type} {nan : Prop}

/-- All requests on the way are sound, and whatever permitted answers they get, the result has the
property. -/
def Ensures (nan : Prop) (d : Draw α) (P : α → Prop) : Prop :=
  match d with
  | .done value => P value
  | .ask request next =>
    request.Sound nan ∧ ∀ answer, request.Permits answer → (next answer).Ensures nan P

theorem bind_bind {γ : Type} (d : Draw α) (f : α → Draw β) (g : β → Draw γ) :
    d >>= f >>= g = d >>= fun a => f a >>= g := by
  induction d with
  | done value => rfl
  | ask request next ih => exact congrArg (Draw.ask request) (funext ih)

instance : LawfulMonad Draw := by
  refine LawfulMonad.mk' Draw ?_ (fun _ _ => rfl) bind_bind
  intro α d
  induction d with
  | done value => rfl
  | ask request next ih => exact congrArg (Draw.ask request) (funext ih)

theorem ensures_bind {d : Draw α} {f : α → Draw β} {P : β → Prop} :
    (d >>= f).Ensures nan P ↔ d.Ensures nan fun a => (f a).Ensures nan P := by
  induction d with
  | done value => rfl
  | ask request next ih =>
    have step : (Draw.ask request next >>= f).Ensures nan P ↔ request.Sound nan ∧
        ∀ answer, request.Permits answer → (next answer >>= f).Ensures nan P := Iff.rfl
    rw [step]
    simp only [Ensures, ih]

theorem ensures_map {d : Draw α} {f : α → β} {P : β → Prop} :
    (f <$> d).Ensures nan P ↔ d.Ensures nan fun a => P (f a) :=
  ensures_bind

namespace Ensures

theorem pure {a : α} {P : α → Prop} (h : P a) : (Pure.pure a : Draw α).Ensures nan P := h

theorem mono {d : Draw α} {P Q : α → Prop} (h : d.Ensures nan P) (hq : ∀ a, P a → Q a) :
    d.Ensures nan Q := by
  induction d with
  | done value => exact hq value h
  | ask request next ih => exact ⟨h.1, fun answer ha => ih answer (h.2 answer ha)⟩

/-- A NaN may be let pass even if there is none. -/
theorem relax {passes : Prop} {d : Draw α} {P : α → Prop} (h : d.Ensures nan P)
    (hn : nan → passes) : d.Ensures passes P := by
  induction d with
  | done value => exact h
  | ask request next ih =>
    exact ⟨h.1.imp_right (And.imp_left hn), fun answer ha => ih answer (h.2 answer ha)⟩

theorem and {d : Draw α} {P Q : α → Prop} (hp : d.Ensures nan P) (hq : d.Ensures nan Q) :
    d.Ensures nan fun a => P a ∧ Q a := by
  induction d with
  | done value => exact ⟨hp, hq⟩
  | ask request next ih =>
    exact ⟨hp.1, fun answer ha => ih answer (hp.2 answer ha) (hq.2 answer ha)⟩

theorem bind {d : Draw α} {f : α → Draw β} {P : α → Prop} {Q : β → Prop} (h : d.Ensures nan P)
    (hf : ∀ a, P a → (f a).Ensures nan Q) : (d >>= f).Ensures nan Q :=
  ensures_bind.2 (h.mono hf)

theorem map {d : Draw α} {f : α → β} {P : α → Prop} {Q : β → Prop} (h : d.Ensures nan P)
    (hf : ∀ a, P a → Q (f a)) : (f <$> d).Ensures nan Q :=
  ensures_map.2 (h.mono hf)

/-- What follows a conditional draw is written into both of its branches. -/
theorem branch {p : Prop} [Decidable p] {x y : Draw α} {f : α → Draw β} {P : α → Prop}
    {Q : β → Prop} (h : (if p then x else y).Ensures nan P) (hf : ∀ a, P a → (f a).Ensures nan Q) :
    (if p then x >>= f else y >>= f).Ensures nan Q := by
  split
  · next hp =>
    rw [if_pos hp] at h
    exact bind h hf
  · next hp =>
    rw [if_neg hp] at h
    exact bind h hf

end Ensures
end Draw

namespace Building

variable {α β : Type} {nan : Prop}

/-- The draw ensures that the building succeeds with a value of the property. -/
def Ensures (nan : Prop) (x : Building α) (P : α → Prop) : Prop :=
  Draw.Ensures nan x.run fun result => ∃ a, result = .ok a ∧ P a

namespace Ensures

theorem pure {a : α} {P : α → Prop} (h : P a) : (Pure.pure a : Building α).Ensures nan P :=
  ⟨a, rfl, h⟩

theorem ofOk {e : Except BuildError α} {a : α} {P : α → Prop} (he : e = .ok a) (h : P a) :
    (ofExcept e).Ensures nan P :=
  ⟨a, he, h⟩

theorem lift {d : Draw α} {P : α → Prop} (h : d.Ensures nan P) :
    (liftM d : Building α).Ensures nan P :=
  Draw.Ensures.bind h fun a ha => ⟨a, rfl, ha⟩

theorem bind {x : Building α} {f : α → Building β} {P : α → Prop} {Q : β → Prop}
    (h : x.Ensures nan P) (hf : ∀ a, P a → (f a).Ensures nan Q) : (x >>= f).Ensures nan Q := by
  refine Draw.Ensures.bind h ?_
  rintro _ ⟨a, rfl, ha⟩
  exact hf a ha

theorem mono {x : Building α} {P Q : α → Prop} (h : x.Ensures nan P) (hq : ∀ a, P a → Q a) :
    x.Ensures nan Q :=
  Draw.Ensures.mono h fun _ ⟨a, he, ha⟩ => ⟨a, he, hq a ha⟩

theorem relax {passes : Prop} {x : Building α} {P : α → Prop} (h : x.Ensures nan P)
    (hn : nan → passes) : x.Ensures passes P :=
  Draw.Ensures.relax h hn

/-- A setter that accepts its call, in front of a building draw. -/
theorem bindOk {e : Except BuildError α} {a : α} {f : α → Building β} {Q : β → Prop}
    (he : e = .ok a) (hf : (f a).Ensures nan Q) : (ofExcept e >>= f).Ensures nan Q := by
  subst he
  exact hf

theorem branch {p : Prop} [Decidable p] {x y : Building α} {f : α → Building β} {P : α → Prop}
    {Q : β → Prop} (h : (if p then x else y).Ensures nan P) (hf : ∀ a, P a → (f a).Ensures nan Q) :
    (if p then x >>= f else y >>= f).Ensures nan Q := by
  split
  · next hp =>
    rw [if_pos hp] at h
    exact bind h hf
  · next hp =>
    rw [if_neg hp] at h
    exact bind h hf

theorem of_bindLift {d : Draw α} {f : α → Building β} {Q : β → Prop}
    (h : ((liftM d : Building α) >>= f).Ensures nan Q) :
    d.Ensures nan fun a => (f a).Ensures nan Q :=
  Draw.ensures_map.1 (Draw.ensures_bind.1 h)

/-- A draw in front of a building draw. -/
theorem bindLift {d : Draw α} {f : α → Building β} {P : α → Prop} {Q : β → Prop}
    (h : d.Ensures nan P) (hf : ∀ a, P a → (f a).Ensures nan Q) :
    ((liftM d : Building α) >>= f).Ensures nan Q :=
  bind (lift h) hf

end Ensures
end Building
end QueryForge
