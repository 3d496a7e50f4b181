import QueryForge.Proofs.AlterTable.Drawn
import QueryForge.Proofs.Select.Acceptance

/-!
# Runs of the generators

What a run asks for depends on the words that it is answered with. Whatever they are, with checked
options every request makes sense: probabilities are from zero to one, ranges and lists to pick from
are not empty, no more positions are asked for than a list has, and no computed number leaves its
type. The exception is a chance that is a NaN. It passes the check, and the chances that a generator
starts with are asked about in every run.
-/

namespace QueryForge

namespace Draw

variable {α β σ : Type} {nan : Prop} (source : WordSource σ)

/-- The requests of a run on a source of words, in order. -/
def requests : Draw α → σ → List Request
  | .done _, _ => []
  | .ask request next, s =>
    let (answer, s) := source.answer request s
    request :: (next answer).requests s

/-- A run meets no other requests than those that some permitted answers lead to. -/
theorem Ensures.sound {d : Draw α} {P : α → Prop} (h : d.Ensures nan P) (s : σ) :
    ∀ r ∈ d.requests source s, r.Sound nan := by
  induction d generalizing s with
  | done value =>
    intro r hr
    exact nomatch hr
  | ask request next ih =>
    obtain ⟨sound, rest⟩ := h
    intro r hr
    rcases List.mem_cons.1 hr with rfl | later
    · exact sound
    · exact ih _ (rest _ (source.answer_permits sound s)) _ r later

theorem requests_bind (d : Draw α) (f : α → Draw β) (s : σ) :
    (d >>= f).requests source s =
      d.requests source s ++ (f (d.run source s).1).requests source (d.run source s).2 := by
  induction d generalizing s with
  | done value => rfl
  | ask request next ih => exact congrArg (request :: ·) (ih _ _)

end Draw

namespace Building

variable {α β σ : Type} {source : WordSource σ} {r : Request} {s : σ}

theorem mem_requests_bind {x : Building α} {f : α → Building β}
    (h : r ∈ x.run.requests source s) : r ∈ (x >>= f).run.requests source s := by
  change r ∈ Draw.requests source (x.run >>= _) s
  rw [Draw.requests_bind]
  exact List.mem_append_left _ h

theorem mem_requests_bindLift {d : Draw α} {f : α → Building β}
    (h : r ∈ (f (d.run source s).1).run.requests source (d.run source s).2) :
    r ∈ ((liftM d : Building α) >>= f).run.requests source s := by
  change r ∈ Draw.requests source (ExceptT.lift d >>= f).run s
  rw [ExceptT.run_bind_lift, Draw.requests_bind]
  exact List.mem_append_right _ h

end Building

namespace Options

/-- With a table to read, the first chance is that of a WITH clause. -/
theorem chance_mem_requests_select {tables : List Table} (nonempty : tables ≠ [])
    (o : QueryOptions) {σ : Type} (source : WordSource σ) (s : σ) :
    .chance o.withChance ∈ (Select.random tables o).run.requests source s := by
  cases tables with
  | nil => exact absurd rfl nonempty
  | cons first rest =>
    refine Building.mem_requests_bindLift ?_
    refine Building.mem_requests_bind (Building.mem_requests_bind ?_)
    exact List.mem_cons_self

theorem chance_mem_requests_alter (t : Table) (o : AlterOptions) {σ : Type} (source : WordSource σ)
    (s : σ) : .chance o.fullSubsetChance ∈ (AlterTableQuery.random t o).requests source s := by
  change _ ∈ Draw.requests source (ActionKind.randomList o >>= _) s
  rw [Draw.requests_bind]
  exact List.mem_append_left _ List.mem_cons_self

/-- With checked options a generator makes no request that cannot be answered but for chances that
are NaNs, whatever the catalog, the table and the words are. It does ask about such a chance if it
is the first one. -/
theorem generation_wellFormed_or_nan {o : Options} (checked : o.check = .ok ()) (schema : Schema)
    (table : Table) {σ : Type} (source : WordSource σ) (state : σ) :
    (∀ r ∈ (Select.random schema.tables o.query).run.requests source state,
      r.WellFormed ∨ o.query.HasNaN ∧ r = .chance .nan) ∧
    (∀ r ∈ (SelectQuery.random schema.tables o.query).run.requests source state,
      r.WellFormed ∨ o.query.HasNaN ∧ r = .chance .nan) ∧
    (∀ r ∈ (AlterTableQuery.random table o.alterTable).requests source state,
      r.WellFormed ∨ o.alterTable.HasNaN ∧ r = .chance .nan) ∧
    (o.query.withChance = .nan → schema.tables ≠ [] →
      .chance .nan ∈ (Select.random schema.tables o.query).run.requests source state) ∧
    (o.alterTable.fullSubsetChance = .nan →
      .chance .nan ∈ (AlterTableQuery.random table o.alterTable).requests source state) := by
  obtain ⟨query, alterTable⟩ := check_eq_ok_iff.1 checked
  have select := Select.random_ensures query schema.tables
  have selectQuery : (SelectQuery.random schema.tables o.query).Ensures o.query.HasNaN
      fun _ => True :=
    .bind select fun _ _ => .pure trivial
  have alter : (AlterTableQuery.random table o.alterTable).Ensures o.alterTable.HasNaN
      fun _ => True := by
    rw [← AlterTableQuery.snd_randomTraced]
    exact (AlterTableQuery.randomTraced_ensures alterTable table).map fun _ _ => trivial
  refine ⟨select.sound source state, selectQuery.sound source state, alter.sound source state,
    fun undefined nonempty => ?_, fun undefined => ?_⟩
  · have first := chance_mem_requests_select nonempty o.query source state
    rwa [undefined] at first
  · have first := chance_mem_requests_alter table o.alterTable source state
    rwa [undefined] at first

/-- The greatest limits that pass the check. -/
def extreme : Options :=
  { query := { maxLimit := .ofNat (2 ^ 64 - 1) },
    alterTable := { smallNumberMax := .ofNat (2 ^ 64 - 1) } }

/-- A table without columns, and one of the same name with a repeated column. -/
def degenerate : Schema :=
  ⟨[⟨"t", [], []⟩, ⟨"t", [{ name := "a", type := .int }, { name := "a", type := .text }], []⟩]⟩

/-- Words whose bits are all set. -/
def greatestWords : WordSource Unit where
  next32 _ := (.ofNat (2 ^ 32 - 1), ())
  next64 _ := (.ofNat (2 ^ 64 - 1), ())

/-- The number computed for the greatest bound is still a number of 64 bits. -/
theorem extreme_generation_wellFormed :
    extreme.check = .ok () ∧
      .fits .unsigned64 18446744073709547520 ∈
        (AlterTableQuery.random ⟨"t", [], []⟩ extreme.alterTable).requests greatestWords () ∧
      (∀ r ∈ (SelectQuery.random degenerate.tables extreme.query).run.requests greatestWords (),
        r.WellFormed) ∧
      ∀ r ∈ (AlterTableQuery.random ⟨"t", [], []⟩ extreme.alterTable).requests greatestWords (),
        r.WellFormed := by
  have checked : extreme.check = .ok () := by decide +kernel
  have computed : Request.fits .unsigned64 18446744073709547520 ∈
      (AlterTableQuery.random ⟨"t", [], []⟩ extreme.alterTable).requests greatestWords () := by
    decide +kernel
  have query : ¬extreme.query.HasNaN := by decide +kernel
  have alterTable : ¬extreme.alterTable.HasNaN := by decide +kernel
  obtain ⟨-, sound, sound', -⟩ :=
    generation_wellFormed_or_nan checked degenerate ⟨"t", [], []⟩ greatestWords ()
  exact ⟨checked, computed, fun r hr => (sound r hr).resolve_right (mt And.left query),
    fun r hr => (sound' r hr).resolve_right (mt And.left alterTable)⟩

/-- Default options apart from the chance of a WITH clause, which is a NaN. -/
def undefinedChance : Options where
  query := { withChance := .nan }

/-- Options with a NaN pass the check, and then it is asked whether to draw a WITH clause with a
probability that is none. -/
theorem undefinedChance_not_wellFormed :
    undefinedChance.check = .ok () ∧
      ∃ r ∈ (Select.random [⟨"t", [], []⟩] undefinedChance.query).run.requests greatestWords (),
        ¬r.WellFormed := by
  have asked : Request.chance .nan ∈
      (Select.random [⟨"t", [], []⟩] undefinedChance.query).run.requests greatestWords () :=
    chance_mem_requests_select (by decide) undefinedChance.query greatestWords ()
  exact ⟨by decide +kernel, .chance .nan, asked, id⟩

end Options
end QueryForge
