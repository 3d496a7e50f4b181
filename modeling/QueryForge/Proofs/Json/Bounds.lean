import QueryForge.Proofs.Json.Views

/-!
# What decoders yield

A decoder yields a property if whatever it decodes has it, and it is bounded by a way of writing if
what it decodes is written with no more levels than it had, however it was spelled. As with reading,
records, variants, lists and optional values inherit both from their parts.
-/

namespace QueryForge.Json

variable {α β : Type} {d : Decoder α} {j : Json} {a : α}

/-- Whatever is decoded has the property. -/
def Yields (d : Decoder α) (P : α → Prop) : Prop := ∀ r j a, d r j = some a → P a

/-- What is decoded with some number of levels is written with no more. -/
def Bounded (d : Decoder α) (dump : α → Json) : Prop :=
  ∀ r j a, d r j = some a → (dump a).depth ≤ r.levels

theorem Reading.enter_eq_some {r inner : Reading} :
    r.enter = some inner ↔ r.origin = inner.origin ∧ r.levels = inner.levels + 1 := by
  obtain ⟨origin, levels⟩ := r
  obtain ⟨origin', levels'⟩ := inner
  cases levels <;> simp [Reading.enter]

/-- No document denotes an infinity or a NaN. -/
theorem decoded_double : Yields Decoder.double Double.IsFinite := by
  intro r j x read
  obtain ⟨y, -, rfl⟩ := Option.map_eq_some_iff.1 read
  exact trivial

/-- What is written without arrays and objects needs no levels. -/
theorem Bounded.leaf {f : α → Json} (h : ∀ a, (f a).depth = 0) : Bounded d f :=
  fun r _ a _ => (h a).symm ▸ Nat.zero_le r.levels

theorem mapM_eq_some_forall {f : β → Option α} {P : α → Prop} {bs : List β} {as : List α}
    (each : ∀ b a, f b = some a → P a) (h : bs.mapM f = some as) : ∀ a ∈ as, P a := by
  induction bs generalizing as with
  | nil =>
    obtain rfl := Option.some.inj h
    exact fun _ mem => absurd mem List.not_mem_nil
  | cons b bs ih =>
    simp only [List.mapM_cons, Option.bind_eq_bind, Option.pure_def, Option.bind_eq_some_iff,
      Option.some.injEq] at h
    obtain ⟨first, read, others, reads, rfl⟩ := h
    exact List.forall_mem_cons.2 ⟨each b first read, ih reads⟩

theorem Yields.list {P : α → Prop} (h : Yields d P) :
    Yields (Decoder.list d) fun as => ∀ a ∈ as, P a := by
  intro r j as read
  cases j with
  | array items =>
    obtain ⟨inner, -, each⟩ := Option.bind_eq_some_iff.1 read
    exact mapM_eq_some_forall (h inner) each
  | _ => cases read

theorem Bounded.list {f : α → Json} (h : Bounded d f) :
    Bounded (Decoder.list d) fun as => .array (as.map f) := by
  intro r j as read
  cases j with
  | array items =>
    obtain ⟨inner, enter, each⟩ := Option.bind_eq_some_iff.1 read
    rw [(Reading.enter_eq_some.1 enter).2, depth_array_le]
    intro item hi
    obtain ⟨a, ha, rfl⟩ := List.mem_map.1 hi
    exact mapM_eq_some_forall (h inner) each a ha
  | _ => cases read

theorem bounded_ofStrings : Bounded (Decoder.list Decoder.string) ofStrings :=
  Bounded.list (.leaf fun _ => rfl)

theorem Yields.entries {P : α → Prop} (h : Yields d P) :
    Yields (Decoder.entries d) fun es => ∀ e ∈ es, P e.2 := by
  intro r j es read
  cases j with
  | object members =>
    obtain ⟨inner, -, each⟩ := Option.bind_eq_some_iff.1 read
    refine mapM_eq_some_forall (fun member e read => ?_) each
    obtain ⟨a, found, rfl⟩ := Option.map_eq_some_iff.1 read
    exact h inner member.2 a found
  | _ => cases read

theorem Bounded.entries {f : α → Json} (h : Bounded d f) :
    Bounded (Decoder.entries d) fun es => .object (es.map fun e => (e.1, f e.2)) := by
  intro r j es read
  cases j with
  | object members =>
    obtain ⟨inner, enter, each⟩ := Option.bind_eq_some_iff.1 read
    rw [(Reading.enter_eq_some.1 enter).2, depth_object_le]
    intro member hm
    obtain ⟨e, he, rfl⟩ := List.mem_map.1 hm
    refine mapM_eq_some_forall (P := fun e => (f e.2).depth ≤ inner.levels) ?_ each e he
    intro member e read
    obtain ⟨a, found, rfl⟩ := Option.map_eq_some_iff.1 read
    exact h inner member.2 a found
  | _ => cases read

theorem Yields.required {P : α → Prop} (h : Yields d P) {fs : Fields} {slot : Option Json}
    (read : fs.required d slot = some a) : P a := by
  obtain ⟨j, _, found⟩ := Option.bind_eq_some_iff.1 read
  exact h fs.inner j a found

theorem Yields.nullable {P : α → Prop} (h : Yields d P) :
    Yields d.nullable fun x => ∀ a, x = some a → P a := by
  rintro r j _ read a rfl
  unfold Decoder.nullable at read
  split at read
  · cases read
  · obtain ⟨b, found, same⟩ := Option.map_eq_some_iff.1 read
    exact h r j a (Option.some.inj same ▸ found)

theorem Yields.optional {P : α → Prop} (h : Yields d P) {fs : Fields} {slot : Option Json}
    {x : Option α} (read : fs.optional d slot = some x) : ∀ a, x = some a → P a := by
  cases slot with
  | none =>
    obtain rfl := Option.some.inj read
    exact fun a none => nomatch none
  | some j => exact h.nullable fs.inner j x read

theorem Bounded.required {f : α → Json} (h : Bounded d f) {fs : Fields} {slot : Option Json}
    (read : fs.required d slot = some a) : (f a).depth ≤ fs.inner.levels := by
  obtain ⟨j, _, found⟩ := Option.bind_eq_some_iff.1 read
  exact h fs.inner j a found

theorem Bounded.nullable {f : α → Json} (h : Bounded d f) {r : Reading} {x : Option α}
    (read : d.nullable r j = some x) : (ofOption f x).depth ≤ r.levels := by
  cases x with
  | none => exact Nat.zero_le _
  | some a =>
    unfold Decoder.nullable at read
    split at read
    · cases read
    · obtain ⟨b, found, same⟩ := Option.map_eq_some_iff.1 read
      exact h r j a (Option.some.inj same ▸ found)

theorem Bounded.optional {f : α → Json} (h : Bounded d f) {fs : Fields} {slot : Option Json}
    {x : Option α} (read : fs.optional d slot = some x) :
    (ofOption f x).depth ≤ fs.inner.levels := by
  cases slot with
  | none =>
    obtain rfl := Option.some.inj read
    exact Nat.zero_le _
  | some j => exact h.nullable read

namespace Fields

variable {names : List String} {r : Reading} {fs : Fields}

theorem levels_of_ofMembers {members : List (String × Json)}
    (h : ofMembers names r members = some fs) : r.levels = fs.inner.levels + 1 := by
  obtain ⟨inner, enter, found⟩ := Option.bind_eq_some_iff.1 h
  split at found
  · cases found
  · obtain rfl := Option.some.inj found
    exact (Reading.enter_eq_some.1 enter).2

theorem levels_of_ofTuple (size : Nat) (h : ofTuple size r j = some fs) :
    r.levels = fs.inner.levels + 1 := by
  cases j with
  | array items =>
    obtain ⟨inner, enter, found⟩ := Option.bind_eq_some_iff.1 h
    split at found
    · obtain rfl := Option.some.inj found
      exact (Reading.enter_eq_some.1 enter).2
    · cases found
  | _ => cases h

theorem levels_of_ofRecord (h : ofRecord names r j = some fs) :
    r.levels = fs.inner.levels + 1 := by
  cases j with
  | object members => exact levels_of_ofMembers h
  | array items => exact levels_of_ofTuple (j := .array items) names.length h
  | _ => cases h

theorem levels_of_ofVariant (h : ofVariant names r j = some fs) :
    r.levels = fs.inner.levels + 1 := by
  cases j with
  | object members => exact levels_of_ofMembers h
  | array items =>
    rw [ofVariant] at h
    split at h
    · exact levels_of_ofRecord h
    · cases h
  | _ => cases h

end Fields

theorem Yields.record {names : List String} {k : Fields → Option α} {P : α → Prop}
    (h : ∀ fs a, k fs = some a → P a) :
    Yields (fun r j => do let fs ← Fields.ofRecord names r j; k fs) P := by
  intro r j a read
  obtain ⟨fs, -, rest⟩ := Option.bind_eq_some_iff.1 read
  exact h fs a rest

theorem Bounded.record {names : List String} {k : Fields → Option α} {f : α → Json}
    (h : ∀ fs a, k fs = some a → (f a).depth ≤ fs.inner.levels + 1) :
    Bounded (fun r j => do let fs ← Fields.ofRecord names r j; k fs) f := by
  intro r j a read
  obtain ⟨fs, found, rest⟩ := Option.bind_eq_some_iff.1 read
  rw [Fields.levels_of_ofRecord found]
  exact h fs a rest

namespace Variant

/-- The levels for a variant and its content. -/
def room (v : Variant) : Nat :=
  match v.content with
  | none => 0
  | some _ => v.inner.levels + 1

theorem room_le {r : Reading} {v : Variant} (h : of? r j = some v) : v.room ≤ r.levels := by
  unfold of? at h
  split at h
  · obtain rfl := Option.some.inj h
    exact Nat.zero_le _
  · obtain ⟨inner, enter, found⟩ := Option.bind_eq_some_iff.1 h
    obtain rfl := Option.some.inj found
    exact Nat.le_of_eq (Reading.enter_eq_some.1 enter).2.symm
  · cases h

theorem room_of_content {v : Variant} {content : Json} (h : v.content = some content) :
    v.room = v.inner.levels + 1 := by
  unfold room
  rw [h]

end Variant

theorem Yields.variant {k : Variant → Option α} {P : α → Prop} (h : ∀ v a, k v = some a → P a) :
    Yields (fun r j => do let v ← Variant.of? r j; k v) P := by
  intro r j a read
  obtain ⟨v, -, rest⟩ := Option.bind_eq_some_iff.1 read
  exact h v a rest

theorem Bounded.variant {k : Variant → Option α} {f : α → Json}
    (h : ∀ v a, k v = some a → (f a).depth ≤ v.room) :
    Bounded (fun r j => do let v ← Variant.of? r j; k v) f := by
  intro r j a read
  obtain ⟨v, found, rest⟩ := Option.bind_eq_some_iff.1 read
  exact Nat.le_trans (h v a rest) (Variant.room_le found)

section Contents

variable {v : Variant} {f : α → Json}

theorem Variant.eq_of_bare {b : α} (read : v.bare b = some a) : b = a := by
  unfold Variant.bare at read
  split at read
  · exact Option.some.inj read
  · cases read

theorem Variant.depth_le_of_bare {b : α} {name : String} (written : f b = .string name)
    (read : v.bare b = some a) : (f a).depth ≤ v.room := by
  obtain rfl := Variant.eq_of_bare read
  rw [written]
  exact Nat.zero_le _

theorem Yields.single {P : α → Prop} (h : Yields d P) (read : v.single d = some a) : P a := by
  obtain ⟨content, -, inside⟩ := Option.bind_eq_some_iff.1 read
  exact h v.inner content a inside

theorem Bounded.single {d : Decoder β} {g : β → Json} {wrap : β → α} {name : String}
    (h : Bounded d g) (written : ∀ b, f (wrap b) = tagged name (g b))
    (read : (v.single d).map wrap = some a) : (f a).depth ≤ v.room := by
  obtain ⟨b, found, rfl⟩ := Option.map_eq_some_iff.1 read
  obtain ⟨content, held, inside⟩ := Option.bind_eq_some_iff.1 found
  rw [written, depth_tagged, Variant.room_of_content held]
  exact Nat.succ_le_succ (h v.inner content b inside)

theorem Variant.depth_le_of_fields {names : List String} {body : Fields → Option α}
    (h : ∀ fs a, body fs = some a → (f a).depth ≤ fs.inner.levels + 2)
    (read : (v.fields names).bind body = some a) : (f a).depth ≤ v.room := by
  obtain ⟨fs, found, rest⟩ := Option.bind_eq_some_iff.1 read
  obtain ⟨content, held, inside⟩ := Option.bind_eq_some_iff.1 found
  rw [room_of_content held, Fields.levels_of_ofVariant inside]
  exact h fs a rest

theorem Variant.depth_le_of_tuple {size : Nat} {body : Fields → Option α}
    (h : ∀ fs a, body fs = some a → (f a).depth ≤ fs.inner.levels + 2)
    (read : (v.tuple size).bind body = some a) : (f a).depth ≤ v.room := by
  obtain ⟨fs, found, rest⟩ := Option.bind_eq_some_iff.1 read
  obtain ⟨content, held, inside⟩ := Option.bind_eq_some_iff.1 found
  rw [room_of_content held, Fields.levels_of_ofTuple size inside]
  exact h fs a rest

end Contents

end QueryForge.Json
