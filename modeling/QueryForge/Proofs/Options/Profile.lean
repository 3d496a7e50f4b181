import QueryForge.Options.Dump
import QueryForge.Proofs.Json.Decoders
import QueryForge.Proofs.Json.Numerals
import QueryForge.Proofs.Options

/-!
# What a profile says

A profile is described without reference to its reader: which documents list which fields, which
tokens give a chance or a bound, and how the fields that are given overwrite the defaults. The
reader accepts exactly the profiles whose options are in range, and it reads written options back.
-/

namespace QueryForge

open Json (Decoder Fields Reading)

/-- The slots hold what a document gives for each declared field. An object names some of the
fields, each once and nothing else; an array gives the first ones without their names. -/
inductive ListsFields (names : List String) : Json → List (Option Json) → Prop
  | named {members : List (String × Json)} (known : ∀ member ∈ members, member.1 ∈ names)
      (once : (members.map Prod.fst).Nodup) :
      ListsFields names (.object members) (names.map fun name => members.lookup name)
  | placed {items : List Json} (few : items.length ≤ names.length) :
      ListsFields names (.array items)
        (items.map some ++ List.replicate (names.length - items.length) none)

/-- A field that is not given has the default value, a given one the value given for it. -/
inductive Overwrites {α : Type} (IsGiven : Json → α → Prop) (default : α) :
    Option Json → α → Prop
  | missing : Overwrites IsGiven default none default
  | given {j : Json} {a : α} (h : IsGiven j a) : Overwrites IsGiven default (some j) a

/-- An object of all fields gives each of them. -/
theorem listsFields_zip {names : List String} (docs : List Json) (nodup : names.Nodup)
    (length : names.length = docs.length) :
    ListsFields names (.object (names.zip docs)) (docs.map some) := by
  have zipped : (names.zip docs).map Prod.fst = names := List.map_fst_zip (by omega)
  have slots := Json.map_lookup_of_forall_zip (names.zip docs) id length fun p hp =>
    (lookup_eq_some_iff_mem (zipped.symm ▸ nodup)).2 hp
  have listed : ListsFields names (.object (names.zip docs)) _ :=
    .named (fun member hm => (List.of_mem_zip hm).1) (zipped.symm ▸ nodup)
  rwa [slots] at listed

namespace Json.Fields

variable {names : List String} {n : Nat} {fs : Fields} {α : Type}

/-- Among declared names only, no declared one is repeated if none is. -/
theorem unrepeated_iff_nodup {members : List (String × Json)}
    (known : ∀ member ∈ members, member.1 ∈ names) :
    unrepeated names members = true ↔ (members.map Prod.fst).Nodup := by
  constructor
  · intro h
    refine List.nodup_iff_count.2 fun name => ?_
    by_cases declared : name ∈ names
    · have few := of_decide_eq_true (List.all_eq_true.1 h name declared)
      rwa [length_filter_eq_count] at few
    · have absent : name ∉ members.map Prod.fst := by
        intro mem
        obtain ⟨member, hm, rfl⟩ := List.mem_map.1 mem
        exact declared (known member hm)
      rw [List.count_eq_zero_of_not_mem absent]
      exact Nat.zero_le 1
  · exact unrepeated_of_nodup names

theorem ofProfile_eq_some_iff {j : Json} :
    ofProfile names ⟨.text, n + 1⟩ j = some fs ↔
      fs.inner = ⟨.text, n⟩ ∧ ListsFields names j fs.slots := by
  obtain ⟨inner, slots⟩ := fs
  cases j with
  | object members =>
    have test : (members.all fun member => names.contains member.1) = true ↔
        ∀ member ∈ members, member.1 ∈ names := by
      simp only [List.all_eq_true, List.contains_iff_mem]
    simp only [ofProfile, ofMembers]
    by_cases known : ∀ member ∈ members, member.1 ∈ names
    · rw [if_pos (test.2 known)]
      by_cases once : (members.map Prod.fst).Nodup
      · have accepted := (unrepeated_iff_nodup known).2 once
        simp only [Reading.enter, Option.bind_eq_bind, Option.bind_some, accepted,
          not_true_eq_false, and_false, if_false, Option.some.injEq, mk.injEq]
        constructor
        · rintro ⟨rfl, rfl⟩
          exact ⟨rfl, .named known once⟩
        · rintro ⟨rfl, listed⟩
          cases listed
          exact ⟨rfl, rfl⟩
      · have refused := mt (unrepeated_iff_nodup known).1 once
        simp only [Reading.enter, Option.bind_eq_bind, Option.bind_some, refused,
          not_false_eq_true, and_true, if_true, reduceCtorEq, false_iff]
        rintro ⟨-, listed⟩
        cases listed with
        | named _ nodup => exact once nodup
    · rw [if_neg (mt test.1 known)]
      simp only [reduceCtorEq, false_iff]
      rintro ⟨-, listed⟩
      cases listed with
      | named all _ => exact known all
  | array items =>
    simp only [ofProfile, Reading.enter, Option.bind_eq_bind, Option.bind_some]
    by_cases few : items.length ≤ names.length
    · rw [if_pos few, Option.some.injEq, mk.injEq]
      constructor
      · rintro ⟨rfl, rfl⟩
        exact ⟨rfl, .placed few⟩
      · rintro ⟨rfl, listed⟩
        cases listed
        exact ⟨rfl, rfl⟩
    · rw [if_neg few]
      simp only [reduceCtorEq, false_iff]
      rintro ⟨-, listed⟩
      cases listed with
      | placed short => exact few short
  | _ =>
    simp only [ofProfile, reduceCtorEq, false_iff]
    rintro ⟨-, listed⟩
    cases listed

/-- What is made of the fields of a profile depends on the slots alone. -/
theorem bind_ofProfile_eq_some_iff {j : Json} {a : α} {k : Fields → Option α}
    {Told : List (Option Json) → Prop}
    (told : ∀ slots, k ⟨⟨.text, n⟩, slots⟩ = some a ↔ Told slots) :
    (do let fs ← ofProfile names ⟨.text, n + 1⟩ j; k fs) = some a ↔
      ∃ slots, ListsFields names j slots ∧ Told slots := by
  rw [Option.bind_eq_bind, Option.bind_eq_some_iff]
  constructor
  · rintro ⟨⟨inner, slots⟩, found, rest⟩
    obtain ⟨rfl, listed⟩ := ofProfile_eq_some_iff.1 found
    exact ⟨slots, listed, (told slots).1 rest⟩
  · rintro ⟨slots, listed, holds⟩
    exact ⟨⟨⟨.text, n⟩, slots⟩, ofProfile_eq_some_iff.2 ⟨rfl, listed⟩, (told slots).2 holds⟩

theorem orDefault_eq_some_iff {d : Decoder α} {IsGiven : Json → α → Prop} {default a : α}
    {slot : Option Json} (exact_ : ∀ j a, d fs.inner j = some a ↔ IsGiven j a) :
    fs.orDefault d default slot = some a ↔ Overwrites IsGiven default slot a := by
  cases slot with
  | none =>
    rw [orDefault, Option.some.injEq]
    constructor
    · rintro rfl
      exact .missing
    · intro h
      cases h
      rfl
  | some j =>
    rw [orDefault, exact_]
    constructor
    · exact .given
    · intro h
      cases h with
      | given given => exact given

end Json.Fields

inductive Knob where
  | chance (x : Double)
  | bound (n : UInt64)

/-- The token gives the knob. A chance may be a token of either kind and is then the closest
number; a bound is a whole number without fraction and exponent. -/
inductive Knob.IsGivenBy : Json → Knob → Prop
  | chance (x : Binary64) : IsGivenBy (.real x) (.chance x)
  | wholeChance {i : Int} {x : Binary64}
      (closest : Binary64.ofRank? (i < 0) (Binary64.nearestRank i.natAbs 1) = some x) :
      IsGivenBy (.integer i) (.chance x)
  | bound (n : UInt64) : IsGivenBy (.integer n.toNat) (.bound n)

namespace Knob

theorem double_eq_some_iff {r : Reading} {j : Json} {x : Double} :
    Decoder.double r j = some x ↔ IsGivenBy j (.chance x) := by
  constructor
  · intro h
    obtain ⟨x, read, rfl⟩ := Option.map_eq_some_iff.1 h
    cases j with
    | real value =>
      obtain rfl := Option.some.inj read
      exact .chance value
    | integer i => exact .wholeChance read
    | _ => cases read
  · intro h
    cases h with
    | chance => rfl
    | wholeChance closest => exact Option.map_eq_some_iff.2 ⟨_, closest, rfl⟩

theorem unsigned64_eq_some_iff {r : Reading} {j : Json} {n : UInt64} :
    Decoder.unsigned64 r j = some n ↔ IsGivenBy j (.bound n) := by
  constructor
  · intro h
    obtain ⟨i, token, range⟩ := Option.bind_eq_some_iff.1 h
    cases j with
    | integer value =>
      obtain rfl := Option.some.inj token
      split at range
      · next inside =>
        obtain rfl := Option.some.inj range
        have same : ((UInt64.ofNat value.toNat).toNat : Int) = value := by
          have below : value.toNat < 2 ^ 64 := by omega
          have wrapped := UInt64.toNat_ofNat_of_lt' below
          omega
        have given := IsGivenBy.bound (.ofNat value.toNat)
        rwa [same] at given
      · cases range
    | _ => cases token
  · intro h
    cases h with
    | bound =>
      have read := (Json.stands_unsigned64 n).reads (o := .text) 0 (Nat.le_refl 0) (Nat.le_refl 0)
      exact read

/-- Knob by knob, the given fields overwrite the defaults. -/
def Overwrite : List Knob → List (Option Json) → List Knob → Prop
  | [], [], [] => True
  | default :: defaults, slot :: slots, knob :: knobs =>
    Overwrites IsGivenBy default slot knob ∧ Overwrite defaults slots knobs
  | _, _, _ => False

theorem overwrite_nil {slots : List (Option Json)} : Overwrite [] slots [] ↔ slots = [] := by
  cases slots with
  | nil => exact iff_of_true trivial rfl
  | cons slot slots => exact iff_of_false id nofun

theorem overwrite_cons {default knob : Knob} {defaults knobs : List Knob}
    {slots : List (Option Json)} :
    Overwrite (default :: defaults) slots (knob :: knobs) ↔
      ∃ slot rest, slots = slot :: rest ∧ Overwrites IsGivenBy default slot knob ∧
        Overwrite defaults rest knobs := by
  cases slots with
  | nil => exact iff_of_false id nofun
  | cons slot slots =>
    constructor
    · rintro ⟨first, others⟩
      exact ⟨slot, slots, rfl, first, others⟩
    · rintro ⟨_, _, same, first, others⟩
      obtain ⟨rfl, rfl⟩ := List.cons.inj same
      exact ⟨first, others⟩

/-- The token that is written for a knob. -/
def token : Knob → Json
  | .chance x => .ofDouble x
  | .bound n => .integer n.toNat

/-- Only a finite chance has a token of its own. -/
def IsFinite : Knob → Prop
  | .chance x => x.IsFinite
  | .bound _ => True

theorem isGivenBy_token {knob : Knob} (h : knob.IsFinite) : IsGivenBy knob.token knob := by
  cases knob with
  | chance x =>
    cases x with
    | finite x => exact .chance x
    | infinite => cases h
    | nan => cases h
  | bound n => exact .bound n

theorem IsGivenBy.isFinite {j : Json} {knob : Knob} (h : IsGivenBy j knob) : knob.IsFinite := by
  cases h <;> trivial

theorem writable_token (knob : Knob) : knob.token.Writable := by
  cases knob with
  | chance x =>
    cases x with
    | finite x => exact .real x
    | infinite => exact .null
    | nan => exact .null
  | bound n => exact (Json.stands_unsigned64 (o := .text) (n := 0) n).writable

/-- The tokens of finite knobs overwrite whatever the defaults are. -/
theorem overwrite_tokens {defaults knobs : List Knob} (length : defaults.length = knobs.length)
    (finite : ∀ knob ∈ knobs, knob.IsFinite) :
    Overwrite defaults ((knobs.map token).map some) knobs := by
  induction knobs generalizing defaults with
  | nil =>
    obtain rfl := List.length_eq_zero_iff.1 length
    trivial
  | cons knob knobs ih =>
    cases defaults with
    | nil => cases length
    | cons default defaults =>
      obtain ⟨first, others⟩ := List.forall_mem_cons.1 finite
      exact ⟨.given (isGivenBy_token first), ih (Nat.succ.inj length) others⟩

/-- No document makes a finite knob infinite or a NaN. -/
theorem Overwrite.isFinite {defaults knobs : List Knob} {slots : List (Option Json)}
    (h : Overwrite defaults slots knobs) (finite : ∀ knob ∈ defaults, knob.IsFinite) :
    ∀ knob ∈ knobs, knob.IsFinite := by
  induction knobs generalizing defaults slots with
  | nil => exact fun _ mem => nomatch mem
  | cons knob knobs ih =>
    cases defaults with
    | nil => cases slots <;> cases h
    | cons default defaults =>
      obtain ⟨_, _, rfl, given, rest⟩ := overwrite_cons.1 h
      obtain ⟨first, others⟩ := List.forall_mem_cons.1 finite
      refine List.forall_mem_cons.2 ⟨?_, ih rest others⟩
      cases given with
      | missing => exact first
      | given told => exact told.isFinite

theorem writable_tokens (names : List String) (knobs : List Knob) :
    (Json.object (names.zip (knobs.map token))).Writable := by
  refine Json.writable_zip (List.forall_iff_forall_mem.2 fun doc hd => ?_)
  obtain ⟨knob, -, rfl⟩ := List.mem_map.1 hd
  exact knob.writable_token

variable {fs : Fields} {slot : Option Json} {α : Type}

theorem overwrites_wrap {wrap : α → Knob} (injective : wrap.Injective) {default a : α} :
    Overwrites (fun j a => IsGivenBy j (wrap a)) default slot a ↔
      Overwrites IsGivenBy (wrap default) slot (wrap a) := by
  constructor
  · rintro (_ | given)
    · exact .missing
    · exact .given given
  · intro h
    generalize same : wrap a = knob at h
    cases h with
    | missing =>
      rw [injective same]
      exact .missing
    | given given => exact .given (same ▸ given)

theorem bind_chance_eq_some_iff {default : Double} {k : Double → Option α} {a : α} :
    (do let x ← fs.orDefault Decoder.double default slot; k x) = some a ↔
      ∃ x, Overwrites IsGivenBy (.chance default) slot (.chance x) ∧ k x = some a := by
  rw [Option.bind_eq_bind, Option.bind_eq_some_iff]
  refine exists_congr fun x => and_congr_left fun _ => ?_
  rw [Fields.orDefault_eq_some_iff fun _ _ => double_eq_some_iff]
  exact overwrites_wrap fun _ _ => Knob.chance.inj

theorem bind_bound_eq_some_iff {default : UInt64} {k : UInt64 → Option α} {a : α} :
    (do let n ← fs.orDefault Decoder.unsigned64 default slot; k n) = some a ↔
      ∃ n, Overwrites IsGivenBy (.bound default) slot (.bound n) ∧ k n = some a := by
  rw [Option.bind_eq_bind, Option.bind_eq_some_iff]
  refine exists_congr fun n => and_congr_left fun _ => ?_
  rw [Fields.orDefault_eq_some_iff fun _ _ => unsigned64_eq_some_iff]
  exact overwrites_wrap fun _ _ => Knob.bound.inj

end Knob

namespace QueryOptions

/-- The options in declared order. -/
def knobs (o : QueryOptions) : List Knob :=
  [.chance o.withChance, .bound o.maxCtes, .chance o.joinChance, .chance o.filterChance,
    .bound o.maxPredicateDepth, .chance o.distinctChance, .chance o.distinctOnChance,
    .chance o.groupByChance, .chance o.havingChance, .chance o.lockingChance,
    .chance o.windowChance, .chance o.namedWindowChance, .chance o.orderByChance,
    .chance o.limitChance, .bound o.maxLimit, .chance o.setOperationChance]

/-- The document gives some of the options, and these are the default ones overwritten by them. -/
def IsProfile (j : Json) (o : QueryOptions) : Prop :=
  ∃ slots, ListsFields fieldNames j slots ∧
    Knob.Overwrite ({} : QueryOptions).knobs slots o.knobs

theorem replay_eq_some_iff {n : Nat} {j : Json} {o : QueryOptions} :
    replay ⟨.text, n + 1⟩ j = some o ↔ IsProfile j o := by
  refine Fields.bind_ofProfile_eq_some_iff fun slots => ?_
  dsimp only
  constructor
  · intro h
    split at h
    · obtain ⟨_, withChance, h⟩ := Knob.bind_chance_eq_some_iff.1 h
      obtain ⟨_, maxCtes, h⟩ := Knob.bind_bound_eq_some_iff.1 h
      obtain ⟨_, joinChance, h⟩ := Knob.bind_chance_eq_some_iff.1 h
      obtain ⟨_, filterChance, h⟩ := Knob.bind_chance_eq_some_iff.1 h
      obtain ⟨_, maxDepth, h⟩ := Knob.bind_bound_eq_some_iff.1 h
      obtain ⟨_, distinctChance, h⟩ := Knob.bind_chance_eq_some_iff.1 h
      obtain ⟨_, distinctOnChance, h⟩ := Knob.bind_chance_eq_some_iff.1 h
      obtain ⟨_, groupByChance, h⟩ := Knob.bind_chance_eq_some_iff.1 h
      obtain ⟨_, havingChance, h⟩ := Knob.bind_chance_eq_some_iff.1 h
      obtain ⟨_, lockingChance, h⟩ := Knob.bind_chance_eq_some_iff.1 h
      obtain ⟨_, windowChance, h⟩ := Knob.bind_chance_eq_some_iff.1 h
      obtain ⟨_, namedChance, h⟩ := Knob.bind_chance_eq_some_iff.1 h
      obtain ⟨_, orderByChance, h⟩ := Knob.bind_chance_eq_some_iff.1 h
      obtain ⟨_, limitChance, h⟩ := Knob.bind_chance_eq_some_iff.1 h
      obtain ⟨_, maxLimit, h⟩ := Knob.bind_bound_eq_some_iff.1 h
      obtain ⟨_, setChance, h⟩ := Knob.bind_chance_eq_some_iff.1 h
      obtain rfl := Option.some.inj h
      exact ⟨withChance, maxCtes, joinChance, filterChance, maxDepth, distinctChance,
        distinctOnChance, groupByChance, havingChance, lockingChance, windowChance, namedChance,
        orderByChance, limitChance, maxLimit, setChance, trivial⟩
    · cases h
  · intro h
    obtain ⟨_, _, rfl, withChance, h⟩ := Knob.overwrite_cons.1 h
    obtain ⟨_, _, rfl, maxCtes, h⟩ := Knob.overwrite_cons.1 h
    obtain ⟨_, _, rfl, joinChance, h⟩ := Knob.overwrite_cons.1 h
    obtain ⟨_, _, rfl, filterChance, h⟩ := Knob.overwrite_cons.1 h
    obtain ⟨_, _, rfl, maxDepth, h⟩ := Knob.overwrite_cons.1 h
    obtain ⟨_, _, rfl, distinctChance, h⟩ := Knob.overwrite_cons.1 h
    obtain ⟨_, _, rfl, distinctOnChance, h⟩ := Knob.overwrite_cons.1 h
    obtain ⟨_, _, rfl, groupByChance, h⟩ := Knob.overwrite_cons.1 h
    obtain ⟨_, _, rfl, havingChance, h⟩ := Knob.overwrite_cons.1 h
    obtain ⟨_, _, rfl, lockingChance, h⟩ := Knob.overwrite_cons.1 h
    obtain ⟨_, _, rfl, windowChance, h⟩ := Knob.overwrite_cons.1 h
    obtain ⟨_, _, rfl, namedChance, h⟩ := Knob.overwrite_cons.1 h
    obtain ⟨_, _, rfl, orderByChance, h⟩ := Knob.overwrite_cons.1 h
    obtain ⟨_, _, rfl, limitChance, h⟩ := Knob.overwrite_cons.1 h
    obtain ⟨_, _, rfl, maxLimit, h⟩ := Knob.overwrite_cons.1 h
    obtain ⟨_, _, rfl, setChance, h⟩ := Knob.overwrite_cons.1 h
    obtain rfl := Knob.overwrite_nil.1 h
    refine Knob.bind_chance_eq_some_iff.2 ⟨_, withChance, ?_⟩
    refine Knob.bind_bound_eq_some_iff.2 ⟨_, maxCtes, ?_⟩
    refine Knob.bind_chance_eq_some_iff.2 ⟨_, joinChance, ?_⟩
    refine Knob.bind_chance_eq_some_iff.2 ⟨_, filterChance, ?_⟩
    refine Knob.bind_bound_eq_some_iff.2 ⟨_, maxDepth, ?_⟩
    refine Knob.bind_chance_eq_some_iff.2 ⟨_, distinctChance, ?_⟩
    refine Knob.bind_chance_eq_some_iff.2 ⟨_, distinctOnChance, ?_⟩
    refine Knob.bind_chance_eq_some_iff.2 ⟨_, groupByChance, ?_⟩
    refine Knob.bind_chance_eq_some_iff.2 ⟨_, havingChance, ?_⟩
    refine Knob.bind_chance_eq_some_iff.2 ⟨_, lockingChance, ?_⟩
    refine Knob.bind_chance_eq_some_iff.2 ⟨_, windowChance, ?_⟩
    refine Knob.bind_chance_eq_some_iff.2 ⟨_, namedChance, ?_⟩
    refine Knob.bind_chance_eq_some_iff.2 ⟨_, orderByChance, ?_⟩
    refine Knob.bind_chance_eq_some_iff.2 ⟨_, limitChance, ?_⟩
    refine Knob.bind_bound_eq_some_iff.2 ⟨_, maxLimit, ?_⟩
    refine Knob.bind_chance_eq_some_iff.2 ⟨_, setChance, ?_⟩
    rfl

theorem dump_eq (o : QueryOptions) :
    o.dump = .object (fieldNames.zip (o.knobs.map Knob.token)) := rfl

theorem isFinite_knobs_iff {o : QueryOptions} :
    (∀ knob ∈ o.knobs, knob.IsFinite) ↔ ∀ p ∈ o.chances, p.IsFinite := by
  simp [knobs, chances, Knob.IsFinite]

theorem isProfile_dump {o : QueryOptions} (finite : ∀ p ∈ o.chances, p.IsFinite) :
    IsProfile o.dump o :=
  ⟨_, o.dump_eq ▸ listsFields_zip _ (by decide) rfl,
    Knob.overwrite_tokens rfl (isFinite_knobs_iff.2 finite)⟩

theorem isFinite_default : ∀ p ∈ ({} : QueryOptions).chances, p.IsFinite := by
  simp [chances, Double.ofFraction, Double.IsFinite]

theorem IsProfile.isFinite {j : Json} {o : QueryOptions} (h : IsProfile j o) :
    ∀ p ∈ o.chances, p.IsFinite := by
  obtain ⟨_, -, overwritten⟩ := h
  exact isFinite_knobs_iff.1 (overwritten.isFinite (isFinite_knobs_iff.2 isFinite_default))

theorem writable_dump (o : QueryOptions) : o.dump.Writable :=
  o.dump_eq ▸ Knob.writable_tokens _ _

end QueryOptions

namespace AlterOptions

def knobs (o : AlterOptions) : List Knob :=
  [.chance o.fullSubsetChance, .chance o.onlyChance, .bound o.smallNumberMax]

/-- The document gives some of the options, and these are the default ones overwritten by them. -/
def IsProfile (j : Json) (o : AlterOptions) : Prop :=
  ∃ slots, ListsFields fieldNames j slots ∧
    Knob.Overwrite ({} : AlterOptions).knobs slots o.knobs

theorem replay_eq_some_iff {n : Nat} {j : Json} {o : AlterOptions} :
    replay ⟨.text, n + 1⟩ j = some o ↔ IsProfile j o := by
  refine Fields.bind_ofProfile_eq_some_iff fun slots => ?_
  dsimp only
  constructor
  · intro h
    split at h
    · obtain ⟨_, fullSubsetChance, h⟩ := Knob.bind_chance_eq_some_iff.1 h
      obtain ⟨_, onlyChance, h⟩ := Knob.bind_chance_eq_some_iff.1 h
      obtain ⟨_, smallNumberMax, h⟩ := Knob.bind_bound_eq_some_iff.1 h
      obtain rfl := Option.some.inj h
      exact ⟨fullSubsetChance, onlyChance, smallNumberMax, trivial⟩
    · cases h
  · intro h
    obtain ⟨_, _, rfl, fullSubsetChance, h⟩ := Knob.overwrite_cons.1 h
    obtain ⟨_, _, rfl, onlyChance, h⟩ := Knob.overwrite_cons.1 h
    obtain ⟨_, _, rfl, smallNumberMax, h⟩ := Knob.overwrite_cons.1 h
    obtain rfl := Knob.overwrite_nil.1 h
    refine Knob.bind_chance_eq_some_iff.2 ⟨_, fullSubsetChance, ?_⟩
    refine Knob.bind_chance_eq_some_iff.2 ⟨_, onlyChance, ?_⟩
    refine Knob.bind_bound_eq_some_iff.2 ⟨_, smallNumberMax, ?_⟩
    rfl

theorem dump_eq (o : AlterOptions) :
    o.dump = .object (fieldNames.zip (o.knobs.map Knob.token)) := rfl

theorem isFinite_knobs_iff {o : AlterOptions} :
    (∀ knob ∈ o.knobs, knob.IsFinite) ↔ ∀ p ∈ o.chances, p.IsFinite := by
  simp [knobs, chances, Knob.IsFinite]

theorem isProfile_dump {o : AlterOptions} (finite : ∀ p ∈ o.chances, p.IsFinite) :
    IsProfile o.dump o :=
  ⟨_, o.dump_eq ▸ listsFields_zip _ (by decide) rfl,
    Knob.overwrite_tokens rfl (isFinite_knobs_iff.2 finite)⟩

theorem isFinite_default : ∀ p ∈ ({} : AlterOptions).chances, p.IsFinite := by
  simp [chances, Double.ofFraction, Double.IsFinite]

theorem IsProfile.isFinite {j : Json} {o : AlterOptions} (h : IsProfile j o) :
    ∀ p ∈ o.chances, p.IsFinite := by
  obtain ⟨_, -, overwritten⟩ := h
  exact isFinite_knobs_iff.1 (overwritten.isFinite (isFinite_knobs_iff.2 isFinite_default))

theorem writable_dump (o : AlterOptions) : o.dump.Writable :=
  o.dump_eq ▸ Knob.writable_tokens _ _

end AlterOptions

namespace Options

/-- The document gives some of the sections; one that is not given is the default one. -/
def IsProfile (j : Json) (o : Options) : Prop :=
  ∃ slots, ListsFields fieldNames j slots ∧
    ∃ query alterTable, slots = [query, alterTable] ∧
      Overwrites QueryOptions.IsProfile {} query o.query ∧
      Overwrites AlterOptions.IsProfile {} alterTable o.alterTable

theorem replay_eq_some_iff {n : Nat} {j : Json} {o : Options} :
    replay ⟨.text, n + 2⟩ j = some o ↔ IsProfile j o := by
  refine Fields.bind_ofProfile_eq_some_iff fun slots => ?_
  dsimp only
  have query (fs : Fields) (levels : fs.inner = ⟨.text, n + 1⟩) (slot : Option Json)
      (q : QueryOptions) : fs.orDefault QueryOptions.replay {} slot = some q ↔
        Overwrites QueryOptions.IsProfile {} slot q :=
    Fields.orDefault_eq_some_iff fun _ _ => levels ▸ QueryOptions.replay_eq_some_iff
  have alterTable (fs : Fields) (levels : fs.inner = ⟨.text, n + 1⟩) (slot : Option Json)
      (a : AlterOptions) : fs.orDefault AlterOptions.replay {} slot = some a ↔
        Overwrites AlterOptions.IsProfile {} slot a :=
    Fields.orDefault_eq_some_iff fun _ _ => levels ▸ AlterOptions.replay_eq_some_iff
  constructor
  · intro h
    split at h
    · obtain ⟨q, hq, h⟩ := Option.bind_eq_some_iff.1 h
      obtain ⟨a, ha, h⟩ := Option.bind_eq_some_iff.1 h
      obtain rfl := Option.some.inj h
      exact ⟨_, _, rfl, (query _ rfl _ _).1 hq, (alterTable _ rfl _ _).1 ha⟩
    · cases h
  · rintro ⟨_, _, rfl, hq, ha⟩
    refine Option.bind_eq_some_iff.2 ⟨_, (query _ rfl _ _).2 hq, ?_⟩
    exact Option.bind_eq_some_iff.2 ⟨_, (alterTable _ rfl _ _).2 ha, rfl⟩

/-- A text is a profile if it is a document that is one. -/
def IsProfileText (text : String) (o : Options) : Prop :=
  ∃ j, Json.ofText? text = some j ∧ IsProfile j o

theorem bind_replay_eq_some_iff {text : String} {o : Options} :
    (Json.ofText? text).bind (replay Reading.ofText) = some o ↔ IsProfileText text o := by
  rw [Option.bind_eq_some_iff]
  exact exists_congr fun j => and_congr_right fun _ => replay_eq_some_iff

theorem IsProfileText.isFinite {text : String} {o : Options} (h : IsProfileText text o) :
    o.IsFinite := by
  obtain ⟨_, -, _, -, _, _, -, query, alterTable⟩ := h
  constructor
  · generalize o.query = q at query
    cases query with
    | missing => exact QueryOptions.isFinite_default
    | given profile => exact profile.isFinite
  · generalize o.alterTable = a at alterTable
    cases alterTable with
    | missing => exact AlterOptions.isFinite_default
    | given profile => exact profile.isFinite

/-- Written options are a profile of themselves if no chance is written as null. -/
theorem isProfileText_dump {o : Options} (finite : o.IsFinite) : IsProfileText o.dump.text o := by
  let docs := [o.query.dump, o.alterTable.dump]
  have whole : o.dump = .object (fieldNames.zip docs) := rfl
  have nodup : fieldNames.Nodup := by decide
  have listed : ListsFields fieldNames o.dump (docs.map some) := listsFields_zip docs nodup rfl
  have sections : docs.Forall Json.Writable := ⟨o.query.writable_dump, o.alterTable.writable_dump⟩
  have writable : o.dump.Writable := whole ▸ Json.writable_zip sections
  exact ⟨o.dump, Json.ofText?_text writable, _, listed, _, _, rfl,
    .given (QueryOptions.isProfile_dump finite.1), .given (AlterOptions.isProfile_dump finite.2)⟩

/-- What reading a text comes to: a profile is accepted if all options are in range. -/
inductive Verdict (text : String) : Except BuildError Options → Prop
  | accepted {o : Options} (profile : IsProfileText text o)
      (inRange : o.query.InRange False ∧ o.alterTable.InRange False) : Verdict text (.ok o)
  | outOfRange {o : Options} (profile : IsProfileText text o)
      (outside : ¬(o.query.InRange False ∧ o.alterTable.InRange False)) :
      Verdict text (.error (.optionsOutOfRange o.violations))
  | unreadable (noProfile : ∀ o, ¬IsProfileText text o) : Verdict text (.error .optionsUnreadable)

theorem verdict (text : String) : Verdict text (ofText text) := by
  unfold ofText
  cases read : (Json.ofText? text).bind (replay Reading.ofText) with
  | none =>
    refine .unreadable fun o profile => ?_
    rw [bind_replay_eq_some_iff.2 profile] at read
    cases read
  | some o =>
    have profile := bind_replay_eq_some_iff.1 read
    dsimp only
    have check_iff := check_eq_ok_iff_of_isFinite profile.isFinite
    by_cases inRange : o.query.InRange False ∧ o.alterTable.InRange False
    · rw [check_iff.2 inRange]
      exact .accepted profile inRange
    · have failed : o.check = .error (.optionsOutOfRange o.violations) :=
        if_neg fun none => inRange (check_iff.1 (if_pos none))
      rw [failed]
      exact .outOfRange profile inRange

theorem ofText_eq_ok_iff {text : String} {o : Options} :
    ofText text = .ok o ↔
      IsProfileText text o ∧ o.query.InRange False ∧ o.alterTable.InRange False := by
  constructor
  · intro h
    have found := h ▸ verdict text
    cases found with
    | accepted profile inRange => exact ⟨profile, inRange⟩
  · rintro ⟨profile, inRange⟩
    unfold ofText
    rw [bind_replay_eq_some_iff.2 profile]
    dsimp only
    rw [(check_eq_ok_iff_of_isFinite profile.isFinite).2 inRange]
    rfl

/-- A text is accepted as options if and only if it is a profile of them and they are in range;
every other text is refused as unusable options. Written options are read back if and only if
their chances are finite and they pass the check. The numerals in them denote the nearest
number. -/
theorem ofText_exact :
    Json.FaithfulNumerals ∧
    (∀ text o, ofText text = .ok o ↔
      IsProfileText text o ∧ o.query.InRange False ∧ o.alterTable.InRange False) ∧
    (∀ text, Verdict text (ofText text)) ∧
    ∀ o, ofText o.dump.text = .ok o ↔ o.IsFinite ∧ o.check = .ok () := by
  refine ⟨Json.faithfulNumerals, fun text o => ofText_eq_ok_iff, verdict, fun o => ?_⟩
  rw [ofText_eq_ok_iff]
  constructor
  · rintro ⟨profile, inRange⟩
    exact ⟨profile.isFinite, (check_eq_ok_iff_of_isFinite profile.isFinite).2 inRange⟩
  · rintro ⟨finite, checked⟩
    exact ⟨isProfileText_dump finite, (check_eq_ok_iff_of_isFinite finite).1 checked⟩

end Options

end QueryForge
