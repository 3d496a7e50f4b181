import QueryForge.Json.Form
import QueryForge.Json.Reader
import QueryForge.Options

/-!
# Profiles of options

A profile is a document of options. A field that is left out keeps its default and a field of
another name is refused, so a misspelt option does not pass unnoticed.
-/

namespace QueryForge

open Json (Decoder Fields Reading)

namespace Json.Fields

variable {α : Type}

/-- The fields of a profile: an object with declared names only, or an array of the first ones. -/
def ofProfile (names : List String) (r : Reading) : Json → Option Fields
  | .object members =>
    if members.all fun member => names.contains member.1 then ofMembers names r members else none
  | .array items => do
    let inner ← r.enter
    if items.length ≤ names.length then
      some ⟨inner, items.map some ++ List.replicate (names.length - items.length) none⟩
    else none
  | _ => none

def orDefault (f : Fields) (d : Decoder α) (default : α) : Option Json → Option α
  | none => some default
  | some j => d f.inner j

end Json.Fields

namespace QueryOptions

def fieldNames : List String :=
  ["with_prob", "max_ctes", "join_prob", "where_prob", "max_predicate_depth", "distinct_prob",
    "distinct_on_prob", "group_by_prob", "having_prob", "locking_prob", "window_prob",
    "named_window_prob", "order_by_prob", "limit_prob", "max_limit", "set_operation_prob"]

def dump (o : QueryOptions) : Json :=
  .object [
    ("with_prob", .ofDouble o.withChance),
    ("max_ctes", .integer o.maxCtes.toNat),
    ("join_prob", .ofDouble o.joinChance),
    ("where_prob", .ofDouble o.filterChance),
    ("max_predicate_depth", .integer o.maxPredicateDepth.toNat),
    ("distinct_prob", .ofDouble o.distinctChance),
    ("distinct_on_prob", .ofDouble o.distinctOnChance),
    ("group_by_prob", .ofDouble o.groupByChance),
    ("having_prob", .ofDouble o.havingChance),
    ("locking_prob", .ofDouble o.lockingChance),
    ("window_prob", .ofDouble o.windowChance),
    ("named_window_prob", .ofDouble o.namedWindowChance),
    ("order_by_prob", .ofDouble o.orderByChance),
    ("limit_prob", .ofDouble o.limitChance),
    ("max_limit", .integer o.maxLimit.toNat),
    ("set_operation_prob", .ofDouble o.setOperationChance)]

def replay : Decoder QueryOptions := fun r j => do
  let f ← Fields.ofProfile fieldNames r j
  let defaults : QueryOptions := {}
  match f.slots with
  | [withChance, maxCtes, joinChance, filterChance, maxPredicateDepth, distinctChance,
      distinctOnChance, groupByChance, havingChance, lockingChance, windowChance,
      namedWindowChance, orderByChance, limitChance, maxLimit, setOperationChance] => do
    let withChance ← f.orDefault Decoder.double defaults.withChance withChance
    let maxCtes ← f.orDefault Decoder.unsigned64 defaults.maxCtes maxCtes
    let joinChance ← f.orDefault Decoder.double defaults.joinChance joinChance
    let filterChance ← f.orDefault Decoder.double defaults.filterChance filterChance
    let maxPredicateDepth ←
      f.orDefault Decoder.unsigned64 defaults.maxPredicateDepth maxPredicateDepth
    let distinctChance ← f.orDefault Decoder.double defaults.distinctChance distinctChance
    let distinctOnChance ← f.orDefault Decoder.double defaults.distinctOnChance distinctOnChance
    let groupByChance ← f.orDefault Decoder.double defaults.groupByChance groupByChance
    let havingChance ← f.orDefault Decoder.double defaults.havingChance havingChance
    let lockingChance ← f.orDefault Decoder.double defaults.lockingChance lockingChance
    let windowChance ← f.orDefault Decoder.double defaults.windowChance windowChance
    let namedWindowChance ← f.orDefault Decoder.double defaults.namedWindowChance namedWindowChance
    let orderByChance ← f.orDefault Decoder.double defaults.orderByChance orderByChance
    let limitChance ← f.orDefault Decoder.double defaults.limitChance limitChance
    let maxLimit ← f.orDefault Decoder.unsigned64 defaults.maxLimit maxLimit
    let setOperationChance ←
      f.orDefault Decoder.double defaults.setOperationChance setOperationChance
    some { withChance, maxCtes, joinChance, filterChance, maxPredicateDepth, distinctChance,
           distinctOnChance, groupByChance, havingChance, lockingChance, windowChance,
           namedWindowChance, orderByChance, limitChance, maxLimit, setOperationChance }
  | _ => none

end QueryOptions

namespace AlterOptions

def fieldNames : List String := ["full_subset_prob", "only_prob", "small_number_max"]

def dump (o : AlterOptions) : Json :=
  .object [("full_subset_prob", .ofDouble o.fullSubsetChance),
    ("only_prob", .ofDouble o.onlyChance),
    ("small_number_max", .integer o.smallNumberMax.toNat)]

def replay : Decoder AlterOptions := fun r j => do
  let f ← Fields.ofProfile fieldNames r j
  let defaults : AlterOptions := {}
  match f.slots with
  | [fullSubsetChance, onlyChance, smallNumberMax] => do
    let fullSubsetChance ← f.orDefault Decoder.double defaults.fullSubsetChance fullSubsetChance
    let onlyChance ← f.orDefault Decoder.double defaults.onlyChance onlyChance
    let smallNumberMax ← f.orDefault Decoder.unsigned64 defaults.smallNumberMax smallNumberMax
    some ⟨fullSubsetChance, onlyChance, smallNumberMax⟩
  | _ => none

end AlterOptions

namespace Options

def fieldNames : List String := ["query", "alter_table"]

def dump (o : Options) : Json :=
  .object [("query", o.query.dump), ("alter_table", o.alterTable.dump)]

def replay : Decoder Options := fun r j => do
  let f ← Fields.ofProfile fieldNames r j
  match f.slots with
  | [query, alterTable] => do
    let query ← f.orDefault QueryOptions.replay {} query
    let alterTable ← f.orDefault AlterOptions.replay {} alterTable
    some ⟨query, alterTable⟩
  | _ => none

/-- The profile that is the text, if all its options are in range. -/
def ofText (text : String) : Except BuildError Options :=
  match (Json.ofText? text).bind (replay Reading.ofText) with
  | none => .error .optionsUnreadable
  | some o => do
    o.check
    .ok o

end Options
end QueryForge
