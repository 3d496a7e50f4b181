import QueryForge.Json.Form
import QueryForge.Window

/-!
# Windows as documents

A document is written from a shape whose operands are documents, and read with a decoder of
operands.
-/

namespace QueryForge

open Json (Decoder Fields Variant tagged ofOption)

namespace SortOrder

def dumpName : SortOrder → String
  | .ascending => "Asc"
  | .descending => "Desc"

def dump (o : SortOrder) : Json := .string o.dumpName

def replay : Decoder SortOrder := Decoder.oneOf [.ascending, .descending] dumpName

end SortOrder

namespace NullsOrder

def dumpName : NullsOrder → String
  | .first => "First"
  | .last => "Last"

def dump (o : NullsOrder) : Json := .string o.dumpName

def replay : Decoder NullsOrder := Decoder.oneOf [.first, .last] dumpName

end NullsOrder

namespace OrderTerm

variable {E : Type}

def fieldNames : List String := ["expr", "order", "nulls"]

def dump (t : OrderTerm Json) : Json :=
  .object [("expr", t.expr), ("order", ofOption SortOrder.dump t.order),
    ("nulls", ofOption NullsOrder.dump t.nulls)]

def replay (operand : Decoder E) : Decoder (OrderTerm E) := fun r j => do
  let f ← Fields.ofRecord fieldNames r j
  match f.slots with
  | [expr, order, nulls] => do
    let expr ← f.required operand expr
    let order ← f.optional SortOrder.replay order
    let nulls ← f.optional NullsOrder.replay nulls
    some ⟨expr, order, nulls⟩
  | _ => none

end OrderTerm

namespace FrameMode

def dumpName : FrameMode → String
  | .range => "Range"
  | .rows => "Rows"
  | .groups => "Groups"

def dump (m : FrameMode) : Json := .string m.dumpName

def replay : Decoder FrameMode := Decoder.oneOf [.range, .rows, .groups] dumpName

end FrameMode

namespace FrameBound

def dump : FrameBound → Json
  | .unboundedPreceding => .string "UnboundedPreceding"
  | .preceding offset => tagged "Preceding" (.integer offset.toNat)
  | .currentRow => .string "CurrentRow"
  | .following offset => tagged "Following" (.integer offset.toNat)
  | .unboundedFollowing => .string "UnboundedFollowing"

def replay : Decoder FrameBound := fun r j => do
  let v ← Variant.of? r j
  match v.name with
  | "UnboundedPreceding" => v.bare .unboundedPreceding
  | "Preceding" => (v.single Decoder.unsigned32).map .preceding
  | "CurrentRow" => v.bare .currentRow
  | "Following" => (v.single Decoder.unsigned32).map .following
  | "UnboundedFollowing" => v.bare .unboundedFollowing
  | _ => none

end FrameBound

namespace FrameExclusion

def dumpName : FrameExclusion → String
  | .currentRow => "CurrentRow"
  | .group => "Group"
  | .ties => "Ties"
  | .noOthers => "NoOthers"

def dump (e : FrameExclusion) : Json := .string e.dumpName

def replay : Decoder FrameExclusion :=
  Decoder.oneOf [.currentRow, .group, .ties, .noOthers] dumpName

end FrameExclusion

namespace WindowFrame

def fieldNames : List String := ["mode", "start", "end", "exclusion"]

def dump (f : WindowFrame) : Json :=
  .object [("mode", f.mode.dump), ("start", f.start.dump), ("end", ofOption FrameBound.dump f.stop),
    ("exclusion", ofOption FrameExclusion.dump f.exclusion)]

def replay : Decoder WindowFrame := fun r j => do
  let f ← Fields.ofRecord fieldNames r j
  match f.slots with
  | [mode, start, stop, exclusion] => do
    let mode ← f.required FrameMode.replay mode
    let start ← f.required FrameBound.replay start
    let stop ← f.optional FrameBound.replay stop
    let exclusion ← f.optional FrameExclusion.replay exclusion
    some ⟨mode, start, stop, exclusion⟩
  | _ => none

end WindowFrame

namespace WindowDefinition

variable {E : Type}

def fieldNames : List String := ["partition_by", "order_by", "frame"]

def dump (d : WindowDefinition Json) : Json :=
  .object [("partition_by", .array d.partitionBy),
    ("order_by", .array (d.orderBy.map OrderTerm.dump)),
    ("frame", ofOption WindowFrame.dump d.frame)]

def replay (operand : Decoder E) : Decoder (WindowDefinition E) := fun r j => do
  let f ← Fields.ofRecord fieldNames r j
  match f.slots with
  | [partitionBy, orderBy, frame] => do
    let partitionBy ← f.required (Decoder.list operand) partitionBy
    let orderBy ← f.required (Decoder.list (OrderTerm.replay operand)) orderBy
    let frame ← f.optional WindowFrame.replay frame
    some ⟨partitionBy, orderBy, frame⟩
  | _ => none

end WindowDefinition

namespace WindowKind

def dumpName : WindowKind → String
  | .rowNumber => "RowNumber"
  | .rank => "Rank"
  | .denseRank => "DenseRank"
  | .count => "Count"
  | .sum => "Sum"
  | .min => "Min"
  | .max => "Max"

def dump (k : WindowKind) : Json := .string k.dumpName

def replay : Decoder WindowKind := Decoder.oneOf all dumpName

end WindowKind

namespace WindowReference

variable {E : Type}

def dump : WindowReference Json → Json
  | .named name => tagged "Named" (.string name)
  | .inline definition => tagged "Inline" definition.dump

def replay (operand : Decoder E) : Decoder (WindowReference E) := fun r j => do
  let v ← Variant.of? r j
  match v.name with
  | "Named" => (v.single Decoder.string).map .named
  | "Inline" => (v.single (WindowDefinition.replay operand)).map .inline
  | _ => none

end WindowReference

namespace WindowFunction

variable {E : Type}

def fieldNames : List String := ["kind", "argument", "window"]

def dump (w : WindowFunction Json) : Json :=
  .object [("kind", w.kind.dump), ("argument", w.argument.getD .null), ("window", w.window.dump)]

def replay (operand : Decoder E) : Decoder (WindowFunction E) := fun r j => do
  let f ← Fields.ofRecord fieldNames r j
  match f.slots with
  | [kind, argument, window] => do
    let kind ← f.required WindowKind.replay kind
    let argument ← f.optional operand argument
    let window ← f.required (WindowReference.replay operand) window
    some ⟨kind, argument, window⟩
  | _ => none

end WindowFunction
end QueryForge
