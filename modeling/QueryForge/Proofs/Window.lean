import QueryForge.Proofs.Names

/-!
# The texts of windows are unambiguous

A window is determined by its text as far as its operands are determined by theirs. What may
follow grows with the size of the piece: an operand ends before a closing parenthesis, a comma or
a blank, an order term before the next term or the next part of the window.
-/

namespace QueryForge

namespace Sql

inductive Closes : List Char → Prop
  | mk (rest : List Char) : Closes (')' :: rest)

/-- The end of a window, or its next part with its first letter. -/
inductive EndsPart : List Char → Prop
  | closing (rest : List Char) : EndsPart (')' :: rest)
  | part {c : Char} (h : c ∈ ['P', 'O', 'R', 'G']) (rest : List Char) : EndsPart (' ' :: c :: rest)

inductive EndsTerm : List Char → Prop
  | comma (rest : List Char) : EndsTerm (',' :: rest)
  | part {rest : List Char} (h : EndsPart rest) : EndsTerm rest

inductive EndsOperand : List Char → Prop
  | closing (rest : List Char) : EndsOperand (')' :: rest)
  | comma (rest : List Char) : EndsOperand (',' :: rest)
  | blank (rest : List Char) : EndsOperand (' ' :: rest)

theorem Closes.endsPart {r : List Char} (h : Closes r) : EndsPart r := by
  cases h with
  | mk rest => exact .closing rest

theorem EndsPart.endsOperand {r : List Char} (h : EndsPart r) : EndsOperand r := by
  cases h with
  | closing rest => exact .closing rest
  | part _ rest => exact .blank _

theorem EndsTerm.endsOperand {r : List Char} (h : EndsTerm r) : EndsOperand r := by
  cases h with
  | comma rest => exact .comma rest
  | part h => exact h.endsOperand

theorem EndsOperand.stops {p : Char → Bool} (closing : p ')' = false) (comma : p ',' = false)
    (blank : p ' ' = false) {r : List Char} (h : EndsOperand r) :
    ∀ c, r.head? = some c → p c = false := by
  cases h with
  | closing rest => exact stops_cons closing rest
  | comma rest => exact stops_cons comma rest
  | blank rest => exact stops_cons blank rest

end Sql

open Sql

theorem SortOrder.prefixFree : PrefixFree SortOrder.sql :=
  .of_all [.ascending, .descending] (fun a => by cases a <;> decide) (by decide)

theorem NullsOrder.prefixFree : PrefixFree NullsOrder.sql :=
  .of_all [.first, .last] (fun a => by cases a <;> decide) (by decide)

variable {E : Type} {text : E → String} {plain : E → Prop}

namespace OrderTerm

/-- Nothing that reads like a direction. -/
def EndsOrder (r : List Char) : Prop := ∀ c rest, r = ' ' :: c :: rest → c ≠ 'A' ∧ c ≠ 'D'

theorem endsOrder_nulls (nulls : Option NullsOrder) {r : List Char} (h : EndsTerm r) :
    EndsOrder ((Sql.optional nulls fun n => " " ++ n.sql).toList ++ r) := by
  intro c rest same
  cases nulls with
  | none =>
    obtain rfl : r = ' ' :: c :: rest := same
    cases h with
    | part h =>
      cases h with
      | part letter => exact ⟨by rintro rfl; simp at letter, by rintro rfl; simp at letter⟩
  | some n =>
    have letter : 'N' = c := by
      cases n <;> exact (List.cons.inj (List.cons.inj same).2).1
    subst letter
    decide

theorem order_determined (o : Option SortOrder) :
    Determined (fun o => Sql.optional o fun o => " " ++ SortOrder.sql o) (fun _ => True) EndsOrder
      o := by
  refine Determined.optionalWord SortOrder.prefixFree " " ?_ o
  intro b r h
  cases b with
  | ascending => exact (h 'A' _ rfl).1 rfl
  | descending => exact (h 'D' _ rfl).2 rfl

theorem nulls_determined (n : Option NullsOrder) :
    Determined (fun n => Sql.optional n fun n => " " ++ NullsOrder.sql n) (fun _ => True) EndsTerm
      n := by
  refine Determined.optionalWord NullsOrder.prefixFree " " ?_ n
  intro b r h
  have begins : (" " ++ b.sql).toList ++ r = ' ' :: 'N' :: ((" " ++ b.sql).toList.drop 2 ++ r) := by
    cases b <;> rfl
  rw [begins] at h
  cases h with
  | part h =>
    cases h with
    | part letter => simp at letter

theorem toList_sql_append (t : OrderTerm E) (r : List Char) :
    (t.map text).sql.toList ++ r =
      (text t.expr).toList ++ ((Sql.optional t.order fun o => " " ++ o.sql).toList ++
        ((Sql.optional t.nulls fun n => " " ++ n.sql).toList ++ r)) := by
  simp [sql, map]

theorem endsOperand_suffix (t : OrderTerm E) {r : List Char} (h : EndsTerm r) :
    EndsOperand ((Sql.optional t.order fun o => " " ++ o.sql).toList ++
      ((Sql.optional t.nulls fun n => " " ++ n.sql).toList ++ r)) := by
  cases t.order with
  | some o => cases o <;> exact .blank _
  | none =>
    cases t.nulls with
    | some n => cases n <;> exact .blank _
    | none => exact h.endsOperand

theorem determined {t : OrderTerm E} (h : Determined text plain EndsOperand t.expr) :
    Determined (fun t => (t.map text).sql) (fun t => plain t.expr) EndsTerm t := by
  intro u r s hu hr hs same
  rw [toList_sql_append, toList_sql_append] at same
  obtain ⟨exprs, suffixes⟩ :=
    h hu (endsOperand_suffix t hr) (endsOperand_suffix u hs) same
  obtain ⟨orders, suffixes⟩ :=
    order_determined t.order trivial (endsOrder_nulls _ hr) (endsOrder_nulls _ hs) suffixes
  obtain ⟨nulls, rest⟩ := nulls_determined t.nulls trivial hr hs suffixes
  cases t
  cases u
  simp only [mk.injEq]
  exact ⟨⟨exprs, orders, nulls⟩, rest⟩

end OrderTerm

theorem FrameMode.prefixFree : PrefixFree FrameMode.sql :=
  .of_all [.range, .rows, .groups] (fun a => by cases a <;> decide) (by decide)

theorem FrameExclusion.prefixFree : PrefixFree FrameExclusion.sql :=
  .of_all [.currentRow, .group, .ties, .noOthers] (fun a => by cases a <;> decide)
    (by decide)

/-- The second word of a bound. -/
inductive BoundSide where
  | preceding
  | row
  | following
deriving DecidableEq

namespace BoundSide

def sql : BoundSide → String
  | .preceding => "PRECEDING"
  | .row => "ROW"
  | .following => "FOLLOWING"

theorem prefixFree : PrefixFree sql :=
  .of_all [.preceding, .row, .following] (fun a => by cases a <;> decide) (by decide)

end BoundSide

namespace FrameBound

def side : FrameBound → BoundSide
  | .unboundedPreceding | .preceding _ => .preceding
  | .currentRow => .row
  | .unboundedFollowing | .following _ => .following

def place : FrameBound → String
  | .unboundedPreceding | .unboundedFollowing => "UNBOUNDED"
  | .preceding offset | .following offset => offset.toNat.repr
  | .currentRow => "CURRENT"

theorem toList_sql_append (b : FrameBound) (r : List Char) :
    b.sql.toList ++ r = b.place.toList ++ (' ' :: (b.side.sql.toList ++ r)) := by
  cases b <;> simp [sql, place, side, BoundSide.sql]

theorem eq_of_place_of_side {a b : FrameBound} (places : a.place = b.place)
    (sides : a.side = b.side) : a = b := by
  have word (n : UInt32) : n.toNat.repr ≠ "UNBOUNDED" := repr_ne (c := 'U') (by decide) (by decide)
  have offset (m n : UInt32) (h : m.toNat.repr = n.toNat.repr) : m = n :=
    UInt32.toNat_inj.1 (repr_injective h)
  cases a <;> cases b <;> simp only [side, reduceCtorEq] at sides <;>
    simp only [place] at places
  case preceding.preceding | following.following => exact congrArg _ (offset _ _ places)
  case preceding.unboundedPreceding | following.unboundedFollowing => exact absurd places (word _)
  case unboundedPreceding.preceding | unboundedFollowing.following =>
    exact absurd places.symm (word _)
  case unboundedPreceding.unboundedPreceding | currentRow.currentRow |
      unboundedFollowing.unboundedFollowing => rfl

/-- A place begins with a digit or one of two letters, and it has no blank. -/
theorem place_chars (b : FrameBound) :
    (∃ c cs, b.place.toList = c :: cs ∧ c ≠ 'B') ∧ ∀ c ∈ b.place.toList, c != ' ' := by
  have digits (n : Nat) :
      (∃ c cs, n.repr.toList = c :: cs ∧ c ≠ 'B') ∧ ∀ c ∈ n.repr.toList, c != ' ' := by
    constructor
    · obtain ⟨c, cs, same, digit⟩ := exists_repr_eq_cons n
      exact ⟨c, cs, same, by rintro rfl; cases digit⟩
    · intro c hc
      rw [bne_iff_ne]
      rintro rfl
      cases isDigit_of_mem_repr hc
  cases b with
  | preceding n => exact digits n.toNat
  | following n => exact digits n.toNat
  | unboundedPreceding | currentRow | unboundedFollowing =>
    exact ⟨⟨_, _, rfl, by decide⟩, List.all_eq_true.1 rfl⟩

theorem sql_inj {a b : FrameBound} {r s : List Char}
    (same : a.sql.toList ++ r = b.sql.toList ++ s) : a = b ∧ r = s := by
  rw [toList_sql_append, toList_sql_append] at same
  obtain ⟨places, rests⟩ := span_inj a.place_chars.2 b.place_chars.2 (stops_cons rfl _)
    (stops_cons rfl _) same
  obtain ⟨sides, rest⟩ := BoundSide.prefixFree.inj (List.cons.inj rests).2
  exact ⟨eq_of_place_of_side (String.toList_injective places) sides, rest⟩

end FrameBound

namespace WindowFrame

/-- The bounds of a frame: one, or two between which it lies. -/
def boundsSql (start : FrameBound) : Option FrameBound → String
  | some stop => " BETWEEN " ++ start.sql ++ " AND " ++ stop.sql
  | none => " " ++ start.sql

theorem bounds_inj {start start' : FrameBound} {stop stop' : Option FrameBound} {r s : List Char}
    (same : (boundsSql start stop).toList ++ r = (boundsSql start' stop').toList ++ s) :
    start = start' ∧ stop = stop' ∧ r = s := by
  -- a single bound does not begin like the word BETWEEN
  have apart (b : FrameBound) (r s : List Char) : b.sql.toList ++ r ≠ 'B' :: s := by
    obtain ⟨c, cs, chars, other⟩ := b.place_chars.1
    rw [FrameBound.toList_sql_append, chars]
    intro same
    exact other (List.cons.inj same).1
  cases stop with
  | none =>
    cases stop' with
    | none =>
      simp [boundsSql] at same
      obtain ⟨rfl, rest⟩ := FrameBound.sql_inj same
      exact ⟨rfl, rfl, rest⟩
    | some stop' =>
      simp [boundsSql] at same
      exact absurd same (apart _ _ _)
  | some stop =>
    cases stop' with
    | none =>
      simp [boundsSql] at same
      exact absurd same.symm (apart _ _ _)
    | some stop' =>
      simp [boundsSql] at same
      obtain ⟨rfl, rests⟩ := FrameBound.sql_inj same
      simp only [List.cons.injEq, true_and] at rests
      obtain ⟨rfl, rest⟩ := FrameBound.sql_inj rests
      exact ⟨rfl, rfl, rest⟩

theorem toList_sql_append (f : WindowFrame) (r : List Char) :
    f.sql.toList ++ r = f.mode.sql.toList ++ ((boundsSql f.start f.stop).toList ++
      ((Sql.optional f.exclusion fun e => " " ++ e.sql).toList ++ r)) := by
  obtain ⟨mode, start, stop, exclusion⟩ := f
  cases stop <;> simp [sql, boundsSql]

theorem exclusion_determined (e : Option FrameExclusion) :
    Determined (fun e => Sql.optional e fun e => " " ++ FrameExclusion.sql e) (fun _ => True)
      EndsPart e := by
  refine Determined.optionalWord FrameExclusion.prefixFree " " ?_ e
  intro b r h
  have begins : (" " ++ b.sql).toList ++ r = ' ' :: 'E' :: ((" " ++ b.sql).toList.drop 2 ++ r) := by
    cases b <;> rfl
  rw [begins] at h
  cases h with
  | part letter => simp at letter

theorem determined (f : WindowFrame) : Determined sql (fun _ => True) EndsPart f := by
  intro g r s _ hr hs same
  rw [toList_sql_append, toList_sql_append] at same
  obtain ⟨modes, rests⟩ := FrameMode.prefixFree.inj same
  obtain ⟨starts, stops, rests⟩ := bounds_inj rests
  obtain ⟨exclusions, rest⟩ := exclusion_determined f.exclusion trivial hr hs rests
  cases f
  cases g
  simp only [mk.injEq]
  exact ⟨⟨modes, starts, stops, exclusions⟩, rest⟩

end WindowFrame

section Operands

variable (opens : ∀ e, plain e → ∀ r, ¬EndsOperand ((text e).toList ++ r))

include opens

theorem operands_determined {es : List E} (h : ∀ e ∈ es, Determined text plain EndsOperand e)
    (hp : ∀ e ∈ es, plain e) :
    Determined (fun es => commaSeparated (es.map text)) (fun es => ∀ e ∈ es, plain e) EndsPart
      es := by
  refine Determined.separated (fun r hr => hr.endsOperand) (fun b r _ => .comma _) ?_ ?_ h hp
  · intro r hr
    cases hr
  · intro b r hb hr
    exact opens b hb r hr.endsOperand

theorem terms_determined {ts : List (OrderTerm E)}
    (h : ∀ t ∈ ts, Determined text plain EndsOperand t.expr) (hp : ∀ t ∈ ts, plain t.expr) :
    Determined (fun ts => commaSeparated (ts.map fun t => (t.map text).sql))
      (fun ts => ∀ t ∈ ts, plain t.expr) EndsPart ts := by
  refine Determined.separated (fun r hr => .part hr) (fun b r _ => .comma _) ?_ ?_
    (fun t ht => OrderTerm.determined (h t ht)) hp
  · intro r hr
    cases hr
  · intro b r hb hr
    rw [OrderTerm.toList_sql_append] at hr
    exact opens _ hb _ hr.endsOperand

end Operands

/-- What a window is put together from. -/
inductive WindowPart (E : Type) where
  | partition (keys : List E)
  | order (terms : List (OrderTerm E))
  | frame (frame : WindowFrame)

namespace WindowPart

def sql (text : E → String) : WindowPart E → String
  | .partition es => "PARTITION BY " ++ commaSeparated (es.map text)
  | .order ts => "ORDER BY " ++ commaSeparated (ts.map fun t => (t.map text).sql)
  | .frame f => f.sql

def operands : WindowPart E → List E
  | .partition es => es
  | .order ts => ts.map OrderTerm.expr
  | .frame _ => []

def keys : WindowPart E → List E
  | .partition es => es
  | .order _ | .frame _ => []

def terms : WindowPart E → List (OrderTerm E)
  | .order ts => ts
  | .partition _ | .frame _ => []

def frame? : WindowPart E → Option WindowFrame
  | .frame f => some f
  | .partition _ | .order _ => none

/-- The first letter tells the kinds of parts apart. -/
def letter : WindowPart E → Char
  | .partition _ => 'P'
  | .order _ => 'O'
  | .frame ⟨.groups, _, _, _⟩ => 'G'
  | .frame _ => 'R'

theorem letter_mem (p : WindowPart E) : p.letter ∈ ['P', 'O', 'R', 'G'] := by
  unfold letter
  split <;> decide

theorem exists_sql_eq_cons (text : E → String) (p : WindowPart E) :
    ∃ cs, (p.sql text).toList = p.letter :: cs := by
  cases p with
  | partition es => exact ⟨_, by simp [sql, letter]; rfl⟩
  | order ts => exact ⟨_, by simp [sql, letter]; rfl⟩
  | frame f =>
    obtain ⟨mode, start, stop, exclusion⟩ := f
    cases mode <;> exact ⟨_, by simp [sql, WindowFrame.sql, FrameMode.sql, letter]; rfl⟩

theorem letter_eq {p q : WindowPart E} {r s : List Char}
    (same : (p.sql text).toList ++ r = (q.sql text).toList ++ s) : p.letter = q.letter := by
  obtain ⟨cs, hp⟩ := exists_sql_eq_cons text p
  obtain ⟨ds, hq⟩ := exists_sql_eq_cons text q
  rw [hp, hq] at same
  exact (List.cons.inj same).1

theorem letter_frame (f : WindowFrame) :
    (frame f : WindowPart E).letter ≠ 'P' ∧ (frame f : WindowPart E).letter ≠ 'O' := by
  obtain ⟨mode, start, stop, exclusion⟩ := f
  cases mode <;> simp [letter]

theorem determined (opens : ∀ e, plain e → ∀ r, ¬EndsOperand ((text e).toList ++ r))
    {p : WindowPart E} (h : ∀ e ∈ p.operands, Determined text plain EndsOperand e)
    (hp : ∀ e ∈ p.operands, plain e) :
    Determined (sql text) (fun p => ∀ e ∈ p.operands, plain e) EndsPart p := by
  intro q r s hq hr hs same
  have letters := letter_eq same
  cases p with
  | partition es =>
    cases q with
    | partition fs =>
      simp [sql] at same
      obtain ⟨rfl, rest⟩ := operands_determined opens h hp hq hr hs same
      exact ⟨rfl, rest⟩
    | order us => simp [letter] at letters
    | frame g => exact absurd letters.symm (letter_frame g).1
  | order ts =>
    cases q with
    | partition fs => simp [letter] at letters
    | order us =>
      simp [sql] at same
      simp only [operands, List.forall_mem_map] at h hp hq
      obtain ⟨rfl, rest⟩ := terms_determined opens h hp hq hr hs same
      exact ⟨rfl, rest⟩
    | frame g => exact absurd letters.symm (letter_frame g).2
  | frame f =>
    cases q with
    | partition fs => exact absurd letters (letter_frame f).1
    | order us => exact absurd letters (letter_frame f).2
    | frame g =>
      obtain ⟨rfl, rest⟩ := f.determined trivial hr hs same
      exact ⟨rfl, rest⟩

end WindowPart

namespace WindowDefinition

def parts (d : WindowDefinition E) : List (WindowPart E) :=
  (if d.partitionBy.isEmpty then [] else [.partition d.partitionBy]) ++
    (if d.orderBy.isEmpty then [] else [.order d.orderBy]) ++ d.frame.toList.map .frame

theorem sql_map (d : WindowDefinition E) :
    (d.map text).sql = separated " " (d.parts.map (WindowPart.sql text)) := by
  obtain ⟨partitionBy, orderBy, frame⟩ := d
  cases partitionBy <;> cases orderBy <;> cases frame <;>
    simp [sql, map, parts, WindowPart.sql, Function.comp_def]

theorem operands_parts (d : WindowDefinition E) :
    d.operands = d.parts.flatMap WindowPart.operands := by
  obtain ⟨partitionBy, orderBy, frame⟩ := d
  cases partitionBy <;> cases orderBy <;> cases frame <;>
    simp [operands, parts, WindowPart.operands]

theorem keys_parts (d : WindowDefinition E) : d.parts.flatMap WindowPart.keys = d.partitionBy := by
  obtain ⟨partitionBy, orderBy, frame⟩ := d
  cases partitionBy <;> cases orderBy <;> cases frame <;> simp [parts, WindowPart.keys]

theorem terms_parts (d : WindowDefinition E) : d.parts.flatMap WindowPart.terms = d.orderBy := by
  obtain ⟨partitionBy, orderBy, frame⟩ := d
  cases partitionBy <;> cases orderBy <;> cases frame <;> simp [parts, WindowPart.terms]

theorem frame_parts (d : WindowDefinition E) : d.parts.findSome? WindowPart.frame? = d.frame := by
  obtain ⟨partitionBy, orderBy, frame⟩ := d
  cases partitionBy <;> cases orderBy <;> cases frame <;> 
    simp [parts, WindowPart.frame?, List.findSome?_cons]

theorem parts_injective {d e : WindowDefinition E} (h : d.parts = e.parts) : d = e := by
  have keys : d.partitionBy = e.partitionBy := by rw [← keys_parts d, h, keys_parts]
  have terms : d.orderBy = e.orderBy := by rw [← terms_parts d, h, terms_parts]
  have frames : d.frame = e.frame := by rw [← frame_parts d, h, frame_parts]
  cases d
  cases e
  simp only [mk.injEq]
  exact ⟨keys, terms, frames⟩

theorem determined (opens : ∀ e, plain e → ∀ r, ¬EndsOperand ((text e).toList ++ r))
    {d : WindowDefinition E} (h : ∀ e ∈ d.operands, Determined text plain EndsOperand e)
    (hd : ∀ e ∈ d.operands, plain e) :
    Determined (fun d => (d.map text).sql) (fun d => ∀ e ∈ d.operands, plain e) Closes d := by
  intro d' r s hd' hr hs same
  simp only [sql_map] at same
  simp only [operands_parts, List.forall_mem_flatMap] at h hd hd'
  have list : Determined (fun ps => separated " " (ps.map (WindowPart.sql text)))
      (fun ps => ∀ p ∈ ps, ∀ e ∈ p.operands, plain e) Closes d.parts := by
    refine Determined.separated (fun r hr => hr.endsPart) ?_ ?_ ?_
      (fun p hp => WindowPart.determined opens (h p hp) (hd p hp)) hd
    · intro p r _
      obtain ⟨cs, first⟩ := WindowPart.exists_sql_eq_cons text p
      rw [first]
      exact .part p.letter_mem _
    · intro r hr
      cases hr
    · intro p r _ hr
      obtain ⟨cs, first⟩ := WindowPart.exists_sql_eq_cons text p
      have letter := p.letter_mem
      rw [first] at hr
      generalize p.letter = c at letter hr
      cases hr
      simp at letter
  obtain ⟨parts, rest⟩ := list hd' hr hs same
  exact ⟨parts_injective parts, rest⟩

end WindowDefinition

namespace WindowReference

theorem determined (opens : ∀ e, plain e → ∀ r, ¬EndsOperand ((text e).toList ++ r))
    {w : WindowReference E} (h : ∀ e ∈ w.operands, Determined text plain EndsOperand e)
    (hw : (∀ n ∈ w.names, IsIdentifier n) ∧ ∀ e ∈ w.operands, plain e) :
    Determined (fun w => (w.map text).sql)
      (fun w => (∀ n ∈ w.names, IsIdentifier n) ∧ ∀ e ∈ w.operands, plain e) EndsOperand w := by
  intro v r s hv hr hs same
  -- a name does not begin with a parenthesis
  have apart {name : String} (hn : IsIdentifier name) (r s : List Char) :
      name.toList ++ r ≠ '(' :: s := by
    obtain ⟨c, cs, chars, first⟩ := hn.exists_cons
    rw [chars]
    intro same
    obtain rfl := (List.cons.inj same).1
    cases first
  cases w with
  | named name =>
    have hname := hw.1 name List.mem_cons_self
    cases v with
    | named name' =>
      have hname' := hv.1 name' List.mem_cons_self
      obtain ⟨rfl, rest⟩ := hname.inj hname' (hr.stops rfl rfl rfl) (hs.stops rfl rfl rfl) same
      exact ⟨rfl, rest⟩
    | inline d =>
      simp [sql, map] at same
      exact absurd same (apart hname _ _)
  | inline d =>
    cases v with
    | named name' =>
      simp [sql, map] at same
      exact absurd same.symm (apart (hv.1 name' List.mem_cons_self) _ _)
    | inline d' =>
      simp [sql, map] at same
      obtain ⟨rfl, rests⟩ :=
        WindowDefinition.determined opens h hw.2 hv.2 (.mk _) (.mk _) same
      exact ⟨rfl, (List.cons.inj rests).2⟩

end WindowReference

theorem WindowKind.prefixFree : PrefixFree WindowKind.sql :=
  .of_all WindowKind.all (fun a => by cases a <;> decide) (by decide)

namespace WindowFunction

theorem toList_sql_append (w : WindowFunction E) (r : List Char) :
    (w.map text).sql.toList ++ r = w.kind.sql.toList ++
      ('(' :: ((commaSeparated (w.argument.toList.map text)).toList ++
        (')' :: ' ' :: 'O' :: 'V' :: 'E' :: 'R' :: ' ' ::
          ((w.window.map text).sql.toList ++ r)))) := by
  obtain ⟨kind, argument, window⟩ := w
  cases argument <;> simp [sql, map, commaSeparated, separated]

theorem determined (opens : ∀ e, plain e → ∀ r, ¬EndsOperand ((text e).toList ++ r))
    {w : WindowFunction E} (h : ∀ e ∈ w.operands, Determined text plain EndsOperand e)
    (hw : (∀ n ∈ w.window.names, IsIdentifier n) ∧ ∀ e ∈ w.operands, plain e) :
    Determined (fun w => (w.map text).sql)
      (fun w => (∀ n ∈ w.window.names, IsIdentifier n) ∧ ∀ e ∈ w.operands, plain e) EndsOperand
      w := by
  intro v r s hv hr hs same
  simp only [operands, List.forall_mem_append] at h hw hv
  rw [toList_sql_append, toList_sql_append] at same
  obtain ⟨kinds, rests⟩ := WindowKind.prefixFree.inj same
  obtain ⟨arguments, rests⟩ := operands_determined opens h.1 hw.2.1 hv.2.1 (.closing _)
    (.closing _) (List.cons.inj rests).2
  simp only [List.cons.injEq, true_and] at rests
  obtain ⟨windows, rest⟩ :=
    WindowReference.determined opens h.2 ⟨hw.1, hw.2.2⟩ ⟨hv.1, hv.2.2⟩ hr hs rests
  have argument : w.argument = v.argument := by simpa using congrArg List.head? arguments
  obtain ⟨kind, _, window⟩ := w
  obtain ⟨kind', _, window'⟩ := v
  obtain rfl : kind = kind' := kinds
  obtain rfl : window = window' := windows
  cases argument
  exact ⟨rfl, rest⟩

end WindowFunction
end QueryForge
