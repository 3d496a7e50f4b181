import QueryForge.Proofs.Pieces
import QueryForge.Proofs.Select.Nesting

/-!
# Statements are lexically self-contained

Every clause of a plain statement is a piece of SQL behind a keyword, and nested statements stand
between parentheses or at the end. So a reader that knows only the rule of quotes finds exactly
the literals that were written, balanced parentheses and no comment.
-/

namespace QueryForge

open Sql

/-- The condition that is written; a cross join has none. -/
def Join.condition {Q : Type} (j : Join Q) : Option Expr := if j.kind = .cross then none else j.on

namespace Clauses

variable {Q R : Type}

/-- The texts of all literals in the order in which the clauses are written, given those of the
nested statements. -/
def literalTexts (texts : Q → List String) (c : Clauses Q) : List String :=
  c.ctes.flatMap (fun cte => texts cte.query) ++
    c.modifier.distinctOn.toList.flatMap Expr.literalTexts ++
    c.columns.flatMap (fun r => r.operands.flatMap Expr.literalTexts) ++
    c.windowFunctions.flatMap (fun w => w.operands.flatMap Expr.literalTexts) ++
    c.fromItems.flatMap (fun i => i.nested.flatMap texts) ++
    c.joins.flatMap (fun j => j.item.nested.flatMap texts ++
      j.condition.toList.flatMap Expr.literalTexts) ++
    c.filter.toList.flatMap Expr.literalTexts ++ c.groupBy.flatMap Expr.literalTexts ++
    c.having.toList.flatMap Expr.literalTexts ++
    c.windows.entries.flatMap (fun w => w.2.operands.flatMap Expr.literalTexts) ++
    c.orderBy.flatMap (fun t => t.expr.literalTexts) ++
    c.setOperation.toList.flatMap (fun arm => texts arm.query)

theorem literalTexts_map (f : Q → R) (texts : R → List String) (c : Clauses Q) :
    (c.map f).literalTexts texts = c.literalTexts (texts ∘ f) := by
  have arm : (c.map f).setOperation.toList = c.setOperation.toList.map (SetOperation.map f) := by
    unfold map
    cases c.setOperation <;> rfl
  unfold literalTexts
  rw [ctes_map, arm]
  simp [map, List.flatMap_map, Cte.map, FromItem.nested_map, Join.map, Join.condition,
    SetOperation.map, Function.comp_def]
  rfl

end Clauses

namespace Select

/-- The texts of all literals of a statement, in the order in which they are written. -/
def literalTexts : Select → List String := fold (Clauses.literalTexts id)

theorem literalTexts_node (c : Clauses Select) :
    (Select.node c).literalTexts = c.literalTexts literalTexts := by
  unfold literalTexts
  rw [fold_node, Clauses.literalTexts_map]
  rfl

end Select

theorem Sql.on_group (t : String) : " ON (" ++ t ++ ")" = " ON " ++ ("(" ++ t ++ ")") :=
  String.toList_injective (by simp)

theorem NamedWindows.entrySql_eq (entry : String × WindowDefinition Expr) :
    entrySql entry = entry.1 ++ " AS " ++ ("(" ++ entry.2.text ++ ")") :=
  String.toList_injective (by simp [entrySql])

theorem FromItem.sql_subquery (query asName : String) :
    (subquery query asName).sql = "(" ++ query ++ ")" ++ " AS " ++ asName :=
  String.toList_injective (by simp [sql])

theorem Cte.sql_eq (c : Cte String) :
    c.sql = c.name ++ (if c.columnAliases.isEmpty then ""
      else "(" ++ commaSeparated c.columnAliases ++ ")") ++ (" AS " ++ ("(" ++ c.query ++ ")")) :=
  String.toList_injective (by simp [sql])

namespace SelectModifier

theorem distinct_tail {m : SelectModifier} (h : ∀ e, m.distinctOn = some e → e.Plain) :
    Tail m.distinctSql (m.distinctOn.toList.flatMap Expr.literalTexts) := by
  have distinct : Block " DISTINCT" [] := .word (by decide)
  have on : Block " ON " [] := .word (by decide)
  cases m with
  | all | locked => exact Tail.empty
  | distinct e =>
    have condition : Tail (Sql.optional e fun e => " ON (" ++ e.sql ++ ")")
        (e.toList.flatMap Expr.literalTexts) := by
      apply Tail.optional
      intro a ha
      rw [Sql.on_group]
      exact on.append (Expr.piece (h a ha)).group.piece
    exact distinct.tail.append condition

theorem locking_tail (m : SelectModifier) : Tail m.lockingSql [] := by
  cases m with
  | all | distinct => exact Tail.empty
  | locked clause => cases clause <;> exact (Block.word (by decide)).tail

end SelectModifier

theorem Sql.alias_tail {o : Option String} (h : ∀ n ∈ o.toList, IsIdentifier n) :
    Tail (Sql.optional o fun n => " AS " ++ n) [] := by
  have as : Block " AS " [] := .word (by decide)
  cases o with
  | none => exact Tail.empty
  | some n => exact as.append (h n List.mem_cons_self).block.piece

theorem Sql.names_piece {names : List String} (h : ∀ n ∈ names, IsIdentifier n) :
    Piece (commaSeparated names) [] := by
  have list : Piece (commaSeparated (names.map id)) (names.flatMap fun _ => []) :=
    Piece.separated .comma fun n hn => (h n hn).block.piece
  rwa [List.map_id, List.flatMap_eq_nil_iff.2 fun _ _ => rfl] at list

theorem ResultColumn.piece {r : ResultColumn} (names : ∀ n ∈ r.names, IsIdentifier n)
    (h : ∀ e ∈ r.operands, e.Plain) : Piece r.sql (r.operands.flatMap Expr.literalTexts) := by
  cases r with
  | star => exact (Block.word (by decide)).piece
  | expr value asName =>
    have joined := (Expr.piece (h value List.mem_cons_self)).append (alias_tail names)
    simpa [ResultColumn.sql, ResultColumn.operands] using joined

theorem NamedWindows.tail {w : NamedWindows} (names : ∀ n ∈ w.names, IsIdentifier n)
    (h : ∀ entry ∈ w.entries, ∀ e ∈ entry.2.operands, e.Plain) :
    Tail w.sql (w.entries.flatMap fun entry => entry.2.operands.flatMap Expr.literalTexts) := by
  have window : Block " WINDOW " [] := .word (by decide)
  have as : Block " AS " [] := .word (by decide)
  apply Tail.clause window
  intro entry mem
  have name := (names entry.1 (List.mem_map_of_mem mem)).block
  have definition : Piece entry.2.text (entry.2.operands.flatMap Expr.literalTexts) :=
    WindowDefinition.piece fun e he => Expr.piece (h entry mem e he)
  rw [entrySql_eq]
  exact ((name.tail.append as.tail).append definition.group.tail).piece

section Parts

variable {Q : Type} {text : Q → String} {texts : Q → List String}

theorem FromItem.tail {i : FromItem Q} (names : ∀ n ∈ i.names, IsIdentifier n)
    (h : ∀ q ∈ i.nested, Piece (text q) (texts q)) :
    Tail (i.map text).sql (i.nested.flatMap texts) := by
  cases i with
  | table name only asName =>
    have word := (names name List.mem_cons_self).block
    have called := alias_tail fun n hn => names n (List.mem_cons_of_mem _ hn)
    have front : Tail (if only then "ONLY " else "") [] := by
      cases only with
      | false => exact Tail.empty
      | true => exact (Block.word (by decide)).tail
    exact (front.append word.tail).append called
  | subquery query asName =>
    have as : Block " AS " [] := .word (by decide)
    have called := (names asName List.mem_cons_self).block
    have inner := (h query List.mem_cons_self).group
    rw [map, sql_subquery]
    have joined := (inner.tail.append as.tail).append called.tail
    simpa [FromItem.nested] using joined

theorem Join.tail {j : Join Q} (names : ∀ n ∈ j.item.names, IsIdentifier n)
    (h : ∀ q ∈ j.item.nested, Piece (text q) (texts q)) (on : ∀ e, j.on = some e → e.Plain) :
    Tail (" " ++ (j.map text).sql)
      (j.item.nested.flatMap texts ++ j.condition.toList.flatMap Expr.literalTexts) := by
  have kind : Block (" " ++ j.kind.sql ++ " ") [] := by
    cases j.kind <;> exact .word (by decide)
  have behind : Block " ON " [] := .word (by decide)
  have item := (FromItem.tail names h).piece
  by_cases cross : j.kind = .cross
  · have joined := kind.append item
    simpa [Join.sql, Join.map, Join.condition, cross, String.append_assoc] using joined
  · have condition : Tail (" ON " ++ (j.on.map Expr.sql).getD "TRUE")
        (j.on.toList.flatMap Expr.literalTexts) := by
      cases found : j.on with
      | none => exact behind.append (Block.word (by decide)).piece
      | some e => simpa using behind.append (Expr.piece (on e found))
    have joined := (kind.append item).append condition
    simpa [Join.sql, Join.map, Join.condition, cross, String.append_assoc] using joined

theorem Cte.tail {c : Cte Q} (names : ∀ n ∈ c.names, IsIdentifier n)
    (h : Piece (text c.query) (texts c.query)) : Tail (c.map text).sql (texts c.query) := by
  have name := (names c.name List.mem_cons_self).block
  have as : Block " AS " [] := .word (by decide)
  have aliases : Tail (if c.columnAliases.isEmpty then ""
      else "(" ++ commaSeparated c.columnAliases ++ ")") [] := by
    have list := names_piece fun n hn => names n (List.mem_cons_of_mem _ hn)
    split
    · exact Tail.empty
    · exact list.group.tail
  have joined := (name.tail.append aliases).append (as.append h.group.piece)
  rw [sql_eq]
  simpa [map] using joined

namespace Clauses

/-- The WITH clause with the blank behind it. -/
theorem with_tail {c : Clauses Q} (names : ∀ cte ∈ c.ctes, ∀ n ∈ cte.names, IsIdentifier n)
    (h : ∀ cte ∈ c.ctes, Piece (text cte.query) (texts cte.query)) :
    Tail (Sql.optional (c.map text).withClause fun w => w.sql ++ " ")
      (c.ctes.flatMap fun cte => texts cte.query) := by
  have keyword : Block "WITH " [] := .word (by decide)
  have blank : Block " " [] := .word (by decide)
  unfold ctes at names h ⊢
  cases found : c.withClause with
  | none => simpa [map, found, Sql.optional] using Tail.empty
  | some w =>
    simp only [found] at names h
    have list : Piece (commaSeparated (w.ctes.map fun cte => (cte.map text).sql))
        (w.ctes.flatMap fun cte => texts cte.query) :=
      Piece.separated .comma fun cte hc => (Cte.tail (names cte hc) (h cte hc)).piece
    have joined := (keyword.append list).append blank.tail
    simpa [map, found, Sql.optional, WithClause.sql, WithClause.map, Function.comp_def] using joined

theorem projection_tail {c : Clauses Q}
    (columns : ∀ r ∈ c.columns, Piece r.sql (r.operands.flatMap Expr.literalTexts))
    (functions : ∀ w ∈ c.windowFunctions, Piece w.text (w.operands.flatMap Expr.literalTexts)) :
    Tail c.projectionSql (c.columns.flatMap (fun r => r.operands.flatMap Expr.literalTexts) ++
      c.windowFunctions.flatMap (fun w => w.operands.flatMap Expr.literalTexts)) := by
  have blank : Block " " [] := .word (by decide)
  -- columns and window functions as one list of texts, each with its literals
  let parts : List (String × List String) :=
    c.columns.map (fun r => (r.sql, r.operands.flatMap Expr.literalTexts)) ++
      c.windowFunctions.map (fun w => (w.text, w.operands.flatMap Expr.literalTexts))
  have each : ∀ p ∈ parts, Piece p.1 p.2 := by
    simp only [parts, List.forall_mem_append, List.forall_mem_map]
    exact ⟨columns, functions⟩
  have list : Piece (commaSeparated (parts.map Prod.fst)) (parts.flatMap Prod.snd) :=
    Piece.separated .comma each
  simp only [parts, List.map_append, List.map_map, List.flatMap_append, List.flatMap_map,
    Function.comp_def] at list
  unfold projectionSql
  dsimp only
  generalize commaSeparated _ = projection at list ⊢
  by_cases empty : projection = ""
  · subst empty
    rw [list.eq_nil_of_empty]
    exact Tail.empty
  · have filled : projection.isEmpty = false := by simpa using empty
    rw [filled]
    exact blank.append list

theorem count_tail {keyword : String} (block : Block keyword []) (n : Option UInt64) :
    Tail (Sql.optional n fun n => keyword ++ n.toNat.repr) [] := by
  cases n with
  | none => exact Tail.empty
  | some n => exact block.append (Block.repr n.toNat).piece

theorem arm_tail {arm : SetOperation Q} (h : Piece (text arm.query) (texts arm.query)) :
    Tail (arm.map text).sql (texts arm.query) := by
  have keyword : Block (" " ++ arm.operator.sql ++ " ") [] := by
    cases arm.operator <;> exact .word (by decide)
  exact keyword.append h

/-- All clauses of a statement, one behind the other. -/
theorem piece {c : Clauses Q} (names : ∀ n ∈ c.ownNames, IsIdentifier n)
    (h : ∀ q ∈ c.nested, Piece (text q) (texts q)) :
    Piece (c.map text).sql (c.literalTexts texts) := by
  obtain ⟨ctes, columns, functions, fromItems, joins, windows, inner⟩ := forall_ownNames_iff.1 names
  obtain ⟨inColumns, inFunctions, inDistinct, inJoins, inFilter, inGroupBy, inHaving, inWindows,
    inOrderBy⟩ := (forall_expressions_iff (P := Expr.Plain)).1 inner
  obtain ⟨ofCtes, ofItems, ofJoins, ofArm⟩ := forall_nested_iff.1 h
  have select : Block "SELECT" [] := .word (by decide)
  have from' : Block " FROM " [] := .word (by decide)
  have where' : Block " WHERE " [] := .word (by decide)
  have groupBy : Block " GROUP BY " [] := .word (by decide)
  have having' : Block " HAVING " [] := .word (by decide)
  have orderBy : Block " ORDER BY " [] := .word (by decide)
  have limit : Block " LIMIT " [] := .word (by decide)
  have offset : Block " OFFSET " [] := .word (by decide)
  have withClause := with_tail ctes ofCtes
  have distinct := SelectModifier.distinct_tail inDistinct
  have projection := projection_tail
    (fun r hr => ResultColumn.piece (columns r hr) (inColumns r hr))
    (fun w hw => WindowFunction.piece (functions w hw) fun e he =>
      Expr.piece (inFunctions w hw e he))
  have sources := Tail.clause from' fun i hi =>
    (FromItem.tail (fromItems i hi) (ofItems i hi)).piece
  have joined := Tail.concat fun j hj => Join.tail (joins j hj) (ofJoins j hj) (inJoins j hj)
  have filter := Tail.optional fun e he => where'.append (Expr.piece (inFilter e he))
  have groups := Tail.clause groupBy fun e he => Expr.piece (inGroupBy e he)
  have having := Tail.optional fun e he => having'.append (Expr.piece (inHaving e he))
  have named := NamedWindows.tail windows inWindows
  have terms := Tail.clause orderBy fun t ht => OrderTerm.piece (Expr.piece (inOrderBy t ht))
  have arm := Tail.optional fun arm ha => arm_tail (ofArm arm ha)
  have statement := withClause.append select.tail |>.append distinct |>.append projection
    |>.append sources |>.append joined |>.append filter |>.append groups |>.append having
    |>.append named |>.append terms |>.append (count_tail limit c.limit)
    |>.append (count_tail offset c.offset) |>.append c.modifier.locking_tail |>.append arm
  have sourceTexts : (c.map text).fromItems.map FromItem.sql =
      c.fromItems.map fun i => (i.map text).sql := List.map_map ..
  have joinTexts : (c.map text).joins.map (fun j => " " ++ j.sql) =
      c.joins.map fun j => " " ++ (j.map text).sql := List.map_map ..
  have armText : Sql.optional (c.map text).setOperation SetOperation.sql =
      Sql.optional c.setOperation fun arm => (arm.map text).sql := by
    unfold map
    cases c.setOperation <;> rfl
  rw [← sourceTexts, ← joinTexts, ← armText] at statement
  simp only [List.nil_append, List.append_nil, ← List.append_assoc] at statement
  exact statement.piece

end Clauses

end Parts

namespace Select

theorem sql_node (c : Clauses Select) : (node c).sql = (c.map sql).sql := fold_node ..

theorem piece {s : Select} (h : s.Plain) : Piece s.sql s.literalTexts := by
  induction s using Select.induction with
  | step c ih =>
    have parts := plain_node.1 h
    rw [sql_node, literalTexts_node]
    exact Clauses.piece parts.1 fun q hq => ih q hq (parts.2 q hq)

/-- Reading the text of a plain statement gives back the literals that were written, in order, and
nothing but literals can hide a parenthesis or a comment. -/
theorem sql_selfContained {s : Select} (h : s.Plain) :
    ∃ ls, lexemes s.sql = some ls ∧ literals ls = s.literalTexts ∧ depthAfter 0 ls = some 0 ∧
      ¬[.code '-', .code '-'] <:+: ls ∧ ¬[.code '/', .code '*'] <:+: ls := by
  obtain ⟨ls, lexes⟩ := piece h
  refine ⟨ls, lexes.read, lexes.literals, lexes.depth 0, ?_, ?_⟩
  · intro comment
    have apart := lexes.apart.infix comment
    exact (List.isChain_cons_cons.1 apart).1 ⟨rfl, rfl⟩
  · intro comment
    have slash : Lexeme.code '/' ∈ ls := comment.subset List.mem_cons_self
    exact (lexes.code '/' slash).2 rfl

/-- Notes of a subquery that look like SQL themselves. -/
def commented : Select :=
  .node {
    columns := [.expr (.node (.unary .minus (.literal (.integer (-7))))) none]
    fromItems := [.subquery (.node {
      columns := [.star]
      fromItems := [.ofTable "notes"]
      filter := some
        (.binary (.column "note") .notEquals (.literal (.text "it's -- (open"))) }) "n"]
    joins := [⟨.cross, .ofTable "tags", some (.literal (.text "ignored"))⟩]
    filter := some (.literal (.typed "[1,5)" .range)) }

theorem commented_selfContained :
    commented.Plain ∧ ∃ ls, lexemes commented.sql = some ls ∧
      literals ls = ["it's -- (open", "[1,5)"] ∧ depthAfter 0 ls = some 0 ∧
      ¬[.code '-', .code '-'] <:+: ls ∧ ¬[.code '/', .code '*'] <:+: ls := by
  have plain : commented.Plain := by decide
  have texts : commented.literalTexts = ["it's -- (open", "[1,5)"] := by decide
  refine ⟨plain, ?_⟩
  rw [← texts]
  exact sql_selfContained plain

end Select
end QueryForge
