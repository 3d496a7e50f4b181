import QueryForge.Proofs.Quiet
import QueryForge.Proofs.Select.SelfContained

/-!
# The clauses of a statement are found again

The text of a plain statement is read as its clauses and those of the arms behind it, in order.
Each clause is quiet behind its keyword, so the text up to the next keyword is its content.
-/

namespace QueryForge

open Sql

namespace Segment

def optional {α : Type} (k : ClauseKeyword) (value : Option α) (content : α → String) :
    List Segment :=
  value.toList.map fun a => (k, " " ++ content a)

def list (k : ClauseKeyword) : List String → List Segment
  | [] => []
  | texts => [(k, " " ++ commaSeparated texts)]

end Segment

namespace Clauses

/-- Joins belong to FROM, or to the result columns if there is no FROM. -/
def selectSegments (c : Clauses String) : List Segment :=
  let columns := c.modifier.distinctSql ++ c.projectionSql
  let joins := Sql.concat (c.joins.map fun j => " " ++ j.sql)
  if c.fromItems.isEmpty then [(.select, columns ++ joins)]
  else
    [(.select, columns),
      (.fromItems, " " ++ commaSeparated (c.fromItems.map FromItem.sql) ++ joins)]

theorem selectSegments_ne_nil (c : Clauses String) : c.selectSegments ≠ [] := by
  unfold selectSegments
  split <;> exact List.cons_ne_nil _ _

/-- The clauses of one statement in the order in which they are written. -/
def segments (c : Clauses String) : List Segment :=
  Segment.optional .withClause c.withClause (fun w => commaSeparated (w.ctes.map Cte.sql)) ++
    c.selectSegments ++
    Segment.optional .filter c.filter Expr.sql ++
    Segment.list .groupBy (c.groupBy.map Expr.sql) ++
    Segment.optional .having c.having Expr.sql ++
    Segment.list .windows (c.windows.entries.map NamedWindows.entrySql) ++
    Segment.list .orderBy (c.orderBy.map OrderTerm.text) ++
    Segment.optional .limit c.limit (fun n => n.toNat.repr) ++
    Segment.optional .offset c.offset (fun n => n.toNat.repr) ++
    Segment.optional .lock c.modifier.lockingClause LockingClause.sql

end Clauses

/-- The clauses of a statement and of the arms behind it, with the operators between them. -/
def Select.segments : Select → List Segment
  | .node c@{ setOperation := some ⟨operator, arm⟩, .. } =>
    (c.map sql).segments ++ (.setOperation operator, "") :: arm.segments
  | .node c@{ setOperation := none, .. } => (c.map sql).segments

theorem SelectModifier.distinct_quiet {m : SelectModifier}
    (h : ∀ e, m.distinctOn = some e → e.Plain) : QuietTail m.distinctSql := by
  have distinct : QuietTail " DISTINCT" := .word (by decide)
  have on : QuietBlock " ON " := .word (by decide)
  cases m with
  | all | locked => exact QuietTail.empty
  | distinct e =>
    apply distinct.append
    apply QuietTail.optional
    intro a ha
    rw [Sql.on_group]
    exact on.append (Expr.piece (h a ha)).quietGroup.tail.quiet

theorem Sql.alias_quiet {o : Option String} (h : ∀ n ∈ o.toList, IsIdentifier n) :
    QuietTail (Sql.optional o fun n => " AS " ++ n) := by
  have as : QuietBlock " AS " := .word (by decide)
  apply QuietTail.optional
  rintro n rfl
  exact as.append (h n List.mem_cons_self).quiet

theorem ResultColumn.quiet {r : ResultColumn} (names : ∀ n ∈ r.names, IsIdentifier n)
    (h : ∀ e ∈ r.operands, e.Plain) : Quiet r.sql := by
  cases r with
  | star => exact .word (by decide)
  | expr value asName => exact (Expr.quiet (h value List.mem_cons_self)).append (alias_quiet names)

theorem NamedWindows.entry_quiet {entry : String × WindowDefinition Expr}
    (name : IsIdentifier entry.1) (h : ∀ e ∈ entry.2.operands, e.Plain) :
    Quiet (entrySql entry) := by
  have as : QuietTail " AS " := .word (by decide)
  have definition : Piece entry.2.text (entry.2.operands.flatMap Expr.literalTexts) :=
    WindowDefinition.piece fun e he => Expr.piece (h e he)
  rw [entrySql_eq]
  exact (name.quiet.append as).append definition.quietGroup.tail

section Parts

variable {Q : Type} {text : Q → String} {texts : Q → List String}

theorem FromItem.quiet {i : FromItem Q} (names : ∀ n ∈ i.names, IsIdentifier n)
    (h : ∀ q ∈ i.nested, Piece (text q) (texts q)) : Quiet (i.map text).sql := by
  cases i with
  | table name only asName =>
    have word := (names name List.mem_cons_self).quiet
    have called := alias_quiet fun n hn => names n (List.mem_cons_of_mem _ hn)
    cases only with
    | false => simpa [map, sql] using word.append called
    | true =>
      have only : Quiet "ONLY" := .word (by decide)
      have blank : QuietBlock " " := .word (by decide)
      have shape : ((table name true asName).map text).sql =
          "ONLY" ++ (" " ++ name) ++ Sql.optional asName fun a => " AS " ++ a :=
        String.toList_injective (by simp [map, sql])
      rw [shape]
      exact (only.append (blank.append word)).append called
  | subquery query asName =>
    have as : QuietBlock " AS " := .word (by decide)
    have called := (names asName List.mem_cons_self).quiet
    have inner := (h query List.mem_cons_self).quietGroup
    rw [map, sql_subquery, String.append_assoc]
    exact (inner.append (as.append called).quiet).quiet

theorem Join.quiet {j : Join Q} (names : ∀ n ∈ j.item.names, IsIdentifier n)
    (h : ∀ q ∈ j.item.nested, Piece (text q) (texts q)) (on : ∀ e, j.on = some e → e.Plain) :
    QuietTail (" " ++ (j.map text).sql) := by
  have kind : QuietBlock (" " ++ j.kind.sql ++ " ") := by
    cases j.kind <;> exact .word (by decide)
  have behind : QuietBlock " ON " := .word (by decide)
  have item := kind.append (FromItem.quiet names h)
  by_cases cross : j.kind = .cross
  · simpa [Join.sql, Join.map, cross, String.append_assoc] using item
  · have condition : Quiet ((j.on.map Expr.sql).getD "TRUE") := by
      cases found : j.on with
      | none => exact .word (by decide)
      | some e => exact Expr.quiet (on e found)
    have joined := item.append (behind.append condition)
    simpa [Join.sql, Join.map, cross, String.append_assoc] using joined

theorem Cte.quiet {c : Cte Q} (names : ∀ n ∈ c.names, IsIdentifier n)
    (h : Piece (text c.query) (texts c.query)) : Quiet (c.map text).sql := by
  have name := (names c.name List.mem_cons_self).quiet
  have as : QuietBlock " AS " := .word (by decide)
  have aliases : QuietTail (if c.columnAliases.isEmpty then ""
      else "(" ++ commaSeparated c.columnAliases ++ ")") := by
    split
    · exact QuietTail.empty
    · exact (names_piece fun n hn => names n (List.mem_cons_of_mem _ hn)).quietGroup.tail
  rw [sql_eq]
  exact (name.append aliases).append (as.append h.quietGroup.tail.quiet)

namespace Clauses

theorem projection_quiet {c : Clauses Q} (columns : ∀ r ∈ c.columns, Quiet r.sql)
    (functions : ∀ w ∈ c.windowFunctions, Quiet w.text) : QuietTail c.projectionSql := by
  have blank : QuietBlock " " := .word (by decide)
  unfold projectionSql
  dsimp only
  split
  · exact QuietTail.empty
  · apply blank.append
    apply Quiet.commaSeparated
    simp only [List.forall_mem_append, List.forall_mem_map]
    exact ⟨columns, functions⟩

end Clauses
end Parts

section Trails

variable {u keyword : String} {k : ClauseKeyword} {segments : List Segment}

theorem Trails.opensContent (h : Trails u segments)
    (spelled : keyword = k.sql ++ " " ∧ k.isOperator = false) {content : String}
    (quiet : Quiet content) :
    Opens (keyword ++ content ++ u) ((k, " " ++ content) :: segments) := by
  have blank : QuietBlock " " := .word (by decide)
  obtain ⟨rfl, clause⟩ := spelled
  have joined := h.opens k (blank.append quiet) (by simp [clause])
  simpa [String.append_assoc] using joined

theorem Trails.content (h : Trails u segments)
    (spelled : keyword = " " ++ k.sql ++ " " ∧ k.isOperator = false) {content : String}
    (quiet : Quiet content) :
    Trails (keyword ++ content ++ u) ((k, " " ++ content) :: segments) := by
  obtain ⟨rfl, clause⟩ := spelled
  have opens := h.opensContent ⟨rfl, clause⟩ quiet
  simpa [String.append_assoc] using opens.trails (List.cons_ne_nil _ _)

theorem Trails.optional (h : Trails u segments)
    (spelled : keyword = " " ++ k.sql ++ " " ∧ k.isOperator = false) {α : Type} {value : Option α}
    {content : α → String} (quiet : ∀ a, value = some a → Quiet (content a)) :
    Trails (Sql.optional value (fun a => keyword ++ content a) ++ u)
      (Segment.optional k value content ++ segments) := by
  cases value with
  | none => simpa [Sql.optional, Segment.optional] using h
  | some a => exact h.content spelled (quiet a rfl)

theorem Trails.list (h : Trails u segments)
    (spelled : keyword = " " ++ k.sql ++ " " ∧ k.isOperator = false) {texts : List String}
    (quiet : ∀ t ∈ texts, Quiet t) :
    Trails (Sql.clause keyword texts ++ u) (Segment.list k texts ++ segments) := by
  cases texts with
  | nil => simpa [Sql.clause, Segment.list] using h
  | cons t ts => exact h.content spelled (Quiet.commaSeparated quiet)

end Trails

/-- The contents of all clauses are quiet, given the texts of the nested statements. -/
structure QuietClauses (c : Clauses String) : Prop where
  ctes : ∀ w, c.withClause = some w → ∀ cte ∈ w.ctes, Quiet cte.sql
  distinct : QuietTail c.modifier.distinctSql
  projection : QuietTail c.projectionSql
  fromItems : ∀ i ∈ c.fromItems, Quiet i.sql
  joins : ∀ j ∈ c.joins, QuietTail (" " ++ j.sql)
  filter : ∀ e, c.filter = some e → Quiet e.sql
  groupBy : ∀ e ∈ c.groupBy, Quiet e.sql
  having : ∀ e, c.having = some e → Quiet e.sql
  windows : ∀ entry ∈ c.windows.entries, Quiet (NamedWindows.entrySql entry)
  orderBy : ∀ t ∈ c.orderBy, Quiet t.text

namespace QuietClauses

variable {c : Clauses String} {arms : List Segment}

theorem select_opens (h : QuietClauses c) {u : String} {segments : List Segment}
    (behind : Trails u segments) :
    Opens ("SELECT" ++ c.modifier.distinctSql ++ c.projectionSql ++
      Sql.clause " FROM " (c.fromItems.map FromItem.sql) ++
      Sql.concat (c.joins.map fun j => " " ++ j.sql) ++ u) (c.selectSegments ++ segments) := by
  have columns := h.distinct.append h.projection
  have joins := QuietTail.concat h.joins
  have bare {raw : String} : ClauseKeyword.select.isOperator → raw = "" := nofun
  unfold Clauses.selectSegments
  cases items : c.fromItems with
  | nil =>
    have select := behind.opens .select (columns.append joins) bare
    simpa [ClauseKeyword.sql, Sql.clause, String.append_assoc] using select
  | cons i is =>
    have sources : Quiet (commaSeparated ((i :: is).map FromItem.sql)) := by
      apply Quiet.commaSeparated
      rw [List.forall_mem_map, ← items]
      exact h.fromItems
    have fromItems : Trails (" FROM " ++ _ ++ u) _ :=
      behind.content (k := .fromItems) (by decide) (sources.append joins)
    have select := fromItems.opens .select columns bare
    simpa [ClauseKeyword.sql, Sql.clause, String.append_assoc] using select

theorem with_opens (h : QuietClauses c) {t : String} {segments : List Segment}
    (select : Opens t segments) (nonempty : segments ≠ []) :
    Opens (Sql.optional c.withClause (fun w => w.sql ++ " ") ++ t)
      (Segment.optional .withClause c.withClause (fun w => commaSeparated (w.ctes.map Cte.sql)) ++
        segments) := by
  cases found : c.withClause with
  | none => simpa [Sql.optional, Segment.optional] using select
  | some w =>
    have ctes := Quiet.commaSeparated (List.forall_mem_map.2 (h.ctes w found))
    have front : Opens ("WITH " ++ _ ++ _) _ :=
      (select.trails nonempty).opensContent (k := .withClause) (by decide) ctes
    simpa [Sql.optional, Segment.optional, WithClause.sql, String.append_assoc]
      using front

theorem opens (h : QuietClauses c)
    (behind : Trails (Sql.optional c.setOperation SetOperation.sql) arms) :
    Opens c.sql (c.segments ++ arms) := by
  have lockingSql : c.modifier.lockingSql =
      Sql.optional c.modifier.lockingClause fun l => " FOR " ++ l.sql := by
    cases c.modifier <;> rfl
  have counted (n : Option UInt64) (m : UInt64) (_ : n = some m) : Quiet m.toNat.repr :=
    Quiet.repr _
  -- from the last clause to the first: each reaches as far as the one behind it begins
  have locked : Trails (Sql.optional c.modifier.lockingClause (fun l => " FOR " ++ l.sql) ++ _) _ :=
    behind.optional (k := .lock) (by decide) fun l _ => by cases l <;> exact .word (by decide)
  have offset : Trails (Sql.optional c.offset (fun n => " OFFSET " ++ n.toNat.repr) ++ _) _ :=
    locked.optional (k := .offset) (by decide) (counted _)
  have limit : Trails (Sql.optional c.limit (fun n => " LIMIT " ++ n.toNat.repr) ++ _) _ :=
    offset.optional (k := .limit) (by decide) (counted _)
  have orderBy : Trails (Sql.clause " ORDER BY " (c.orderBy.map OrderTerm.text) ++ _) _ :=
    limit.list (k := .orderBy) (by decide) (List.forall_mem_map.2 h.orderBy)
  have windows : Trails (c.windows.sql ++ _) _ :=
    orderBy.list (k := .windows) (by decide) (List.forall_mem_map.2 h.windows)
  have having' : Trails (Sql.optional c.having (fun e => " HAVING " ++ e.sql) ++ _) _ :=
    windows.optional (k := .having) (by decide) h.having
  have groupBy : Trails (Sql.clause " GROUP BY " (c.groupBy.map Expr.sql) ++ _) _ :=
    having'.list (k := .groupBy) (by decide) (List.forall_mem_map.2 h.groupBy)
  have filter : Trails (Sql.optional c.filter (fun e => " WHERE " ++ e.sql) ++ _) _ :=
    groupBy.optional (k := .filter) (by decide) h.filter
  have statement := h.with_opens (h.select_opens filter)
    (List.append_ne_nil_of_left_ne_nil c.selectSegments_ne_nil _)
  rw [Clauses.sql, lockingSql, Clauses.segments]
  simpa only [String.append_assoc, List.append_assoc] using statement

end QuietClauses

theorem Clauses.quiet_map {Q : Type} {text : Q → String} {texts : Q → List String} {c : Clauses Q}
    (names : ∀ n ∈ c.ownNames, IsIdentifier n) (h : ∀ q ∈ c.nested, Piece (text q) (texts q)) :
    QuietClauses (c.map text) := by
  obtain ⟨ctes, columns, functions, fromItems, joins, windows, inner⟩ := forall_ownNames_iff.1 names
  obtain ⟨inColumns, inFunctions, inDistinct, inJoins, inFilter, inGroupBy, inHaving, inWindows,
    inOrderBy⟩ := (forall_expressions_iff (P := Expr.Plain)).1 inner
  obtain ⟨ofCtes, ofItems, ofJoins, -⟩ := forall_nested_iff.1 h
  constructor
  case ctes =>
    intro w written _ inside
    obtain ⟨w, hw, rfl⟩ := Option.map_eq_some_iff.1 written
    obtain ⟨cte, hc, rfl⟩ := List.mem_map.1 inside
    have mem : cte ∈ c.ctes := mem_ctes.2 ⟨w, hw, hc⟩
    exact Cte.quiet (ctes cte mem) (ofCtes cte mem)
  case distinct => exact SelectModifier.distinct_quiet inDistinct
  case projection =>
    exact projection_quiet (fun r hr => ResultColumn.quiet (columns r hr) (inColumns r hr))
      fun w hw => WindowFunction.quiet (functions w hw) fun e he =>
        Expr.piece (inFunctions w hw e he)
  case fromItems =>
    intro _ inside
    obtain ⟨i, hi, rfl⟩ := List.mem_map.1 inside
    exact FromItem.quiet (fromItems i hi) (ofItems i hi)
  case joins =>
    intro _ inside
    obtain ⟨j, hj, rfl⟩ := List.mem_map.1 inside
    exact Join.quiet (joins j hj) (ofJoins j hj) (inJoins j hj)
  case filter => exact fun e he => Expr.quiet (inFilter e he)
  case groupBy => exact fun e he => Expr.quiet (inGroupBy e he)
  case having => exact fun e he => Expr.quiet (inHaving e he)
  case windows =>
    exact fun entry mem => NamedWindows.entry_quiet (windows entry.1 (List.mem_map_of_mem mem))
      (inWindows entry mem)
  case orderBy => exact fun t ht => OrderTerm.quiet (inOrderBy t ht)

theorem Opens.arm {query : String} {segments : List Segment} (h : Opens query segments)
    (nonempty : segments ≠ []) (operator : SetOperator) :
    Trails (SetOperation.sql ⟨operator, query⟩) ((.setOperation operator, "") :: segments) := by
  have word := (h.trails nonempty).opens (.setOperation operator) QuietTail.empty fun _ => rfl
  have arm := word.trails (List.cons_ne_nil _ _)
  simpa [SetOperation.sql, ClauseKeyword.sql, String.append_assoc] using arm

namespace Select

theorem segments_of_eq_none {c : Clauses Select} (h : c.setOperation = none) :
    (node c).segments = (c.map sql).segments := by
  cases c
  cases h
  rfl

theorem segments_of_eq_some {c : Clauses Select} {next : SetOperation Select}
    (h : c.setOperation = some next) :
    (node c).segments =
      (c.map sql).segments ++ (.setOperation next.operator, "") :: next.query.segments := by
  cases c
  cases h
  rfl

theorem segments_ne_nil (s : Select) : s.segments ≠ [] := by
  obtain ⟨c⟩ := s
  have own : (c.map sql).segments ≠ [] := by
    have select := (c.map sql).selectSegments_ne_nil
    simp [Clauses.segments, select]
  cases found : c.setOperation with
  | none =>
    rw [segments_of_eq_none found]
    exact own
  | some arm =>
    rw [segments_of_eq_some found]
    exact List.append_ne_nil_of_left_ne_nil own _

theorem opens {s : Select} (h : s.Plain) : Opens s.sql s.segments := by
  induction s using Select.induction with
  | step c ih =>
    have parts := plain_node.1 h
    have quiet := Clauses.quiet_map parts.1 fun q hq => piece (parts.2 q hq)
    rw [sql_node]
    cases found : c.setOperation with
    | none =>
      have behind : Trails (Sql.optional (c.map sql).setOperation SetOperation.sql) [] := by
        simp [Clauses.map, found, Sql.optional, Trails]
      have alone := quiet.opens behind
      rwa [List.append_nil, ← segments_of_eq_none found] at alone
    | some next =>
      have mem : next.query ∈ c.nested := Clauses.mem_nested.2 (.inr (.inr (.inr ⟨_, found, rfl⟩)))
      have rest := ih next.query mem (parts.2 next.query mem)
      have behind : Trails (Sql.optional (c.map sql).setOperation SetOperation.sql)
          ((.setOperation next.operator, "") :: next.query.segments) := by
        have arm : (c.map sql).setOperation = some ⟨next.operator, next.query.sql⟩ := by
          simp [Clauses.map, found, SetOperation.map]
        rw [arm]
        exact rest.arm (segments_ne_nil _) next.operator
      rw [segments_of_eq_some found]
      exact quiet.opens behind

/-- A reader finds the clauses of a plain statement and of the arms behind it, no others, and the
text up to the next keyword is the content of the clause. So no other clauses have that text. -/
theorem sql_skeleton {s : Select} (h : s.Plain) :
    skeleton s.sql = some ("", Segment.spread s.segments) ∧
      ∀ t : Select, t.Plain → t.sql = s.sql → t.segments = s.segments := by
  have read := (opens h).skeleton_eq
  refine ⟨read, ?_⟩
  intro t plain same
  have read' := (opens plain).skeleton_eq
  rw [same, read, Option.some.injEq, Prod.mk.injEq] at read'
  exact (Segment.spread_injective read'.2).symm

/-- Keywords in a literal, between the parentheses of a window and in a subquery. -/
def misleading : Select :=
  .node {
    modifier := .distinct (some (.column "kind"))
    columns := [.expr (.literal (.text "1 FROM t")) (some "from")]
    windowFunctions := [⟨.rank, none, .inline { orderBy := [.ofExpr (.column "day")] }⟩]
    joins := [
      ⟨.cross, .subquery (.node { columns := [.star], fromItems := [.ofTable "notes"] }) "n", none⟩]
    filter := some (.binary (.column "day") .isDistinctFrom (.column "due"))
    limit := some 3
    setOperation := some ⟨.unionAll, .node {
      modifier := .locked .keyShare
      columns := [.star]
      fromItems := [.ofTable "notes", .table "tags" true (some "where")] }⟩ }

theorem misleading_skeleton :
    misleading.Plain ∧ skeleton misleading.sql = some ("", [
      (.select, " DISTINCT ON (kind) '1 FROM t' AS from, RANK() OVER (ORDER BY day)" ++
        " CROSS JOIN (SELECT * FROM notes) AS n "),
      (.filter, " ((day) IS DISTINCT FROM (due)) "),
      (.limit, " 3 "),
      (.setOperation .unionAll, " "),
      (.select, " * "),
      (.fromItems, " notes, ONLY tags AS where "),
      (.lock, " KEY SHARE")]) := by
  have plain : misleading.Plain := by decide
  refine ⟨plain, ?_⟩
  rw [(sql_skeleton plain).1]
  decide

end Select
end QueryForge
