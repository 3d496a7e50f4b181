import QueryForge.Proofs.Documents.Statement
import QueryForge.Proofs.Select.Buildable

/-!
# Decoded statements

A text can hold any statement, also one that no call builds. Validation refuses those with a lock on
grouped rows, but puts no condition on the members of WITH clauses besides their queries: every
accepted text of a valid statement has neighbours with any WITH clause, and those are rendered.
-/

namespace QueryForge.Select

open Json

variable {s : Select} {w : WithClause Select}

/-- A WITH clause of valid queries leaves a statement valid. -/
theorem validate_setWithClause (valid : s.validate = .ok ())
    (queries : ∀ cte ∈ w.ctes, cte.query.validate = .ok ()) :
    (s.setWithClause (some w)).validate = .ok () := by
  obtain ⟨c⟩ := s
  obtain ⟨legal, nested⟩ := validate_node_eq_ok_iff.1 valid
  obtain ⟨-, rest⟩ := Clauses.forall_nested_iff.1 nested
  exact validate_node_eq_ok_iff.2 ⟨legal, Clauses.forall_nested_iff.2 ⟨queries, rest⟩⟩

theorem isFinite_setWithClause (finite : s.IsFinite)
    (queries : ∀ cte ∈ w.ctes, cte.query.IsFinite) : (s.setWithClause (some w)).IsFinite := by
  obtain ⟨c⟩ := s
  obtain ⟨own, nested⟩ := isFinite_node.1 finite
  obtain ⟨-, rest⟩ := Clauses.forall_nested_iff.1 nested
  exact isFinite_node.2 ⟨own, Clauses.forall_nested_iff.2 ⟨queries, rest⟩⟩

theorem depth_dump_setWithClause_le (shallow : s.dump.depth ≤ textLevels)
    (clause : w.document.depth < textLevels) :
    (s.setWithClause (some w)).dump.depth ≤ textLevels := by
  obtain ⟨c⟩ := s
  rw [dump_eq, Clauses.dump_map, textLevels, depth_object_le, Clauses.fieldNames,
    List.zip_cons_cons, List.forall_mem_cons] at *
  exact ⟨Nat.le_of_lt_succ clause, shallow.2⟩

theorem sql_setWithClause (s : Select) (w : WithClause Select) :
    (s.setWithClause (some w)).sql = (w.map sql).sql ++ " " ++ (s.setWithClause none).sql := by
  obtain ⟨c⟩ := s
  have parts (d : Clauses String) (v : WithClause String) :
      { d with withClause := some v }.sql = v.sql ++ " " ++ { d with withClause := none }.sql := by
    have present : Sql.optional (some v) (fun w => w.sql ++ " ") = v.sql ++ " " := rfl
    have absent : Sql.optional none (fun w : WithClause String => w.sql ++ " ") = "" := rfl
    have shown : { d with withClause := some v }.projectionSql =
        { d with withClause := none }.projectionSql := rfl
    unfold Clauses.sql
    rw [shown]
    dsimp only
    rw [present, absent, String.empty_append]
    simp only [String.append_assoc]
  have behind : (setWithClause (node c) (some w)).sql =
      { c.map sql with withClause := some (w.map sql) }.sql := fold_node ..
  have alone : (setWithClause (node c) none).sql = { c.map sql with withClause := none }.sql :=
    fold_node ..
  rw [behind, alone, parts]

/-- What is accepted and valid can be built exactly if its WITH clauses have members and all of them
names, and that is not certain: with any WITH clause of valid queries that a text can hold, the same
statement is accepted and valid, and rendered. -/
theorem decoded_built_iff {text : String} (read : decode? replay text = some s)
    (valid : s.validate = .ok ()) :
    (s.Built ↔ s.KeepsWithRules) ∧
    ∀ w : WithClause Select, w.document.depth < textLevels →
      (∀ cte ∈ w.ctes, cte.query.IsFinite) → (∀ cte ∈ w.ctes, cte.query.validate = .ok ()) →
      ∃ other, decode? replay other = some (s.setWithClause (some w)) ∧
        (s.setWithClause (some w)).validate = .ok () ∧
        (s.setWithClause (some w)).sql = (w.map sql).sql ++ " " ++ (s.setWithClause none).sql := by
  refine ⟨by rw [built_iff, and_iff_right valid], fun w clause numbers queries => ?_⟩
  obtain ⟨j, -, found⟩ := Option.bind_eq_some_iff.1 read
  have shallow : s.dump.depth ≤ textLevels := bounded .ofText j s found
  have deep := depth_dump_setWithClause_le shallow clause
  have finite := isFinite_setWithClause (decoded_finite .ofText j s found) numbers
  exact ⟨_, decode?_dump finite deep, validate_setWithClause valid queries, sql_setWithClause s w⟩

def plain : Select := simple "t" [.star]

theorem nameless_member_accepted :
    decode? replay plain.dump.text = some plain ∧ plain.validate = .ok () ∧
    ∃ twin other, decode? replay other = some twin ∧ twin.validate = .ok () ∧
      twin.sql = "WITH  AS (SELECT * FROM t) SELECT * FROM t" ∧
      Cte.build "" [] plain [] = .error .emptyCteName := by
  have read : decode? replay plain.dump.text = some plain :=
    decode?_dump (by decide) (by decide)
  let w : WithClause Select := ⟨[⟨"", [], plain, []⟩]⟩
  obtain ⟨-, neighbours⟩ := decoded_built_iff read rfl
  have member : ∀ cte ∈ w.ctes, cte.query = plain := fun cte hc => by rw [List.mem_singleton.1 hc]
  obtain ⟨other, found, valid, rendered⟩ := neighbours w (by decide)
    (fun cte hc => by rw [member cte hc]; decide) (fun cte hc => by rw [member cte hc]; rfl)
  have text : (w.map sql).sql ++ " " ++ (plain.setWithClause none).sql =
      "WITH  AS (SELECT * FROM t) SELECT * FROM t" := by decide +kernel
  exact ⟨read, rfl, _, other, found, valid, rendered.trans text, rfl⟩

/-- The text of a statement behind a WITH clause without members. -/
def withoutMembersText : String :=
  "\x7b\"with\":\x7b\"ctes\":[]\x7d,\"modifier\":\"All\",\"fetch_columns\":[\"Star\"]," ++
    "\"window_functions\":[]," ++
    "\"from\":[\x7b\"Table\":\x7b\"name\":\"t\",\"only\":false,\"alias\":null\x7d\x7d]," ++
    "\"joins\":[],\"where_clause\":null,\"group_by\":[],\"having\":null," ++
    "\"window_definitions\":\x7b\x7d,\"order_by\":[],\"limit\":null,\"offset\":null," ++
    "\"compound\":null\x7d"

def withoutMembers : Select := plain.setWithClause (some ⟨[]⟩)

theorem withoutMembers_valid :
    decode? replay withoutMembersText = some withoutMembers ∧ withoutMembers.validate = .ok () ∧
      ¬ withoutMembers.KeepsWithRules ∧ withoutMembers.sql = "WITH  SELECT * FROM t" ∧
      WithClause.build [] = .error .emptyCteList := by
  have written : withoutMembers.dump.text = withoutMembersText := by decide +kernel
  have read : decode? replay withoutMembers.dump.text = some withoutMembers :=
    decode?_dump (by decide) (by decide)
  refine ⟨written ▸ read, rfl, fun kept => ?_, by decide +kernel, rfl⟩
  exact (kept withoutMembers (.self _) ⟨[]⟩ rfl).1 rfl

end QueryForge.Select
