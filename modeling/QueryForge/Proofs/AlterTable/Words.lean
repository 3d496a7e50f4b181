import QueryForge.AlterTable
import QueryForge.Proofs.Binary64.Numeral
import QueryForge.Proofs.Splitting

/-!
# Words of ALTER TABLE statements

The text of an action is a list of words with a blank between them, and the names that it was given
are among the words. The other words have neither a blank nor a semicolon in them.
-/

namespace QueryForge

open Sql

def ColumnType.words : ColumnType → List String
  | .bit => ["BIT", "VARYING"]
  | type => [type.sql]

def ConstraintKind.words : ConstraintKind → List String
  | .unique => ["UNIQUE"]
  | .primaryKey => ["PRIMARY", "KEY"]

def RowSecurity.words : RowSecurity → List String
  | .noForce => ["NO", "FORCE"]
  | setting => [setting.sql]

namespace AlterAction

def columnWords (column : String) (change : List String) : List String :=
  "ALTER" :: "COLUMN" :: column :: change

def distinctWord (x : Double) : String := "(n_distinct=" ++ numberLayout.text x ++ ")"

/-- The words of an action, which its text separates by blanks. -/
def words : AlterAction → List String
  | .dropColumn ifExists column behavior =>
    "DROP" :: "COLUMN" :: ((if ifExists then ["IF", "EXISTS"] else []) ++
      column :: behavior.toList.map DropBehavior.sql)
  | .alterColumnType column setData type =>
    columnWords column ((if setData then ["SET", "DATA"] else []) ++ "TYPE" :: type.words)
  | .columnDefault column (some value) =>
    columnWords column ["SET", "DEFAULT", integer value.toInt]
  | .columnDefault column none => columnWords column ["DROP", "DEFAULT"]
  | .columnNotNull column notNull =>
    columnWords column [if notNull then "SET" else "DROP", "NOT", "NULL"]
  | .setStatistics column target =>
    columnWords column ["SET", "STATISTICS", integer target.toInt]
  | .setAttributeOption column distinctValues =>
    columnWords column ["SET", distinctWord distinctValues]
  | .resetAttributeOption column => columnWords column ["RESET", "(n_distinct)"]
  | .setStorage column storage => columnWords column ["SET", "STORAGE", storage.sql]
  | .addCheckConstraint name => ["ADD", "CONSTRAINT", name, "CHECK", "(TRUE)"]
  | .addConstraintUsingIndex name kind index =>
    "ADD" :: "CONSTRAINT" :: name :: (kind.words ++ ["USING", "INDEX", index])
  | .validateConstraint name => ["VALIDATE", "CONSTRAINT", name]
  | .rowSecurity setting => setting.words ++ ["ROW", "LEVEL", "SECURITY"]
  | .clusterOn index => ["CLUSTER", "ON", index]
  | .setWithoutCluster => ["SET", "WITHOUT", "CLUSTER"]
  | .setWithoutOids => ["SET", "WITHOUT", "OIDS"]
  | .setLogged true => ["SET", "LOGGED"]
  | .setLogged false => ["SET", "UNLOGGED"]
  | .notOf => ["NOT", "OF"]
  | .ownerTo role => ["OWNER", "TO", role.sql]
  | .replicaIdentity identity => ["REPLICA", "IDENTITY", identity.sql]
  | .dropIdentity column ifExists =>
    columnWords column ("DROP" :: "IDENTITY" :: if ifExists then ["IF", "EXISTS"] else [])
  | .restartIdentity column value =>
    columnWords column ("RESTART" :: value.elim [] fun v => ["WITH", integer v.toInt])

/-- The names of columns, constraints and indexes. -/
def names : AlterAction → List String
  | .dropColumn _ column _ | .alterColumnType column _ _ | .columnDefault column _
  | .columnNotNull column _ | .setStatistics column _ | .setAttributeOption column _
  | .resetAttributeOption column | .setStorage column _ | .dropIdentity column _
  | .restartIdentity column _ => [column]
  | .addCheckConstraint name | .validateConstraint name => [name]
  | .addConstraintUsingIndex name _ index => [name, index]
  | .clusterOn index => [index]
  | .rowSecurity _ | .setWithoutCluster | .setWithoutOids | .setLogged _ | .notOf | .ownerTo _
  | .replicaIdentity _ => []

theorem words_ne_nil (a : AlterAction) : a.words ≠ [] := by
  cases a with
  | columnDefault column value => cases value <;> exact List.cons_ne_nil _ _
  | rowSecurity setting => cases setting <;> exact List.cons_ne_nil _ _
  | setLogged logged => cases logged <;> exact List.cons_ne_nil _ _
  | _ => exact List.cons_ne_nil _ _

/-- The text of a changed column, from the text of the change. -/
theorem alterColumn_eq {column tail : String} {change : List String} (h : change ≠ [])
    (same : tail = separated " " change) :
    alterColumn column tail = separated " " (columnWords column change) := by
  obtain ⟨word, rest, rfl⟩ := List.exists_cons_of_ne_nil h
  subst same
  change "ALTER COLUMN " ++ column ++ " " ++ separated " " (word :: rest) =
    "ALTER" ++ " " ++ ("COLUMN" ++ " " ++ (column ++ " " ++ separated " " (word :: rest)))
  simp only [← String.append_assoc, String.reduceAppend]

-- Where a name stands between keywords, those behind it are joined from the right first, and then
-- those in front of it from the left.
theorem sql_eq (a : AlterAction) : a.sql = separated " " a.words := by
  cases a with
  | dropColumn ifExists column behavior =>
    rw [sql.eq_def, words.eq_def]
    rcases behavior with _ | _ | _ <;> cases ifExists <;>
      simp only [separated, Sql.optional, DropBehavior.sql, Option.toList, List.map,
        List.nil_append, List.cons_append, if_true, if_false, Bool.false_eq_true,
        String.append_empty, String.append_assoc, String.reduceAppend]
    all_goals simp only [← String.append_assoc, String.reduceAppend]
  | alterColumnType column setData type =>
    refine alterColumn_eq (by simp) ?_
    cases setData <;> cases type <;> rfl
  | columnDefault column value =>
    cases value with
    | none => exact alterColumn_eq (by simp) rfl
    | some v =>
      refine alterColumn_eq (by simp) ?_
      simp only [separated, ← String.append_assoc, String.reduceAppend]
  | columnNotNull column notNull =>
    refine alterColumn_eq (by simp) ?_
    cases notNull <;> rfl
  | setStatistics column target =>
    refine alterColumn_eq (by simp) ?_
    simp only [separated, ← String.append_assoc, String.reduceAppend]
  | setAttributeOption column distinctValues =>
    refine alterColumn_eq (by simp) ?_
    change _ = "SET" ++ " " ++ ("(n_distinct=" ++ numberLayout.text distinctValues ++ ")")
    simp only [← String.append_assoc, String.reduceAppend]
  | resetAttributeOption column => exact alterColumn_eq (by simp) rfl
  | setStorage column storage =>
    refine alterColumn_eq (by simp) ?_
    cases storage <;> rfl
  | addConstraintUsingIndex name kind index =>
    rw [sql.eq_def, words.eq_def]
    cases kind <;>
      simp only [separated, List.cons_append, List.nil_append, ConstraintKind.words,
        ConstraintKind.sql, String.append_assoc, String.reduceAppend]
    all_goals simp only [← String.append_assoc, String.reduceAppend]
  | dropIdentity column ifExists =>
    refine alterColumn_eq (by simp) ?_
    cases ifExists <;> rfl
  | restartIdentity column value =>
    refine alterColumn_eq (by simp) ?_
    cases value with
    | none => rfl
    | some v =>
      simp only [separated, Sql.optional, Option.elim, ← String.append_assoc, String.reduceAppend]
  | addCheckConstraint | validateConstraint | clusterOn =>
    rw [sql.eq_def, words.eq_def]
    simp only [separated, String.append_assoc, String.reduceAppend]
    simp only [← String.append_assoc, String.reduceAppend]
  | rowSecurity setting => cases setting <;> rfl
  | setLogged logged => cases logged <;> rfl
  | ownerTo role => cases role <;> rfl
  | replicaIdentity identity => cases identity <;> rfl
  | setWithoutCluster | setWithoutOids | notOf => rfl

end AlterAction

namespace AlterFragment

def words (f : AlterFragment) : List String :=
  "ALTER" :: "TABLE" :: ((if f.only then ["ONLY"] else []) ++ f.table :: f.action.words)

def names (f : AlterFragment) : List String := f.table :: f.action.names

theorem sql_eq (f : AlterFragment) : f.sql = separated " " f.words := by
  obtain ⟨table, only, action⟩ := f
  obtain ⟨word, rest, same⟩ := List.exists_cons_of_ne_nil action.words_ne_nil
  change "ALTER TABLE " ++ (if only then "ONLY " else "") ++ table ++ " " ++ action.sql =
    separated " " ("ALTER" :: "TABLE" :: ((if only then ["ONLY"] else []) ++ table :: action.words))
  rw [action.sql_eq, same]
  cases only <;>
    simp only [separated, List.nil_append, List.cons_append, if_true, if_false, Bool.false_eq_true,
      String.append_empty, ← String.append_assoc, String.reduceAppend]

end AlterFragment

def AlterTable.names (a : AlterTable) : List String := a.fragments.flatMap AlterFragment.names

/-- Neither a blank nor a semicolon. -/
def Sql.IsUnbroken (word : String) : Prop := ∀ c ∈ word.toList, c ≠ ' ' ∧ c ≠ ';'

instance (word : String) : Decidable (IsUnbroken word) := List.decidableBAll _ _

theorem Sql.isUnbroken_of {p : Char → Prop} (blank : ¬p ' ') (semicolon : ¬p ';') {word : String}
    (h : ∀ c ∈ word.toList, p c) : IsUnbroken word := by
  intro c hc
  constructor
  · rintro rfl
    exact blank (h _ hc)
  · rintro rfl
    exact semicolon (h _ hc)

theorem Sql.isUnbroken_integer (i : Int) : IsUnbroken (integer i) :=
  isUnbroken_of (p := fun c => c.isDigit ∨ c = '-') (by decide) (by decide) fun _ => mem_integer

theorem Sql.IsUnbroken.append {front behind : String} (hf : IsUnbroken front)
    (hb : IsUnbroken behind) : IsUnbroken (front ++ behind) := by
  intro c hc
  rw [String.toList_append] at hc
  exact (List.mem_append.1 hc).elim (hf c) (hb c)

namespace AlterAction

theorem isUnbroken_distinctWord (x : Double) : IsUnbroken (distinctWord x) := by
  have number : IsUnbroken (numberLayout.text x) := by
    cases x with
    | finite x =>
      refine isUnbroken_of (p := fun c => c.isDigit ∨ c ∈ ['-', '+', '.', 'e']) (by decide)
        (by decide) fun c hc => ?_
      rw [NumberLayout.text, String.toList_ofList, NumberLayout.chars_token] at hc
      exact Json.Reader.NumberToken.mem_chars (NumberLayout.wellFormed_token _ x) hc
    | infinite negative => cases negative <;> decide
    | nan => decide
  have front : IsUnbroken "(n_distinct=" := by decide
  exact (front.append number).append (by decide)

theorem mem_columnWords {column : String} {change : List String} (h : ∀ w ∈ change, IsUnbroken w) :
    ∀ w ∈ columnWords column change, w ∈ [column] ∨ IsUnbroken w := by
  have keywords : IsUnbroken "ALTER" ∧ IsUnbroken "COLUMN" := by decide
  intro w hw
  rcases List.mem_cons.1 hw with rfl | hw
  · exact .inr keywords.1
  rcases List.mem_cons.1 hw with rfl | hw
  · exact .inr keywords.2
  rcases List.mem_cons.1 hw with rfl | hw
  · exact .inl List.mem_cons_self
  · exact .inr (h w hw)

/-- Every word is a name of the action or unbroken. -/
theorem mem_words (a : AlterAction) : ∀ w ∈ a.words, w ∈ a.names ∨ IsUnbroken w := by
  cases a with
  | dropColumn ifExists column behavior =>
    rw [words.eq_def, names.eq_def]
    rcases behavior with _ | _ | _ <;> cases ifExists <;> simp +decide [DropBehavior.sql]
  | alterColumnType column setData type =>
    refine mem_columnWords ?_
    cases setData <;> cases type <;> decide
  | columnDefault column value =>
    cases value with
    | none => exact mem_columnWords (by decide)
    | some v => exact mem_columnWords (by simp +decide [isUnbroken_integer])
  | columnNotNull column notNull =>
    refine mem_columnWords ?_
    cases notNull <;> decide
  | setStatistics column target => exact mem_columnWords (by simp +decide [isUnbroken_integer])
  | setAttributeOption column x => exact mem_columnWords (by simp +decide [isUnbroken_distinctWord])
  | resetAttributeOption column => exact mem_columnWords (by decide)
  | setStorage column storage =>
    refine mem_columnWords ?_
    cases storage <;> decide
  | restartIdentity column value =>
    refine mem_columnWords ?_
    cases value <;> simp +decide [isUnbroken_integer]
  | dropIdentity column ifExists =>
    refine mem_columnWords ?_
    cases ifExists <;> decide
  | addConstraintUsingIndex name kind index =>
    rw [words.eq_def, names.eq_def]
    cases kind <;> simp +decide [ConstraintKind.words]
  | addCheckConstraint | validateConstraint | clusterOn =>
    rw [words.eq_def, names.eq_def]
    simp +decide
  | rowSecurity setting => cases setting <;> decide
  | setLogged logged => cases logged <;> decide
  | ownerTo role => cases role <;> decide
  | replicaIdentity identity => cases identity <;> decide
  | setWithoutCluster | setWithoutOids | notOf => decide

end AlterAction

namespace AlterFragment

theorem mem_words (f : AlterFragment) : ∀ w ∈ f.words, w ∈ f.names ∨ IsUnbroken w := by
  obtain ⟨table, only, action⟩ := f
  have keywords : IsUnbroken "ALTER" ∧ IsUnbroken "TABLE" ∧ IsUnbroken "ONLY" := by decide
  intro w hw
  have origin : w = "ALTER" ∨ w = "TABLE" ∨ w = "ONLY" ∨ w = table ∨ w ∈ action.words := by
    cases only <;> simp [words] at hw <;> grind
  rcases origin with rfl | rfl | rfl | rfl | inner
  · exact .inr keywords.1
  · exact .inr keywords.2.1
  · exact .inr keywords.2.2
  · exact .inl List.mem_cons_self
  · exact (action.mem_words w inner).imp_left (List.mem_cons_of_mem _)

end AlterFragment

/-- A semicolon in the text of a fragment comes from one of its names. -/
theorem AlterFragment.semicolon_notMem_sql {f : AlterFragment}
    (h : ∀ n ∈ f.names, ';' ∉ n.toList) : ';' ∉ f.sql.toList := by
  rw [sql_eq]
  refine notMem_separated (by decide) fun w hw => ?_
  rcases f.mem_words w hw with name | unbroken
  · exact h w name
  · exact fun mem => (unbroken _ mem).2 rfl

/-- The words of a fragment are found again by splitting its text at blanks. -/
theorem AlterFragment.pieces_sql {f : AlterFragment} (h : ∀ n ∈ f.names, ' ' ∉ n.toList) :
    pieces " " f.sql = f.words := by
  rw [sql_eq]
  refine pieces_separated (d := ' ') rfl (List.cons_ne_nil _ _) fun w hw => ?_
  rcases f.mem_words w hw with name | unbroken
  · exact h w name
  · exact fun mem => (unbroken _ mem).1 rfl

end QueryForge
