import QueryForge.Proofs.AlterTable.Words
import QueryForge.Proofs.Documents.Statement
import QueryForge.Proofs.Names

/-!
# Reading ALTER TABLE statements

A statement is read back from its text: the text is split into fragments and each of them into its
words. So two statements of one text are the same, as long as no name contains what separates them
and no table is called like a keyword.
-/

namespace QueryForge

open Sql
open Json (Decoder decode?)

/-- The value that is spelled with these words, of a list of all. -/
def Sql.spelled? {α : Type} (all : List α) (words : α → List String) (found : List String) :
    Option α :=
  all.find? fun a => words a == found

theorem Json.text_integer (i : Int) : (Json.integer i).text = Sql.integer i := by
  refine String.toList_injective ?_
  rw [Json.text, String.toList_ofList, Json.chars, Json.integerChars, Sql.integer]
  split
  · rw [String.toList_append, Nat.toList_repr]
    rfl
  · exact Nat.toList_repr.symm

theorem decode?_signed64 (v : Int64) : decode? Decoder.signed64 (integer v.toInt) = some v := by
  rw [← Json.text_integer]
  exact (Json.stands_signed64 v).decode?_text (Nat.zero_le _)

theorem decode?_signed32 (v : Int32) : decode? Decoder.signed32 (integer v.toInt) = some v := by
  rw [← Json.text_integer]
  exact (Json.stands_signed32 v).decode?_text (Nat.zero_le _)

namespace AlterAction

/-- The number behind the name of the option. What is no numeral stands for a number that is not
finite. -/
def distinctValues? (word : String) : Option Double :=
  match Json.Reader.numberToken (word.toList.drop "(n_distinct=".length) with
  | some (token, [')']) =>
    match token.realValue with
    | .real x => some (.finite x)
    | _ => none
  | _ => [.infinite false, .infinite true, .nan].find? fun x => distinctWord x == word

theorem distinctValues?_finite (x : Binary64) :
    distinctValues? (distinctWord (.finite x)) = some (.finite x) := by
  have number : (numberLayout.text x).toList =
      (numberLayout.token x).chars numberLayout.signedExponent := by
    rw [NumberLayout.text, String.toList_ofList, NumberLayout.chars_token]
  have behind : (distinctWord (.finite x)).toList.drop "(n_distinct=".length =
      (numberLayout.token x).chars numberLayout.signedExponent ++ [')'] := by
    rw [distinctWord, String.toList_append, String.toList_append, number]
    rfl
  have stop : Json.Reader.NumberToken.Stops [')'] := by
    rintro c ⟨⟩
    decide
  have read := Json.Reader.NumberToken.numberToken_append
    (NumberLayout.wellFormed_token numberLayout x) numberLayout.signedExponent stop
  simp only [distinctValues?, behind, read, NumberLayout.realValue_token]

theorem distinctValues?_distinctWord (x : Double) : distinctValues? (distinctWord x) = some x := by
  cases x with
  | finite x => exact distinctValues?_finite x
  | infinite negative => cases negative <;> decide
  | nan => decide

def behaviors : List (Option DropBehavior) := [none, some .restrict, some .cascade]

/-- The actions that name nothing. -/
def fixed : List AlterAction :=
  [RowSecurity.disable, .enable, .force, .noForce].map rowSecurity ++
    [.setWithoutCluster, .setWithoutOids, .setLogged true, .setLogged false, .notOf] ++
    [OwnerRole.currentUser, .sessionUser].map ownerTo ++
    [ReplicaIdentity.default, .full, .nothing].map replicaIdentity

def ofDrop? : List String → Option AlterAction
  | "IF" :: "EXISTS" :: column :: behavior =>
    (spelled? behaviors (fun b => b.toList.map DropBehavior.sql) behavior).map
      (dropColumn true column)
  | column :: behavior =>
    (spelled? behaviors (fun b => b.toList.map DropBehavior.sql) behavior).map
      (dropColumn false column)
  | [] => none

/-- What is set for a column; a single word is the option. -/
def ofSetting? (column : String) : List String → Option AlterAction
  | "DATA" :: "TYPE" :: type =>
    (spelled? ColumnType.all ColumnType.words type).map (alterColumnType column true)
  | ["DEFAULT", value] =>
    (decode? Decoder.signed64 value).map fun v => .columnDefault column (some v)
  | ["NOT", "NULL"] => some (.columnNotNull column true)
  | ["STATISTICS", target] => (decode? Decoder.signed32 target).map (setStatistics column)
  | ["STORAGE", storage] =>
    (spelled? StorageMode.all (fun s => [s.sql]) [storage]).map (setStorage column)
  | [option] => (distinctValues? option).map (setAttributeOption column)
  | _ => none

/-- The change of a column. -/
def ofChange? (column : String) : List String → Option AlterAction
  | "SET" :: setting => ofSetting? column setting
  | "TYPE" :: type =>
    (spelled? ColumnType.all ColumnType.words type).map (alterColumnType column false)
  | ["DROP", "DEFAULT"] => some (.columnDefault column none)
  | ["DROP", "NOT", "NULL"] => some (.columnNotNull column false)
  | ["RESET", "(n_distinct)"] => some (.resetAttributeOption column)
  | ["DROP", "IDENTITY"] => some (.dropIdentity column false)
  | ["DROP", "IDENTITY", "IF", "EXISTS"] => some (.dropIdentity column true)
  | ["RESTART"] => some (.restartIdentity column none)
  | ["RESTART", "WITH", value] =>
    (decode? Decoder.signed32 value).map fun v => .restartIdentity column (some v)
  | _ => none

def ofConstraint? (name : String) : List String → Option AlterAction
  | ["CHECK", "(TRUE)"] => some (.addCheckConstraint name)
  | ["UNIQUE", "USING", "INDEX", index] => some (.addConstraintUsingIndex name .unique index)
  | ["PRIMARY", "KEY", "USING", "INDEX", index] =>
    some (.addConstraintUsingIndex name .primaryKey index)
  | _ => none

def ofWords? : List String → Option AlterAction
  | "DROP" :: "COLUMN" :: rest => ofDrop? rest
  | "ALTER" :: "COLUMN" :: column :: change => ofChange? column change
  | "ADD" :: "CONSTRAINT" :: name :: rest => ofConstraint? name rest
  | ["VALIDATE", "CONSTRAINT", name] => some (.validateConstraint name)
  | ["CLUSTER", "ON", index] => some (.clusterOn index)
  | found => spelled? fixed words found

theorem spelled?_type (type : ColumnType) :
    spelled? ColumnType.all ColumnType.words type.words = some type := by
  cases type <;> decide

theorem spelled?_storage (mode : StorageMode) :
    spelled? StorageMode.all (fun s => [s.sql]) [mode.sql] = some mode := by
  cases mode <;> decide

/-- What stands behind a dropped column is never taken for part of `IF EXISTS`. -/
theorem ofDrop?_column (column : String) (behavior : Option DropBehavior) :
    ofDrop? (column :: behavior.toList.map DropBehavior.sql) =
      some (dropColumn false column behavior) := by
  rcases behavior with _ | _ | _ <;> simp [ofDrop?, DropBehavior.sql] <;> decide

theorem ofSetting?_option (column option : String) :
    ofSetting? column [option] = (distinctValues? option).map (setAttributeOption column) := by
  simp [ofSetting?]

theorem ofWords?_words (a : AlterAction) : ofWords? a.words = some a := by
  cases a with
  | dropColumn ifExists column behavior =>
    cases ifExists with
    | true => rcases behavior with _ | _ | _ <;> rfl
    | false => exact ofDrop?_column column behavior
  | alterColumnType column setData type =>
    cases setData with
    | true => exact congrArg (Option.map (alterColumnType column true)) (spelled?_type type)
    | false => exact congrArg (Option.map (alterColumnType column false)) (spelled?_type type)
  | columnDefault column value =>
    cases value with
    | none => rfl
    | some v =>
      exact congrArg (Option.map fun v => columnDefault column (some v)) (decode?_signed64 v)
  | columnNotNull column notNull => cases notNull <;> rfl
  | setStatistics column target =>
    exact congrArg (Option.map (setStatistics column)) (decode?_signed32 target)
  | setAttributeOption column x =>
    exact (ofSetting?_option column _).trans
      (congrArg (Option.map (setAttributeOption column)) (distinctValues?_distinctWord x))
  | resetAttributeOption column => rfl
  | setStorage column storage =>
    exact congrArg (Option.map (setStorage column)) (spelled?_storage storage)
  | addCheckConstraint name => rfl
  | addConstraintUsingIndex name kind index => cases kind <;> rfl
  | validateConstraint name => rfl
  | clusterOn index => rfl
  | dropIdentity column ifExists => cases ifExists <;> rfl
  | restartIdentity column value =>
    cases value with
    | none => rfl
    | some v =>
      exact congrArg (Option.map fun v => restartIdentity column (some v)) (decode?_signed32 v)
  | rowSecurity setting => cases setting <;> decide
  | setLogged logged => cases logged <;> decide
  | ownerTo role => cases role <;> decide
  | replicaIdentity identity => cases identity <;> decide
  | setWithoutCluster | setWithoutOids | notOf => decide

end AlterAction

namespace AlterFragment

def ofWords? : List String → Option AlterFragment
  | "ALTER" :: "TABLE" :: "ONLY" :: table :: action =>
    (AlterAction.ofWords? action).map fun a => ⟨table, true, a⟩
  | "ALTER" :: "TABLE" :: table :: action =>
    (AlterAction.ofWords? action).map fun a => ⟨table, false, a⟩
  | _ => none

/-- No name is taken apart, and no table is taken for the keyword in front of it. -/
structure Legible (f : AlterFragment) : Prop where
  unbroken : ∀ n ∈ f.names, IsUnbroken n
  table : f.table ≠ "ONLY"

theorem ofWords?_words {f : AlterFragment} (h : f.table ≠ "ONLY") : ofWords? f.words = some f := by
  obtain ⟨table, only, action⟩ := f
  cases only <;> simp_all [words, ofWords?, AlterAction.ofWords?_words]

theorem Legible.ofWords?_pieces {f : AlterFragment} (h : f.Legible) :
    ofWords? (pieces " " f.sql) = some f := by
  rw [pieces_sql fun n hn mem => (h.unbroken n hn _ mem).1 rfl, ofWords?_words h.table]

theorem Legible.semicolon_notMem {f : AlterFragment} (h : f.Legible) : ';' ∉ f.sql.toList :=
  semicolon_notMem_sql fun n hn mem => (h.unbroken n hn _ mem).2 rfl

end AlterFragment

namespace AlterTable

/-- The fragments are what is between semicolons, and the empty text has none. -/
def ofSql? (text : String) : Option AlterTable :=
  if text = "" then some ⟨[]⟩
  else ((pieces "; " text).mapM fun piece => AlterFragment.ofWords? (pieces " " piece)).map .mk

theorem pieces_sql {a : AlterTable} (nonempty : a.fragments ≠ [])
    (h : ∀ f ∈ a.fragments, ';' ∉ f.sql.toList) :
    pieces "; " a.sql = a.fragments.map AlterFragment.sql := by
  refine pieces_separated (d := ';') rfl (mt List.map_eq_nil_iff.1 nonempty) ?_
  exact List.forall_mem_map.2 h

theorem sql_ne_empty {a : AlterTable} (nonempty : a.fragments ≠ []) : a.sql ≠ "" := by
  obtain ⟨f, rest, same⟩ := List.exists_cons_of_ne_nil nonempty
  rw [sql, same, List.map_cons]
  cases rest <;> simp [separated, AlterFragment.sql]

/-- No name contains a blank or a semicolon, and no table is called like the keyword `ONLY`. -/
def Legible (a : AlterTable) : Prop := ∀ f ∈ a.fragments, f.Legible

/-- A legible statement is read back from its text. -/
theorem ofSql?_sql {a : AlterTable} (h : a.Legible) : ofSql? a.sql = some a := by
  by_cases nonempty : a.fragments = []
  · obtain ⟨fragments⟩ := a
    obtain rfl : fragments = [] := nonempty
    rfl
  · have split := pieces_sql nonempty fun f hf => (h f hf).semicolon_notMem
    have read := Json.mapM_map_eq_some (f := fun piece => AlterFragment.ofWords? (pieces " " piece))
      (g := AlterFragment.sql) fun f hf => (h f hf).ofWords?_pieces
    rw [ofSql?, if_neg (sql_ne_empty nonempty), split, read]
    rfl

theorem legible_of_plain {a : AlterTable} (plain : ∀ n ∈ a.names, IsIdentifier n) : a.Legible := by
  intro f hf
  have names : ∀ n ∈ f.names, IsIdentifier n := fun n hn =>
    plain n (List.mem_flatMap.2 ⟨f, hf, hn⟩)
  constructor
  · intro n hn
    exact isUnbroken_of (p := fun c => isNameChar c) (by decide) (by decide) (names n hn).2.1
  · intro keyword
    exact absurd (keyword ▸ names f.table List.mem_cons_self) (by decide)

/-- The text of a statement tells its fragments apart if no name contains a semicolon, and with
plain names it determines them. -/
theorem sql_determines_fragments :
    (∀ a : AlterTable, a.fragments ≠ [] → (∀ n ∈ a.names, ';' ∉ n.toList) →
      pieces "; " a.sql = a.fragments.map AlterFragment.sql) ∧
    ∀ a b : AlterTable, (∀ n ∈ a.names, IsIdentifier n) → (∀ n ∈ b.names, IsIdentifier n) →
      (a.sql = b.sql ↔ a.fragments = b.fragments) := by
  constructor
  · intro a nonempty free
    refine pieces_sql nonempty fun f hf => AlterFragment.semicolon_notMem_sql fun n hn => ?_
    exact free n (List.mem_flatMap.2 ⟨f, hf, hn⟩)
  · intro a b plain plain'
    constructor
    · intro same
      have read := ofSql?_sql (legible_of_plain plain)
      rw [same, ofSql?_sql (legible_of_plain plain')] at read
      rw [Option.some.inj read]
    · intro same
      rw [sql, sql, same]

theorem two_fragments_determined :
    pieces "; " (AlterTable.mk [⟨"t", true, .notOf⟩, ⟨"t", false, .clusterOn "i"⟩]).sql =
      ["ALTER TABLE ONLY t NOT OF", "ALTER TABLE t CLUSTER ON i"] ∧
    ((AlterTable.mk [⟨"t", true, .notOf⟩]).sql = (AlterTable.mk [⟨"t", false, .notOf⟩]).sql ↔
      [AlterFragment.mk "t" true .notOf] = [⟨"t", false, .notOf⟩]) :=
  ⟨sql_determines_fragments.1 ⟨[⟨"t", true, .notOf⟩, ⟨"t", false, .clusterOn "i"⟩]⟩
      (List.cons_ne_nil _ _) (by decide),
    sql_determines_fragments.2 ⟨[⟨"t", true, .notOf⟩]⟩ ⟨[⟨"t", false, .notOf⟩]⟩
      (by decide) (by decide)⟩

-- Keywords as names of tables: the same text belongs to two statements.
example :
    (AlterTable.mk [⟨"ONLY", false, .rowSecurity .noForce⟩]).sql =
      (AlterTable.mk [⟨"NO", true, .rowSecurity .force⟩]).sql :=
  rfl

end AlterTable
end QueryForge
