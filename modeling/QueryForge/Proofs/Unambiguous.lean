import QueryForge.Proofs.Binary64.Numeral
import QueryForge.Proofs.Numbers
import QueryForge.Proofs.Window

/-!
# The text of an expression is unambiguous

The first characters of an expression tell which kind of node it is, and the parentheses around
operands tell where each of them ends. So two plain expressions with one text are the same.
-/

namespace QueryForge

open Sql

/-- What ends a word. -/
def Sql.isDelimiter (c : Char) : Bool :=
  c == '(' || c == ')' || c == ',' || c == ' ' || c == '\''

theorem Sql.isDelimiter_iff {c : Char} :
    isDelimiter c ↔ c = '(' ∨ c = ')' ∨ c = ',' ∨ c = ' ' ∨ c = '\'' := by
  simp [isDelimiter, or_assoc]

theorem Sql.not_isDelimiter {p : Char → Prop} (opening : ¬p '(') (closing : ¬p ')')
    (comma : ¬p ',') (blank : ¬p ' ') (quote : ¬p '\'') {c : Char} (h : p c) : !isDelimiter c := by
  by_cases delimiter : isDelimiter c
  · rcases isDelimiter_iff.1 delimiter with rfl | rfl | rfl | rfl | rfl <;> contradiction
  · simp [delimiter]

theorem Sql.IsIdentifier.not_isDelimiter {name : String} (h : IsIdentifier name) :
    ∀ c ∈ name.toList, !isDelimiter c :=
  fun c hc => Sql.not_isDelimiter (p := fun c => isNameChar c) (by decide) (by decide) (by decide)
    (by decide) (by decide) (h.2.1 c hc)

theorem Sql.isLower_of_isDigit {c : Char} (h : c.isDigit) : c.isLower = false := by
  have digit : (c.val ≥ '0'.val && c.val ≤ '9'.val) = true := h
  have lower : c.isLower = (c.val ≥ 'a'.val && c.val ≤ 'z'.val) := rfl
  rw [lower]
  simp [UInt32.le_iff_toNat_le] at digit ⊢
  omega

theorem Sql.EndsOperand.notApplied {r : List Char} (h : EndsOperand r) :
    (r.head? == some '(') = false := by
  cases h <;> rfl

theorem ColumnType.prefixFree : PrefixFree ColumnType.sql :=
  .of_all ColumnType.all (fun t => by cases t <;> decide) (by decide +kernel)

namespace Literal

def isQuoted : Literal → Bool
  | .text _ | .typed .. => true
  | .null | .integer _ | .boolean _ | .number _ => false

def isNumeral : Literal → Bool
  | .integer _ | .number (.finite _) => true
  | .null | .boolean _ | .number _ | .text _ | .typed .. => false

def IsNumeralChar (c : Char) : Prop := c.isDigit ∨ c ∈ ['-', '+', '.', 'e']

instance (c : Char) : Decidable (IsNumeralChar c) := inferInstanceAs (Decidable (_ ∨ _))

theorem isNumeralChar_of_mem {v : Literal} (h : v.isNumeral) {c : Char}
    (hc : c ∈ v.sql.toList) : IsNumeralChar c := by
  cases v with
  | null | boolean value | text value | typed literal type => cases h
  | integer i =>
    rcases mem_integer hc with digit | rfl
    · exact .inl digit
    · decide
  | number x =>
    cases x with
    | finite x =>
      rw [sql, NumberLayout.text, String.toList_ofList, NumberLayout.chars_token] at hc
      exact Json.Reader.NumberToken.mem_chars (NumberLayout.wellFormed_token _ _) hc
    | infinite | nan => cases h

theorem exists_eq_cons_of_isNumeral {v : Literal} (h : v.isNumeral) :
    ∃ c cs, v.sql.toList = c :: cs ∧ (c.isDigit ∨ c = '-') := by
  cases v with
  | null | boolean value | text value | typed literal type => cases h
  | integer i =>
    by_cases negative : i.toInt < 0
    · exact ⟨'-', _, by simp [sql, Sql.integer, negative]; rfl, .inr rfl⟩
    · obtain ⟨c, cs, chars, digit⟩ := exists_repr_eq_cons i.toInt.natAbs
      exact ⟨c, cs, by simp [sql, Sql.integer, negative, chars], .inl digit⟩
  | number x =>
    cases x with
    | finite x =>
      rw [sql, NumberLayout.text, String.toList_ofList, NumberLayout.chars_token]
      exact Json.Reader.NumberToken.exists_chars_eq_cons (NumberLayout.wellFormed_token _ _) _
    | infinite | nan => cases h

/-- The literals that are written in letters. -/
def words : List Literal :=
  [.null, .boolean true, .boolean false, .number (.infinite false), .number (.infinite true),
    .number .nan]

theorem mem_words {v : Literal} (quotes : v.isQuoted = false) (h : v.isNumeral = false) :
    v ∈ words := by
  cases v with
  | text value | typed literal type => cases quotes
  | integer i => cases h
  | null => decide
  | boolean value => cases value <;> decide
  | number x =>
    cases x with
    | finite x => cases h
    | infinite negative => cases negative <;> decide
    | nan => decide

/-- A literal without quotes is one word. -/
theorem not_isDelimiter_of_mem {v : Literal} (h : v.isQuoted = false) {c : Char}
    (hc : c ∈ v.sql.toList) : !isDelimiter c := by
  cases numeral : v.isNumeral with
  | true =>
    exact not_isDelimiter (p := IsNumeralChar) (by decide) (by decide) (by decide) (by decide)
      (by decide) (isNumeralChar_of_mem numeral hc)
  | false =>
    have letters : ∀ w ∈ words, w.sql.toList.all fun c => !isDelimiter c := by decide
    exact List.all_eq_true.1 (letters v (mem_words h numeral)) c hc

theorem integer_ne_number (i : Int64) (x : Binary64) :
    (integer i).sql ≠ (number (.finite x)).sql := by
  intro same
  have marked : '.' ∈ (number (.finite x)).sql.toList ∨ 'e' ∈ (number (.finite x)).sql.toList := by
    rw [sql, NumberLayout.text, String.toList_ofList]
    exact NumberLayout.mem_chars_of_fractionDigit rfl x
  rw [← same] at marked
  rcases marked with point | exponent
  · exact absurd (mem_integer point) (by decide)
  · exact absurd (mem_integer exponent) (by decide)

theorem sql_injective_of_numeral {v w : Literal} (hv : v.isNumeral) (hw : w.isNumeral)
    (same : v.sql = w.sql) : v = w := by
  cases v with
  | null | boolean value | text value | typed literal type => cases hv
  | integer i =>
    cases w with
    | null | boolean value | text value | typed literal type => cases hw
    | integer j =>
      have values : i.toInt = j.toInt := integer_injective same
      rw [Int64.toInt_inj.1 values]
    | number y =>
      cases y with
      | finite y => exact absurd same (integer_ne_number i y)
      | infinite | nan => cases hw
  | number x =>
    cases x with
    | infinite | nan => cases hv
    | finite x =>
      cases w with
      | null | boolean value | text value | typed literal type => cases hw
      | integer j => exact absurd same.symm (integer_ne_number j x)
      | number y =>
        cases y with
        | infinite | nan => cases hw
        | finite y =>
          have chars : numberLayout.chars x = numberLayout.chars y := String.ofList_injective same
          rw [NumberLayout.chars_injective _ chars]

theorem word_ne_numeral {v w : Literal} (quotes : v.isQuoted = false) (hv : v.isNumeral = false)
    (hw : w.isNumeral) : v.sql ≠ w.sql := by
  intro same
  have letters : ∀ v ∈ words, v.sql.toList.any fun c => !decide (IsNumeralChar c) := by decide
  obtain ⟨c, mem, other⟩ := List.any_eq_true.1 (letters v (mem_words quotes hv))
  rw [Bool.not_eq_true', decide_eq_false_iff_not] at other
  exact other (isNumeralChar_of_mem hw (same ▸ mem))

/-- Literals without quotes differ in their words. -/
theorem sql_injective_of_bare {v w : Literal} (hv : v.isQuoted = false) (hw : w.isQuoted = false)
    (same : v.sql = w.sql) : v = w := by
  cases numeral : v.isNumeral with
  | true =>
    cases numeral' : w.isNumeral with
    | true => exact sql_injective_of_numeral numeral numeral' same
    | false => exact absurd same.symm (word_ne_numeral hw numeral' numeral)
  | false =>
    cases numeral' : w.isNumeral with
    | true => exact absurd same (word_ne_numeral hv numeral numeral')
    | false =>
      have apart : ∀ v ∈ words, ∀ w ∈ words, v.sql = w.sql → v = w := by decide
      exact apart v (mem_words hv numeral) w (mem_words hw numeral') same

theorem head?_ne_quote {r : List Char} (h : EndsOperand r) : r.head? ≠ some '\'' := by
  intro quote
  cases h <;> cases quote

theorem bare_ne_quoted {v w : Literal} (hv : v.isQuoted = false) (hw : w.isQuoted)
    {r s : List Char} (hr : EndsOperand r) : v.sql.toList ++ r ≠ w.sql.toList ++ s := by
  intro same
  have quote : (w.sql.toList ++ s).head? = some '\'' := by
    cases w with
    | null | integer | boolean | number => cases hw
    | text | typed => simp [sql, quoted]
  rw [← same] at quote
  cases chars : v.sql.toList with
  | nil =>
    rw [chars] at quote
    exact head?_ne_quote hr quote
  | cons c cs =>
    have word := not_isDelimiter_of_mem hv (chars ▸ List.mem_cons_self)
    rw [chars] at quote
    obtain rfl : c = '\'' := Option.some.inj quote
    cases word

theorem type_determined (type : Option ColumnType) :
    Determined (fun t => Sql.optional t fun t => "::" ++ ColumnType.sql t) (fun _ => True)
      EndsOperand type := by
  refine Determined.optionalWord ColumnType.prefixFree "::" ?_ type
  intro t r h
  rw [String.toList_append] at h
  cases h

/-- A quoted text, with a type behind it or without. -/
def ofQuotation (s : String) : Option ColumnType → Literal
  | none => .text s
  | some type => .typed s type

theorem exists_eq_ofQuotation {v : Literal} (h : v.isQuoted) :
    ∃ s type, v = ofQuotation s type := by
  cases v with
  | null | integer | boolean | number => cases h
  | text s => exact ⟨s, none, rfl⟩
  | typed s type => exact ⟨s, some type, rfl⟩

theorem sql_ofQuotation (s : String) (type : Option ColumnType) :
    (ofQuotation s type).sql = quoted s ++ Sql.optional type fun t => "::" ++ t.sql := by
  cases type <;> simp [ofQuotation, sql, Sql.optional, String.append_assoc]

theorem quoted_inj {v w : Literal} (hv : v.isQuoted) (hw : w.isQuoted) {r s : List Char}
    (hr : EndsOperand r) (hs : EndsOperand s) (same : v.sql.toList ++ r = w.sql.toList ++ s) :
    v = w ∧ r = s := by
  have behind (type : Option ColumnType) {t : List Char} (ht : EndsOperand t) :
      ((Sql.optional type fun t => "::" ++ t.sql).toList ++ t).head? ≠ some '\'' := by
    cases type with
    | none => exact head?_ne_quote ht
    | some type => simp [Sql.optional]
  obtain ⟨a, type, rfl⟩ := exists_eq_ofQuotation hv
  obtain ⟨b, type', rfl⟩ := exists_eq_ofQuotation hw
  rw [sql_ofQuotation, sql_ofQuotation, String.toList_append, String.toList_append,
    List.append_assoc, List.append_assoc] at same
  obtain ⟨rfl, types⟩ := Sql.quoted_inj (behind type hr) (behind type' hs) same
  obtain ⟨rfl, rest⟩ := type_determined type trivial hr hs types
  exact ⟨rfl, rest⟩

theorem determined (v : Literal) : Determined sql (fun _ => True) EndsOperand v := by
  intro w r s _ hr hs same
  have stops {t : List Char} (ht : EndsOperand t) :
      ∀ c, t.head? = some c → (!isDelimiter c) = false := ht.stops rfl rfl rfl
  cases hv : v.isQuoted with
  | true =>
    cases hw : w.isQuoted with
    | true => exact quoted_inj hv hw hr hs same
    | false => exact absurd same.symm (bare_ne_quoted hw hv hs)
  | false =>
    cases hw : w.isQuoted with
    | true => exact absurd same (bare_ne_quoted hv hw hr)
    | false =>
      obtain ⟨words, rest⟩ := span_inj (p := fun c => !isDelimiter c)
        (fun _ hc => not_isDelimiter_of_mem hv hc) (fun _ hc => not_isDelimiter_of_mem hw hc)
        (stops hr) (stops hs) same
      exact ⟨sql_injective_of_bare hv hw (String.toList_injective words), rest⟩

end Literal

theorem UnaryOperator.prefixFree : PrefixFree UnaryOperator.sql :=
  .of_all [.not, .minus] (fun o => by cases o <;> decide) (by decide)

/-- What stands behind the operand of a test or the left operand of a binary operator. -/
inductive Behind where
  | test (operator : TestOperator)
  | binary (operator : BinaryOperator)
deriving DecidableEq

namespace Behind

def sql : Behind → String
  | .test operator => operator.sql ++ ")"
  | .binary operator => operator.sql ++ " ("

def all : List Behind :=
  [.isNull, .isNotNull, .isTrue, .isNotTrue].map .test ++ BinaryOperator.all.map .binary

theorem mem_all (b : Behind) : b ∈ all := by
  cases b with
  | test operator => cases operator <;> decide
  | binary operator => cases operator <;> decide

theorem prefixFree : PrefixFree sql := .of_all all mem_all (by decide +kernel)

end Behind

/-- What the first characters tell about an expression. -/
inductive Lead where
  | name (applied : Bool)
  | literal
  | unary
  | operand
  | keyword (word : List Char)
  | nothing

namespace Lead

/-- The lead of a text that begins with a word, as far as a parenthesis stands behind it. -/
def ofWord (word : List Char) (applied : Bool) : Lead :=
  if word.head?.any fun c => c.isLower || c == '_' then .name applied
  else if applied then .keyword word else .literal

def read : List Char → Lead
  | [] | ')' :: _ | ',' :: _ | ' ' :: _ => .nothing
  | '(' :: '(' :: _ => .operand
  | '(' :: _ => .unary
  | cs =>
    ofWord (cs.takeWhile fun c => !isDelimiter c)
      ((cs.dropWhile fun c => !isDelimiter c).head? == some '(')

theorem read_word {word rest : List Char} (nonempty : word ≠ [])
    (hw : ∀ c ∈ word, !isDelimiter c) (stop : ∀ c, rest.head? = some c → (!isDelimiter c) = false) :
    read (word ++ rest) = ofWord word (rest.head? == some '(') := by
  have split := takeWhile_append_of_stop (p := fun c => !isDelimiter c) hw stop
  obtain ⟨c, cs, rfl⟩ := List.exists_cons_of_ne_nil nonempty
  have first (d : Char) (delimiter : isDelimiter d) : c ≠ d := by
    rintro rfl
    simp [delimiter] at hw
  unfold read
  split
  · next same => cases same
  · next same => exact absurd (List.cons.inj same).1 (first _ rfl)
  · next same => exact absurd (List.cons.inj same).1 (first _ rfl)
  · next same => exact absurd (List.cons.inj same).1 (first _ rfl)
  · next same => exact absurd (List.cons.inj same).1 (first _ rfl)
  · next same => exact absurd (List.cons.inj same).1 (first _ rfl)
  · rw [split.1, split.2]

theorem read_of_endsOperand {r : List Char} (h : EndsOperand r) : read r = .nothing := by
  cases h <;> rfl

theorem read_name {name : String} (h : IsIdentifier name) {word rest : List Char}
    (begins : ∃ cs, word = name.toList ++ cs) (hw : ∀ c ∈ word, !isDelimiter c)
    (stop : ∀ c, rest.head? = some c → (!isDelimiter c) = false) :
    read (word ++ rest) = .name (rest.head? == some '(') := by
  obtain ⟨c, cs, chars, first⟩ := h.exists_cons
  obtain ⟨ds, rfl⟩ := begins
  rw [read_word (by simp [chars]) hw stop, ofWord, chars]
  simp [first]

end Lead

theorem Literal.read_sql {v : Literal} (finite : v.IsFinite) {r : List Char}
    (hr : EndsOperand r) : Lead.read (v.sql.toList ++ r) = .literal := by
  have stop : ∀ c, r.head? = some c → (!isDelimiter c) = false := hr.stops rfl rfl rfl
  cases quotes : v.isQuoted with
  | true =>
    obtain ⟨s, type, rfl⟩ := exists_eq_ofQuotation quotes
    rw [sql_ofQuotation, String.toList_append, List.append_assoc, toList_quoted_append]
    rfl
  | false =>
    have bare {c : Char} (hc : c ∈ v.sql.toList) := not_isDelimiter_of_mem quotes hc
    cases numeral : v.isNumeral with
    | true =>
      obtain ⟨c, cs, chars, first⟩ := exists_eq_cons_of_isNumeral numeral
      have noName : (c.isLower || c == '_') = false := by
        rcases first with digit | rfl
        · have underscore : c ≠ '_' := by
            rintro rfl
            cases digit
          simp [isLower_of_isDigit digit, underscore]
        · decide
      rw [Lead.read_word (by simp [chars]) (fun _ => bare) stop, hr.notApplied, Lead.ofWord, chars]
      simp [noName]
    | false =>
      have capitals : v ∈ [.null, .boolean true, .boolean false] := by
        have lower : ∀ w ∈ words, w ∈ [.null, .boolean true, .boolean false] ∨
            ∃ x ∈ w.numbers, ¬x.IsFinite := by decide
        exact (lower v (mem_words quotes numeral)).resolve_right fun ⟨x, mem, bad⟩ =>
          bad (finite x mem)
      simp only [List.mem_cons, List.not_mem_nil, or_false] at capitals
      rcases capitals with rfl | rfl | rfl <;>
        rw [Lead.read_word (by decide) (fun _ => bare) stop, hr.notApplied] <;> rfl

namespace ExprNode

variable {E : Type} {text : E → String} {plain : E → Prop}

def lead : ExprNode E → Lead
  | .column .. => .name false
  | .literal _ => .literal
  | .unary .. => .unary
  | .test .. | .binary .. => .operand
  | .cast .. => .keyword "CAST".toList
  | .call .. => .name true
  | .window function => .keyword function.kind.sql.toList

/-- The word of a column. -/
def columnWord (table : Option String) (name : String) : List Char :=
  (Sql.optional table fun t => t ++ ".").toList ++ name.toList

theorem toList_column (table : Option String) (name : String) :
    ((column table name : ExprNode E).map text).sql.toList = columnWord table name := by
  cases table <;> simp [map, sql, columnWord, Sql.optional]

theorem not_isDelimiter_of_mem_columnWord {table : Option String} {name : String}
    (names : ∀ n ∈ table.toList ++ [name], IsIdentifier n) :
    ∀ c ∈ columnWord table name, !isDelimiter c := by
  intro c hc
  rcases List.mem_append.1 hc with inTable | inName
  · cases table with
    | none => cases inTable
    | some t =>
      rw [Sql.optional, String.toList_append, List.mem_append] at inTable
      rcases inTable with inTable | point
      · exact (names t List.mem_cons_self).not_isDelimiter c inTable
      · obtain rfl : c = '.' := List.mem_singleton.1 point
        decide
  · exact (names name (by simp)).not_isDelimiter c inName

theorem exists_columnWord_eq {table : Option String} {name : String}
    (names : ∀ n ∈ table.toList ++ [name], IsIdentifier n) :
    ∃ n, IsIdentifier n ∧ ∃ cs, columnWord table name = n.toList ++ cs := by
  cases table with
  | none => exact ⟨name, names name (by simp), [], by simp [columnWord, Sql.optional]⟩
  | some t =>
    exact ⟨t, names t (by simp), '.' :: name.toList, by simp [columnWord, Sql.optional]⟩

theorem columnWord_inj {table table' : Option String} {name name' : String}
    (names : ∀ n ∈ table.toList ++ [name], IsIdentifier n)
    (names' : ∀ n ∈ table'.toList ++ [name'], IsIdentifier n)
    (same : columnWord table name = columnWord table' name') : table = table' ∧ name = name' := by
  have point (cs : List Char) : ∀ c, ('.' :: cs).head? = some c → isNameChar c = false :=
    stops_cons rfl cs
  have nothing : ∀ c, ([] : List Char).head? = some c → isNameChar c = false := by simp
  have last := names name (by simp)
  have last' := names' name' (by simp)
  cases table with
  | none =>
    cases table' with
    | none => exact ⟨rfl, by simpa [columnWord, Sql.optional, String.toList_inj] using same⟩
    | some t' =>
      have first' := names' t' List.mem_cons_self
      simp [columnWord, Sql.optional] at same
      have ends := (last.inj first' nothing (point name'.toList) (by simpa using same)).2
      cases ends
  | some t =>
    have first := names t List.mem_cons_self
    simp [columnWord, Sql.optional] at same
    cases table' with
    | none =>
      simp at same
      have ends := (first.inj last' (point name.toList) nothing (by simpa using same)).2
      cases ends
    | some t' =>
      have first' := names' t' List.mem_cons_self
      simp at same
      obtain ⟨rfl, ends⟩ := first.inj first' (point _) (point _) same
      exact ⟨rfl, String.toList_injective (List.cons.inj ends).2⟩

theorem ofWord_kind (k : WindowKind) :
    Lead.ofWord k.sql.toList true = .keyword k.sql.toList := by
  cases k <;> rfl

/-- The names of a node are plain and its number is finite. -/
def Legible (n : ExprNode E) : Prop :=
  (∀ name ∈ n.ownNames, IsIdentifier name) ∧ ∀ x ∈ n.ownNumbers, x.IsFinite

/-- The first characters tell which kind of node it is, in front of any follower. -/
theorem read_sql {n : ExprNode E} (legible : n.Legible) {r : List Char} (hr : EndsOperand r) :
    Lead.read ((n.map text).sql.toList ++ r) = n.lead := by
  obtain ⟨names, numbers⟩ := legible
  have stop : ∀ c, r.head? = some c → (!isDelimiter c) = false := hr.stops rfl rfl rfl
  have applied (rest : List Char) :
      ∀ c, ('(' :: rest).head? = some c → (!isDelimiter c) = false := stops_cons rfl rest
  cases n with
  | column table name =>
    obtain ⟨first, identifier, begins⟩ := exists_columnWord_eq names
    rw [toList_column, Lead.read_name identifier begins (not_isDelimiter_of_mem_columnWord names)
      stop, hr.notApplied]
    rfl
  | literal v => exact Literal.read_sql numbers hr
  | unary operator operand =>
    cases operator <;> simp [map, sql, UnaryOperator.sql, Lead.read, lead]
  | test operand operator => simp [map, sql, Lead.read, lead]
  | binary left operator right => simp [map, sql, Lead.read, lead]
  | cast operand type =>
    simp [map, sql]
    rfl
  | call name arguments =>
    have identifier := names name List.mem_cons_self
    have shape : ((call name arguments).map text).sql.toList ++ r = name.toList ++
        ('(' :: ((Sql.commaSeparated (arguments.map text)).toList ++ ')' :: r)) := by
      simp [map, sql]
    rw [shape, Lead.read_name identifier ⟨[], by simp⟩ identifier.not_isDelimiter (applied _)]
    rfl
  | window function =>
    have shape : ((window function).map text).sql = (function.map text).sql := rfl
    have nonempty : function.kind.sql.toList ≠ [] := by
      cases function.kind <;> decide
    have letters : function.kind.sql.toList.all fun c => !isDelimiter c := by
      cases function.kind <;> decide
    rw [shape, WindowFunction.toList_sql_append,
      Lead.read_word nonempty (List.all_eq_true.1 letters) (applied _)]
    exact ofWord_kind function.kind

theorem cast_ne_kind (k : WindowKind) : "CAST".toList ≠ k.sql.toList := by
  cases k <;> decide

theorem toList_test (operand : E) (operator : TestOperator) (r : List Char) :
    ((test operand operator).map text).sql.toList ++ r = '(' :: '(' :: ((text operand).toList ++
      (')' :: ' ' :: ((Behind.test operator).sql.toList ++ r))) := by
  simp [map, sql, Behind.sql]

theorem toList_binary (left : E) (operator : BinaryOperator) (right : E) (r : List Char) :
    ((binary left operator right).map text).sql.toList ++ r = '(' :: '(' :: ((text left).toList ++
      (')' :: ' ' :: ((Behind.binary operator).sql.toList ++
        ((text right).toList ++ (')' :: ')' :: r))))) := by
  simp [map, sql, Behind.sql]

/-- Tests and binary operators have their first operand in common. -/
theorem operand_inj {a b : E} (h : Determined text plain EndsOperand a) (hb : plain b)
    {x y : Behind} {r s : List Char}
    (same : '(' :: '(' :: ((text a).toList ++ (')' :: ' ' :: (x.sql.toList ++ r))) =
      '(' :: '(' :: ((text b).toList ++ (')' :: ' ' :: (y.sql.toList ++ s)))) :
    a = b ∧ x = y ∧ r = s := by
  simp only [List.cons.injEq, true_and] at same
  obtain ⟨rfl, rests⟩ := h hb (.closing _) (.closing _) same
  simp only [List.cons.injEq, true_and] at rests
  obtain ⟨rfl, rest⟩ := Behind.prefixFree.inj rests
  exact ⟨rfl, rfl, rest⟩

theorem determined (opens : ∀ e, plain e → ∀ r, ¬EndsOperand ((text e).toList ++ r))
    {n : ExprNode E} (h : ∀ e ∈ n.operands, Determined text plain EndsOperand e)
    (hn : n.Legible ∧ ∀ e ∈ n.operands, plain e) :
    Determined (fun n => (n.map text).sql) (fun n => n.Legible ∧ ∀ e ∈ n.operands, plain e)
      EndsOperand n := by
  intro m r s hm hr hs same
  have leads : n.lead = m.lead := by
    rw [← read_sql hn.1 hr, ← read_sql hm.1 hs]
    exact congrArg Lead.read same
  cases n with
  | column table name =>
    cases m with
    | column table' name' =>
      rw [toList_column, toList_column] at same
      obtain ⟨words, rest⟩ := span_inj (p := fun c => !isDelimiter c)
        (not_isDelimiter_of_mem_columnWord hn.1.1) (not_isDelimiter_of_mem_columnWord hm.1.1)
        (hr.stops rfl rfl rfl) (hs.stops rfl rfl rfl) same
      obtain ⟨rfl, rfl⟩ := columnWord_inj hn.1.1 hm.1.1 words
      exact ⟨rfl, rest⟩
    | literal | unary | test | binary | cast | call | window => cases leads
  | literal v =>
    cases m with
    | literal w =>
      obtain ⟨rfl, rest⟩ := v.determined trivial hr hs same
      exact ⟨rfl, rest⟩
    | column | unary | test | binary | cast | call | window => cases leads
  | unary operator operand =>
    cases m with
    | unary operator' operand' =>
      simp [map, sql] at same
      obtain ⟨rfl, rests⟩ := UnaryOperator.prefixFree.inj same
      obtain ⟨rfl, rest⟩ := h operand List.mem_cons_self (hm.2 operand' List.mem_cons_self)
        (.closing _) (.closing _) (List.cons.inj rests).2
      exact ⟨rfl, (List.cons.inj rest).2⟩
    | column | literal | test | binary | cast | call | window => cases leads
  | test operand operator =>
    have known := h operand List.mem_cons_self
    cases m with
    | test operand' operator' =>
      simp only [toList_test] at same
      obtain ⟨rfl, operators, rest⟩ := operand_inj known (hm.2 operand' List.mem_cons_self) same
      cases operators
      exact ⟨rfl, rest⟩
    | binary left' operator' right' =>
      simp only [toList_test, toList_binary] at same
      obtain ⟨-, operators, -⟩ := operand_inj known (hm.2 left' List.mem_cons_self) same
      cases operators
    | column | literal | unary | cast | call | window => cases leads
  | binary left operator right =>
    have known := h left List.mem_cons_self
    cases m with
    | test operand' operator' =>
      simp only [toList_test, toList_binary] at same
      obtain ⟨-, operators, -⟩ := operand_inj known (hm.2 operand' List.mem_cons_self) same
      cases operators
    | binary left' operator' right' =>
      simp only [toList_binary] at same
      obtain ⟨rfl, operators, rests⟩ := operand_inj known (hm.2 left' List.mem_cons_self) same
      cases operators
      obtain ⟨rfl, rest⟩ := h right (by simp [operands]) (hm.2 right' (by simp [operands]))
        (.closing _) (.closing _) rests
      exact ⟨rfl, (List.cons.inj (List.cons.inj rest).2).2⟩
    | column | literal | unary | cast | call | window => cases leads
  | cast operand type =>
    cases m with
    | cast operand' type' =>
      simp [map, sql] at same
      obtain ⟨rfl, rests⟩ := h operand List.mem_cons_self (hm.2 operand' List.mem_cons_self)
        (.closing _) (.closing _) same
      simp only [List.cons.injEq, true_and] at rests
      obtain ⟨rfl, rest⟩ := ColumnType.prefixFree.inj rests
      exact ⟨rfl, (List.cons.inj rest).2⟩
    | window function' => exact absurd (Lead.keyword.inj leads) (cast_ne_kind _)
    | column | literal | unary | test | binary | call => cases leads
  | call name arguments =>
    cases m with
    | call name' arguments' =>
      have stop (rest : List Char) : ∀ c, ('(' :: rest).head? = some c → isNameChar c = false :=
        stops_cons rfl rest
      simp [map, sql] at same
      obtain ⟨rfl, rests⟩ := (hn.1.1 name List.mem_cons_self).inj (hm.1.1 name' List.mem_cons_self)
        (stop _) (stop _) same
      obtain ⟨rfl, rest⟩ := operands_determined opens h hn.2 hm.2 (.closing _) (.closing _)
        (List.cons.inj rests).2
      exact ⟨rfl, (List.cons.inj rest).2⟩
    | column | literal | unary | test | binary | cast | window => cases leads
  | window function =>
    cases m with
    | window function' =>
      obtain ⟨rfl, rest⟩ := WindowFunction.determined opens h ⟨hn.1.1, hn.2⟩ ⟨hm.1.1, hm.2⟩ hr hs
        same
      exact ⟨rfl, rest⟩
    | cast operand' type' => exact absurd (Lead.keyword.inj leads).symm (cast_ne_kind _)
    | column | literal | unary | test | binary | call => cases leads

/-- No node begins like something that follows an operand. -/
theorem not_endsOperand {n : ExprNode E} (legible : n.Legible) (r : List Char) :
    ¬EndsOperand ((n.map text).sql.toList ++ r) := by
  intro ends
  have lead : Lead.read ((n.map text).sql.toList ++ [')']) = n.lead :=
    read_sql legible (.closing [])
  have nothing : Lead.read ((n.map text).sql.toList ++ [')']) = .nothing := by
    cases chars : (n.map text).sql.toList with
    | nil => rfl
    | cons c cs =>
      rw [chars] at ends
      apply Lead.read_of_endsOperand
      cases ends with
      | closing => exact .closing _
      | comma => exact .comma _
      | blank => exact .blank _
  rw [nothing] at lead
  cases n <;> cases lead

end ExprNode

namespace Expr

/-- All names are plain and all numbers finite. -/
def Legible (e : Expr) : Prop := e.Plain ∧ e.IsFinite

theorem legible_node {n : ExprNode Expr} :
    (Expr.node n).Legible ↔ n.Legible ∧ ∀ e ∈ n.operands, e.Legible := by
  unfold Legible ExprNode.Legible
  rw [plain_node, isFinite_node, and_and_and_comm, ← forall₂_and]

theorem not_endsOperand {e : Expr} (h : e.Legible) (r : List Char) :
    ¬EndsOperand (e.sql.toList ++ r) := by
  obtain ⟨n⟩ := e
  rw [sql_node]
  exact ExprNode.not_endsOperand (legible_node.1 h).1 r

theorem determined {e : Expr} (h : e.Legible) : Determined sql Legible EndsOperand e := by
  induction e using Expr.induction with
  | step n ih =>
    intro f r s hf hr hs same
    obtain ⟨m⟩ := f
    rw [sql_node, sql_node] at same
    have parts := legible_node.1 h
    obtain ⟨rfl, rest⟩ := ExprNode.determined (fun _ => not_endsOperand)
      (fun e he => ih e he (parts.2 e he)) parts (legible_node.1 hf) hr hs same
    exact ⟨rfl, rest⟩

/-- Plain expressions of finite numbers have one text only if they are the same, whatever their
literals contain. -/
theorem sql_unambiguous {a b : Expr} (ha : a.Plain) (hb : b.Plain) (finite : a.IsFinite)
    (finite' : b.IsFinite) : a.sql = b.sql ↔ a = b := by
  constructor
  · intro same
    have behind : a.sql.toList ++ [')'] = b.sql.toList ++ [')'] := by rw [same]
    exact (determined ⟨ha, finite⟩ ⟨hb, finite'⟩ (.closing _) (.closing _) behind).1
  · intro same
    rw [same]

def twoArguments : Expr := .node (.call "coalesce" [literal (.text "a"), literal (.text "b")])

/-- One argument whose characters look like the two. -/
def oneArgument : Expr := .node (.call "coalesce" [literal (.text "a', 'b")])

theorem arguments_sql_ne :
    twoArguments.Plain ∧ oneArgument.Plain ∧ twoArguments.IsFinite ∧ oneArgument.IsFinite ∧
      twoArguments.sql ≠ oneArgument.sql := by
  have two : twoArguments.Plain := by decide
  have one : oneArgument.Plain := by decide
  have finite : twoArguments.IsFinite := by decide
  have finite' : oneArgument.IsFinite := by decide
  refine ⟨two, one, finite, finite', ?_⟩
  intro same
  have equal := (sql_unambiguous two one finite finite').1 same
  simp [twoArguments, oneArgument] at equal

-- An infinity is written like a column.
example : (literal (.number (.infinite false))).sql = (Expr.node (.column none "inf")).sql := rfl

end Expr
end QueryForge
