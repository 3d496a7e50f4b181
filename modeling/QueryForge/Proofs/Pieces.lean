import QueryForge.Proofs.Binary64.Numeral
import QueryForge.Proofs.Lexemes
import QueryForge.Proofs.Window

/-!
# Expressions are pieces of SQL

Wherever a plain expression stands, a reader finds its own literals in it, balanced parentheses
and no comment: every sign is followed by a blank or a digit.
-/

namespace QueryForge

open Sql

namespace Sql

theorem isInert_of {p : Char → Prop} (quote : ¬p '\'') (opening : ¬p '(') (closing : ¬p ')')
    (slash : ¬p '/') (sign : ¬p '-') {c : Char} (h : p c) : isInert c := by
  have apart (d : Char) (other : ¬p d) : c ≠ d := by
    rintro rfl
    exact other h
  simp [isInert, apart _ quote, apart _ opening, apart _ closing, apart _ slash, apart _ sign]

theorem isInert_of_isDigit {c : Char} (h : c.isDigit) : isInert c :=
  isInert_of (p := fun c => c.isDigit) (by decide) (by decide) (by decide) (by decide) (by decide) h

theorem IsIdentifier.block {name : String} (h : IsIdentifier name) : Block name [] :=
  .inert h.1 fun c hc => isInert_of (p := fun c => isNameChar c) (by decide) (by decide)
    (by decide) (by decide) (by decide) (h.2.1 c hc)

theorem Block.digits {cs : List Char} (nonempty : cs ≠ []) (h : ∀ c ∈ cs, c.isDigit) :
    Block (String.ofList cs) [] := by
  apply Block.inert
  · rwa [String.toList_ofList]
  · intro c hc
    rw [String.toList_ofList] at hc
    exact isInert_of_isDigit (h c hc)

theorem Block.repr (n : Nat) : Block n.repr [] := by
  have nonempty : n.repr.toList ≠ [] := by
    rw [Nat.toList_repr]
    exact Nat.toDigits_ne_nil
  rw [← String.ofList_toList (s := n.repr)]
  exact .digits nonempty fun c hc => isDigit_of_mem_repr hc

theorem Piece.integer (i : Int) : Piece (integer i) [] := by
  unfold Sql.integer
  split
  · exact (Block.repr _).signed
  · exact (Block.repr _).piece

end Sql

namespace Json.Reader.NumberToken

theorem mantissa_block {t : NumberToken} (h : t.WellFormed) :
    Block (String.ofList (t.whole ++ fractionChars t.fraction)) [] := by
  apply Block.inert
  · simp [h.whole_ne_nil]
  intro c hc
  rw [String.toList_ofList] at hc
  rcases List.mem_append.1 hc with inWhole | inFraction
  · exact isInert_of_isDigit (h.whole c inWhole)
  · cases fraction : t.fraction with
    | none =>
      rw [fraction] at inFraction
      cases inFraction
    | some digits =>
      rw [fraction] at inFraction
      rcases List.mem_cons.1 inFraction with rfl | inDigits
      · decide
      · exact isInert_of_isDigit ((h.fraction digits fraction).2 c inDigits)

theorem exponent_tail (plus : Bool) {exponent : Option (Bool × List Char)}
    (h : ∀ negative digits, exponent = some (negative, digits) →
      digits ≠ [] ∧ ∀ c ∈ digits, c.isDigit) :
    Tail (String.ofList (exponentChars plus exponent)) [] := by
  have mark : Block "e" [] := .word (by decide)
  have raised : Block "e+" [] := .word (by decide)
  match exponent, h with
  | none, _ => exact Tail.empty
  | some (true, digits), h =>
    obtain ⟨nonempty, all⟩ := h true digits rfl
    have text : String.ofList (exponentChars plus (some (true, digits))) =
        "e" ++ ("-" ++ String.ofList digits) := String.toList_injective (by simp [exponentChars])
    rw [text]
    exact mark.append (Block.digits nonempty all).signed
  | some (false, digits), h =>
    obtain ⟨nonempty, all⟩ := h false digits rfl
    have text : String.ofList (exponentChars plus (some (false, digits))) =
        (if plus then "e+" else "e") ++ String.ofList digits :=
      String.toList_injective (by cases plus <;> simp [exponentChars])
    rw [text]
    cases plus with
    | true => exact raised.append (Block.digits nonempty all).piece
    | false => exact mark.append (Block.digits nonempty all).piece

/-- Both signs of a numeral stand in front of digits. -/
theorem piece {t : NumberToken} (h : t.WellFormed) (plus : Bool) :
    Piece (String.ofList (t.chars plus)) [] := by
  have unsigned := (mantissa_block h).tail.append (exponent_tail plus h.exponent)
  have nonempty : String.ofList (t.whole ++ fractionChars t.fraction) ++
      String.ofList (exponentChars plus t.exponent) ≠ "" := by
    simp [h.whole_ne_nil]
  have text : String.ofList (t.chars plus) = String.ofList (signChars t.negative) ++
      (String.ofList (t.whole ++ fractionChars t.fraction) ++
        String.ofList (exponentChars plus t.exponent)) :=
    String.toList_injective (by simp [chars])
  rw [text]
  cases t.negative with
  | false => exact unsigned.piece
  | true => exact unsigned.signed nonempty

end Json.Reader.NumberToken

namespace Literal

/-- What a reader finds between the quotes. -/
def texts : Literal → List String
  | .text value => [value]
  | .typed literal _ => [literal]
  | .null | .integer _ | .boolean _ | .number _ => []

theorem piece (v : Literal) : Piece v.sql v.texts := by
  cases v with
  | null => exact (Block.word (by decide)).piece
  | boolean value => cases value <;> exact (Block.word (by decide)).piece
  | integer value => exact Piece.integer value.toInt
  | text value => exact Piece.quoted value
  | number value =>
    cases value with
    | finite x =>
      have text : (number (.finite x)).sql =
          String.ofList ((numberLayout.token x).chars numberLayout.signedExponent) := by
        rw [← NumberLayout.chars_token]
        rfl
      rw [text]
      exact Json.Reader.NumberToken.piece (NumberLayout.wellFormed_token _ _) _
    | infinite negative =>
      have word : Block "inf" [] := .word (by decide)
      cases negative with
      | false => exact word.piece
      | true => exact word.signed
    | nan => exact (Block.word (by decide)).piece
  | typed literal type =>
    have cast : Block ("::" ++ type.sql) [] := by
      cases type <;> exact .word (by decide)
    have text : (typed literal type).sql = quoted literal ++ ("::" ++ type.sql) := by
      simp [sql, String.append_assoc]
    rw [text]
    exact (Piece.quoted literal).append cast.tail

end Literal

section Windows

variable {E : Type} {text : E → String} {texts : E → List String}

theorem OrderTerm.piece {t : OrderTerm E} (h : Piece (text t.expr) (texts t.expr)) :
    Piece (t.map text).sql (texts t.expr) := by
  have order : Tail (Sql.optional t.order fun o => " " ++ o.sql) [] := by
    cases t.order with
    | none => exact Tail.empty
    | some o => cases o <;> exact (Block.word (by decide)).tail
  have nulls : Tail (Sql.optional t.nulls fun n => " " ++ n.sql) [] := by
    cases t.nulls with
    | none => exact Tail.empty
    | some n => cases n <;> exact (Block.word (by decide)).tail
  have joined := (h.append order).append nulls
  simpa [OrderTerm.sql, OrderTerm.map] using joined

theorem FrameBound.block (b : FrameBound) : Block b.sql [] := by
  have preceding : Block " PRECEDING" [] := .word (by decide)
  have following : Block " FOLLOWING" [] := .word (by decide)
  cases b with
  | preceding n => exact (Block.repr n.toNat).tail.block preceding
  | following n => exact (Block.repr n.toNat).tail.block following
  | unboundedPreceding | currentRow | unboundedFollowing => exact .word (by decide)

theorem WindowFrame.piece (f : WindowFrame) : Piece f.sql [] := by
  have mode : Block f.mode.sql [] := by
    cases f.mode <;> exact .word (by decide)
  have blank : Block " " [] := .word (by decide)
  have between : Block " BETWEEN " [] := .word (by decide)
  have and : Block " AND " [] := .word (by decide)
  have bounds : Tail (WindowFrame.boundsSql f.start f.stop) [] := by
    cases f.stop with
    | none => exact blank.append f.start.block.piece
    | some stop =>
      have joined := (between.tail.append f.start.block.tail).append (and.append stop.block.piece)
      simpa [WindowFrame.boundsSql, String.append_assoc] using joined
  have exclusion : Tail (Sql.optional f.exclusion fun e => " " ++ e.sql) [] := by
    cases f.exclusion with
    | none => exact Tail.empty
    | some e => cases e <;> exact (Block.word (by decide)).tail
  have joined := (mode.tail.append bounds).append exclusion
  obtain ⟨mode, start, stop, exclusion⟩ := f
  cases stop <;> simpa [WindowFrame.sql, WindowFrame.boundsSql] using joined.piece

theorem WindowPart.piece {p : WindowPart E} (h : ∀ e ∈ p.operands, Piece (text e) (texts e)) :
    Piece (p.sql text) (p.operands.flatMap texts) := by
  have partition : Block "PARTITION BY " [] := .word (by decide)
  have order : Block "ORDER BY " [] := .word (by decide)
  cases p with
  | partition es => exact (partition.append (Piece.separated .comma h)).piece
  | order ts =>
    have terms : ∀ t ∈ ts, Piece (t.map text).sql (texts t.expr) :=
      fun t ht => OrderTerm.piece (h _ (List.mem_map_of_mem ht))
    have joined := (order.append (Piece.separated .comma terms)).piece
    simpa [WindowPart.sql, commaSeparated, WindowPart.operands, List.flatMap_map] using joined
  | frame f => exact f.piece

theorem WindowDefinition.piece {d : WindowDefinition E}
    (h : ∀ e ∈ d.operands, Piece (text e) (texts e)) :
    Piece (d.map text).sql (d.operands.flatMap texts) := by
  have blank : Block " " [] := .word (by decide)
  rw [WindowDefinition.sql_map, WindowDefinition.operands_parts, List.flatMap_assoc]
  rw [WindowDefinition.operands_parts, List.forall_mem_flatMap] at h
  exact Piece.separated blank fun p hp => WindowPart.piece (h p hp)

theorem WindowReference.piece {w : WindowReference E} (names : ∀ n ∈ w.names, IsIdentifier n)
    (h : ∀ e ∈ w.operands, Piece (text e) (texts e)) :
    Piece (w.map text).sql (w.operands.flatMap texts) := by
  cases w with
  | named name => exact (names name List.mem_cons_self).block.piece
  | inline d => exact (WindowDefinition.piece h).group.piece

theorem WindowFunction.sql_map (w : WindowFunction E) :
    (w.map text).sql = w.kind.sql ++ ("(" ++ separated ", " (w.argument.toList.map text) ++ ")") ++
      (" OVER " ++ (w.window.map text).sql) := by
  obtain ⟨kind, argument, window⟩ := w
  apply String.toList_injective
  cases argument <;> simp [sql, map, separated]

theorem WindowFunction.piece {w : WindowFunction E} (names : ∀ n ∈ w.window.names, IsIdentifier n)
    (h : ∀ e ∈ w.operands, Piece (text e) (texts e)) :
    Piece (w.map text).sql (w.operands.flatMap texts) := by
  have kind : Block w.kind.sql [] := by
    cases w.kind <;> exact .word (by decide)
  have before : Block " OVER " [] := .word (by decide)
  rw [WindowFunction.operands, List.forall_mem_append] at h
  have arguments := (Piece.separated .comma h.1).group
  have joined := (kind.tail.append arguments.tail).append
    (before.append (WindowReference.piece names h.2))
  rw [sql_map, WindowFunction.operands, List.flatMap_append]
  simpa using joined.piece

end Windows

namespace ExprNode

variable {E : Type} {text : E → String} {texts : E → List String}

def ownTexts : ExprNode E → List String
  | .literal value => value.texts
  | .column .. | .unary .. | .test .. | .binary .. | .cast .. | .call .. | .window _ => []

theorem ownTexts_map {F : Type} (f : E → F) (n : ExprNode E) : (n.map f).ownTexts = n.ownTexts := by
  cases n <;> rfl

/-- The word in front of the parentheses around all operands; operators have none. -/
def front : ExprNode E → Option String
  | .unary .. | .test .. | .binary .. => some ""
  | .cast .. => some "CAST"
  | .call name _ => some name
  | .column .. | .literal _ | .window _ => none

theorem exists_group {n : ExprNode E} {word : String} (shape : n.front = some word)
    (h : ∀ e ∈ n.operands, Piece (text e) (texts e)) :
    ∃ inner, (n.map text).sql = word ++ ("(" ++ inner ++ ")") ∧
      Piece inner (n.operands.flatMap texts) := by
  cases n with
  | column | literal | window => cases shape
  | unary operator operand =>
    cases shape
    have inner := h operand List.mem_cons_self
    refine ⟨operator.sql ++ " " ++ text operand, ?_, ?_⟩
    · simp [map, sql, String.append_assoc]
    · rw [operands, List.flatMap_singleton]
      have blank : Block " " [] := .word (by decide)
      cases operator with
      | not =>
        have word : Block "NOT " [] := .word (by decide)
        exact (word.append inner).piece
      | minus =>
        -- the sign stands in front of a blank, whatever the operand begins with
        have signed := (blank.append inner).signed (by simp)
        have shape : UnaryOperator.minus.sql ++ " " ++ text operand =
            "-" ++ (" " ++ text operand) := String.append_assoc ..
        rw [shape]
        exact signed
  | test operand operator =>
    cases shape
    have inner := (h operand List.mem_cons_self).group
    have word : Block (" " ++ operator.sql) [] := by
      cases operator <;> exact .word (by decide)
    refine ⟨"(" ++ text operand ++ ")" ++ (" " ++ operator.sql), ?_, ?_⟩
    · exact String.toList_injective (by simp [map, sql])
    · simpa [operands] using inner.piece.append word.tail
  | binary left operator right =>
    cases shape
    have first := (h left List.mem_cons_self).group
    have second := (h right (by simp [operands])).group
    have word : Block (" " ++ operator.sql ++ " ") [] := by
      cases operator <;> exact .word (by decide)
    refine ⟨"(" ++ text left ++ ")" ++ (" " ++ operator.sql ++ " ") ++ ("(" ++ text right ++ ")"),
      ?_, ?_⟩
    · exact String.toList_injective (by simp [map, sql])
    · simpa [operands] using (first.piece.append word.tail).append second.tail
  | cast operand type =>
    cases shape
    have inner := (h operand List.mem_cons_self).group
    have behind : Block (" AS " ++ type.sql) [] := by
      cases type <;> exact .word (by decide)
    refine ⟨"(" ++ text operand ++ ")" ++ (" AS " ++ type.sql), ?_, ?_⟩
    · exact String.toList_injective (by simp [map, sql])
    · simpa [operands] using inner.piece.append behind.tail
  | call name arguments =>
    cases shape
    refine ⟨separated ", " (arguments.map text), ?_, Piece.separated .comma h⟩
    simp [map, sql, commaSeparated, String.append_assoc]

theorem piece {n : ExprNode E} (names : ∀ name ∈ n.ownNames, IsIdentifier name)
    (h : ∀ e ∈ n.operands, Piece (text e) (texts e)) :
    Piece (n.map text).sql (n.ownTexts ++ n.operands.flatMap texts) := by
  have grouped {word : String} (shape : n.front = some word) (front : Piece word []) :
      Piece (n.map text).sql (n.operands.flatMap texts) := by
    obtain ⟨inner, text, piece⟩ := exists_group shape h
    rw [text]
    exact front.append piece.group.tail
  cases n with
  | column table name =>
    have last : Block name [] := (names name (by simp [ownNames])).block
    cases table with
    | none => exact last.piece
    | some t =>
      have point : Block "." [] := .word (by decide)
      have first : Block t [] := (names t List.mem_cons_self).block
      exact ((first.tail.append point.tail).append last.tail).piece
  | literal v => simpa [map, sql, ownTexts, operands] using v.piece
  | unary | test | binary => exact grouped rfl Tail.empty.piece
  | cast operand type => exact grouped rfl (Block.word (by decide)).piece
  | call name arguments => exact grouped rfl (names name List.mem_cons_self).block.piece
  | window function => exact WindowFunction.piece names h

end ExprNode

namespace Expr

/-- The texts of all literals, in the order in which they are written. -/
def literalTexts : Expr → List String := fold fun node => node.ownTexts ++ node.operands.flatten

theorem literalTexts_node (content : ExprNode Expr) :
    (Expr.node content).literalTexts =
      content.ownTexts ++ content.operands.flatMap literalTexts := by
  unfold literalTexts
  rw [fold_node, ExprNode.ownTexts_map, ExprNode.operands_map, List.flatMap_def]

theorem piece {e : Expr} (h : e.Plain) : Piece e.sql e.literalTexts := by
  induction e using Expr.induction with
  | step n ih =>
    have parts := plain_node.1 h
    rw [sql_node, literalTexts_node]
    exact ExprNode.piece parts.1 fun e he => ih e he (parts.2 e he)

end Expr

end QueryForge
