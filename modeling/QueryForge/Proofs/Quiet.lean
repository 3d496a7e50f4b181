import QueryForge.Proofs.Pieces
import QueryForge.Proofs.Skeleton
import QueryForge.Proofs.Unambiguous

/-!
# Expressions are quiet

Operands stand between parentheses, and the words around them are no clause keywords. So no
keyword is read of a plain expression, whatever its operands and windows contain.
-/

namespace QueryForge

open Sql

namespace Sql

theorem isUpper_eq_false_of {p : Char → Prop} (capitals : ∀ n < 91, 65 ≤ n → ¬p (Char.ofNat n))
    {c : Char} (h : p c) : c.isUpper = false := by
  by_contra capital
  have upper : c.val ≥ 'A'.val ∧ c.val ≤ 'Z'.val :=
    of_decide_eq_true (eq_true_of_ne_false capital)
  have range : 65 ≤ c.toNat ∧ c.toNat ≤ 90 := by
    simpa [UInt32.le_iff_toNat_le] using upper
  apply capitals c.toNat (Nat.lt_succ_of_le range.2) range.1
  rwa [Char.ofNat_toNat]

theorem IsIdentifier.quiet {name : String} (h : IsIdentifier name) : Quiet name :=
  h.block.piece.quiet fun c hc =>
    isUpper_eq_false_of (p := fun c => isNameChar c) (by decide) (h.2.1 c hc)

theorem Quiet.repr (n : Nat) : Quiet n.repr :=
  (Block.repr n).piece.quiet fun _ hc =>
    isUpper_eq_false_of (p := fun c => c.isDigit) (by decide) (isDigit_of_mem_repr hc)

end Sql

namespace Literal

theorem quiet_of_isNumeral {v : Literal} (h : v.isNumeral) : Quiet v.sql :=
  v.piece.quiet fun _ hc =>
    isUpper_eq_false_of (p := IsNumeralChar) (by decide) (isNumeralChar_of_mem h hc)

theorem quiet (v : Literal) : Quiet v.sql := by
  cases v with
  | null => exact .word (by decide)
  | boolean value => cases value <;> exact .word (by decide)
  | integer value => exact quiet_of_isNumeral rfl
  | number value =>
    cases value with
    | finite x => exact quiet_of_isNumeral rfl
    | infinite negative =>
      have lower : (number (.infinite negative)).sql.toList.all (!·.isUpper) = true := by
        cases negative <;> decide
      exact (piece _).quiet fun c hc => by simpa using List.all_eq_true.1 lower c hc
    | nan => exact .word (by decide)
  | text value => exact .quoted value
  | typed literal type =>
    have cast : QuietTail ("::" ++ type.sql) := by
      cases type <;> exact .word (by decide)
    rw [sql, String.append_assoc]
    exact (Quiet.quoted literal).append cast

end Literal

section Operands

variable {E : Type} {text : E → String} {texts : E → List String}

theorem WindowReference.quiet {w : WindowReference E} (names : ∀ n ∈ w.names, IsIdentifier n)
    (h : ∀ e ∈ w.operands, Piece (text e) (texts e)) : Quiet (w.map text).sql := by
  cases w with
  | named name => exact (names name List.mem_cons_self).quiet
  | inline d => exact (WindowDefinition.piece h).quietGroup.tail.quiet

theorem WindowFunction.quiet {w : WindowFunction E} (names : ∀ n ∈ w.window.names, IsIdentifier n)
    (h : ∀ e ∈ w.operands, Piece (text e) (texts e)) : Quiet (w.map text).sql := by
  have kind : Quiet w.kind.sql := by
    cases w.kind <;> exact .word (by decide)
  have before : QuietBlock " OVER " := .word (by decide)
  rw [WindowFunction.operands, List.forall_mem_append] at h
  have arguments := (Piece.separated .comma h.1).quietGroup
  rw [sql_map]
  exact (kind.append arguments.tail).append (before.append (WindowReference.quiet names h.2))

theorem ExprNode.quiet {n : ExprNode E} (names : ∀ name ∈ n.ownNames, IsIdentifier name)
    (h : ∀ e ∈ n.operands, Piece (text e) (texts e)) : Quiet (n.map text).sql := by
  have grouped {word : String} (shape : n.front = some word) (front : Quiet word) :
      Quiet (n.map text).sql := by
    obtain ⟨inner, text, piece⟩ := exists_group shape h
    rw [text]
    exact front.append piece.quietGroup.tail
  cases n with
  | column table name =>
    have last : Quiet name := (names name (by simp [ownNames])).quiet
    cases table with
    | none => exact last
    | some t =>
      have point : QuietBlock "." := .word (by decide)
      have first : Quiet t := (names t List.mem_cons_self).quiet
      rw [map, sql, String.append_assoc]
      exact first.append (point.append last)
  | literal v => exact v.quiet
  | unary | test | binary => exact grouped rfl QuietTail.empty.quiet
  | cast operand type => exact grouped rfl (.word (by decide))
  | call name arguments => exact grouped rfl (names name List.mem_cons_self).quiet
  | window function => exact WindowFunction.quiet names h

end Operands

/-- There is no induction: the operands are out of sight. -/
theorem Expr.quiet {e : Expr} (h : e.Plain) : Quiet e.sql := by
  obtain ⟨n⟩ := e
  have parts := plain_node.1 h
  rw [sql_node]
  exact ExprNode.quiet parts.1 fun e he => Expr.piece (parts.2 e he)

theorem OrderTerm.quiet {t : OrderTerm Expr} (h : t.expr.Plain) : Quiet t.text := by
  have order : QuietTail (Sql.optional t.order fun o => " " ++ o.sql) := by
    apply QuietTail.optional
    intro o _
    cases o <;> exact .word (by decide)
  have nulls : QuietTail (Sql.optional t.nulls fun n => " " ++ n.sql) := by
    apply QuietTail.optional
    intro n _
    cases n <;> exact .word (by decide)
  exact ((Expr.quiet h).append order).append nulls

end QueryForge
