import QueryForge.Json.Form
import QueryForge.Json.Writer
import QueryForge.Proofs.Binary64.Fewest
import QueryForge.Proofs.Binary64.Numeral

/-!
# Numerals of documents

The numerals of documents are read without any error but the last rounding, and a number is written
in the fewest digits. A reader that rounds otherwise makes other round trips, so this is stated
wherever a result rests on it.
-/

namespace QueryForge

namespace Json

theorem Reader.NumberToken.realValue_eq (t : NumberToken) :
    t.realValue = (Binary64.ofDecimal? t.negative t.decimal.digits t.decimal.exponent).elim
      .unusable .real := by
  obtain ⟨negative, whole, fraction, exponent⟩ := t
  unfold realValue decimal
  match exponent with
  | none | some (true, digits) | some (false, digits) =>
    dsimp only [exponentValue]
    split <;> simp only [*, Option.elim]

/-- What is assumed of the numbers in documents: a numeral denotes the number nearest to it, and
none if that is beyond the finite ones; a whole number is taken to the nearest one as well; and a
number is written as a numeral that denotes it, made from the fewest digits that do. -/
structure FaithfulNumerals : Prop where
  nearest : ∀ t : Reader.NumberToken, ∃ found, t.decimal.RoundsTo t.negative found ∧
    t.realValue = found.elim .unusable .real
  whole : ∀ r i, ∃ rank, Binary64.IsNearest rank i.natAbs 1 ∧
    Decoder.real r (.integer i) = Binary64.ofRank? (i < 0) rank
  readBack : ∀ x, ∃ t, Reader.numberToken (real x).chars = some (t, []) ∧ t.realValue = .real x
  fewest : ∀ (x : Binary64) (d : Decimal), x.rank ≠ 0 → d.ReadsBack x →
    (Nat.toDigits 10 (Decimal.shortest numberLayout.tie x).digits).length ≤
      (Nat.toDigits 10 d.digits).length

theorem faithfulNumerals : FaithfulNumerals where
  nearest t := ⟨_, t.decimal.roundsTo_ofDecimal? t.negative, t.realValue_eq⟩
  whole _ i := ⟨_, Binary64.isNearest_nearestRank i.natAbs Nat.one_pos, rfl⟩
  readBack x := by
    let t := numberLayout.token x
    have read : Reader.numberToken (t.chars numberLayout.signedExponent ++ []) = some (t, []) :=
      Reader.NumberToken.numberToken_append (NumberLayout.wellFormed_token numberLayout x) _ nofun
    rw [List.append_nil, ← NumberLayout.chars_token] at read
    exact ⟨t, read, NumberLayout.realValue_token numberLayout x⟩
  fewest _ _ nonzero reads := Decimal.length_shortest_le numberLayout.tie nonzero reads

end Json

end QueryForge
