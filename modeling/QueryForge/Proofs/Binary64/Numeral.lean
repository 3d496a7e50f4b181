import QueryForge.Binary64.Layout
import QueryForge.Json.Reader
import QueryForge.Proofs.Binary64.ReadBack
import QueryForge.Proofs.Determined

/-!
# Numbers as numerals

Every layout writes a number as a numeral: whole digits, perhaps a fraction, perhaps an exponent.
The numeral is found again in front of any text that does not continue it, and its value is the
number. So no two numbers have one text.
-/

namespace QueryForge

theorem Binary64.eq_zero_of_rank {x : Binary64} (h : x.rank = 0) : zero x.negative = x := by
  obtain ⟨negative, rank, finite⟩ := x
  obtain rfl : rank = 0 := h
  rfl

namespace Json.Reader

theorem takeDigits_append {digits rest : List Char} (h : ∀ c ∈ digits, c.isDigit)
    (stop : ∀ c, rest.head? = some c → c.isDigit = false) :
    takeDigits (digits ++ rest) = (digits, rest) := by
  have split := takeWhile_append_of_stop h stop
  unfold takeDigits
  rw [split.1, split.2]

namespace NumberToken

/-- A text does not continue a numeral. -/
def Stops (rest : List Char) : Prop :=
  ∀ c, rest.head? = some c → c.isDigit = false ∧ c ≠ '.' ∧ c ≠ 'e' ∧ c ≠ 'E'

structure WellFormed (t : NumberToken) : Prop where
  whole : ∀ c ∈ t.whole, c.isDigit
  whole_ne_nil : t.whole ≠ []
  leading : ∀ c cs, t.whole = '0' :: c :: cs → False
  fraction : ∀ digits, t.fraction = some digits → digits ≠ [] ∧ ∀ c ∈ digits, c.isDigit
  exponent : ∀ negative digits, t.exponent = some (negative, digits) →
    digits ≠ [] ∧ ∀ c ∈ digits, c.isDigit

def fractionChars : Option (List Char) → List Char
  | none => []
  | some digits => '.' :: digits

/-- A positive exponent is marked as the layout has it. -/
def exponentChars (plus : Bool) : Option (Bool × List Char) → List Char
  | none => []
  | some (true, digits) => 'e' :: '-' :: digits
  | some (false, digits) => 'e' :: (if plus then '+' :: digits else digits)

def signChars (negative : Bool) : List Char := if negative then ['-'] else []

def chars (plus : Bool) (t : NumberToken) : List Char :=
  signChars t.negative ++ (t.whole ++ (fractionChars t.fraction ++ exponentChars plus t.exponent))

theorem exponentSign_digits {digits rest : List Char} (nonempty : digits ≠ [])
    (all : ∀ c ∈ digits, c.isDigit) : exponentSign (digits ++ rest) = (false, digits ++ rest) := by
  obtain ⟨d, ds, rfl⟩ := List.exists_cons_of_ne_nil nonempty
  have digit : d.isDigit := all d List.mem_cons_self
  have minus : d ≠ '-' := fun h => absurd (h ▸ digit) (by decide)
  have plus : d ≠ '+' := fun h => absurd (h ▸ digit) (by decide)
  rw [List.cons_append]
  unfold exponentSign
  split
  · next same => exact absurd (List.cons.inj same).1 minus
  · next same => exact absurd (List.cons.inj same).1 plus
  · rfl

theorem exponentPart_of_sign {cs digits rest : List Char} {negative : Bool}
    (sign : exponentSign cs = (negative, digits ++ rest)) (nonempty : digits ≠ [])
    (all : ∀ c ∈ digits, c.isDigit) (stop : ∀ c, rest.head? = some c → c.isDigit = false) :
    exponentPart ('e' :: cs) = some (some (negative, digits), rest) := by
  obtain ⟨d, ds, rfl⟩ := List.exists_cons_of_ne_nil nonempty
  simp only [exponentPart, sign, takeDigits_append all stop]
  rfl

theorem exponentPart_append (plus : Bool) {exponent : Option (Bool × List Char)} {rest : List Char}
    (h : ∀ negative digits, exponent = some (negative, digits) →
      digits ≠ [] ∧ ∀ c ∈ digits, c.isDigit) (stop : Stops rest) :
    exponentPart (exponentChars plus exponent ++ rest) = some (exponent, rest) := by
  have stopDigit : ∀ c, rest.head? = some c → c.isDigit = false := fun c hc => (stop c hc).1
  cases exponent with
  | none =>
    cases rest with
    | nil => rfl
    | cons c cs =>
      obtain ⟨-, -, lower, upper⟩ := stop c rfl
      simp [exponentChars, exponentPart, lower, upper]
  | some e =>
    obtain ⟨negative, digits⟩ := e
    obtain ⟨nonempty, all⟩ := h negative digits rfl
    cases negative with
    | true => exact exponentPart_of_sign rfl nonempty all stopDigit
    | false =>
      cases plus with
      | true => exact exponentPart_of_sign rfl nonempty all stopDigit
      | false =>
        exact exponentPart_of_sign (exponentSign_digits nonempty all) nonempty all stopDigit

theorem fractionPart_append {fraction : Option (List Char)} {rest : List Char}
    (h : ∀ digits, fraction = some digits → digits ≠ [] ∧ ∀ c ∈ digits, c.isDigit)
    (stop : ∀ c, rest.head? = some c → c.isDigit = false ∧ c ≠ '.') :
    fractionPart (fractionChars fraction ++ rest) = some (fraction, rest) := by
  cases fraction with
  | none =>
    cases rest with
    | nil => rfl
    | cons c cs =>
      rw [fractionChars, List.nil_append]
      unfold fractionPart
      split
      · next same => exact absurd (List.cons.inj same).1 (stop c rfl).2
      · rfl
  | some digits =>
    obtain ⟨nonempty, all⟩ := h digits rfl
    have taken := takeDigits_append all fun c hc => (stop c hc).1
    obtain ⟨d, ds, rfl⟩ := List.exists_cons_of_ne_nil nonempty
    simp only [fractionChars, List.cons_append, fractionPart] at taken ⊢
    rw [taken]

theorem wholePart_append {whole rest : List Char} (all : ∀ c ∈ whole, c.isDigit)
    (nonempty : whole ≠ []) (leading : ∀ c cs, whole = '0' :: c :: cs → False)
    (stop : ∀ c, rest.head? = some c → c.isDigit = false) :
    wholePart (whole ++ rest) = some (whole, rest) := by
  unfold wholePart
  rw [takeDigits_append all stop]
  split
  · next same => exact absurd (Prod.mk.inj same).1 nonempty
  · next same => exact absurd (Prod.mk.inj same).1 (leading _ _)
  · next same => exact congrArg some same.symm

/-- What may follow a whole part: a fraction, an exponent, or a text that ends the numeral. -/
theorem head?_exponentChars (plus : Bool) (exponent : Option (Bool × List Char)) {rest : List Char}
    (stop : Stops rest) :
    ∀ c, (exponentChars plus exponent ++ rest).head? = some c → c.isDigit = false ∧ c ≠ '.' := by
  intro c hc
  match exponent with
  | none => exact ⟨(stop c hc).1, (stop c hc).2.1⟩
  | some (true, digits) =>
    obtain rfl : 'e' = c := Option.some.inj hc
    decide
  | some (false, digits) =>
    obtain rfl : 'e' = c := Option.some.inj hc
    decide

theorem head?_fractionChars (fraction : Option (List Char)) {rest : List Char}
    (stop : ∀ c, rest.head? = some c → c.isDigit = false) :
    ∀ c, (fractionChars fraction ++ rest).head? = some c → c.isDigit = false := by
  intro c hc
  cases fraction with
  | none => exact stop c hc
  | some digits =>
    obtain rfl : '.' = c := Option.some.inj hc
    decide

/-- A numeral is found again in front of whatever does not continue it. -/
theorem numberToken_append {t : NumberToken} (h : t.WellFormed) (plus : Bool) {rest : List Char}
    (stop : Stops rest) : numberToken (t.chars plus ++ rest) = some (t, rest) := by
  obtain ⟨negative, whole, fraction, exponent⟩ := t
  have exponentStop := head?_exponentChars plus exponent stop
  have fractionStop := head?_fractionChars fraction fun c hc => (exponentStop c hc).1
  have readWhole := wholePart_append h.whole h.whole_ne_nil h.leading fractionStop
  have readFraction := fractionPart_append h.fraction exponentStop
  have readExponent := exponentPart_append plus h.exponent stop
  dsimp only at readWhole readFraction readExponent
  cases negative with
  | true =>
    simp only [chars, signChars, if_true, List.append_assoc, List.cons_append, List.nil_append,
      numberToken, readWhole, readFraction, readExponent, Option.bind_eq_bind, Option.bind_some]
  | false =>
    obtain ⟨d, ds, hw⟩ := List.exists_cons_of_ne_nil h.whole_ne_nil
    dsimp only at hw
    have digit : d.isDigit := h.whole d (by simp [hw])
    have minus : d ≠ '-' := fun h => absurd (h ▸ digit) (by decide)
    subst hw
    simp only [chars, signChars, List.append_assoc, List.nil_append, Bool.false_eq_true, if_false]
    unfold numberToken
    split
    next sign =>
      split at sign
      · next same => exact absurd (List.cons.inj same).1 minus
      · cases sign
        simp only [readWhole, readFraction, readExponent, Option.bind_eq_bind, Option.bind_some]

def exponentValue : Option (Bool × List Char) → Int
  | none => 0
  | some (true, digits) => -(Nat.ofDigitChars 10 digits 0 : Int)
  | some (false, digits) => Nat.ofDigitChars 10 digits 0

/-- The digits of a numeral as a whole number, with the exponent that puts the point in place. -/
def decimal (t : NumberToken) : Decimal :=
  ⟨Nat.ofDigitChars 10 (t.whole ++ t.fraction.getD []) 0,
    exponentValue t.exponent - (t.fraction.getD []).length⟩

theorem realValue_of_readsBack {t : NumberToken} {x : Binary64} (sign : t.negative = x.negative)
    (reads : t.decimal.ReadsBack x) : t.realValue = .real x := by
  obtain ⟨negative, whole, fraction, exponent⟩ := t
  obtain rfl : negative = x.negative := sign
  unfold Decimal.ReadsBack decimal at reads
  unfold realValue
  match exponent with
  | none | some (true, digits) | some (false, digits) =>
    simp only [exponentValue] at reads
    simp only [reads]

theorem mem_chars {t : NumberToken} (h : t.WellFormed) {plus : Bool} {c : Char}
    (hc : c ∈ t.chars plus) : c.isDigit ∨ c ∈ ['-', '+', '.', 'e'] := by
  obtain ⟨negative, whole, fraction, exponent⟩ := t
  simp only [chars, List.mem_append] at hc
  rcases hc with sign | inWhole | inFraction | inExponent
  · cases negative with
    | false => cases sign
    | true =>
      obtain rfl := List.mem_singleton.1 sign
      exact .inr (by decide)
  · exact .inl (h.whole c inWhole)
  · cases fraction with
    | none => cases inFraction
    | some digits =>
      rcases List.mem_cons.1 inFraction with rfl | inDigits
      · exact .inr (by decide)
      · exact .inl ((h.fraction digits rfl).2 c inDigits)
  · cases exponent with
    | none => cases inExponent
    | some e =>
      obtain ⟨sign, digits⟩ := e
      have marks : c = 'e' ∨ c = '-' ∨ c = '+' ∨ c ∈ digits := by
        cases sign <;> cases plus <;> grind [exponentChars]
      rcases marks with rfl | rfl | rfl | inDigits
      · exact .inr (by decide)
      · exact .inr (by decide)
      · exact .inr (by decide)
      · exact .inl ((h.exponent sign digits rfl).2 c inDigits)

/-- A numeral begins with its sign or a digit. -/
theorem exists_chars_eq_cons {t : NumberToken} (h : t.WellFormed) (plus : Bool) :
    ∃ c cs, t.chars plus = c :: cs ∧ (c.isDigit ∨ c = '-') := by
  obtain ⟨negative, whole, fraction, exponent⟩ := t
  cases negative with
  | true => exact ⟨'-', _, rfl, .inr rfl⟩
  | false =>
    obtain ⟨d, ds, first⟩ := List.exists_cons_of_ne_nil h.whole_ne_nil
    obtain rfl : whole = d :: ds := first
    exact ⟨d, _, rfl, .inl (h.whole d List.mem_cons_self)⟩

end NumberToken
end Json.Reader

namespace NumberLayout

open Json.Reader

/-- The numeral with the decimal point behind the first `place` digits. -/
def pointedToken (layout : NumberLayout) (negative : Bool) (digits : List Char) (place : Int) :
    NumberToken :=
  if place ≤ 0 then ⟨negative, ['0'], some (zeros (-place) ++ digits), none⟩
  else if place < digits.length then
    ⟨negative, digits.take place.toNat, some (digits.drop place.toNat), none⟩
  else
    ⟨negative, digits ++ zeros (place - digits.length),
      if layout.fractionDigit then some ['0'] else none, none⟩

/-- The numeral with one digit before the point and an exponent. -/
def scientificToken (negative : Bool) (digits : List Char) (place : Int) : NumberToken :=
  ⟨negative, digits.take 1, if digits.drop 1 = [] then none else some (digits.drop 1),
    some (place - 1 < 0, Nat.toDigits 10 (place - 1).natAbs)⟩

def token (layout : NumberLayout) (x : Binary64) : NumberToken :=
  if x.rank = 0 then layout.pointedToken x.negative ['0'] 1
  else
    let d := Decimal.shortest layout.tie x
    let digits := Nat.toDigits 10 d.digits
    let place := digits.length + d.exponent
    if layout.isPositional place then layout.pointedToken x.negative digits place
    else scientificToken x.negative digits place

theorem chars_pointedToken (layout : NumberLayout) (negative plus : Bool) (digits : List Char)
    (place : Int) : (layout.pointedToken negative digits place).chars plus =
      NumberToken.signChars negative ++ layout.pointed digits place := by
  unfold pointedToken pointed
  split
  · simp [NumberToken.chars, NumberToken.fractionChars, NumberToken.exponentChars]
  · split
    · simp [NumberToken.chars, NumberToken.fractionChars, NumberToken.exponentChars]
    · cases layout.fractionDigit <;>
        simp [NumberToken.chars, NumberToken.fractionChars, NumberToken.exponentChars]

theorem chars_scientificToken (layout : NumberLayout) (negative : Bool) (digits : List Char)
    (place : Int) : (scientificToken negative digits place).chars layout.signedExponent =
      NumberToken.signChars negative ++ layout.scientific digits place := by
  unfold scientificToken scientific
  cases hd : digits.drop 1 <;> by_cases low : place - 1 < 0 <;>
    cases layout.signedExponent <;>
    simp [NumberToken.chars, NumberToken.fractionChars, NumberToken.exponentChars, low]

/-- A number is written as its numeral. -/
theorem chars_token (layout : NumberLayout) (x : Binary64) :
    layout.chars x = (layout.token x).chars layout.signedExponent := by
  have sign : layout.chars x = NumberToken.signChars x.negative ++ layout.magnitude x := by
    unfold chars NumberToken.signChars
    cases x.negative <;> rfl
  rw [sign]
  unfold magnitude token
  split
  · rw [chars_pointedToken]
  · dsimp only
    split
    · rw [chars_pointedToken]
    · rw [chars_scientificToken]

theorem isDigit_of_mem_zeros {n : Int} {c : Char} (h : c ∈ zeros n) : c.isDigit := by
  rw [(List.mem_replicate.1 h).2]
  decide

theorem toDigits_ne_zero_cons {n : Nat} (h : n ≠ 0) (cs : List Char) :
    Nat.toDigits 10 n ≠ '0' :: cs := by
  induction n using Nat.strongRecOn generalizing cs with
  | _ n ih =>
    by_cases small : n < 10
    · have digit : ∀ d < 10, d ≠ 0 → Nat.digitChar d ≠ '0' := by decide
      rw [Nat.toDigits_of_lt_base small]
      exact fun same => digit n small h (List.cons.inj same).1
    · intro same
      rw [Nat.toDigits_of_base_le (by decide) (by omega)] at same
      have shorter := ih (n / 10) (by omega) (by omega)
      cases front : Nat.toDigits 10 (n / 10) with
      | nil => exact Nat.toDigits_ne_nil front
      | cons d ds =>
        rw [front, List.cons_append] at same
        exact shorter ds ((List.cons.inj same).1 ▸ front)

theorem fractionDigit_digits {kept : Bool} {fraction : List Char}
    (h : (if kept then some ['0'] else none) = some fraction) :
    fraction ≠ [] ∧ ∀ c ∈ fraction, c.isDigit := by
  cases kept with
  | false => simp at h
  | true =>
    obtain rfl := Option.some.inj h
    exact ⟨List.cons_ne_nil '0' _, List.forall_mem_singleton.2 rfl⟩

theorem wellFormed_pointedToken (layout : NumberLayout) (negative : Bool) {digits : List Char}
    (all : ∀ c ∈ digits, c.isDigit) (nonempty : digits ≠ [])
    (leading : ∀ cs, digits ≠ '0' :: cs) (place : Int) :
    (layout.pointedToken negative digits place).WellFormed := by
  have zero : ∀ c ∈ ['0'], c.isDigit := List.forall_mem_singleton.2 rfl
  obtain ⟨d, ds, rfl⟩ := List.exists_cons_of_ne_nil nonempty
  unfold pointedToken
  by_cases behind : place ≤ 0
  · rw [if_pos behind]
    refine ⟨zero, by simp, by simp, ?_, by simp⟩
    intro fraction hf
    obtain rfl := Option.some.inj hf
    refine ⟨by simp, ?_⟩
    intro c hc
    exact (List.mem_append.1 hc).elim isDigit_of_mem_zeros (all c)
  · rw [if_neg behind]
    obtain ⟨n, hn⟩ : ∃ n, place.toNat = n + 1 := ⟨place.toNat - 1, by omega⟩
    by_cases inside : place < (d :: ds).length
    · have short : n < ds.length := by
        rw [List.length_cons] at inside
        omega
      rw [if_pos inside, hn]
      refine ⟨fun c hc => all c (List.mem_of_mem_take hc), by simp, ?_, ?_, by simp⟩
      · intro c cs same
        exact leading ds ((List.cons.inj same).1 ▸ rfl)
      · intro fraction hf
        obtain rfl := Option.some.inj hf
        refine ⟨?_, fun c hc => all c (List.mem_of_mem_drop hc)⟩
        rw [List.drop_succ_cons]
        exact fun none => by simp at none; omega
    · rw [if_neg inside]
      refine ⟨?_, by simp, ?_, ?_, by simp⟩
      · intro c hc
        exact (List.mem_append.1 hc).elim (all c) isDigit_of_mem_zeros
      · intro c cs same
        exact leading ds ((List.cons.inj same).1 ▸ rfl)
      · exact fun fraction hf => fractionDigit_digits hf

theorem wellFormed_pointedToken_zero (layout : NumberLayout) (negative : Bool) :
    (layout.pointedToken negative ['0'] 1).WellFormed := by
  have zero : ∀ c ∈ ['0'], c.isDigit := List.forall_mem_singleton.2 rfl
  refine ⟨zero, List.cons_ne_nil '0' _, ?_, fun fraction hf => fractionDigit_digits hf, nofun⟩
  intro c cs same
  exact nomatch (List.cons.inj same).2

theorem wellFormed_scientificToken (negative : Bool) {digits : List Char}
    (all : ∀ c ∈ digits, c.isDigit) (nonempty : digits ≠ []) (place : Int) :
    (scientificToken negative digits place).WellFormed := by
  obtain ⟨d, ds, rfl⟩ := List.exists_cons_of_ne_nil nonempty
  refine ⟨fun c hc => all c (List.mem_of_mem_take hc), by simp [scientificToken], ?_, ?_, ?_⟩
  · intro c cs same
    exact nomatch (List.cons.inj same).2
  · intro fraction hf
    change (if ds = [] then none else some ds) = some fraction at hf
    by_cases empty : ds = []
    · simp [empty] at hf
    · rw [if_neg empty] at hf
      obtain rfl := Option.some.inj hf
      exact ⟨empty, fun c hc => all c (List.mem_cons_of_mem d hc)⟩
  · intro low exponent he
    cases he
    exact ⟨Nat.toDigits_ne_nil, fun c hc => Nat.isDigit_of_mem_toDigits (by decide) (by decide) hc⟩

theorem wellFormed_token (layout : NumberLayout) (x : Binary64) : (layout.token x).WellFormed := by
  unfold token
  by_cases zero : x.rank = 0
  · rw [if_pos zero]
    exact wellFormed_pointedToken_zero layout x.negative
  · have nonzero := (Decimal.shortest_readsBack layout.tie x).digits_ne_zero zero
    have all : ∀ c ∈ Nat.toDigits 10 (Decimal.shortest layout.tie x).digits, c.isDigit :=
      fun c hc => Nat.isDigit_of_mem_toDigits (by decide) (by decide) hc
    rw [if_neg zero]
    dsimp only
    split
    · exact wellFormed_pointedToken layout _ all Nat.toDigits_ne_nil
        (toDigits_ne_zero_cons nonzero) _
    · exact wellFormed_scientificToken _ all Nat.toDigits_ne_nil _

theorem ofDigitChars_zeros_append (n : Int) (digits : List Char) :
    Nat.ofDigitChars 10 (zeros n ++ digits) 0 = Nat.ofDigitChars 10 digits 0 := by
  rw [zeros, Nat.ofDigitChars_append, Nat.ofDigitChars_replicate_zero, Nat.mul_zero]

theorem ofDigitChars_append_zeros (digits : List Char) (n : Nat) :
    Nat.ofDigitChars 10 (digits ++ List.replicate n '0') 0 =
      Nat.ofDigitChars 10 digits 0 * 10 ^ n := by
  rw [Nat.ofDigitChars_append, Nat.ofDigitChars_replicate_zero, Nat.mul_comm]

/-- Wherever the point is put, the digits keep their value. -/
theorem decimal_pointedToken (layout : NumberLayout) {x : Binary64} {d : Decimal}
    (reads : d.ReadsBack x) {digits : List Char} (hd : Nat.ofDigitChars 10 digits 0 = d.digits) :
    (layout.pointedToken x.negative digits (digits.length + d.exponent)).decimal.ReadsBack x := by
  obtain ⟨value, exponent⟩ := d
  dsimp only at hd ⊢
  subst hd
  unfold pointedToken
  by_cases behind : (digits.length : Int) + exponent ≤ 0
  · have count : (zeros (-(digits.length + exponent))).length = -(digits.length + exponent) := by
      rw [zeros, List.length_replicate]
      omega
    have point : (0 : Int) - ((zeros (-(digits.length + exponent)) ++ digits).length : Int) =
        exponent := by
      rw [List.length_append]
      omega
    have front : Nat.ofDigitChars 10 (['0'] ++ (zeros (-(digits.length + exponent)) ++ digits)) 0 =
        Nat.ofDigitChars 10 digits 0 := ofDigitChars_zeros_append _ digits
    rw [if_pos behind]
    simpa only [NumberToken.decimal, NumberToken.exponentValue, Option.getD_some, front, point]
      using reads
  · rw [if_neg behind]
    by_cases inside : (digits.length : Int) + exponent < digits.length
    · have point : (0 : Int) - (digits.drop ((digits.length : Int) + exponent).toNat).length =
          exponent := by
        rw [List.length_drop]
        omega
      rw [if_pos inside]
      simpa only [NumberToken.decimal, NumberToken.exponentValue, Option.getD_some,
        List.take_append_drop, point] using reads
    · obtain ⟨k, rfl⟩ : ∃ k : Nat, exponent = k := ⟨exponent.toNat, by omega⟩
      have trailing : zeros ((digits.length : Int) + k - digits.length) = List.replicate k '0' := by
        rw [zeros, show ((digits.length : Int) + k - digits.length).toNat = k by omega]
      rw [if_neg inside, trailing]
      cases layout.fractionDigit with
      | false =>
        have scaled := reads.withZeros 0
        simpa [NumberToken.decimal, NumberToken.exponentValue, ofDigitChars_append_zeros]
          using scaled
      | true =>
        have scaled := reads.withZeros 1
        have digit : digits ++ List.replicate k '0' ++ ['0'] =
            digits ++ List.replicate (k + 1) '0' := by
          rw [List.append_assoc, List.replicate_succ']
        have point : (0 : Int) - (['0'].length : Int) = -((1 : Nat) : Int) := by decide
        simpa only [NumberToken.decimal, NumberToken.exponentValue, if_true, Option.getD_some,
          digit, ofDigitChars_append_zeros, point] using scaled

theorem decimal_scientificToken {x : Binary64} {d : Decimal} (reads : d.ReadsBack x)
    {digits : List Char} (nonempty : digits ≠ [])
    (hd : Nat.ofDigitChars 10 digits 0 = d.digits) :
    (scientificToken x.negative digits (digits.length + d.exponent)).decimal.ReadsBack x := by
  obtain ⟨value, exponent⟩ := d
  dsimp only at hd ⊢
  subst hd
  obtain ⟨c, cs, rfl⟩ := List.exists_cons_of_ne_nil nonempty
  have power : NumberToken.exponentValue
      (some (decide (((c :: cs).length : Int) + exponent - 1 < 0),
        Nat.toDigits 10 (((c :: cs).length : Int) + exponent - 1).natAbs)) =
      cs.length + exponent := by
    rw [List.length_cons]
    by_cases low : ((cs.length + 1 : Nat) : Int) + exponent - 1 < 0
    · simp only [low, decide_true, NumberToken.exponentValue, Nat.ofDigitChars_ten_toDigits]
      omega
    · simp only [low, decide_false, NumberToken.exponentValue, Nat.ofDigitChars_ten_toDigits]
      omega
  have fraction : (if cs = [] then none else some cs).getD [] = cs := by
    by_cases empty : cs = []
    · rw [if_pos empty, empty]
      rfl
    · rw [if_neg empty]
      rfl
  have point : (cs.length : Int) + exponent - cs.length = exponent := by omega
  unfold scientificToken NumberToken.decimal
  dsimp only
  rw [power]
  simpa only [List.drop_succ_cons, List.drop_zero, List.take_succ_cons, List.take_zero, fraction,
    List.cons_append, List.nil_append, point] using reads

theorem decimal_pointedToken_zero (layout : NumberLayout) {x : Binary64} (h : x.rank = 0) :
    (layout.pointedToken x.negative ['0'] 1).decimal.ReadsBack x := by
  have zero : (layout.pointedToken x.negative ['0'] 1).decimal.digits = 0 := by
    change Nat.ofDigitChars 10
      (['0'] ++ ((if layout.fractionDigit then some ['0'] else none).getD [])) 0 = 0
    cases layout.fractionDigit <;> rfl
  unfold Decimal.ReadsBack Binary64.ofDecimal?
  dsimp only
  rw [if_pos (.inl zero), Binary64.eq_zero_of_rank h]

theorem negative_pointedToken (layout : NumberLayout) (negative : Bool) (digits : List Char)
    (place : Int) : (layout.pointedToken negative digits place).negative = negative := by
  unfold pointedToken
  split
  · rfl
  · split <;> rfl

/-- The numeral of a number denotes the number. -/
theorem realValue_token (layout : NumberLayout) (x : Binary64) :
    (layout.token x).realValue = .real x := by
  unfold token
  by_cases zero : x.rank = 0
  · rw [if_pos zero]
    exact NumberToken.realValue_of_readsBack (negative_pointedToken ..)
      (decimal_pointedToken_zero layout zero)
  · have reads := Decimal.shortest_readsBack layout.tie x
    rw [if_neg zero]
    dsimp only
    split
    · exact NumberToken.realValue_of_readsBack (negative_pointedToken ..)
        (decimal_pointedToken layout reads Nat.ofDigitChars_ten_toDigits)
    · exact NumberToken.realValue_of_readsBack rfl
        (decimal_scientificToken reads Nat.toDigits_ne_nil Nat.ofDigitChars_ten_toDigits)

/-- A numeral that keeps its fraction digit is told apart from a whole number. -/
theorem mem_chars_of_fractionDigit {layout : NumberLayout} (h : layout.fractionDigit = true)
    (x : Binary64) : '.' ∈ layout.chars x ∨ 'e' ∈ layout.chars x := by
  have pointed (negative : Bool) (digits : List Char) (place : Int) :
      '.' ∈ (layout.pointedToken negative digits place).chars layout.signedExponent := by
    rw [chars_pointedToken]
    unfold NumberLayout.pointed
    rw [h]
    split
    · simp
    · split <;> simp
  have scientific (negative : Bool) (digits : List Char) (place : Int) :
      'e' ∈ (scientificToken negative digits place).chars layout.signedExponent := by
    rw [chars_scientificToken]
    unfold NumberLayout.scientific
    simp
  rw [chars_token]
  unfold token
  split
  · exact .inl (pointed ..)
  · dsimp only
    split
    · exact .inl (pointed ..)
    · exact .inr (scientific ..)
/-- No two numbers have one text, in any layout. -/
theorem chars_injective (layout : NumberLayout) {x y : Binary64}
    (h : layout.chars x = layout.chars y) : x = y := by
  have stop : NumberToken.Stops [] := by simp [NumberToken.Stops]
  have read (z : Binary64) : numberToken (layout.chars z) = some (layout.token z, []) := by
    have found :=
      NumberToken.numberToken_append (wellFormed_token layout z) layout.signedExponent stop
    rwa [List.append_nil, ← chars_token] at found
  have tokens : layout.token x = layout.token y := by
    have same := (read x).symm.trans ((congrArg numberToken h).trans (read y))
    exact (Prod.mk.inj (Option.some.inj same)).1
  have values : Json.real x = .real y := by
    rw [← realValue_token layout x, ← realValue_token layout y, tokens]
  exact Json.real.inj values

end NumberLayout
end QueryForge
