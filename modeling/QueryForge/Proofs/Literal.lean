import QueryForge.Literal.Random
import QueryForge.Proofs.Draw.Choice

/-!
# Drawing literals

Every literal is drawn with well-formed requests. It is NULL or has the form of its type, with all
numbers in it in the ranges that they are drawn from.
-/

namespace QueryForge

open Draw

variable {nan : Prop}

theorem ColumnType.random_ensures : ColumnType.random.Ensures nan fun _ => True :=
  (pick_ensures _).mono fun _ _ => trivial

namespace Literal

/-- What a drawn literal of a type can be. -/
inductive Drawn : ColumnType → Literal → Prop
  | null {type : ColumnType} : Drawn type .null
  | integer {i : Int} (range : -1000 ≤ i ∧ i ≤ 1000) : Drawn .int (.integer (.ofInt i))
  | boolean {value : Bool} : Drawn .boolean (.boolean value)
  | text {s : String} (short : s.length ≤ 7) (letters : ∀ c ∈ s.toList, c.isLower) :
      Drawn .text (.text s)
  | number {type : ColumnType} {u : Binary64}
      (fractional : type = .decimal ∨ type = .float ∨ type = .real) (unit : u.IsFraction) :
      Drawn type (.number (.finite ((u * .ofNat 2000 - .ofNat 1000).roundHalfAway / .ofNat 100)))
  | range {lower upper : Int} (start : -100 ≤ lower ∧ lower ≤ 99)
      (length : lower ≤ upper ∧ upper ≤ lower + 99) :
      Drawn .range
        (.typed ("[" ++ Sql.integer lower ++ "," ++ Sql.integer upper ++ ")") .range)
  | amount {whole cents : Int} (wholes : 0 ≤ whole ∧ whole ≤ 9999)
      (hundredths : 0 ≤ cents ∧ cents ≤ 99) :
      Drawn .money (.typed (Sql.integer whole ++ "." ++ twoDigits cents.toNat) .money)
  | bits {s : String} (nonempty : 1 ≤ s.length) (short : s.length ≤ 8)
      (bits : ∀ c ∈ s.toList, c = '0' ∨ c = '1') : Drawn .bit (.typed s .bit)
  | address {bytes : List Nat} (four : bytes.length = 4) (small : ∀ n ∈ bytes, n < 256) :
      Drawn .inet (.typed (Sql.separated "." (bytes.map Nat.repr)) .inet)

theorem randomLetter_ensures : randomLetter.Ensures nan fun c => c.isLower := by
  have letters : ∀ i < 26, (Char.ofNat (97 + i)).isLower := by decide
  refine (within_ensures (by decide)).bind fun code hc => .pure ?_
  have letter := letters (code.toNat - 97) (by omega)
  rwa [Nat.add_sub_cancel' (by omega)] at letter

theorem randomBit_ensures : randomBit.Ensures nan fun c => c = '0' ∨ c = '1' := by
  refine (chance_ensures even_isChance).bind fun one _ => ?_
  cases one with
  | true => exact .pure (.inr rfl)
  | false => exact .pure (.inl rfl)

theorem randomByte_ensures : randomByte.Ensures nan fun n => n < 256 :=
  word32_ensures.bind fun _ _ => .pure (Nat.mod_lt _ (by decide))

theorem randomString_ensures {character : Draw Char} {P : Char → Prop}
    (h : character.Ensures nan P) (length : Nat) :
    (randomString character length).Ensures nan fun s =>
      s.length = length ∧ ∀ c ∈ s.toList, P c := by
  refine (each_ensures fun _ _ => h).bind fun characters hc => .pure ?_
  constructor
  · rw [String.length_ofList, ← hc.length_eq, List.length_range]
  · rw [String.toList_ofList]
    intro c mem
    obtain ⟨-, -, drawn⟩ := exists_of_forall₂ hc c mem
    exact drawn

theorem randomRange_ensures :
    randomRange.Ensures nan fun literal => Drawn .range (.typed literal .range) := by
  refine (within_ensures (by decide)).bind fun lower hl => ?_
  refine (within_ensures (by decide)).bind fun length hn => ?_
  have sum : NumberType.signed32.Holds (lower + length) := by
    unfold NumberType.Holds
    omega
  exact (fits_ensures sum).bind fun _ _ => .pure (.range hl (by omega))

theorem randomAmount_ensures :
    randomAmount.Ensures nan fun literal => Drawn .money (.typed literal .money) := by
  refine (within_ensures (by decide)).bind fun whole hw => ?_
  exact (within_ensures (by decide)).bind fun cents hc => .pure (.amount hw hc)

theorem randomAddress_ensures :
    randomAddress.Ensures nan fun literal => Drawn .inet (.typed literal .inet) := by
  refine (each_ensures fun _ _ => randomByte_ensures).bind fun bytes hb => .pure ?_
  refine .address hb.length_eq.symm ?_
  intro n mem
  obtain ⟨-, -, small⟩ := exists_of_forall₂ hb n mem
  exact small

theorem randomNumber_ensures {type : ColumnType}
    (fractional : type = .decimal ∨ type = .float ∨ type = .real) :
    randomNumber.Ensures nan fun x => Drawn type (.number x) :=
  unit_ensures.bind fun _ hu => .pure (.number fractional hu)

theorem randomOf_ensures (type : ColumnType) : (randomOf type).Ensures nan (Drawn type) := by
  cases type with
  | int => exact (withinWide_ensures (by decide)).bind fun i hi => .pure (.integer hi)
  | boolean => exact (chance_ensures even_isChance).bind fun _ _ => .pure .boolean
  | text =>
    refine (within_ensures (by decide)).bind fun length hl => ?_
    refine (randomString_ensures randomLetter_ensures _).bind fun s ⟨hs, letters⟩ => .pure ?_
    exact .text (by omega) letters
  | decimal => exact (randomNumber_ensures (.inl rfl)).bind fun _ h => .pure h
  | float => exact (randomNumber_ensures (.inr (.inl rfl))).bind fun _ h => .pure h
  | real => exact (randomNumber_ensures (.inr (.inr rfl))).bind fun _ h => .pure h
  | range => exact randomRange_ensures.bind fun _ h => .pure h
  | money => exact randomAmount_ensures.bind fun _ h => .pure h
  | bit =>
    refine (within_ensures (by decide)).bind fun length hl => ?_
    refine (randomString_ensures randomBit_ensures _).bind fun s ⟨hs, bits⟩ => .pure ?_
    exact .bits (by omega) (by omega) bits
  | inet => exact randomAddress_ensures.bind fun _ h => .pure h

theorem random_ensures (type : ColumnType) : (random type).Ensures nan (Drawn type) := by
  refine (chance_ensures (.inl (by decide +kernel))).bind fun null _ => ?_
  cases null with
  | true => exact .pure .null
  | false => exact randomOf_ensures type

end Literal
end QueryForge
