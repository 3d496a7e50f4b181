import Mathlib
import QueryForge.Proofs.Binary64.Nearest
import QueryForge.Proofs.Binary64.WholeBounds
import QueryForge.Proofs.Determined
import QueryForge.Proofs.Draw.Answers
import QueryForge.Proofs.Literal
import QueryForge.Proofs.Splitting

/-!
# Random literals are accepted

What is drawn for a type is read the way the database reads literals of the type: the text is split
at its separators and the parts are taken for numbers. No text needs an escape, so the literal is
rendered as it is.
-/

namespace QueryForge

variable {nan : Prop}

namespace Sql

theorem integer_eq_repr (i : Int) : integer i = i.repr := by
  cases i with
  | ofNat n => exact if_neg (Int.not_lt.2 (Int.natCast_nonneg n))
  | negSucc n => exact if_pos (Int.negSucc_lt_zero n)

theorem doubleQuotes_of_notMem {cs : List Char} (h : '\'' ∉ cs) : doubleQuotes cs = cs := by
  induction cs with
  | nil => rfl
  | cons c rest ih =>
    rw [List.mem_cons, not_or] at h
    rw [doubleQuotes_cons (Ne.symm h.1), ih h.2]

theorem quoted_of_notMem {s : String} (h : '\'' ∉ s.toList) : quoted s = "'" ++ s ++ "'" := by
  rw [quoted, doubleQuotes_of_notMem h, String.ofList_toList]

end Sql

namespace Literal

open Draw

/-- What a type takes for a value. A range has a first number not above its last one, an amount of
money one to four digits and two more behind a point, an address four numbers of a byte. -/
inductive IsValueOf : ColumnType → Literal → Prop
  | null {type : ColumnType} : IsValueOf type .null
  | integer {value : Int64} (range : -1000 ≤ value.toInt ∧ value.toInt ≤ 1000) :
      IsValueOf .int (.integer value)
  | boolean (value : Bool) : IsValueOf .boolean (.boolean value)
  | text {s : String} (short : s.length ≤ 7) (letters : ∀ c ∈ s.toList, 'a' ≤ c ∧ c ≤ 'z') :
      IsValueOf .text (.text s)
  | number {type : ColumnType} {x : Binary64}
      (fractional : type = .decimal ∨ type = .float ∨ type = .real)
      (finite : x.units ≤ 10 * Binary64.unitsPerOne) : IsValueOf type (.number (.finite x))
  | range {s inside lower upper : String} {first last : Int} (brackets : s = "[" ++ inside ++ ")")
      (bounds : Sql.pieces "," inside = [lower, upper]) (from_ : lower.toInt? = some first)
      (to_ : upper.toInt? = some last) (order : first ≤ last) : IsValueOf .range (.typed s .range)
  | amount {s whole cents : String} (point : Sql.pieces "." s = [whole, cents])
      (wholeDigits : ∀ c ∈ whole.toList, c.isDigit) (nonempty : 1 ≤ whole.length)
      (short : whole.length ≤ 4) (centDigits : ∀ c ∈ cents.toList, c.isDigit)
      (two : cents.length = 2) : IsValueOf .money (.typed s .money)
  | bits {s : String} (nonempty : 1 ≤ s.length) (short : s.length ≤ 8)
      (bits : ∀ c ∈ s.toList, c = '0' ∨ c = '1') : IsValueOf .bit (.typed s .bit)
  | address {s : String} (four : (Sql.pieces "." s).length = 4)
      (bytes : ∀ part ∈ Sql.pieces "." s,
        (∀ c ∈ part.toList, c.isDigit) ∧ ∃ n ≤ 255, part.toNat? = some n) :
      IsValueOf .inet (.typed s .inet)

/-- A value of the type, which is written without any escape if it is quoted. -/
structure AcceptedBy (type : ColumnType) (v : Literal) : Prop where
  value : IsValueOf type v
  plain : ∀ s own, v = .typed s own →
    own = type ∧ '\'' ∉ s.toList ∧ v.sql = "'" ++ s ++ "'::" ++ type.sql

section Texts

theorem pieces_range (lower upper : Int) :
    Sql.pieces "," (Sql.integer lower ++ "," ++ Sql.integer upper) =
      [Sql.integer lower, Sql.integer upper] := by
  have free (i : Int) : ',' ∉ (Sql.integer i).toList := by
    intro mem
    exact absurd (Sql.mem_integer mem) (by decide)
  have whole : Sql.integer lower ++ "," ++ Sql.integer upper =
      Sql.separated "," [Sql.integer lower, Sql.integer upper] := rfl
  rw [whole]
  refine Sql.pieces_separated (d := ',') (by decide) (List.cons_ne_nil _ _) ?_
  intro part hp
  rcases List.mem_cons.1 hp with rfl | hp
  · exact free lower
  · rw [List.mem_singleton.1 hp]
    exact free upper

theorem digits_twoDigits {n : Nat} (h : n < 100) :
    (twoDigits n).length = 2 ∧ ∀ c ∈ (twoDigits n).toList, c.isDigit := by
  have length : n.repr.length = (Nat.toDigits 10 n).length := by
    rw [← Nat.toList_repr, String.length_toList]
  have nonempty : 0 < (Nat.toDigits 10 n).length := List.length_pos_iff.2 Nat.toDigits_ne_nil
  unfold twoDigits
  by_cases small : n < 10
  · have one := Decimal.length_toDigits_le (k := 1) (by decide) small
    rw [if_pos small]
    refine ⟨?_, ?_⟩
    · rw [String.length_append, length]
      change 1 + _ = 2
      omega
    · intro c hc
      rw [String.toList_append, List.mem_append] at hc
      rcases hc with zero | digit
      · rw [List.mem_singleton.1 zero]
        rfl
      · exact Sql.isDigit_of_mem_repr digit
  · have more := Decimal.lt_length_toDigits (k := 1) (by decide) (Nat.not_lt.1 small)
    have two := Decimal.length_toDigits_le (k := 2) (by decide) h
    rw [if_neg small]
    refine ⟨?_, fun c hc => Sql.isDigit_of_mem_repr hc⟩
    rw [length]
    omega

theorem isDigit_of_mem_integer {i : Int} (h : 0 ≤ i) {c : Char}
    (hc : c ∈ (Sql.integer i).toList) : c.isDigit := by
  unfold Sql.integer at hc
  rw [if_neg (Int.not_lt.2 h)] at hc
  exact Sql.isDigit_of_mem_repr hc

theorem length_integer {i : Int} {k : Nat} (h : 0 ≤ i) (hk : 0 < k) (below : i < Nat.pow 10 k) :
    1 ≤ (Sql.integer i).length ∧ (Sql.integer i).length ≤ k := by
  have digits : (Sql.integer i).toList = Nat.toDigits 10 i.natAbs := by
    unfold Sql.integer
    rw [if_neg (Int.not_lt.2 h), Nat.toList_repr]
  rw [← String.length_toList, digits]
  exact ⟨List.length_pos_iff.2 Nat.toDigits_ne_nil, Decimal.length_toDigits_le hk (by omega)⟩

theorem pieces_amount {whole cents : Int} (hw : 0 ≤ whole) (hc : 0 ≤ cents ∧ cents ≤ 99) :
    Sql.pieces "." (Sql.integer whole ++ "." ++ twoDigits cents.toNat) =
      [Sql.integer whole, twoDigits cents.toNat] := by
  obtain ⟨-, digits⟩ := digits_twoDigits (n := cents.toNat) (by omega)
  have text : Sql.integer whole ++ "." ++ twoDigits cents.toNat =
      Sql.separated "." [Sql.integer whole, twoDigits cents.toNat] := rfl
  rw [text]
  refine Sql.pieces_separated (d := '.') (by decide) (List.cons_ne_nil _ _) ?_
  intro part hp mem
  rcases List.mem_cons.1 hp with rfl | hp
  · exact absurd (isDigit_of_mem_integer hw mem) (by decide)
  · rw [List.mem_singleton.1 hp] at mem
    exact absurd (digits _ mem) (by decide)

theorem pieces_address {bytes : List Nat} (four : bytes.length = 4) :
    Sql.pieces "." (Sql.separated "." (bytes.map Nat.repr)) = bytes.map Nat.repr := by
  have nonempty : bytes.map Nat.repr ≠ [] := by
    intro none
    rw [List.map_eq_nil_iff.1 none] at four
    cases four
  refine Sql.pieces_separated (d := '.') (by decide) nonempty ?_
  intro part hp mem
  obtain ⟨n, -, rfl⟩ := List.mem_map.1 hp
  exact absurd (Sql.isDigit_of_mem_repr mem) (by decide)

end Texts

namespace Drawn

variable {type : ColumnType} {v : Literal}

/-- Case by case: the texts are split into the numbers that they were put together from. -/
theorem isValueOf (h : Drawn type v)
    (finite : ∀ x, v = .number (.finite x) → x.units ≤ 10 * Binary64.unitsPerOne) :
    IsValueOf type v := by
  cases h with
  | null => exact .null
  | @integer i range =>
    have value : (Int64.ofInt i).toInt = i :=
      Int64.toInt_ofInt_of_le (by omega) (by omega)
    exact .integer (value.symm ▸ range)
  | boolean => exact .boolean _
  | text short letters =>
    refine .text short fun c hc => ?_
    have lower := letters c hc
    rw [Char.isLower, Bool.and_eq_true, decide_eq_true_eq, decide_eq_true_eq] at lower
    exact lower
  | number fractional unit => exact .number fractional (finite _ rfl)
  | @range lower upper start length =>
    have first : (Sql.integer lower).toInt? = some lower := by
      rw [Sql.integer_eq_repr, Int.toInt?_repr]
    have last : (Sql.integer upper).toInt? = some upper := by
      rw [Sql.integer_eq_repr, Int.toInt?_repr]
    refine .range ?_ (pieces_range lower upper) first last length.1
    simp only [String.append_assoc]
  | @amount whole cents wholes hundredths =>
    have below : whole < Nat.pow 10 4 := Int.lt_add_one_of_le wholes.2
    obtain ⟨nonempty, short⟩ := length_integer wholes.1 (by decide) below
    obtain ⟨two, centDigits⟩ := digits_twoDigits (n := cents.toNat) (by omega)
    exact .amount (pieces_amount wholes.1 hundredths)
      (fun c hc => isDigit_of_mem_integer wholes.1 hc) nonempty short centDigits two
  | bits nonempty short bits => exact .bits nonempty short bits
  | @address bytes four small =>
    have parts := pieces_address four
    refine .address ?_ ?_
    · rw [parts, List.length_map, four]
    · rw [parts]
      intro part hp
      obtain ⟨n, hn, rfl⟩ := List.mem_map.1 hp
      have byte := small n hn
      exact ⟨fun c hc => Sql.isDigit_of_mem_repr hc, n, by omega, Nat.toNat?_repr n⟩

/-- The texts are made of digits, points, brackets, commas and signs. -/
theorem quote_notMem {s : String} {own : ColumnType} (h : Drawn type (.typed s own)) :
    own = type ∧ '\'' ∉ s.toList := by
  have free (i : Int) : '\'' ∉ (Sql.integer i).toList := by
    intro mem
    exact absurd (Sql.mem_integer mem) (by decide)
  cases h with
  | range start length =>
    refine ⟨rfl, ?_⟩
    simp [free]
  | @amount whole cents wholes hundredths =>
    obtain ⟨-, digits⟩ := digits_twoDigits (n := cents.toNat) (by omega)
    have centsFree : '\'' ∉ (twoDigits cents.toNat).toList := by
      intro mem
      exact absurd (digits _ mem) (by decide)
    refine ⟨rfl, ?_⟩
    simp [free, centsFree]
  | bits nonempty short bits =>
    refine ⟨rfl, fun mem => ?_⟩
    exact absurd (bits _ mem) (by decide)
  | @address bytes four small =>
    refine ⟨rfl, Sql.notMem_separated (by decide) ?_⟩
    intro part hp mem
    obtain ⟨n, -, rfl⟩ := List.mem_map.1 hp
    exact absurd (Sql.isDigit_of_mem_repr mem) (by decide)

theorem fractional_of_number {x : Binary64} (h : Drawn type v) (same : v = .number (.finite x)) :
    type = .decimal ∨ type = .float ∨ type = .real := by
  cases h with
  | number fractional unit => exact fractional
  | null | integer | boolean | text | range | amount | bits | address => cases same

theorem acceptedBy (h : Drawn type v)
    (finite : ∀ x, v = .number (.finite x) → x.units ≤ 10 * Binary64.unitsPerOne) :
    AcceptedBy type v := by
  refine ⟨h.isValueOf finite, ?_⟩
  rintro s own rfl
  obtain ⟨rfl, free⟩ := h.quote_notMem
  have closing : "'::" = "'" ++ "::" := rfl
  refine ⟨rfl, free, ?_⟩
  rw [sql, Sql.quoted_of_notMem free, closing]
  simp only [String.append_assoc]

end Drawn

/-- The greatest number drawn is far below the greatest finite one, so no step has overflowed. -/
theorem randomNumber_bounded :
    randomNumber.Ensures nan fun x => x.units ≤ 10 * Binary64.unitsPerOne := by
  have positive : unit.Ensures nan fun u => u.negative = false :=
    word64_ensures.bind fun _ _ => .pure rfl
  exact (unit_ensures.and positive).bind fun u ⟨fraction, sign⟩ =>
    .pure (Binary64.units_hundredths_le fraction sign)

theorem randomOf_bounded (type : ColumnType) :
    (randomOf type).Ensures nan fun v =>
      ∀ x, v = .number (.finite x) → x.units ≤ 10 * Binary64.unitsPerOne := by
  cases type with
  | decimal | float | real =>
    refine randomNumber_bounded.bind fun x hx => .pure ?_
    rintro _ ⟨⟩
    exact hx
  | int | boolean | text | range | money | bit | inet =>
    refine (randomOf_ensures _).mono ?_
    intro v drawn x same
    rcases drawn.fractional_of_number same with h | h | h <;> cases h

/-- Whatever the words are, a random literal of a type is NULL or a value that the type accepts. -/
theorem random_acceptedBy (type : ColumnType) :
    (random type).Ensures False (AcceptedBy type) ∧
    ∀ {σ : Type} (source : WordSource σ) (state : σ),
      AcceptedBy type ((random type).run source state).1 := by
  have accepted : (random type).Ensures False (AcceptedBy type) := by
    refine (chance_ensures (.inl (by decide +kernel))).bind fun null _ => ?_
    cases null with
    | true => exact .pure ⟨.null, nofun⟩
    | false =>
      refine ((randomOf_ensures type).and (randomOf_bounded type)).mono ?_
      rintro v ⟨drawn, finite⟩
      exact drawn.acceptedBy finite
  exact ⟨accepted, fun source state => accepted.run source state⟩

end Literal
end QueryForge
