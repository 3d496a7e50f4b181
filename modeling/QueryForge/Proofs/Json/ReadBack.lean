import QueryForge.Json.Writer
import QueryForge.Proofs.Binary64.Numeral

/-!
# Reading written documents

A document whose tokens have values is found again in front of any text that does not continue
it, so reading its text gives the document back.
-/

namespace QueryForge.Json

/-- Every token has a value, and every whole number is one that has its own form. -/
inductive Writable : Json → Prop
  | null : Writable .null
  | boolean (value : Bool) : Writable (.boolean value)
  | integer {value : Int} (range : integerRange value) : Writable (.integer value)
  | real (value : Binary64) : Writable (.real value)
  | string (value : String) : Writable (.string value)
  | array {items : List Json} (all : ∀ item ∈ items, Writable item) : Writable (.array items)
  | object {members : List (String × Json)} (all : ∀ member ∈ members, Writable member.2) :
      Writable (.object members)

namespace Reader

open NumberToken (Stops)

theorem escapedUnit_control : ∀ n < 0x20,
    escapedUnit '0' '0' (hexDigit (n / 16)) (hexDigit (n % 16)) = some (.char (Char.ofNat n)) := by
  decide

theorem stringParts_shortEscape {e c : Char} (h : shortEscape e = some c) (rest : List Char) :
    stringParts ('\\' :: e :: rest) =
      (stringParts rest).map fun found => (.char c :: found.1, found.2) := by
  have notUnit : e ≠ 'u' := by
    rintro rfl
    have none : shortEscape 'u' = none := by decide
    exact absurd (none.symm.trans h) (by simp)
  rw [stringParts]
  · rw [h]
    cases stringParts rest <;> rfl
  · intro _ _ _ _ _ same
    exact absurd same notUnit

theorem stringParts_raw {c : Char} (quote : c ≠ '"') (backslash : c ≠ '\\')
    (control : ¬ c.toNat < 0x20) (rest : List Char) :
    stringParts (c :: rest) =
      (stringParts rest).map fun found => (.char c :: found.1, found.2) := by
  rw [stringParts]
  · rw [if_neg control]
    cases stringParts rest <;> rfl
  · exact quote
  · intro _ _ _ _ _ same
    exact absurd same backslash
  · intro _ _ same
    exact absurd same backslash

/-- Whatever a character is written as is read as that character. -/
theorem stringParts_escapeChar (c : Char) (rest : List Char) :
    stringParts (escapeChar c ++ rest) =
      (stringParts rest).map fun found => (.char c :: found.1, found.2) := by
  unfold escapeChar
  split
  · next h => subst h; exact stringParts_shortEscape (by decide) rest
  split
  · next h => subst h; exact stringParts_shortEscape (by decide) rest
  split
  · next h => subst h; exact stringParts_shortEscape (by decide) rest
  split
  · next h => subst h; exact stringParts_shortEscape (by decide) rest
  split
  · next h => subst h; exact stringParts_shortEscape (by decide) rest
  split
  · next h => subst h; exact stringParts_shortEscape (by decide) rest
  split
  · next h => subst h; exact stringParts_shortEscape (by decide) rest
  split
  · next control =>
    have unit := escapedUnit_control c.toNat control
    rw [Char.ofNat_toNat] at unit
    simp only [List.cons_append, List.nil_append, stringParts, unit]
    cases stringParts rest <;> rfl
  · next quote backslash _ _ _ _ _ control => exact stringParts_raw quote backslash control rest

theorem stringParts_flatMap_escapeChar (cs rest : List Char) :
    stringParts (cs.flatMap escapeChar ++ '"' :: rest) = some (cs.map .char, rest) := by
  induction cs with
  | nil => rfl
  | cons c cs ih =>
    rw [List.flatMap_cons, List.append_assoc, stringParts_escapeChar, ih]
    rfl

theorem joinHalves_map_char (cs : List Char) : joinHalves (cs.map .char) = some cs := by
  induction cs with
  | nil => rfl
  | cons c cs ih => rw [List.map_cons, joinHalves, ih]; rfl

theorem string_append (s : String) (rest : List Char) :
    string (s.toList.flatMap escapeChar ++ '"' :: rest) = some (some s, rest) := by
  unfold string
  rw [stringParts_flatMap_escapeChar]
  simp only [Option.bind_eq_bind, Option.bind_some, joinHalves_map_char, Option.map_some,
    String.ofList_toList]

/-- The numeral of a whole number. -/
def integerToken (i : Int) : NumberToken := ⟨decide (i < 0), Nat.toDigits 10 i.natAbs, none, none⟩

theorem chars_integerToken (i : Int) : (integerToken i).chars true = integerChars i := by
  unfold integerToken integerChars NumberToken.chars
  by_cases negative : i < 0 <;>
    simp [negative, NumberToken.signChars, NumberToken.fractionChars, NumberToken.exponentChars]

theorem wellFormed_integerToken (i : Int) : (integerToken i).WellFormed where
  whole := fun _ hc => Nat.isDigit_of_mem_toDigits (by decide) (by decide) hc
  whole_ne_nil := Nat.toDigits_ne_nil
  leading := by
    intro c cs digits
    by_cases zero : i.natAbs = 0
    · have lone : Nat.toDigits 10 i.natAbs = ['0'] := by rw [zero]; rfl
      exact absurd (lone.symm.trans digits) (by simp)
    · exact NumberLayout.toDigits_ne_zero_cons zero _ digits
  fraction := by intro _ h; cases h
  exponent := by intro _ _ h; cases h

theorem value_integerToken {i : Int} (range : integerRange i) :
    (integerToken i).value = .integer i := by
  have magnitude : Nat.ofDigitChars 10 (Nat.toDigits 10 i.natAbs) 0 = i.natAbs :=
    Nat.ofDigitChars_ten_toDigits
  unfold NumberToken.value integerToken
  simp only [Option.isSome_none, Bool.or_self, Bool.false_eq_true, if_false, magnitude]
  have notMinusZero : (decide (i < 0) && i.natAbs == 0) = false := by
    by_cases negative : i < 0
    · have : i.natAbs ≠ 0 := by omega
      simp [this]
    · simp [negative]
  have signed : (if decide (i < 0) = true then -(i.natAbs : Int) else i.natAbs) = i := by
    simp only [decide_eq_true_eq]
    split <;> omega
  rw [notMinusZero, if_neg (by decide), signed, if_pos range]

/-- A numeral that keeps its fraction digit or has an exponent is no whole number. -/
theorem value_token {layout : NumberLayout} (kept : layout.fractionDigit = true) (x : Binary64) :
    (layout.token x).value = .real x := by
  have formed := NumberLayout.wellFormed_token layout x
  have marked := NumberLayout.mem_chars_of_fractionDigit kept x
  rw [NumberLayout.chars_token] at marked
  have parts : ((layout.token x).fraction.isSome || (layout.token x).exponent.isSome) = true := by
    refine eq_true_of_ne_false fun bare => ?_
    obtain ⟨noFraction, noExponent⟩ : (layout.token x).fraction = none ∧
        (layout.token x).exponent = none := by simpa using bare
    have unmarked : ∀ c ∈ (layout.token x).chars layout.signedExponent, c.isDigit ∨ c = '-' := by
      intro c hc
      simp only [NumberToken.chars, noFraction, noExponent, NumberToken.fractionChars,
        NumberToken.exponentChars, List.append_nil, List.mem_append] at hc
      rcases hc with sign | digit
      · refine .inr ?_
        unfold NumberToken.signChars at sign
        split at sign
        · exact List.mem_singleton.1 sign
        · cases sign
      · exact .inl (formed.whole c digit)
    rcases marked with point | exponent
    · exact absurd (unmarked _ point) (by decide)
    · exact absurd (unmarked _ exponent) (by decide)
  rw [NumberToken.value, if_pos parts, NumberLayout.realValue_token]

theorem skipBlanks_cons {c : Char} (h : isBlank c = false) (rest : List Char) :
    skipBlanks (c :: rest) = c :: rest := List.dropWhile_cons_of_neg (by simp [h])

/-- A numeral begins with none of the other characters of the grammar. -/
theorem ne_of_numeral {c d : Char} (start : c.isDigit ∨ c = '-') (digit : ¬ d.isDigit)
    (sign : d ≠ '-') : c ≠ d := by
  rintro rfl
  exact start.elim digit sign

theorem isBlank_of_numeral {c : Char} (start : c.isDigit ∨ c = '-') : isBlank c = false := by
  have other : ∀ d, ¬ d.isDigit → d ≠ '-' → c ≠ d := fun _ => ne_of_numeral start
  simp [isBlank, other ' ' (by decide) (by decide), other '\t' (by decide) (by decide),
    other '\n' (by decide) (by decide), other '\r' (by decide) (by decide)]

theorem value_numeral {t : NumberToken} (h : t.WellFormed) (plus : Bool) {rest : List Char}
    (stop : Stops rest) (fuel : Nat) :
    value (fuel + 1) (t.chars plus ++ rest) = some (t.value, rest) := by
  have found := NumberToken.numberToken_append h plus stop
  obtain ⟨c, cs, first, start⟩ := NumberToken.exists_chars_eq_cons h plus
  rw [first, List.cons_append] at found ⊢
  rw [value, skipBlanks_cons (isBlank_of_numeral start)]
  split
  case h_7 => rw [found]; rfl
  all_goals
    next same =>
      exact absurd (List.cons.inj same).1 (ne_of_numeral start (by decide) (by decide))

/-- A document begins with a character that is no blank and closes nothing. -/
theorem exists_chars_eq_cons (j : Json) :
    ∃ c cs, j.chars = c :: cs ∧ isBlank c = false ∧ c ≠ ']' := by
  have numeral : ∀ (t : NumberToken) (plus : Bool), t.WellFormed →
      ∃ c cs, t.chars plus = c :: cs ∧ isBlank c = false ∧ c ≠ ']' := by
    intro t plus formed
    obtain ⟨c, cs, first, start⟩ := NumberToken.exists_chars_eq_cons formed plus
    exact ⟨c, cs, first, isBlank_of_numeral start,
      ne_of_numeral start (by decide) (by decide)⟩
  cases j with
  | integer i =>
    rw [chars, ← chars_integerToken]
    exact numeral _ _ (wellFormed_integerToken i)
  | real x =>
    rw [chars, NumberLayout.chars_token]
    exact numeral _ _ (NumberLayout.wellFormed_token numberLayout x)
  | boolean b => cases b <;> exact ⟨_, _, rfl, by decide, by decide⟩
  | null | unusable => exact ⟨_, _, rfl, by decide, by decide⟩
  | string | array | object => rw [chars]; exact ⟨_, _, rfl, by decide, by decide⟩

/-- The document is found again in front of whatever does not continue it. -/
def ReadsBack (j : Json) : Prop :=
  ∀ fuel rest, 2 * j.chars.length ≤ fuel → Stops rest →
    value fuel (j.chars ++ rest) = some (j, rest)

theorem items_append {items : List Json} (nonempty : items ≠ []) (all : ∀ j ∈ items, ReadsBack j)
    (fuel : Nat) (rest : List Char) (enough : 2 * (itemsChars items).length + 1 ≤ fuel) :
    Reader.items fuel (itemsChars items ++ ']' :: rest) = some (items, rest) := by
  have bracket : Stops (']' :: rest) := by simp [Stops]
  induction items generalizing fuel with
  | nil => exact absurd rfl nonempty
  | cons item others ih =>
    obtain ⟨fuel, rfl⟩ : ∃ n, fuel = n + 1 := ⟨fuel - 1, by omega⟩
    have here : ReadsBack item := all item List.mem_cons_self
    cases others with
    | nil =>
      rw [itemsChars] at enough ⊢
      rw [Reader.items, here fuel _ (by omega) bracket]
      rfl
    | cons next others =>
      rw [itemsChars, List.length_append, List.length_cons] at enough
      have behind := ih (by simp) (fun j hj => all j (List.mem_cons_of_mem item hj)) fuel
        (by omega)
      rw [itemsChars, List.append_assoc, List.cons_append, Reader.items,
        here fuel _ (by omega) (by simp [Stops])]
      simp only [Option.bind_eq_bind, Option.bind_some, skipBlanks_cons (c := ',') (by decide),
        behind]

theorem members_append {members : List (String × Json)} (nonempty : members ≠ [])
    (all : ∀ m ∈ members, ReadsBack m.2) (fuel : Nat) (rest : List Char)
    (enough : 2 * (membersChars members).length + 1 ≤ fuel) :
    Reader.members fuel (membersChars members ++ '\x7d' :: rest) = some (some members, rest) := by
  have brace : Stops ('\x7d' :: rest) := by simp [Stops]
  induction members generalizing fuel with
  | nil => exact absurd rfl nonempty
  | cons member others ih =>
    obtain ⟨name, found⟩ := member
    obtain ⟨fuel, rfl⟩ : ∃ n, fuel = n + 1 := ⟨fuel - 1, by omega⟩
    have here : ReadsBack found := all (name, found) List.mem_cons_self
    cases others with
    | nil =>
      rw [membersChars, List.length_append, List.length_cons] at enough
      have content := here fuel _ (by omega) brace
      rw [membersChars, List.append_assoc, stringChars, List.cons_append, List.append_assoc,
        List.singleton_append, List.cons_append, Reader.members]
      simp only [skipBlanks_cons (c := '"') (by decide), string_append, Option.bind_eq_bind,
        Option.bind_some, skipBlanks_cons (c := ':') (by decide), content,
        skipBlanks_cons (c := '\x7d') (by decide), Option.map_some]
    | cons next others =>
      rw [membersChars, List.length_append, List.length_cons, List.length_append,
        List.length_cons] at enough
      have behind := ih (by simp) (fun m hm => all m (List.mem_cons_of_mem _ hm)) fuel
        (by omega)
      have content := here fuel (',' :: (membersChars (next :: others) ++ '\x7d' :: rest))
        (by omega) (by simp [Stops])
      rw [membersChars, List.append_assoc, stringChars, List.cons_append, List.append_assoc,
        List.singleton_append, List.cons_append, List.append_assoc, List.cons_append,
        Reader.members]
      simp only [skipBlanks_cons (c := '"') (by decide), string_append, Option.bind_eq_bind,
        Option.bind_some, skipBlanks_cons (c := ':') (by decide), content,
        skipBlanks_cons (c := ',') (by decide), behind, Option.map_some]

theorem readsBack_array {items : List Json} (all : ∀ j ∈ items, ReadsBack j) :
    ReadsBack (.array items) := by
  intro fuel rest enough _
  rw [chars, List.length_cons, List.length_append, List.length_singleton] at enough
  obtain ⟨fuel, rfl⟩ : ∃ n, fuel = n + 1 := ⟨fuel - 1, by omega⟩
  rw [chars, List.cons_append, List.append_assoc, List.singleton_append]
  cases items with
  | nil => rfl
  | cons item others =>
    have found := items_append (List.cons_ne_nil item others) all fuel rest (by omega)
    obtain ⟨c, cs, first, blank, inside⟩ : ∃ c cs, itemsChars (item :: others) = c :: cs ∧
        isBlank c = false ∧ c ≠ ']' := by
      obtain ⟨c, cs, first, start⟩ := exists_chars_eq_cons item
      cases others <;> rw [itemsChars, first] <;> exact ⟨c, _, rfl, start⟩
    rw [first, List.cons_append] at found ⊢
    rw [value, skipBlanks_cons (c := '[') (by decide)]
    simp only [skipBlanks_cons blank]
    split
    · next same => exact absurd (List.cons.inj same).1 inside
    · rw [found]; rfl

theorem readsBack_object {members : List (String × Json)} (all : ∀ m ∈ members, ReadsBack m.2) :
    ReadsBack (.object members) := by
  intro fuel rest enough _
  rw [chars, List.length_cons, List.length_append, List.length_singleton] at enough
  obtain ⟨fuel, rfl⟩ : ∃ n, fuel = n + 1 := ⟨fuel - 1, by omega⟩
  rw [chars, List.cons_append, List.append_assoc, List.singleton_append]
  cases members with
  | nil => rfl
  | cons member others =>
    have found := members_append (List.cons_ne_nil member others) all fuel rest (by omega)
    obtain ⟨cs, first⟩ : ∃ cs, membersChars (member :: others) = '"' :: cs := by
      obtain ⟨name, content⟩ := member
      cases others <;> exact ⟨_, rfl⟩
    rw [first, List.cons_append] at found ⊢
    rw [value, skipBlanks_cons (c := '\x7b') (by decide)]
    simp only [skipBlanks_cons (c := '"') (by decide), found, Option.bind_eq_bind,
      Option.bind_some, Option.elim_some]
    rfl

/-- Every document whose tokens have values is found again. -/
theorem readsBack {j : Json} (h : j.Writable) : ReadsBack j := by
  have start : ∀ {fuel : Nat} {cs : List Char}, 2 * cs.length ≤ fuel → cs ≠ [] →
      ∃ n, fuel = n + 1 := by
    intro fuel cs enough nonempty
    have := List.length_pos_iff.2 nonempty
    exact ⟨fuel - 1, by omega⟩
  have nonempty : ∀ j : Json, j.chars ≠ [] := by
    intro j
    obtain ⟨c, cs, first, _⟩ := exists_chars_eq_cons j
    simp [first]
  induction h with
  | array _ ih => exact readsBack_array ih
  | object _ ih => exact readsBack_object ih
  | null =>
    intro fuel rest enough _
    obtain ⟨n, rfl⟩ := start enough (nonempty _)
    rfl
  | boolean b =>
    intro fuel rest enough _
    obtain ⟨n, rfl⟩ := start enough (nonempty _)
    cases b <;> rfl
  | integer range =>
    intro fuel rest enough stop
    obtain ⟨n, rfl⟩ := start enough (nonempty _)
    rw [chars, ← chars_integerToken, value_numeral (wellFormed_integerToken _) true stop,
      value_integerToken range]
  | real x =>
    intro fuel rest enough stop
    obtain ⟨n, rfl⟩ := start enough (nonempty _)
    rw [chars, NumberLayout.chars_token,
      value_numeral (NumberLayout.wellFormed_token numberLayout x) _ stop, value_token rfl]
  | string s =>
    intro fuel rest enough _
    obtain ⟨n, rfl⟩ := start enough (nonempty _)
    rw [chars, stringChars, List.cons_append, List.append_assoc, List.singleton_append, value,
      skipBlanks_cons (c := '"') (by decide)]
    simp only [string_append, Option.bind_eq_bind, Option.bind_some, Option.elim_some]

end Reader

/-- The text of a document is read as that document. -/
theorem ofText?_text {j : Json} (h : j.Writable) : ofText? j.text = some j := by
  have found := Reader.readsBack h (2 * j.chars.length + 2) [] (by omega)
    (by simp [Reader.NumberToken.Stops])
  rw [List.append_nil] at found
  rw [text, ofText?, String.toList_ofList, read?, found]
  rfl

end QueryForge.Json
