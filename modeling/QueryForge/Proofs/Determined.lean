import QueryForge.Catalog

/-!
# Texts that determine what they stand for

Texts stand one behind the other, so a text determines its value only if one can tell where it
ends. A value is determined if its text, in front of any follower, is told apart from the texts of
all others in front of any follower. There is one rule for each way in which texts are put
together.
-/

namespace QueryForge

/-- No text begins another. -/
def PrefixFree {α : Type} (text : α → String) : Prop :=
  ∀ a b, (text a).toList <+: (text b).toList → a = b

/-- In front of a follower, the text of `a` is told apart from those of all admissible values. -/
def Determined {α : Type} (text : α → String) (admissible : α → Prop)
    (follows : List Char → Prop) (a : α) : Prop :=
  ∀ ⦃b r s⦄, admissible b → follows r → follows s →
    (text a).toList ++ r = (text b).toList ++ s → a = b ∧ r = s

variable {α : Type} {text : α → String} {admissible : α → Prop} {follows : List Char → Prop}

theorem PrefixFree.inj (h : PrefixFree text) {a b : α} {r s : List Char}
    (same : (text a).toList ++ r = (text b).toList ++ s) : a = b ∧ r = s := by
  have left : (text a).toList <+: (text a).toList ++ r := List.prefix_append ..
  have right : (text b).toList <+: (text a).toList ++ r := same ▸ List.prefix_append ..
  have either := List.prefix_or_prefix_of_prefix left right
  obtain rfl : a = b := either.elim (h a b) fun back => (h b a back).symm
  exact ⟨rfl, List.append_cancel_left same⟩

theorem PrefixFree.determined (h : PrefixFree text) (a : α) :
    Determined text admissible follows a :=
  fun _ _ _ _ _ _ same => h.inj same

/-- Prefix-freeness of finitely many texts is a matter of comparing them. -/
theorem PrefixFree.of_all (all : List α) (complete : ∀ a, a ∈ all)
    (h : ∀ a ∈ all, ∀ b ∈ all, (text a).toList <+: (text b).toList → a = b) : PrefixFree text :=
  fun a b => h a (complete a) b (complete b)

theorem PrefixFree.behind (h : PrefixFree text) (front : String) :
    PrefixFree fun a => front ++ text a := by
  intro a b begins
  rw [String.toList_append, String.toList_append, List.prefix_append_right_inj] at begins
  exact h a b begins

/-- A run of characters with a property ends at the first character without it. -/
theorem takeWhile_append_of_stop {p : Char → Bool} {xs r : List Char} (hx : ∀ c ∈ xs, p c)
    (hr : ∀ c, r.head? = some c → p c = false) :
    (xs ++ r).takeWhile p = xs ∧ (xs ++ r).dropWhile p = r := by
  rw [List.takeWhile_append_of_pos hx, List.dropWhile_append_of_pos hx]
  cases r with
  | nil => simp
  | cons c cs => simp [hr c rfl]

theorem stops_cons {p : Char → Bool} {d : Char} (h : p d = false) (rest : List Char) :
    ∀ c, (d :: rest).head? = some c → p c = false := by
  intro c hc
  obtain rfl : d = c := Option.some.inj hc
  exact h

theorem span_inj {p : Char → Bool} {xs ys r s : List Char} (hx : ∀ c ∈ xs, p c)
    (hy : ∀ c ∈ ys, p c) (hr : ∀ c, r.head? = some c → p c = false)
    (hs : ∀ c, s.head? = some c → p c = false) (same : xs ++ r = ys ++ s) : xs = ys ∧ r = s := by
  have left := takeWhile_append_of_stop hx hr
  have right := takeWhile_append_of_stop hy hs
  rw [same] at left
  exact ⟨left.1.symm.trans right.1, left.2.symm.trans right.2⟩

namespace Determined

theorem mono {others : α → Prop} {behind : List Char → Prop} {a : α}
    (h : Determined text admissible follows a) (ho : ∀ b, others b → admissible b)
    (hb : ∀ r, behind r → follows r) : Determined text others behind a :=
  fun _ _ _ b r s same => h (ho _ b) (hb _ r) (hb _ s) same

/-- An optional text, if it cannot be mistaken for what may follow. -/
theorem optional {o : Option α} (h : ∀ a, o = some a → Determined text admissible follows a)
    (apart : ∀ b r, follows ((text b).toList ++ r) → False) :
    Determined (fun o => Sql.optional o text) (fun o => ∀ b, o = some b → admissible b) follows
      o := by
  intro p r s hp hr hs same
  match o, p with
  | none, none => exact ⟨rfl, by simpa [Sql.optional] using same⟩
  | none, some b =>
    obtain rfl : r = (text b).toList ++ s := by simpa [Sql.optional] using same
    exact (apart b s hr).elim
  | some a, none =>
    obtain rfl : (text a).toList ++ r = s := by simpa [Sql.optional] using same
    exact (apart a r hs).elim
  | some a, some b =>
    obtain ⟨rfl, rest⟩ := h a rfl (hp b rfl) hr hs same
    exact ⟨rfl, rest⟩

/-- An optional word of a prefix-free family, with the same text in front of each. -/
theorem optionalWord (h : PrefixFree text) (front : String)
    (apart : ∀ b r, ¬follows ((front ++ text b).toList ++ r)) (o : Option α) :
    Determined (fun o => Sql.optional o fun a => front ++ text a) (fun _ => True) follows o := by
  have each : ∀ a, o = some a →
      Determined (fun a => front ++ text a) (fun _ => True) follows a :=
    fun a _ => (h.behind front).determined a
  exact (optional each apart).mono (fun _ _ _ _ => trivial) fun _ behind => behind

end Determined

namespace Sql

/-- The items behind the first one, each with a separator in front. -/
def separatedTail (separator : String) : List String → List Char
  | [] => []
  | piece :: rest => separator.toList ++ (piece.toList ++ separatedTail separator rest)

theorem separatedTail_cons_append (separator piece : String) (rest : List String) (r : List Char) :
    separatedTail separator (piece :: rest) ++ r =
      separator.toList ++ (piece.toList ++ (separatedTail separator rest ++ r)) := by
  simp [separatedTail]

theorem separated_cons_append (separator piece : String) (rest : List String) (r : List Char) :
    (separated separator (piece :: rest)).toList ++ r =
      piece.toList ++ (separatedTail separator rest ++ r) := by
  induction rest generalizing piece with
  | nil => simp [separated, separatedTail]
  | cons next rest ih => simp [separated, separatedTail_cons_append, ih]

end Sql

namespace Determined

section Separated

variable {separator : String} {itemFollows : List Char → Prop}

theorem separatedTail_follows
    (last : ∀ r, follows r → itemFollows r)
    (more : ∀ b r, admissible b → itemFollows (separator.toList ++ ((text b).toList ++ r)))
    {as : List α} (allowed : ∀ a ∈ as, admissible a) {r : List Char} (hr : follows r) :
    itemFollows (Sql.separatedTail separator (as.map text) ++ r) := by
  cases as with
  | nil => exact last r hr
  | cons a rest =>
    rw [List.map_cons, Sql.separatedTail_cons_append]
    exact more a _ (allowed a List.mem_cons_self)

theorem separatedTail
    (last : ∀ r, follows r → itemFollows r)
    (more : ∀ b r, admissible b → itemFollows (separator.toList ++ ((text b).toList ++ r)))
    (noSeparator : ∀ r, follows (separator.toList ++ r) → False)
    {as : List α} (items : ∀ a ∈ as, Determined text admissible itemFollows a)
    (ha : ∀ a ∈ as, admissible a) {bs : List α} (hb : ∀ b ∈ bs, admissible b) {r s : List Char}
    (hr : follows r) (hs : follows s)
    (same : Sql.separatedTail separator (as.map text) ++ r =
      Sql.separatedTail separator (bs.map text) ++ s) : as = bs ∧ r = s := by
  induction as generalizing bs with
  | nil =>
    cases bs with
    | nil => exact ⟨rfl, same⟩
    | cons b bs =>
      rw [List.map_cons, Sql.separatedTail_cons_append] at same
      obtain rfl : r = _ := same
      exact (noSeparator _ hr).elim
  | cons a as ih =>
    rw [List.map_cons, Sql.separatedTail_cons_append] at same
    cases bs with
    | nil =>
      obtain rfl : _ = s := same
      exact (noSeparator _ hs).elim
    | cons b bs =>
      rw [List.map_cons, Sql.separatedTail_cons_append, List.append_cancel_left_eq] at same
      rw [List.forall_mem_cons] at items ha hb
      obtain ⟨rfl, tails⟩ := items.1 hb.1 (separatedTail_follows last more ha.2 hr)
        (separatedTail_follows last more hb.2 hs) same
      obtain ⟨rfl, rest⟩ := ih items.2 ha.2 hb.2 tails
      exact ⟨rfl, rest⟩

/-- A list with separators. What follows it must be neither an item nor a separator, so that the
end of the list is seen. -/
theorem separated
    (last : ∀ r, follows r → itemFollows r)
    (more : ∀ b r, admissible b → itemFollows (separator.toList ++ ((text b).toList ++ r)))
    (noSeparator : ∀ r, follows (separator.toList ++ r) → False)
    (noItem : ∀ b r, admissible b → follows ((text b).toList ++ r) → False)
    {as : List α} (items : ∀ a ∈ as, Determined text admissible itemFollows a)
    (ha : ∀ a ∈ as, admissible a) :
    Determined (fun as => Sql.separated separator (as.map text)) (fun as => ∀ a ∈ as, admissible a)
      follows as := by
  intro bs r s hb hr hs same
  dsimp only at same
  cases as with
  | nil =>
    cases bs with
    | nil => exact ⟨rfl, same⟩
    | cons b bs =>
      rw [List.map_cons, Sql.separated_cons_append] at same
      obtain rfl : r = _ := same
      exact (noItem b _ (hb b List.mem_cons_self) hr).elim
  | cons a as =>
    rw [List.map_cons, Sql.separated_cons_append] at same
    cases bs with
    | nil =>
      obtain rfl : _ = s := same
      exact (noItem a _ (ha a List.mem_cons_self) hs).elim
    | cons b bs =>
      rw [List.map_cons, Sql.separated_cons_append] at same
      rw [List.forall_mem_cons] at items ha hb
      obtain ⟨rfl, tails⟩ := items.1 hb.1 (separatedTail_follows last more ha.2 hr)
        (separatedTail_follows last more hb.2 hs) same
      obtain ⟨rfl, rest⟩ := separatedTail last more noSeparator items.2 ha.2 hb.2 hr hs tails
      exact ⟨rfl, rest⟩

end Separated
end Determined

namespace Sql

theorem doubleQuotes_cons_quote (xs : List Char) :
    doubleQuotes ('\'' :: xs) = '\'' :: '\'' :: doubleQuotes xs := rfl

theorem doubleQuotes_cons {x : Char} (h : x ≠ '\'') (xs : List Char) :
    doubleQuotes (x :: xs) = x :: doubleQuotes xs := if_neg h

theorem head?_doubleQuotes_cons (x : Char) (xs r : List Char) :
    (doubleQuotes (x :: xs) ++ r).head? = some x := by
  by_cases quote : x = '\''
  · rw [quote]
    rfl
  · rw [doubleQuotes_cons quote]
    rfl

/-- The closing quote is the first one that is not doubled. -/
theorem doubleQuotes_inj {xs ys r s : List Char} (hr : r.head? ≠ some '\'')
    (hs : s.head? ≠ some '\'')
    (same : doubleQuotes xs ++ '\'' :: r = doubleQuotes ys ++ '\'' :: s) : xs = ys ∧ r = s := by
  have heads := congrArg List.head? same
  induction xs generalizing ys with
  | nil =>
    cases ys with
    | nil => exact ⟨rfl, (List.cons.inj same).2⟩
    | cons y ys =>
      rw [head?_doubleQuotes_cons] at heads
      obtain rfl : '\'' = y := Option.some.inj heads
      obtain ⟨-, rfl⟩ := List.cons.inj same
      exact absurd rfl hr
  | cons x xs ih =>
    rw [head?_doubleQuotes_cons] at heads
    cases ys with
    | nil =>
      obtain rfl : x = '\'' := Option.some.inj heads
      obtain ⟨-, rfl⟩ := List.cons.inj same
      exact absurd rfl hs
    | cons y ys =>
      rw [head?_doubleQuotes_cons] at heads
      obtain rfl : x = y := Option.some.inj heads
      have inner : doubleQuotes xs ++ '\'' :: r = doubleQuotes ys ++ '\'' :: s := by
        by_cases quote : x = '\''
        · subst quote
          rw [doubleQuotes_cons_quote, doubleQuotes_cons_quote] at same
          exact (List.cons.inj (List.cons.inj same).2).2
        · rw [doubleQuotes_cons quote, doubleQuotes_cons quote] at same
          exact (List.cons.inj same).2
      obtain ⟨rfl, rest⟩ := ih inner (congrArg List.head? inner)
      exact ⟨rfl, rest⟩

theorem toList_quoted_append (s : String) (r : List Char) :
    (quoted s).toList ++ r = '\'' :: (doubleQuotes s.toList ++ '\'' :: r) := by
  simp [quoted]

theorem quoted_inj {a b : String} {r s : List Char} (hr : r.head? ≠ some '\'')
    (hs : s.head? ≠ some '\'') (same : (quoted a).toList ++ r = (quoted b).toList ++ s) :
    a = b ∧ r = s := by
  rw [toList_quoted_append, toList_quoted_append] at same
  obtain ⟨texts, rest⟩ := doubleQuotes_inj hr hs (List.cons.inj same).2
  exact ⟨String.toList_injective texts, rest⟩

theorem isDigit_of_mem_repr {n : Nat} {c : Char} (h : c ∈ n.repr.toList) : c.isDigit := by
  rw [Nat.toList_repr] at h
  exact Nat.isDigit_of_mem_toDigits (by decide) (by decide) h

theorem exists_repr_eq_cons (n : Nat) : ∃ c cs, n.repr.toList = c :: cs ∧ c.isDigit := by
  have nonempty : n.repr.toList ≠ [] := by
    rw [Nat.toList_repr]
    exact Nat.toDigits_ne_nil
  obtain ⟨c, cs, same⟩ := List.exists_cons_of_ne_nil nonempty
  exact ⟨c, cs, same, isDigit_of_mem_repr (same ▸ List.mem_cons_self)⟩

theorem repr_ne {n : Nat} {word : String} {c : Char} (h : c ∈ word.toList)
    (hc : c.isDigit = false) : n.repr ≠ word := by
  rintro rfl
  simp [isDigit_of_mem_repr h] at hc

theorem repr_injective {m n : Nat} (h : m.repr = n.repr) : m = n := by
  have digits := congrArg String.toList h
  rw [Nat.toList_repr, Nat.toList_repr] at digits
  have values := congrArg (fun cs => Nat.ofDigitChars 10 cs 0) digits
  simpa only [Nat.ofDigitChars_ten_toDigits] using values

/-- Names with one beginning are told apart by their numbers. -/
theorem append_repr_injective (base : String) :
    Function.Injective fun n : Nat => base ++ n.repr := by
  intro m n h
  have digits := congrArg String.toList h
  rw [String.toList_append, String.toList_append] at digits
  exact repr_injective (String.toList_injective (List.append_cancel_left digits))

theorem mem_integer {i : Int} {c : Char} (h : c ∈ (integer i).toList) : c.isDigit ∨ c = '-' := by
  unfold integer at h
  split at h
  · rw [String.toList_append, List.mem_append] at h
    rcases h with sign | digit
    · exact .inr (List.mem_singleton.1 sign)
    · exact .inl (isDigit_of_mem_repr digit)
  · exact .inl (isDigit_of_mem_repr h)

theorem integer_injective {i j : Int} (h : integer i = integer j) : i = j := by
  have unsigned (n : Nat) (word : String) : n.repr ≠ "-" ++ word :=
    repr_ne (c := '-') (by simp) (by decide)
  unfold integer at h
  by_cases hi : i < 0 <;> by_cases hj : j < 0
  · rw [if_pos hi, if_pos hj] at h
    have sizes := append_repr_injective "-" h
    omega
  · rw [if_pos hi, if_neg hj] at h
    exact absurd h.symm (unsigned _ _)
  · rw [if_neg hi, if_pos hj] at h
    exact absurd h (unsigned _ _)
  · rw [if_neg hi, if_neg hj] at h
    have sizes := repr_injective h
    omega

end Sql
end QueryForge
