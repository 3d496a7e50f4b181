import Mathlib.Data.List.Chain
import QueryForge.Proofs.Determined

/-!
# Lexemes

A reader that knows only the rule of single quotes sees a text as literals and characters outside
of them. A piece of SQL reads the same wherever it stands, with its parentheses balanced and no
comment in it, and pieces are put together without their ends running into each other.
-/

namespace QueryForge.Sql

inductive Lexeme where
  | code (c : Char)
  | literal (text : String)
deriving DecidableEq, Repr

/-- Reads on, inside a literal of which some characters have been read, or outside. Inside, a
doubled quote stands for one quote. A text that ends inside a literal is not read. -/
def scan : Option (List Char) → List Char → Option (List Lexeme)
  | none, [] => some []
  | none, c :: cs => if c = '\'' then scan (some []) cs else (scan none cs).map (.code c :: ·)
  | some _, [] => none
  | some text, '\'' :: '\'' :: cs => scan (some (text ++ ['\''])) cs
  | some text, '\'' :: cs => (scan none cs).map (.literal (String.ofList text) :: ·)
  | some text, c :: cs => scan (some (text ++ [c])) cs

def lexemes (text : String) : Option (List Lexeme) := scan none text.toList

def literals : List Lexeme → List String :=
  List.filterMap fun
    | .literal text => some text
    | .code _ => none

/-- The depth of parentheses behind a lexeme. More must not be closed than were opened. -/
def Lexeme.depthAfter (d : Nat) : Lexeme → Option Nat
  | .literal _ => some d
  | .code c =>
    if c = '(' then some (d + 1)
    else if c = ')' then if d = 0 then none else some (d - 1)
    else some d

def depthAfter (d : Nat) (ls : List Lexeme) : Option Nat := ls.foldlM Lexeme.depthAfter d

example : lexemes "('it''s' - 1)" = some [.code '(', .literal "it's", .code ' ', .code '-',
    .code ' ', .code '1', .code ')'] := by decide

example : lexemes "'it''s" = none := by decide

namespace Lexeme

def chars : Lexeme → List Char
  | .code c => [c]
  | .literal text => (quoted text).toList

/-- Two lexemes that stand next to each other are read as two, and not as a comment either. -/
def Apart : Lexeme → Lexeme → Prop
  | .literal _, .literal _ => False
  | .code c, .code d => ¬(c = '-' ∧ d = '-')
  | _, _ => True

end Lexeme

theorem scan_quote {text rest : List Char} (h : rest.head? ≠ some '\'') :
    scan (some text) ('\'' :: rest) =
      (scan none rest).map (.literal (String.ofList text) :: ·) := by
  cases rest with
  | nil => rfl
  | cons c cs =>
    have other : c ≠ '\'' := fun same => h (congrArg some same)
    generalize outside : scan none (c :: cs) = read
    rw [scan, outside]
    intro _ same
    exact other (List.cons.inj same).1

theorem scan_other {text rest : List Char} {c : Char} (h : c ≠ '\'') :
    scan (some text) (c :: rest) = scan (some (text ++ [c])) rest := by
  rw [scan]
  · intro _ same
    exact absurd same h
  · intro same
    exact absurd same h

/-- The quotes around a literal are found again. -/
theorem scan_doubleQuotes {xs rest : List Char} (h : rest.head? ≠ some '\'') (text : List Char) :
    scan (some text) (doubleQuotes xs ++ '\'' :: rest) =
      (scan none rest).map (.literal (String.ofList (text ++ xs)) :: ·) := by
  induction xs generalizing text with
  | nil =>
    rw [List.append_nil]
    exact scan_quote h
  | cons x xs ih =>
    by_cases quote : x = '\''
    · rw [quote, doubleQuotes_cons_quote]
      change scan (some (text ++ ['\''])) (doubleQuotes xs ++ '\'' :: rest) = _
      rw [ih, List.append_assoc]
      rfl
    · rw [doubleQuotes_cons quote, List.cons_append, scan_other quote, ih, List.append_assoc]
      rfl

theorem head?_flatMap_chars {ls : List Lexeme} (code : ∀ c, .code c ∈ ls → c ≠ '\'')
    (first : ∀ text, ls.head? ≠ some (.literal text)) :
    (ls.flatMap Lexeme.chars).head? ≠ some '\'' := by
  cases ls with
  | nil => simp
  | cons l ls =>
    cases l with
    | literal text => exact absurd rfl (first text)
    | code c =>
      intro same
      exact code c List.mem_cons_self (Option.some.inj same)

/-- Lexemes that stand apart are read again from their characters. -/
theorem scan_flatMap_chars {ls : List Lexeme} (apart : ls.IsChain Lexeme.Apart)
    (code : ∀ c, .code c ∈ ls → c ≠ '\'') : scan none (ls.flatMap Lexeme.chars) = some ls := by
  induction ls with
  | nil => rfl
  | cons l ls ih =>
    have rest := ih apart.tail fun c hc => code c (List.mem_cons_of_mem _ hc)
    cases l with
    | code c =>
      have other := code c List.mem_cons_self
      rw [List.flatMap_cons, Lexeme.chars, List.singleton_append, scan, if_neg other, rest]
      rfl
    | literal text =>
      have next : (ls.flatMap Lexeme.chars).head? ≠ some '\'' := by
        apply head?_flatMap_chars fun c hc => code c (List.mem_cons_of_mem _ hc)
        intro other same
        obtain ⟨ms, rfl⟩ : ∃ ms, ls = .literal other :: ms := by
          cases ls with
          | nil => cases same
          | cons m ms => exact ⟨ms, by rw [Option.some.inj same]⟩
        exact (List.isChain_cons_cons.1 apart).1
      rw [List.flatMap_cons, Lexeme.chars, toList_quoted_append, scan, if_pos rfl,
        scan_doubleQuotes next, rest, List.nil_append, String.ofList_toList]
      rfl

theorem literals_append (ls ms : List Lexeme) : literals (ls ++ ms) = literals ls ++ literals ms :=
  List.filterMap_append

theorem depthAfter_cons {d e : Nat} {l : Lexeme} (h : l.depthAfter d = some e)
    (ls : List Lexeme) : depthAfter d (l :: ls) = depthAfter e ls := by
  simp [depthAfter, List.foldlM_cons, h]

theorem depthAfter_append {d e : Nat} {ls : List Lexeme} (h : depthAfter d ls = some e)
    (ms : List Lexeme) : depthAfter d (ls ++ ms) = depthAfter e ms := by
  unfold depthAfter at h ⊢
  simp [List.foldlM_append, h]

/-- The lexemes of a text that reads the same wherever it stands. -/
structure Lexes (text : String) (texts : List String) (ls : List Lexeme) : Prop where
  chars : text.toList = ls.flatMap Lexeme.chars
  apart : ls.IsChain Lexeme.Apart
  code : ∀ c, .code c ∈ ls → c ≠ '\'' ∧ c ≠ '/'
  literals : literals ls = texts
  depth : ∀ d, depthAfter d ls = some d
  last : ls.getLast? ≠ some (.code '-')

theorem Lexes.read {t : String} {xs : List String} {ls : List Lexeme} (h : Lexes t xs ls) :
    lexemes t = some ls := by
  unfold lexemes
  rw [h.chars]
  exact scan_flatMap_chars h.apart fun c hc => (h.code c hc).1

theorem Lexes.append {t u : String} {xs ys : List String} {ls ms : List Lexeme}
    (h : Lexes t xs ls) (g : Lexes u ys ms)
    (boundary : ∀ l ∈ ls.getLast?, ∀ m ∈ ms.head?, l.Apart m) :
    Lexes (t ++ u) (xs ++ ys) (ls ++ ms) where
  chars := by rw [String.toList_append, h.chars, g.chars, List.flatMap_append]
  apart := List.isChain_append.2 ⟨h.apart, g.apart, boundary⟩
  code := by
    intro c hc
    exact (List.mem_append.1 hc).elim (h.code c) (g.code c)
  literals := by rw [literals_append, h.literals, g.literals]
  depth := by
    intro d
    rw [depthAfter_append (h.depth d)]
    exact g.depth d
  last := by
    rw [List.getLast?_append]
    have left := h.last
    have right := g.last
    cases last : ms.getLast? with
    | none => exact left
    | some m =>
      rw [last] at right
      exact right

/-- Text without quotes, parentheses, slashes and signs. -/
def isInert (c : Char) : Bool := c != '\'' && c != '(' && c != ')' && c != '/' && c != '-'

def isWord (w : String) : Bool := !w.isEmpty && w.toList.all isInert

theorem depthAfter_code {cs : List Char} (h : ∀ c ∈ cs, isInert c ∨ c = '-') (d : Nat) :
    depthAfter d (cs.map .code) = some d := by
  induction cs with
  | nil => rfl
  | cons c cs ih =>
    rw [List.forall_mem_cons] at h
    have opening : c ≠ '(' := by
      rintro rfl
      exact absurd h.1 (by decide)
    have closing : c ≠ ')' := by
      rintro rfl
      exact absurd h.1 (by decide)
    have same : (Lexeme.code c).depthAfter d = some d := by
      simp [Lexeme.depthAfter, opening, closing]
    rw [List.map_cons, depthAfter_cons same]
    exact ih h.2

theorem literals_code (cs : List Char) : literals (cs.map .code) = [] := by
  unfold literals
  rw [List.filterMap_map]
  exact List.filterMap_eq_nil_iff.2 fun _ _ => rfl

theorem flatMap_code (cs : List Char) : (cs.map Lexeme.code).flatMap Lexeme.chars = cs := by
  induction cs with
  | nil => rfl
  | cons c cs ih => rw [List.map_cons, List.flatMap_cons, ih, Lexeme.chars, List.singleton_append]

/-- Characters outside literals, with no two signs together and none at the end. -/
theorem Lexes.ofCode {cs : List Char} (h : ∀ c ∈ cs, isInert c ∨ c = '-')
    (signs : cs.IsChain fun c d => ¬(c = '-' ∧ d = '-')) (last : cs.getLast? ≠ some '-') :
    Lexes (String.ofList cs) [] (cs.map .code) where
  chars := by rw [String.toList_ofList, flatMap_code]
  apart := by
    rw [List.isChain_map]
    exact signs
  code := by
    intro c hc
    obtain ⟨d, hd, same⟩ := List.mem_map.1 hc
    cases same
    constructor
    · rintro rfl
      exact absurd (h _ hd) (by decide)
    · rintro rfl
      exact absurd (h _ hd) (by decide)
  literals := literals_code cs
  depth := depthAfter_code h
  last := by
    rw [List.getLast?_map]
    intro same
    obtain ⟨c, hc, sign⟩ := Option.map_eq_some_iff.1 same
    cases sign
    exact last hc

/-- A lexeme that nothing in front or behind runs into. -/
def Lexeme.IsFirm : Lexeme → Prop
  | .code c => c ≠ '-'
  | .literal _ => False

theorem Lexeme.IsFirm.apart_right {l m : Lexeme} (h : m.IsFirm) : l.Apart m := by
  cases m with
  | literal text => cases h
  | code d =>
    cases l with
    | literal text => trivial
    | code c => exact fun both => h both.2

theorem Lexeme.IsFirm.apart_left {l m : Lexeme} (h : l.IsFirm) : l.Apart m := by
  cases l with
  | literal text => cases h
  | code c =>
    cases m with
    | literal text => trivial
    | code d => exact fun both => h both.1

def FirmStart (ls : List Lexeme) : Prop := ∀ l ∈ ls.head?, l.IsFirm

def FirmEnd (ls : List Lexeme) : Prop := ∀ l ∈ ls.getLast?, l.IsFirm

theorem FirmStart.append {ls ms : List Lexeme} (h : FirmStart ls) (g : FirmStart ms) :
    FirmStart (ls ++ ms) := by
  cases ls with
  | nil => exact g
  | cons l ls => exact h

theorem FirmEnd.append {ls ms : List Lexeme} (nonempty : ms ≠ []) (g : FirmEnd ms) :
    FirmEnd (ls ++ ms) := by
  unfold FirmEnd
  rwa [List.getLast?_append_of_ne_nil ls nonempty]

def Piece (text : String) (texts : List String) : Prop := ∃ ls, Lexes text texts ls

/-- A piece that may stand behind any piece. -/
def Tail (text : String) (texts : List String) : Prop :=
  ∃ ls, Lexes text texts ls ∧ FirmStart ls

/-- A piece that may also stand in front of any piece. -/
def Block (text : String) (texts : List String) : Prop :=
  ∃ ls, Lexes text texts ls ∧ ls ≠ [] ∧ FirmStart ls ∧ FirmEnd ls

variable {t u : String} {xs ys : List String}

theorem Block.tail (h : Block t xs) : Tail t xs := by
  obtain ⟨ls, lexes, -, first, -⟩ := h
  exact ⟨ls, lexes, first⟩

theorem Tail.piece (h : Tail t xs) : Piece t xs := by
  obtain ⟨ls, lexes, -⟩ := h
  exact ⟨ls, lexes⟩

theorem Block.piece (h : Block t xs) : Piece t xs := h.tail.piece

theorem Tail.empty : Tail "" [] := by
  have nothing : ∀ c ∈ ([] : List Char), isInert c ∨ c = '-' := by simp
  exact ⟨[], Lexes.ofCode nothing .nil (by simp), by simp [FirmStart]⟩

theorem Piece.append (h : Piece t xs) (g : Tail u ys) : Piece (t ++ u) (xs ++ ys) := by
  obtain ⟨ls, lexes⟩ := h
  obtain ⟨ms, lexes', start⟩ := g
  exact ⟨_, lexes.append lexes' fun l _ m hm => (start m hm).apart_right⟩

theorem Tail.append (h : Tail t xs) (g : Tail u ys) : Tail (t ++ u) (xs ++ ys) := by
  obtain ⟨ls, lexes, start⟩ := h
  obtain ⟨ms, lexes', start'⟩ := g
  exact ⟨_, lexes.append lexes' fun l _ m hm => (start' m hm).apart_right, start.append start'⟩

theorem Block.append (h : Block t xs) (g : Piece u ys) : Tail (t ++ u) (xs ++ ys) := by
  obtain ⟨ls, lexes, nonempty, start, ends⟩ := h
  obtain ⟨ms, lexes'⟩ := g
  refine ⟨_, lexes.append lexes' fun l hl m _ => (ends l hl).apart_left, ?_⟩
  obtain ⟨l, ls, rfl⟩ := List.exists_cons_of_ne_nil nonempty
  exact start

theorem Tail.block (h : Tail t xs) (g : Block u ys) : Block (t ++ u) (xs ++ ys) := by
  obtain ⟨ls, lexes, start⟩ := h
  obtain ⟨ms, lexes', nonempty, start', ends⟩ := g
  refine ⟨_, lexes.append lexes' fun l _ m hm => (start' m hm).apart_right, ?_,
    start.append start', ends.append nonempty⟩
  simp [nonempty]

theorem Lexes.group {ls : List Lexeme} (h : Lexes t xs ls) :
    Lexes ("(" ++ t ++ ")") xs (.code '(' :: (ls ++ [.code ')'])) where
  chars := by simp [h.chars, Lexeme.chars]
  apart := by
    have opening : (Lexeme.code '(').IsFirm := by simp [Lexeme.IsFirm]
    have closing : (Lexeme.code ')').IsFirm := by simp [Lexeme.IsFirm]
    refine List.isChain_cons.2 ⟨fun m _ => opening.apart_left, List.isChain_append.2
      ⟨h.apart, .singleton _, ?_⟩⟩
    intro l _ m hm
    cases hm
    exact closing.apart_right
  code := by
    intro c hc
    simp only [List.mem_cons, List.mem_append, List.not_mem_nil, or_false] at hc
    rcases hc with same | inner | same
    · cases same
      decide
    · exact h.code c inner
    · cases same
      decide
  literals := by
    change Sql.literals (ls ++ [.code ')']) = xs
    rw [literals_append, h.literals]
    exact List.append_nil xs
  depth := by
    intro d
    rw [depthAfter_cons (e := d + 1) rfl, depthAfter_append (h.depth (d + 1))]
    rfl
  last := by
    rw [← List.cons_append, List.getLast?_append]
    simp

/-- Any piece between parentheses is a block. -/
theorem Piece.group (h : Piece t xs) : Block ("(" ++ t ++ ")") xs := by
  obtain ⟨ls, lexes⟩ := h
  refine ⟨_, lexes.group, by simp, ?_, ?_⟩
  · intro l hl
    cases hl
    simp [Lexeme.IsFirm]
  · intro l hl
    rw [← List.cons_append, List.getLast?_append] at hl
    cases hl
    simp [Lexeme.IsFirm]

theorem ne_sign_of_inert {w : String} (inert : ∀ c ∈ w.toList, isInert c) :
    ∀ c ∈ w.toList, c ≠ '-' := by
  rintro c hc rfl
  exact absurd (inert _ hc) (by decide)

theorem Lexes.inert {w : String} (inert : ∀ c ∈ w.toList, isInert c) :
    Lexes w [] (w.toList.map .code) := by
  have noSign := ne_sign_of_inert inert
  have lexes : Lexes (String.ofList w.toList) [] (w.toList.map .code) := by
    apply Lexes.ofCode fun c hc => .inl (inert c hc)
    · apply List.Pairwise.isChain
      exact List.pairwise_of_forall_mem_list fun c hc _ _ both => noSign c hc both.1
    · intro last
      exact noSign _ (List.mem_of_getLast? last) rfl
  rwa [String.ofList_toList] at lexes

theorem Block.inert {w : String} (nonempty : w.toList ≠ []) (inert : ∀ c ∈ w.toList, isInert c) :
    Block w [] := by
  have noSign := ne_sign_of_inert inert
  refine ⟨_, Lexes.inert inert, by simpa using nonempty, ?_, ?_⟩
  · intro l hl
    rw [List.head?_map] at hl
    obtain ⟨c, hc, rfl⟩ := Option.map_eq_some_iff.1 hl
    exact noSign c (List.mem_of_head? hc)
  · intro l hl
    rw [List.getLast?_map] at hl
    obtain ⟨c, hc, rfl⟩ := Option.map_eq_some_iff.1 hl
    exact noSign c (List.mem_of_getLast? hc)

theorem isWord_iff {w : String} : isWord w ↔ w.toList ≠ [] ∧ ∀ c ∈ w.toList, isInert c := by
  simp [isWord]

theorem Lexes.word {w : String} (h : isWord w) : Lexes w [] (w.toList.map .code) :=
  Lexes.inert (isWord_iff.1 h).2

theorem Block.word {w : String} (h : isWord w) : Block w [] := by
  obtain ⟨nonempty, inert⟩ := isWord_iff.1 h
  exact Block.inert nonempty inert

theorem Lexes.quoted (s : String) : Lexes (quoted s) [s] [.literal s] where
  chars := by simp [Lexeme.chars]
  apart := .singleton _
  code := by simp
  literals := rfl
  depth := fun _ => rfl
  last := by simp

theorem Piece.quoted (s : String) : Piece (quoted s) [s] := ⟨_, Lexes.quoted s⟩

theorem Lexeme.chars_ne_nil (l : Lexeme) : l.chars ≠ [] := by
  cases l with
  | code c => simp [Lexeme.chars]
  | literal text => simp [Lexeme.chars, Sql.quoted]

theorem Lexes.eq_nil_of_empty {ls : List Lexeme} (h : Lexes "" xs ls) : ls = [] := by
  have chars := h.chars
  cases ls with
  | nil => rfl
  | cons l ls =>
    have nothing := List.append_eq_nil_iff.1 chars.symm
    exact absurd nothing.1 l.chars_ne_nil

theorem Piece.eq_nil_of_empty (h : Piece "" xs) : xs = [] := by
  obtain ⟨ls, lexes⟩ := h
  rw [← lexes.literals, lexes.eq_nil_of_empty]
  rfl

theorem Block.ne_empty (h : Block t xs) : t ≠ "" := by
  rintro rfl
  obtain ⟨ls, lexes, nonempty, -⟩ := h
  exact nonempty lexes.eq_nil_of_empty

/-- A sign in front of a text that does not begin with one. -/
theorem Tail.signed (h : Tail t xs) (nonempty : t ≠ "") : Piece ("-" ++ t) xs := by
  obtain ⟨ls, lexes, start⟩ := h
  have some : ls ≠ [] := by
    rintro rfl
    exact nonempty (String.toList_injective lexes.chars)
  refine ⟨.code '-' :: ls, ?_⟩
  constructor
  case chars => simp [lexes.chars, Lexeme.chars]
  case apart => exact List.isChain_cons.2 ⟨fun m hm => (start m hm).apart_right, lexes.apart⟩
  case code =>
    intro c hc
    rcases List.mem_cons.1 hc with same | inner
    · cases same
      decide
    · exact lexes.code c inner
  case literals => exact lexes.literals
  case depth => exact lexes.depth
  case last =>
    rw [← List.singleton_append, List.getLast?_append_of_ne_nil _ some]
    exact lexes.last

theorem Block.signed (h : Block t xs) : Piece ("-" ++ t) xs := h.tail.signed h.ne_empty

theorem Block.comma : Block ", " [] := .word (by decide)

section Lists

variable {α : Type} {f : α → String} {g : α → List String}

theorem Tail.optional {o : Option α} (h : ∀ a, o = some a → Tail (f a) (g a)) :
    Tail (Sql.optional o f) (o.toList.flatMap g) := by
  cases o with
  | none => exact Tail.empty
  | some a => simpa [Sql.optional] using h a rfl

theorem Tail.concat {as : List α} (h : ∀ a ∈ as, Tail (f a) (g a)) :
    Tail (Sql.concat (as.map f)) (as.flatMap g) := by
  induction as with
  | nil => exact Tail.empty
  | cons a as ih =>
    rw [List.forall_mem_cons] at h
    exact h.1.append (ih h.2)

/-- A list of pieces with a separator that is a block. -/
theorem Piece.separated {separator : String} (block : Block separator []) {as : List α}
    (h : ∀ a ∈ as, Piece (f a) (g a)) :
    Piece (Sql.separated separator (as.map f)) (as.flatMap g) := by
  induction as with
  | nil => exact Tail.empty.piece
  | cons a as ih =>
    rw [List.forall_mem_cons] at h
    cases as with
    | nil => simpa [Sql.separated] using h.1
    | cons b as =>
      have rest := ih h.2
      have joined := h.1.append (block.append rest)
      simpa [Sql.separated, String.append_assoc] using joined

theorem Tail.clause {keyword : String} (block : Block keyword []) {as : List α}
    (h : ∀ a ∈ as, Piece (f a) (g a)) : Tail (Sql.clause keyword (as.map f)) (as.flatMap g) := by
  cases as with
  | nil => exact Tail.empty
  | cons a as => exact block.append (Piece.separated Block.comma h)

end Lists
end QueryForge.Sql
