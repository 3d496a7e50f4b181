import QueryForge.Proofs.Lexemes
import QueryForge.Select.Clauses

/-!
# The clause skeleton of a text

A reader that knows quotes, parentheses and the words that begin a clause splits a text into
clauses. Outside of literals and parentheses it takes words as a whole, and a word that begins a
clause ends the one before. A text without such words is quiet: it goes into the clause that it
stands in.
-/

namespace QueryForge

/-- What begins a clause, and what stands between two statements. -/
inductive ClauseKeyword where
  | withClause
  | select
  | fromItems
  | filter
  | groupBy
  | having
  | windows
  | orderBy
  | limit
  | offset
  | lock
  | setOperation (operator : SetOperator)
deriving DecidableEq, Repr

namespace ClauseKeyword

/-- A keyword that another one begins with comes behind it. -/
def all : List ClauseKeyword :=
  [.withClause, .select, .fromItems, .filter, .groupBy, .having, .windows, .orderBy, .limit,
    .offset, .lock, .setOperation .unionAll, .setOperation .union, .setOperation .intersect,
    .setOperation .except]

def sql : ClauseKeyword → String
  | .withClause => "WITH"
  | .select => "SELECT"
  | .fromItems => "FROM"
  | .filter => "WHERE"
  | .groupBy => "GROUP BY"
  | .having => "HAVING"
  | .windows => "WINDOW"
  | .orderBy => "ORDER BY"
  | .limit => "LIMIT"
  | .offset => "OFFSET"
  | .lock => "FOR"
  | .setOperation operator => operator.sql

def firstWord : ClauseKeyword → String
  | .groupBy => "GROUP"
  | .orderBy => "ORDER"
  | .setOperation .unionAll => "UNION"
  | k => k.sql

theorem any_isUpper : ∀ k ∈ all, k.firstWord.toList.any Char.isUpper := by decide

def isOperator : ClauseKeyword → Bool
  | .setOperation _ => true
  | _ => false

end ClauseKeyword

namespace Sql

def isWordChar (c : Char) : Bool := c.isAlphanum || c == '_'

/-- A whole word outside of literals and parentheses, or any other lexeme. -/
inductive Token where
  | word (letters : List Char)
  | other (lexeme : Lexeme)
deriving DecidableEq

namespace Token

def chars : Token → List Char
  | .word letters => letters
  | .other lexeme => lexeme.chars

def blank : Token := .other (.code ' ')

/-- Puts a lexeme of some depth in front of tokens; a letter goes into the word that it begins. -/
def cons : Nat → Lexeme → List Token → List Token
  | 0, .code c, ts =>
    if isWordChar c then
      match ts with
      | .word letters :: rest => .word (c :: letters) :: rest
      | _ => .word [c] :: ts
    else .other (.code c) :: ts
  | _, l, ts => .other l :: ts

end Token

/-- The tokens of lexemes that stand at a depth of parentheses. -/
def tokens : Nat → List Lexeme → List Token
  | _, [] => []
  | d, l :: ls => Token.cons d l (tokens ((l.depthAfter d).getD 0) ls)

def textOf (ts : List Token) : String := String.ofList (ts.flatMap Token.chars)

end Sql

open Sql

def ClauseKeyword.tokens (k : ClauseKeyword) : List Token := Sql.tokens 0 (k.sql.toList.map .code)

/-- What stands before the first clause, and the clauses, each with its keyword. -/
structure Skeleton where
  front : List Token
  clauses : List (ClauseKeyword × List Token)
deriving DecidableEq

namespace Skeleton

/-- Puts a token in front. If a keyword begins with it, what stood in front is its clause. -/
def step (t : Token) (s : Skeleton) : Skeleton :=
  match ClauseKeyword.all.find? fun k => k.tokens.isPrefixOf (t :: s.front) with
  | some k => ⟨[], (k, (t :: s.front).drop k.tokens.length) :: s.clauses⟩
  | none => ⟨t :: s.front, s.clauses⟩

def behind (ts : List Token) (s : Skeleton) : Skeleton := ts.foldr step s

def read (ts : List Token) : Skeleton := behind ts ⟨[], []⟩

end Skeleton

/-- A keyword with the text up to the next one. -/
abbrev Segment := ClauseKeyword × String

/-- What stands before the first clause keyword of a text, and the segments from there on. -/
def skeleton (text : String) : Option (String × List Segment) :=
  (lexemes text).map fun ls =>
    let s := Skeleton.read (Sql.tokens 0 ls)
    (textOf s.front, s.clauses.map fun c => (c.1, textOf c.2))

namespace Sql

/-- A character at which every word and every comment ends. -/
def separates (c : Char) : Bool := !isWordChar c && c != '-'

def Lexeme.Separates : Lexeme → Prop
  | .code c => separates c
  | .literal _ => False

/-- Where a word of the first lexemes does not go on in the second. -/
def Seam (ls ms : List Lexeme) : Prop :=
  (∀ l ∈ ls.getLast?, l.Separates) ∨ ∀ m ∈ ms.head?, m.Separates

theorem separates_iff {c : Char} : separates c ↔ isWordChar c = false ∧ c ≠ '-' := by
  simp [separates]

theorem Lexeme.Separates.isFirm {l : Lexeme} (h : l.Separates) : l.IsFirm := by
  cases l with
  | code c => exact (separates_iff.1 h).2
  | literal text => cases h

namespace Token

variable {d : Nat} {l m : Lexeme} {ts us : List Token}

theorem cons_separates (h : l.Separates) : cons d l ts = .other l :: ts := by
  cases l with
  | literal text => cases h
  | code c =>
    cases d with
    | succ d => rfl
    | zero => simp [cons, (separates_iff.1 h).1]

theorem cons_other : cons d l (.other m :: ts) = cons d l [] ++ .other m :: ts := by
  cases d with
  | succ d => rfl
  | zero =>
    cases l with
    | literal text => rfl
    | code c => by_cases h : isWordChar c <;> simp [cons, h]

theorem cons_append (nonempty : ts ≠ []) : cons d l (ts ++ us) = cons d l ts ++ us := by
  obtain ⟨t, ts, rfl⟩ := List.exists_cons_of_ne_nil nonempty
  cases t with
  | other m =>
    rw [List.cons_append, cons_other, cons_other, List.append_assoc]
    rfl
  | word letters =>
    cases d with
    | succ d => rfl
    | zero =>
      cases l with
      | literal text => rfl
      | code c => by_cases h : isWordChar c <;> simp [cons, h]

theorem cons_ne_nil : cons d l ts ≠ [] := by
  unfold cons
  split
  · split
    · split <;> exact List.cons_ne_nil _ _
    · exact List.cons_ne_nil _ _
  · exact List.cons_ne_nil _ _

theorem flatMap_chars_cons : (cons d l ts).flatMap chars = l.chars ++ ts.flatMap chars := by
  unfold cons
  split
  · split
    · split <;> rfl
    · rfl
  · rfl

end Token

theorem tokens_ne_nil {d : Nat} {ls : List Lexeme} (nonempty : ls ≠ []) : tokens d ls ≠ [] := by
  obtain ⟨l, ls, rfl⟩ := List.exists_cons_of_ne_nil nonempty
  exact Token.cons_ne_nil

/-- Nothing of a text is lost. -/
theorem flatMap_chars_tokens (d : Nat) (ls : List Lexeme) :
    (tokens d ls).flatMap Token.chars = ls.flatMap Lexeme.chars := by
  induction ls generalizing d with
  | nil => rfl
  | cons l ls ih => rw [tokens, Token.flatMap_chars_cons, ih, List.flatMap_cons]

/-- Balanced lexemes and what follows them have their tokens apart. -/
theorem tokens_append {d : Nat} {ls ms : List Lexeme} (balanced : depthAfter d ls = some 0)
    (seam : Seam ls ms) : tokens d (ls ++ ms) = tokens d ls ++ tokens 0 ms := by
  induction ls generalizing d with
  | nil =>
    obtain rfl : d = 0 := Option.some.inj balanced
    rfl
  | cons l ls ih =>
    obtain ⟨e, he, rest⟩ : ∃ e, l.depthAfter d = some e ∧ depthAfter e ls = some 0 :=
      Option.bind_eq_some_iff.1 balanced
    have next : (l.depthAfter d).getD 0 = e := by rw [he]; rfl
    rw [List.cons_append, tokens, tokens, next]
    by_cases last : ls = []
    · subst last
      obtain rfl : e = 0 := Option.some.inj rest
      rw [List.nil_append]
      rcases seam with ends | starts
      · rw [Token.cons_separates (ends l rfl), Token.cons_separates (ends l rfl)]
        rfl
      · cases ms with
        | nil => simp [tokens]
        | cons m ms =>
          have first : tokens 0 (m :: ms) = .other m :: tokens ((m.depthAfter 0).getD 0) ms :=
            Token.cons_separates (starts m rfl)
          rw [first, Token.cons_other]
          rfl
    · have seam' : Seam ls ms := by
        rwa [Seam, ← List.singleton_append, List.getLast?_append_of_ne_nil _ last] at seam
      rw [ih rest seam', Token.cons_append (tokens_ne_nil last)]

/-- Between parentheses there are no words. -/
theorem tokens_inside {d e : Nat} {ls : List Lexeme} (h : depthAfter d ls = some e)
    (ms : List Lexeme) : tokens (d + 1) (ls ++ ms) = ls.map .other ++ tokens (e + 1) ms := by
  induction ls generalizing d with
  | nil =>
    obtain rfl : d = e := Option.some.inj h
    rfl
  | cons l ls ih =>
    obtain ⟨f, hf, rest⟩ : ∃ f, l.depthAfter d = some f ∧ depthAfter f ls = some e :=
      Option.bind_eq_some_iff.1 h
    have deeper : l.depthAfter (d + 1) = some (f + 1) := by
      cases l with
      | literal text => exact congrArg (Option.map (· + 1)) hf
      | code c =>
        unfold Lexeme.depthAfter at hf ⊢
        by_cases opening : c = '('
        · simp_all
        · by_cases closing : c = ')'
          · simp_all
            omega
          · simp_all
    rw [List.cons_append, tokens, deeper, Option.getD_some, ih rest]
    rfl

end Sql

namespace Sql

/-- No keyword begins with the token. -/
def Token.IsQuiet : Token → Prop
  | .word letters => ∀ k ∈ ClauseKeyword.all, letters ≠ k.firstWord.toList
  | .other _ => True

instance : DecidablePred Token.IsQuiet
  | .word _ => List.decidableBAll _ _
  | .other _ => isTrue trivial

theorem Token.isQuiet_of_lower {letters : List Char} (h : ∀ c ∈ letters, c.isUpper = false) :
    (Token.word letters).IsQuiet := by
  rintro k hk rfl
  obtain ⟨c, hc, capital⟩ := List.any_eq_true.1 (ClauseKeyword.any_isUpper k hk)
  rw [h c hc] at capital
  cases capital

def Calm (ls : List Lexeme) : Prop := ∀ t ∈ tokens 0 ls, t.IsQuiet

/-- A text without clause keywords outside of literals and parentheses. -/
def Quiet (text : String) : Prop := ∃ texts ls, Lexes text texts ls ∧ Calm ls

/-- A quiet text that may stand behind any text. -/
def QuietTail (text : String) : Prop :=
  ∃ texts ls, Lexes text texts ls ∧ Calm ls ∧ ∀ l ∈ ls.head?, l.Separates

/-- A quiet text that may also stand in front of any text. -/
def QuietBlock (text : String) : Prop :=
  ∃ texts ls, Lexes text texts ls ∧ Calm ls ∧ ls ≠ [] ∧ (∀ l ∈ ls.head?, l.Separates) ∧
    ∀ l ∈ ls.getLast?, l.Separates

variable {t u : String} {ls ms : List Lexeme} {xs ys : List String}

theorem Calm.append (h : Calm ls) (g : Calm ms) (balanced : depthAfter 0 ls = some 0)
    (seam : Seam ls ms) : Calm (ls ++ ms) := by
  unfold Calm
  rw [tokens_append balanced seam, List.forall_mem_append]
  exact ⟨h, g⟩

/-- Texts go together at a lexeme that separates. -/
theorem Lexes.seam (h : Lexes t xs ls) (g : Lexes u ys ms) (seam : Seam ls ms) :
    Lexes (t ++ u) (xs ++ ys) (ls ++ ms) := by
  apply h.append g
  intro l hl m hm
  rcases seam with ends | starts
  · exact (ends l hl).isFirm.apart_left
  · exact (starts m hm).isFirm.apart_right

theorem QuietTail.quiet (h : QuietTail t) : Quiet t := by
  obtain ⟨xs, ls, lexes, calm, -⟩ := h
  exact ⟨xs, ls, lexes, calm⟩

theorem QuietBlock.tail (h : QuietBlock t) : QuietTail t := by
  obtain ⟨xs, ls, lexes, calm, -, starts, -⟩ := h
  exact ⟨xs, ls, lexes, calm, starts⟩

theorem QuietTail.empty : QuietTail "" := by
  obtain ⟨ls, lexes, -⟩ := Tail.empty
  obtain rfl := lexes.eq_nil_of_empty
  exact ⟨_, _, lexes, by simp [Calm, tokens], by simp⟩

theorem Quiet.append (h : Quiet t) (g : QuietTail u) : Quiet (t ++ u) := by
  obtain ⟨xs, ls, lexes, calm⟩ := h
  obtain ⟨ys, ms, lexes', calm', starts⟩ := g
  exact ⟨_, _, lexes.seam lexes' (.inr starts), calm.append calm' (lexes.depth 0) (.inr starts)⟩

theorem QuietTail.append (h : QuietTail t) (g : QuietTail u) : QuietTail (t ++ u) := by
  obtain ⟨xs, ls, lexes, calm, starts⟩ := h
  obtain ⟨ys, ms, lexes', calm', starts'⟩ := g
  refine ⟨_, _, lexes.seam lexes' (.inr starts'),
    calm.append calm' (lexes.depth 0) (.inr starts'), ?_⟩
  cases ls with
  | nil => exact starts'
  | cons l ls => exact starts

theorem QuietBlock.append (h : QuietBlock t) (g : Quiet u) : QuietTail (t ++ u) := by
  obtain ⟨xs, ls, lexes, calm, nonempty, starts, ends⟩ := h
  obtain ⟨ys, ms, lexes', calm'⟩ := g
  refine ⟨_, _, lexes.seam lexes' (.inl ends), calm.append calm' (lexes.depth 0) (.inl ends), ?_⟩
  obtain ⟨l, ls, rfl⟩ := List.exists_cons_of_ne_nil nonempty
  exact starts

/-- Whatever stands between parentheses is out of sight. -/
theorem Piece.quietGroup (h : Piece t xs) : QuietBlock ("(" ++ t ++ ")") := by
  obtain ⟨ls, lexes⟩ := h
  refine ⟨_, _, lexes.group, ?_, by simp, ?_, ?_⟩
  · have inside := tokens_inside (lexes.depth 0) [.code ')']
    have all : tokens 0 (.code '(' :: (ls ++ [.code ')'])) =
        .other (.code '(') :: (ls.map .other ++ [.other (.code ')')]) :=
      congrArg (Token.other (.code '(') :: ·) inside
    unfold Calm
    rw [all]
    intro t ht
    simp only [List.mem_cons, List.mem_append, List.mem_map, List.not_mem_nil, or_false] at ht
    rcases ht with rfl | ⟨l, -, rfl⟩ | rfl <;> trivial
  · intro l hl
    cases hl
    rfl
  · intro l hl
    rw [← List.cons_append, List.getLast?_append] at hl
    cases hl
    rfl

/-- A text without capitals. -/
theorem Piece.quiet (h : Piece t xs) (lower : ∀ c ∈ t.toList, c.isUpper = false) : Quiet t := by
  obtain ⟨ls, lexes⟩ := h
  refine ⟨xs, ls, lexes, ?_⟩
  intro token mem
  cases token with
  | other l => trivial
  | word letters =>
    apply Token.isQuiet_of_lower
    intro c hc
    apply lower
    rw [lexes.chars, ← flatMap_chars_tokens 0 ls]
    exact List.mem_flatMap.2 ⟨_, mem, hc⟩

theorem Quiet.quoted (s : String) : Quiet (quoted s) := by
  refine ⟨_, _, Lexes.quoted s, ?_⟩
  intro token mem
  obtain rfl : token = .other (.literal s) := List.mem_singleton.1 mem
  trivial

/-- Letters and signs without quotes and parentheses, of which no clause keyword is read. -/
def QuietWord (w : String) : Prop := isWord w ∧ Calm (w.toList.map .code)

instance : DecidablePred Calm := fun _ => List.decidableBAll _ _

instance : DecidablePred QuietWord := fun _ => inferInstanceAs (Decidable (_ ∧ _))

theorem Quiet.word (h : QuietWord t) : Quiet t := ⟨_, _, Lexes.word h.1, h.2⟩

theorem head?_separates (h : t.toList.head?.all separates) :
    ∀ l ∈ (t.toList.map Lexeme.code).head?, l.Separates := by
  intro l hl
  rw [List.head?_map] at hl
  obtain ⟨c, hc, rfl⟩ := Option.map_eq_some_iff.1 hl
  rwa [hc] at h

theorem getLast?_separates (h : t.toList.getLast?.all separates) :
    ∀ l ∈ (t.toList.map Lexeme.code).getLast?, l.Separates := by
  intro l hl
  rw [List.getLast?_map] at hl
  obtain ⟨c, hc, rfl⟩ := Option.map_eq_some_iff.1 hl
  rwa [hc] at h

theorem QuietTail.word (h : QuietWord t ∧ t.toList.head?.all separates) : QuietTail t :=
  ⟨_, _, Lexes.word h.1.1, h.1.2, head?_separates h.2⟩

theorem QuietBlock.word
    (h : QuietWord t ∧ t.toList.head?.all separates ∧ t.toList.getLast?.all separates) :
    QuietBlock t := by
  obtain ⟨word, starts, ends⟩ := h
  have nonempty := (isWord_iff.1 word.1).1
  exact ⟨_, _, Lexes.word word.1, word.2, by simpa using nonempty, head?_separates starts,
    getLast?_separates ends⟩

example : ¬QuietWord "IS DISTINCT FROM" := by decide

section Lists

variable {α : Type} {f : α → String}

theorem QuietTail.optional {o : Option α} (h : ∀ a, o = some a → QuietTail (f a)) :
    QuietTail (Sql.optional o f) := by
  cases o with
  | none => exact QuietTail.empty
  | some a => exact h a rfl

theorem QuietTail.concat {as : List α} (h : ∀ a ∈ as, QuietTail (f a)) :
    QuietTail (Sql.concat (as.map f)) := by
  induction as with
  | nil => exact QuietTail.empty
  | cons a as ih =>
    rw [List.forall_mem_cons] at h
    exact h.1.append (ih h.2)

theorem Quiet.commaSeparated {texts : List String} (h : ∀ t ∈ texts, Quiet t) :
    Quiet (commaSeparated texts) := by
  have comma : QuietBlock ", " := .word (by decide)
  unfold Sql.commaSeparated
  induction texts with
  | nil => exact QuietTail.empty.quiet
  | cons t ts ih =>
    rw [List.forall_mem_cons] at h
    cases ts with
    | nil => exact h.1
    | cons u us =>
      have joined := h.1.append (comma.append (ih h.2))
      simpa [Sql.separated, String.append_assoc] using joined

end Lists
end Sql

namespace ClauseKeyword

theorem lexes (k : ClauseKeyword) : Lexes k.sql [] (k.sql.toList.map .code) := by
  apply Lexes.word
  cases k with
  | setOperation operator => cases operator <;> decide
  | _ => decide

theorem exists_tokens_eq_cons (k : ClauseKeyword) :
    ∃ ts, k.tokens = .word k.firstWord.toList :: ts := by
  cases k with
  | setOperation operator => cases operator <;> exact ⟨_, rfl⟩
  | _ => exact ⟨_, rfl⟩

end ClauseKeyword

namespace Skeleton

variable {s : Skeleton} {t : Token} {ts us : List Token}

theorem step_quiet (h : t.IsQuiet) : step t s = ⟨t :: s.front, s.clauses⟩ := by
  have none : (ClauseKeyword.all.find? fun k => k.tokens.isPrefixOf (t :: s.front)) = none := by
    apply List.find?_eq_none.2
    intro k hk found
    obtain ⟨us, tokens⟩ := k.exists_tokens_eq_cons
    rw [tokens, List.isPrefixOf_iff_prefix] at found
    rw [← (List.cons_prefix_cons.1 found).1] at h
    exact h k hk rfl
  rw [step, none]

theorem behind_append : behind (ts ++ us) s = behind ts (behind us s) := List.foldr_append

/-- Quiet tokens go into the clause that they stand in. -/
theorem behind_quiet (h : ∀ t ∈ ts, t.IsQuiet) : behind ts s = ⟨ts ++ s.front, s.clauses⟩ := by
  induction ts with
  | nil => rfl
  | cons t ts ih =>
    rw [List.forall_mem_cons] at h
    have rest : behind (t :: ts) s = step t (behind ts s) := rfl
    rw [rest, ih h.2, step_quiet h.1]
    rfl

/-- A keyword begins a clause with what stood in front. -/
theorem behind_keyword (k : ClauseKeyword)
    (apart : k.isOperator → s.front = [] ∨ s.front = [.blank]) :
    behind k.tokens s = ⟨[], (k, s.front) :: s.clauses⟩ := by
  obtain ⟨front, clauses⟩ := s
  cases k with
  | setOperation operator =>
    rcases apart rfl with empty | blank
    · cases empty
      cases operator <;> rfl
    · cases blank
      cases operator <;> rfl
  | _ => rfl

end Skeleton

namespace Segment

/-- The blank in front of the next keyword. -/
def gap : List Segment → String
  | [] => ""
  | _ :: _ => " "

/-- Segments with the blanks between them. -/
def spread : List Segment → List Segment
  | [] => []
  | (k, text) :: rest => (k, text ++ gap rest) :: spread rest

theorem spread_injective {a b : List Segment} (same : spread a = spread b) : a = b := by
  induction a generalizing b with
  | nil =>
    cases b with
    | nil => rfl
    | cons => cases same
  | cons s rest ih =>
    cases b with
    | nil => cases same
    | cons s' rest' =>
      obtain ⟨first, others⟩ := List.cons.inj same
      obtain rfl := ih others
      obtain ⟨keywords, texts⟩ := Prod.mk.inj first
      have chars := congrArg String.toList texts
      rw [String.toList_append, String.toList_append, List.append_left_inj] at chars
      rw [Prod.ext keywords (String.toList_injective chars)]

end Segment

/-- A text that begins with a clause keyword, and the segments that are read of it. -/
def Opens (text : String) (segments : List Segment) : Prop :=
  ∃ texts ls clauses, Lexes text texts ls ∧ Skeleton.read (Sql.tokens 0 ls) = ⟨[], clauses⟩ ∧
    clauses.map (Prod.map id textOf) = Segment.spread segments

/-- A text that may stand behind the content of a clause: none, or a blank and then segments. -/
def Trails (text : String) : List Segment → Prop
  | [] => text = ""
  | segment :: rest => ∃ opening, text = " " ++ opening ∧ Opens opening (segment :: rest)

variable {text raw : String} {segments : List Segment}

theorem Opens.skeleton_eq (h : Opens text segments) :
    skeleton text = some ("", Segment.spread segments) := by
  obtain ⟨texts, ls, clauses, lexes, read, spread⟩ := h
  simp only [skeleton, lexes.read, read, Option.map_some, ← spread]
  rfl

theorem Trails.read (h : Trails text segments) :
    ∃ texts ls front clauses, Lexes text texts ls ∧ (∀ l ∈ ls.head?, l.Separates) ∧
      Skeleton.read (Sql.tokens 0 ls) = ⟨front, clauses⟩ ∧ (front = [] ∨ front = [.blank]) ∧
      textOf front = Segment.gap segments ∧
      clauses.map (Prod.map id textOf) = Segment.spread segments := by
  cases segments with
  | nil =>
    cases h
    obtain ⟨_, lexes, -⟩ := Tail.empty
    obtain rfl := lexes.eq_nil_of_empty
    exact ⟨_, [], [], [], lexes, by simp, rfl, .inl rfl, rfl, rfl⟩
  | cons segment rest =>
    obtain ⟨opening, rfl, texts, ls, clauses, lexes, read, spread⟩ := h
    have separates : (Lexeme.code ' ').Separates := rfl
    have blank : Lexes " " [] [.code ' '] := Lexes.word (by decide)
    have quiet : Token.blank.IsQuiet := trivial
    refine ⟨_, .code ' ' :: ls, [.blank], clauses, blank.seam lexes (.inl ?_), ?_, ?_, .inr rfl,
      rfl, spread⟩
    · intro l hl
      cases hl
      exact separates
    · intro l hl
      cases hl
      exact separates
    · have tokens : Sql.tokens 0 (.code ' ' :: ls) = .blank :: Sql.tokens 0 ls :=
        Token.cons_separates separates
      have first : Skeleton.read (.blank :: Sql.tokens 0 ls) =
          Skeleton.step .blank (Skeleton.read (Sql.tokens 0 ls)) := rfl
      rw [tokens, first, read, Skeleton.step_quiet quiet]

/-- A clause in front of others. A set operator has nothing of its own behind it. -/
theorem Trails.opens (h : Trails text segments) (k : ClauseKeyword) (quiet : QuietTail raw)
    (bare : k.isOperator → raw = "") :
    Opens (k.sql ++ (raw ++ text)) ((k, raw) :: segments) := by
  obtain ⟨xs, ls, front, clauses, lexes, starts, read, blank, gap, spread⟩ := h.read
  obtain ⟨ys, ms, lexes', calm, starts'⟩ := quiet
  have seam : ∀ l ∈ (ms ++ ls).head?, l.Separates := by
    cases ms with
    | nil => exact starts
    | cons m ms => exact starts'
  have balanced := k.lexes.depth 0
  refine ⟨_, _, (k, Sql.tokens 0 ms ++ front) :: clauses,
    k.lexes.seam (lexes'.seam lexes (.inr starts)) (.inr seam), ?_, ?_⟩
  · rw [tokens_append balanced (.inr seam), tokens_append (lexes'.depth 0) (.inr starts)]
    change Skeleton.behind _ _ = _
    change Skeleton.behind _ _ = _ at read
    rw [Skeleton.behind_append, Skeleton.behind_append, read, Skeleton.behind_quiet calm]
    apply Skeleton.behind_keyword k
    intro operator
    cases bare operator
    obtain rfl := lexes'.eq_nil_of_empty
    exact blank
  · have content : textOf (Sql.tokens 0 ms ++ front) = raw ++ Segment.gap segments := by
      rw [← gap]
      apply String.toList_injective
      simp [textOf, flatMap_chars_tokens, lexes'.chars]
    rw [List.map_cons, spread, Prod.map_apply, content]
    rfl

theorem Opens.trails (h : Opens text segments) (nonempty : segments ≠ []) :
    Trails (" " ++ text) segments := by
  obtain ⟨segment, rest, rfl⟩ := List.exists_cons_of_ne_nil nonempty
  exact ⟨text, rfl, h⟩

end QueryForge
