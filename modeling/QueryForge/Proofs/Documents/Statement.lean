import QueryForge.Json.Reader
import QueryForge.Json.Writer
import QueryForge.Proofs.Documents.AlterTable
import QueryForge.Proofs.Documents.Select
import QueryForge.Proofs.Json.Numerals
import QueryForge.Statement

/-!
# Dumped statements are replayed

A value of finite numbers is read back from its own text, field by field, and a text that is
accepted in any spelling decodes to a value whose own text is accepted as well and decodes to the
same value.
-/

namespace QueryForge

open Json

variable {o : Origin} {n : Nat}

namespace Statement

theorem stands (s : Statement) : Stands replay o n s.dump s := by
  have errors := s.expectedErrors.stands (o := o) (n := n)
  refine .of_succ (.record
    [.string s.sql, s.expectedErrors.dump, .boolean s.affectsSchema]
    (by decide) rfl ⟨.string _, errors.writable, .boolean _⟩ ?_)
  rintro m below ⟨-, deep, -⟩
  simp [Fields.required, Decoder.string, Decoder.boolean, errors.reads m below deep]

theorem bounded : Bounded replay dump := by
  refine .record fun fs s read => ?_
  split at read
  · simp only [Option.bind_eq_bind, Option.bind_eq_some_iff, Option.some.injEq] at read
    obtain ⟨sql, -, errors, found, affects, -, rfl⟩ := read
    simp [dump, ErrorRegistry.bounded.required found]
  · cases read

end Statement

namespace SelectQuery

theorem stands {q : SelectQuery} (finite : q.select.IsFinite) (kept : q.select.KeepsWindows o) :
    Stands replay o n q.dump q := by
  have select := Select.stands (n := n) finite kept
  have errors := q.expectedErrors.stands (o := o) (n := n)
  refine .of_succ (.record [q.select.dump, q.expectedErrors.dump]
    (by decide) rfl ⟨select.writable, errors.writable⟩ ?_)
  rintro m below ⟨deep, deep'⟩
  simp [Fields.required, select.reads m below deep, errors.reads m below deep']

theorem decoded_finite : Yields replay fun q => q.select.IsFinite := by
  refine .record fun fs q read => ?_
  split at read
  · simp only [Option.bind_eq_bind, Option.bind_eq_some_iff, Option.some.injEq] at read
    obtain ⟨select, found, errors, -, rfl⟩ := read
    exact Select.decoded_finite.required found
  · cases read

theorem bounded : Bounded replay dump := by
  refine .record fun fs q read => ?_
  split at read
  · simp only [Option.bind_eq_bind, Option.bind_eq_some_iff, Option.some.injEq] at read
    obtain ⟨select, found, errors, found', rfl⟩ := read
    simp [dump, Select.bounded.required found, ErrorRegistry.bounded.required found']
  · cases read

end SelectQuery

namespace Json

variable {α : Type}

/-- The value of a text, if it has one. -/
def decode? (d : Decoder α) (text : String) : Option α := (ofText? text).bind (d .ofText)

/-- A value of finite numbers that is nested no deeper than a reader goes is decoded from its own
text, and the value of any text is decoded from its own text. -/
structure RoundTrips (d : Decoder α) (dump : α → Json) (finite : α → Prop) : Prop where
  dumped : ∀ a, finite a → (dump a).depth ≤ textLevels → decode? d (dump a).text = some a
  decoded : ∀ text a, decode? d text = some a → decode? d (dump a).text = some a

theorem Stands.decode?_text {d : Decoder α} {j : Json} {a : α} (h : Stands d .text textLevels j a)
    (shallow : j.depth ≤ textLevels) : decode? d j.text = some a := by
  rw [decode?, ofText?_text h.writable, Option.bind_some]
  exact h.reads textLevels (Nat.le_refl _) shallow

theorem RoundTrips.of_stands {d : Decoder α} {dump : α → Json} {finite : α → Prop}
    (stands : ∀ a, finite a → Stands d .text textLevels (dump a) a) (decoded : Yields d finite)
    (bounded : Bounded d dump) : RoundTrips d dump finite where
  dumped := fun a finite shallow => (stands a finite).decode?_text shallow
  decoded := by
    intro text a read
    obtain ⟨j, _, found⟩ := Option.bind_eq_some_iff.1 read
    exact (stands a (decoded .ofText j a found)).decode?_text (bounded .ofText j a found)

end Json

theorem Select.decode?_dump {s : Select} (finite : s.IsFinite)
    (shallow : s.dump.depth ≤ textLevels) : decode? replay s.dump.text = some s :=
  (stands finite s.keepsWindows_text).decode?_text shallow

/-- With numerals that denote the nearest number, every type that is dumped and replayed makes the
round trip in both directions. -/
theorem documents_roundTrip :
    FaithfulNumerals ∧
    RoundTrips Select.replay Select.dump Select.IsFinite ∧
    RoundTrips SelectQuery.replay SelectQuery.dump (fun q => q.select.IsFinite) ∧
    RoundTrips AlterTableQuery.replay AlterTableQuery.dump (fun q => q.alterTable.IsFinite) ∧
    RoundTrips Statement.replay Statement.dump (fun _ => True) ∧
    RoundTrips Schema.replay Schema.dump fun _ => True := by
  refine ⟨faithfulNumerals, ?select, ?selectQuery, ?alterTable, ?statement, ?schema⟩
  case select =>
    exact .of_stands (fun s finite => Select.stands finite s.keepsWindows_text)
      Select.decoded_finite Select.bounded
  case selectQuery =>
    exact .of_stands (fun q finite => SelectQuery.stands finite q.select.keepsWindows_text)
      SelectQuery.decoded_finite SelectQuery.bounded
  case alterTable =>
    exact .of_stands (fun q => AlterTableQuery.stands) AlterTableQuery.decoded_finite
      AlterTableQuery.bounded
  case statement =>
    exact .of_stands (fun s _ => s.stands) (fun _ _ _ _ => trivial) Statement.bounded
  case schema => exact .of_stands (fun s _ => s.stands) (fun _ _ _ _ => trivial) Schema.bounded

namespace AlterTableQuery

/-- Fields out of order, an unknown and a missing one, arrays for records, the content `null` of
a variant, and a repeated error. -/
def oddSpelling : String :=
  "\x7b\"x\":0,\"expected_errors\":[[\"e\",\"e\"]]," ++
    "\"statement\":[[[\"t\",false,\x7b\"NotOf\":null\x7d]," ++
    "[\"t\",true,\x7b\"DropColumn\":\x7b\"column\":\"a\",\"if_exists\":true\x7d\x7d]]]\x7d"

def oddlySpelled : AlterTableQuery :=
  ⟨⟨[⟨"t", false, .notOf⟩, ⟨"t", true, .dropColumn true "a" none⟩]⟩, .ofList ["e"]⟩

theorem oddSpelling_roundTrip :
    decode? replay oddSpelling = some oddlySpelled ∧
      decode? replay oddlySpelled.dump.text = some oddlySpelled := by
  have read : decode? replay oddSpelling = some oddlySpelled := by decide +kernel
  exact ⟨read, documents_roundTrip.2.2.2.1.decoded oddSpelling oddlySpelled read⟩

end AlterTableQuery
end QueryForge
