import QueryForge.Json

/-!
# Taking values out of documents

A decoder reads a value from a document, and the rules of the common shapes are stated once here:
records, variants, lists and optional values. Every array or object that is looked into uses up
one level, and a reader has a fixed number of them; what nothing looks into costs nothing.
-/

namespace QueryForge.Json

/-- Where a document comes from. In one read as text a field must not be repeated, and the fields
of a variant may be listed in an array; a request value has lost repetitions already and must
name the fields of a variant. -/
inductive Origin where
  | text
  | request
deriving DecidableEq, Repr

structure Reading where
  origin : Origin
  /-- How many arrays and objects may still be entered. -/
  levels : Nat
deriving DecidableEq, Repr

/-- A reader of text refuses more than 127 arrays and objects inside each other. -/
def textLevels : Nat := 127

namespace Reading

def enter (r : Reading) : Option Reading :=
  match r.levels with
  | 0 => none
  | n + 1 => some { r with levels := n }

/-- A document read as text. -/
def ofText : Reading := ⟨.text, textLevels⟩

/-- A request value: its own depth is the only bound. -/
def ofRequest (j : Json) : Reading := ⟨.request, j.depth⟩

end Reading

abbrev Decoder (α : Type) := Reading → Json → Option α

namespace Decoder

variable {α : Type}

def boolean : Decoder Bool
  | _, .boolean b => some b
  | _, _ => none

def string : Decoder String
  | _, .string s => some s
  | _, _ => none

/-- A whole number; a token with a fraction or an exponent is none, whatever its value. -/
def integer : Decoder Int
  | _, .integer i => some i
  | _, _ => none

def unsigned32 : Decoder UInt32 := fun r j => do
  let i ← integer r j
  if 0 ≤ i ∧ i < 4294967296 then some (.ofNat i.toNat) else none

def unsigned64 : Decoder UInt64 := fun r j => do
  let i ← integer r j
  if 0 ≤ i ∧ i < 18446744073709551616 then some (.ofNat i.toNat) else none

def signed32 : Decoder Int32 := fun r j => do
  let i ← integer r j
  if -2147483648 ≤ i ∧ i < 2147483648 then some (.ofInt i) else none

def signed64 : Decoder Int64 := fun r j => do
  let i ← integer r j
  if -9223372036854775808 ≤ i ∧ i < 9223372036854775808 then some (.ofInt i) else none

/-- A whole number is taken to the nearest floating-point one. -/
def real : Decoder Binary64
  | _, .real x => some x
  | _, .integer i => Binary64.ofRank? (i < 0) (Binary64.nearestRank i.natAbs 1)
  | _, _ => none

/-- No document denotes an infinity or a NaN. -/
def double : Decoder Double := fun r j => (real r j).map .finite

def nullable (d : Decoder α) : Decoder (Option α)
  | _, .null => some none
  | r, j => (d r j).map some

def list (d : Decoder α) : Decoder (List α)
  | r, .array items => do
    let inner ← r.enter
    items.mapM (d inner)
  | _, _ => none

/-- The members of an object in written order. -/
def entries (d : Decoder α) : Decoder (List (String × α))
  | r, .object members => do
    let inner ← r.enter
    members.mapM fun member => (d inner member.2).map (member.1, ·)
  | _, _ => none

end Decoder

/-- The fields of a record in declared order, each with its document if there is one, and the
reading that applies inside. -/
structure Fields where
  inner : Reading
  slots : List (Option Json)

namespace Fields

variable {α : Type}

/-- No declared name occurs twice among the members. -/
def unrepeated (names : List String) (members : List (String × Json)) : Bool :=
  names.all fun name => (members.filter fun member => member.1 == name).length ≤ 1

/-- Fields named by the members of an object. Names that are not declared are passed over. -/
def ofMembers (names : List String) (r : Reading) (members : List (String × Json)) :
    Option Fields := do
  let inner ← r.enter
  if r.origin = .text ∧ ¬ unrepeated names members then none
  else some ⟨inner, names.map fun name => members.lookup name⟩

/-- A record is an object, or an array of exactly all of its fields. -/
def ofRecord (names : List String) (r : Reading) : Json → Option Fields
  | .object members => ofMembers names r members
  | .array items => do
    let inner ← r.enter
    if items.length = names.length then some ⟨inner, items.map some⟩ else none
  | _ => none

/-- The fields of a variant. -/
def ofVariant (names : List String) (r : Reading) : Json → Option Fields
  | .object members => ofMembers names r members
  | .array items => if r.origin = .text then ofRecord names r (.array items) else none
  | _ => none

/-- The items of a variant without field names: an array of exactly that many. -/
def ofTuple (size : Nat) (r : Reading) : Json → Option Fields
  | .array items => do
    let inner ← r.enter
    if items.length = size then some ⟨inner, items.map some⟩ else none
  | _ => none

/-- A field that must be there. -/
def required (f : Fields) (d : Decoder α) (slot : Option Json) : Option α :=
  slot.bind (d f.inner)

/-- A field whose absence means the same as `null`. -/
def optional (f : Fields) (d : Decoder α) : Option Json → Option (Option α)
  | none => some none
  | some j => d.nullable f.inner j

end Fields

/-- A variant is named by a string, or by the only member of an object, which holds its content. -/
structure Variant where
  name : String
  content : Option Json
  inner : Reading

namespace Variant

variable {α : Type}

def of? (r : Reading) : Json → Option Variant
  | .string name => some ⟨name, none, r⟩
  | .object [(name, content)] => do
    let inner ← r.enter
    some ⟨name, some content, inner⟩
  | _ => none

/-- A variant without content may also be given with the content `null`. -/
def isBare (v : Variant) : Bool :=
  match v.content with
  | none => true
  | some .null => true
  | some _ => false

def bare (v : Variant) (value : α) : Option α := if v.isBare then some value else none

/-- The content of a variant that holds one value. -/
def single (v : Variant) (d : Decoder α) : Option α := v.content.bind (d v.inner)

def fields (v : Variant) (names : List String) : Option Fields :=
  v.content.bind (Fields.ofVariant names v.inner)

def tuple (v : Variant) (size : Nat) : Option Fields :=
  v.content.bind (Fields.ofTuple size v.inner)

end Variant

/-- One of finitely many named values. -/
def Decoder.oneOf {α : Type} (all : List α) (name : α → String) : Decoder α := fun r j => do
  let v ← Variant.of? r j
  let found ← all.find? fun a => name a == v.name
  v.bare found

/-- The document of a variant with content. -/
def tagged (name : String) (content : Json) : Json := .object [(name, content)]

def ofOption {α : Type} (f : α → Json) : Option α → Json
  | none => .null
  | some a => f a

def ofStrings (strings : List String) : Json := .array (strings.map .string)

end QueryForge.Json
