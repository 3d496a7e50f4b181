import QueryForge.Expr

/-!
# Named windows

The definitions of a WINDOW clause: each name once, in the order of first registration, with the
definition registered last.
-/

namespace QueryForge

structure NamedWindows where
  entries : List (String × WindowDefinition Expr)
  nodup : (entries.map Prod.fst).Nodup

namespace NamedWindows

def empty : NamedWindows := ⟨[], List.nodup_nil⟩

def names (w : NamedWindows) : List String := w.entries.map Prod.fst

def find? (w : NamedWindows) (name : String) : Option (WindowDefinition Expr) :=
  w.entries.lookup name

/-- Puts a definition in the place of the one with its name, or behind all others. -/
def putEntry (name : String) (definition : WindowDefinition Expr) :
    List (String × WindowDefinition Expr) → List (String × WindowDefinition Expr)
  | [] => [(name, definition)]
  | (other, kept) :: rest =>
    if other = name then (other, definition) :: rest
    else (other, kept) :: putEntry name definition rest

theorem map_fst_putEntry (name : String) (definition : WindowDefinition Expr)
    (entries : List (String × WindowDefinition Expr)) :
    (putEntry name definition entries).map Prod.fst =
      if name ∈ entries.map Prod.fst then entries.map Prod.fst
      else entries.map Prod.fst ++ [name] := by
  induction entries with
  | nil => simp [putEntry]
  | cons entry rest ih =>
    obtain ⟨other, kept⟩ := entry
    by_cases h : other = name
    · simp [putEntry, h]
    · simp only [putEntry, if_neg h, List.map_cons, List.mem_cons, ih, Ne.symm h, false_or]
      split <;> simp

theorem nodup_putEntry (name : String) (definition : WindowDefinition Expr)
    {entries : List (String × WindowDefinition Expr)} (h : (entries.map Prod.fst).Nodup) :
    ((putEntry name definition entries).map Prod.fst).Nodup := by
  rw [map_fst_putEntry]
  split
  · exact h
  · next fresh =>
    refine List.nodup_append.2 ⟨h, by simp, ?_⟩
    intro a ha b hb
    rw [List.mem_singleton.1 hb]
    exact fun hab => fresh (hab ▸ ha)

def put (w : NamedWindows) (name : String) (definition : WindowDefinition Expr) : NamedWindows :=
  ⟨putEntry name definition w.entries, nodup_putEntry name definition w.nodup⟩

/-- Registers entries one after the other. -/
def putAll (w : NamedWindows) (entries : List (String × WindowDefinition Expr)) : NamedWindows :=
  entries.foldl (fun done entry => done.put entry.1 entry.2) w

def entrySql (entry : String × WindowDefinition Expr) : String :=
  entry.1 ++ " AS (" ++ entry.2.text ++ ")"

def sql (w : NamedWindows) : String := Sql.clause " WINDOW " (w.entries.map entrySql)

/-- The same names with the same definitions, in whatever order. -/
def sameValue (w v : NamedWindows) : Bool :=
  w.entries.length == v.entries.length && w.entries.all fun entry =>
    match v.find? entry.1 with
    | some definition => entry.2.sameBy Expr.sameValue definition
    | none => false

end NamedWindows
end QueryForge
