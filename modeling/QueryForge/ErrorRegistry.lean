import QueryForge.Json.Form

/-!
# Registry of expected errors

A registry lists the substrings that a database error may contain without being a finding. It
only grows: a new entry goes to the end and a repeated one changes nothing. A message is expected
if some entry occurs in it. Repeated entries of a document collapse onto the first.
-/

namespace QueryForge

structure ErrorRegistry where
  entries : List String
  nodup : entries.Nodup
deriving DecidableEq, Repr

namespace ErrorRegistry

def empty : ErrorRegistry := ⟨[], List.nodup_nil⟩

def contains (r : ErrorRegistry) (text : String) : Bool := r.entries.contains text

def size (r : ErrorRegistry) : Nat := r.entries.length

def isEmpty (r : ErrorRegistry) : Bool := r.entries.isEmpty

def add (r : ErrorRegistry) (text : String) : ErrorRegistry :=
  if h : text ∈ r.entries then r
  else ⟨r.entries ++ [text], List.nodup_append.2 ⟨r.nodup, by simp, by
    intro a ha b hb
    rw [List.mem_singleton.1 hb]
    exact fun hab => h (hab ▸ ha)⟩⟩

def addAll (r : ErrorRegistry) (texts : List String) : ErrorRegistry := texts.foldl add r

def ofList (texts : List String) : ErrorRegistry := empty.addAll texts

/-- Whether the pattern occurs in the text without a gap. -/
def occursIn (pattern : List Char) : List Char → Bool
  | [] => pattern.isEmpty
  | c :: rest => pattern.isPrefixOf (c :: rest) || occursIn pattern rest

def isExpected (r : ErrorRegistry) (message : String) : Bool :=
  r.entries.any fun entry => occursIn entry.toList message.toList

/-- The same entries, in whatever order. -/
def sameValue (r s : ErrorRegistry) : Bool :=
  r.size == s.size && r.entries.all fun entry => s.contains entry

open Json (Decoder Fields ofStrings)

def fieldNames : List String := ["errors"]

def dump (r : ErrorRegistry) : Json := .object [("errors", ofStrings r.entries)]

def replay : Decoder ErrorRegistry := fun r j => do
  let f ← Fields.ofRecord fieldNames r j
  match f.slots with
  | [errors] => do
    let errors ← f.required (Decoder.list Decoder.string) errors
    some (ofList errors)
  | _ => none

end ErrorRegistry
end QueryForge
