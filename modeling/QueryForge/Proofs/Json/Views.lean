import QueryForge.Json.Form

/-!
# Documents as readers hold them

Text is held as it is written, a request value with the members of every object sorted. If no
name occurs twice, sorting only rearranges the members, and sorted members stay where they are.
-/

namespace QueryForge.Json

@[simp] theorem depth_null : Json.null.depth = 0 := rfl

@[simp] theorem depth_boolean (b : Bool) : (Json.boolean b).depth = 0 := rfl

@[simp] theorem depth_integer (i : Int) : (Json.integer i).depth = 0 := rfl

@[simp] theorem depth_real (x : Binary64) : (Json.real x).depth = 0 := rfl

@[simp] theorem depth_ofDouble (x : Double) : (ofDouble x).depth = 0 := by
  cases x <;> rfl

@[simp] theorem depth_string (s : String) : (Json.string s).depth = 0 := rfl

theorem depthOfItems_le {items : List Json} {l : Nat} :
    depthOfItems items ≤ l ↔ ∀ item ∈ items, item.depth ≤ l := by
  induction items with
  | nil => simp [depthOfItems]
  | cons item rest ih => rw [depthOfItems, Nat.max_le, ih, List.forall_mem_cons]

theorem depthOfMembers_le {members : List (String × Json)} {l : Nat} :
    depthOfMembers members ≤ l ↔ ∀ member ∈ members, member.2.depth ≤ l := by
  induction members with
  | nil => simp [depthOfMembers]
  | cons member rest ih => rw [depthOfMembers, Nat.max_le, ih, List.forall_mem_cons]

@[simp] theorem depth_array_le {items : List Json} {l : Nat} :
    (Json.array items).depth ≤ l + 1 ↔ ∀ item ∈ items, item.depth ≤ l := by
  rw [depth, Nat.add_le_add_iff_right, depthOfItems_le]

theorem depth_tagged (name : String) (content : Json) :
    (tagged name content).depth = content.depth + 1 := by
  rw [tagged, depth, depthOfMembers, depthOfMembers, Nat.max_zero]

@[simp] theorem depth_tagged_le {name : String} {content : Json} {l : Nat} :
    (tagged name content).depth ≤ l + 1 ↔ content.depth ≤ l := by
  rw [depth_tagged, Nat.add_le_add_iff_right]

@[simp] theorem depth_object_le {members : List (String × Json)} {l : Nat} :
    (Json.object members).depth ≤ l + 1 ↔ ∀ member ∈ members, member.2.depth ≤ l := by
  rw [depth, Nat.add_le_add_iff_right, depthOfMembers_le]

theorem depth_object_mono {members more : List (String × Json)} (h : members ⊆ more) :
    (Json.object members).depth ≤ (Json.object more).depth := by
  rw [depth, depth, Nat.add_le_add_iff_right, depthOfMembers_le]
  exact fun member hm => depthOfMembers_le.1 (Nat.le_refl _) member (h hm)

theorem depth_ofStrings (strings : List String) : (ofStrings strings).depth = 1 := by
  have flat : depthOfItems (strings.map .string) ≤ 0 := by
    rw [depthOfItems_le]
    intro item hi
    obtain ⟨s, _, rfl⟩ := List.mem_map.1 hi
    exact Nat.le_refl 0
  rw [ofStrings, depth, Nat.le_zero.1 flat]

theorem depth_ofOption_of_leaf {α : Type} {f : α → Json} (leaf : ∀ a, (f a).depth = 0)
    (x : Option α) : (ofOption f x).depth = 0 := by
  cases x with
  | none => rfl
  | some a => exact leaf a

theorem sortedItems_eq_map (items : List Json) : sortedItems items = items.map sorted := by
  induction items with
  | nil => rfl
  | cons item rest ih => rw [sortedItems, ih, List.map_cons]

theorem sortedValues_eq_map (members : List (String × Json)) :
    sortedValues members = members.map fun member => (member.1, member.2.sorted) := by
  induction members with
  | nil => rfl
  | cons member rest ih => rw [sortedValues, ih, List.map_cons]

theorem insertMember_perm {name : String} {value : Json} {members : List (String × Json)}
    (fresh : name ∉ members.map Prod.fst) :
    (insertMember name value members).Perm ((name, value) :: members) := by
  induction members with
  | nil => exact .refl _
  | cons member rest ih =>
    obtain ⟨other, kept⟩ := member
    rw [List.map_cons, List.mem_cons, not_or] at fresh
    rw [insertMember, if_neg fresh.1]
    split
    · exact .refl _
    · exact ((ih fresh.2).cons _).trans (.swap ..)

theorem foldl_insertMember_perm {done members : List (String × Json)}
    (nodup : ((done ++ members).map Prod.fst).Nodup) :
    (members.foldl (fun done member => insertMember member.1 member.2 done) done).Perm
      (done ++ members) := by
  induction members generalizing done with
  | nil => rw [List.append_nil]; exact .refl _
  | cons member rest ih =>
    have fresh : member.1 ∉ done.map Prod.fst := by
      rw [List.map_append, List.map_cons] at nodup
      exact fun known => (List.nodup_append.1 nodup).2.2 _ known _ List.mem_cons_self rfl
    have step : (insertMember member.1 member.2 done ++ rest).Perm (done ++ member :: rest) :=
      ((insertMember_perm fresh).append_right rest).trans List.perm_middle.symm
    exact (ih ((step.map Prod.fst).nodup_iff.2 nodup)).trans step

/-- Members with different names are only rearranged. -/
theorem sortMembers_perm {members : List (String × Json)} (nodup : (members.map Prod.fst).Nodup) :
    (sortMembers members).Perm members := foldl_insertMember_perm nodup

theorem insertMember_of_forall_lt {name : String} {value : Json} {members : List (String × Json)}
    (last : ∀ other ∈ members.map Prod.fst, other < name) :
    insertMember name value members = members ++ [(name, value)] := by
  induction members with
  | nil => rfl
  | cons member rest ih =>
    obtain ⟨other, kept⟩ := member
    obtain ⟨below, behind⟩ := List.forall_mem_cons.1 last
    have different : name ≠ other := by
      rintro rfl
      exact String.lt_irrefl _ below
    rw [insertMember, if_neg different, if_neg (String.lt_asymm below), ih behind,
      List.cons_append]

theorem foldl_insertMember_of_sorted {done members : List (String × Json)}
    (order : ((done ++ members).map Prod.fst).Pairwise (· < ·)) :
    members.foldl (fun done member => insertMember member.1 member.2 done) done =
      done ++ members := by
  induction members generalizing done with
  | nil => rw [List.append_nil]; rfl
  | cons member rest ih =>
    have last : ∀ other ∈ done.map Prod.fst, other < member.1 := by
      rw [List.map_append, List.map_cons] at order
      exact fun other known =>
        (List.pairwise_append.1 order).2.2 other known _ List.mem_cons_self
    rw [List.foldl_cons, insertMember_of_forall_lt last, ih (by simpa using order),
      List.append_assoc, List.singleton_append]

/-- Members in the order of their names stay where they are. -/
theorem sortMembers_of_sorted {members : List (String × Json)}
    (order : (members.map Prod.fst).Pairwise (· < ·)) : sortMembers members = members :=
  foldl_insertMember_of_sorted order

namespace Origin

/-- The document as a reader of that origin holds it. -/
def view : Origin → Json → Json
  | .text, j => j
  | .request, j => j.sorted

/-- The members of an object with these names are held in this order. -/
def Keeps : Origin → List String → Prop
  | .text, _ => True
  | .request, names => names.Pairwise (· < ·)

variable {o : Origin}

@[simp] theorem view_null : o.view .null = .null := by cases o <;> rfl

@[simp] theorem view_boolean (b : Bool) : o.view (.boolean b) = .boolean b := by cases o <;> rfl

@[simp] theorem view_integer (i : Int) : o.view (.integer i) = .integer i := by cases o <;> rfl

@[simp] theorem view_real (x : Binary64) : o.view (.real x) = .real x := by cases o <;> rfl

@[simp] theorem view_string (s : String) : o.view (.string s) = .string s := by cases o <;> rfl

theorem view_array (items : List Json) : o.view (.array items) = .array (items.map o.view) := by
  cases o with
  | text => exact congrArg Json.array (List.map_id' items).symm
  | request => exact congrArg Json.array (sortedItems_eq_map items)

theorem view_object_perm {members : List (String × Json)} (nodup : (members.map Prod.fst).Nodup) :
    ∃ held, o.view (.object members) = .object held ∧
      held.Perm (members.map fun member => (member.1, o.view member.2)) := by
  cases o with
  | text =>
    have same : members.map (fun member => (member.1, view .text member.2)) = members :=
      List.map_id' members
    exact ⟨members, rfl, .of_eq same.symm⟩
  | request =>
    refine ⟨sortMembers (sortedValues members), rfl, ?_⟩
    rw [sortedValues_eq_map]
    exact sortMembers_perm (by rw [List.map_map]; exact nodup)

theorem view_object_of_keeps {members : List (String × Json)}
    (kept : o.Keeps (members.map Prod.fst)) :
    o.view (.object members) = .object (members.map fun member => (member.1, o.view member.2)) := by
  cases o with
  | text => exact congrArg Json.object (List.map_id' members).symm
  | request =>
    change Json.object (sortMembers (sortedValues members)) = _
    rw [sortedValues_eq_map, sortMembers_of_sorted (by rw [List.map_map]; exact kept)]
    rfl

theorem view_tagged (name : String) (content : Json) :
    o.view (tagged name content) = tagged name (o.view content) := by
  cases o <;> rfl

end Origin

end QueryForge.Json
