import QueryForge.Proofs.Json.Views
import QueryForge.Proofs.Lookup

/-!
# Readers of text and of request values

A reader of text and a reader of request values agree on a document if, whenever both accept it,
what the second makes of the sorted document is the image of what the first makes of the document
as it is written. Neither has to accept what the other does. Records, variants, lists and optional
values inherit agreement from their parts.
-/

namespace QueryForge.Json

section Sorting

variable {name : String} {value : Json} {members : List (String × Json)}

theorem lookup_insertMember {other : String} :
    (insertMember other value members).lookup name =
      if name = other then some value else members.lookup name := by
  induction members with
  | nil => exact lookup_cons_eq_ite
  | cons member rest ih =>
    obtain ⟨next, kept⟩ := member
    rw [insertMember]
    by_cases same : other = next
    · subst same
      rw [if_pos rfl, lookup_cons_eq_ite, lookup_cons_eq_ite]
      by_cases h : name = other
      · rw [if_pos h, if_pos h]
      · rw [if_neg h, if_neg h, if_neg h]
    · rw [if_neg same]
      by_cases before : other < next
      · rw [if_pos before, lookup_cons_eq_ite]
      · rw [if_neg before, lookup_cons_eq_ite, lookup_cons_eq_ite, ih]
        by_cases h : name = next
        · rw [if_pos h, if_neg (h ▸ Ne.symm same), if_pos h]
        · rw [if_neg h, if_neg h]

/-- A map keeps the last value of each name. -/
theorem lookup_sortMembers : (sortMembers members).lookup name = lastValue? name members := by
  have last := foldl_eq_lastValue? (List.lookup name) (fun _ _ => lookup_insertMember) [] members
  rwa [List.lookup_nil, Option.or_none] at last

theorem mem_names_insertMember {other : String}
    (h : name ∈ (insertMember other value members).map Prod.fst) :
    name = other ∨ name ∈ members.map Prod.fst := by
  by_cases same : name = other
  · exact .inl same
  · refine .inr (not_not.1 fun absent => ?_)
    have none : (insertMember other value members).lookup name = .none := by
      rw [lookup_insertMember, if_neg same, lookup_eq_none_iff_notMem.2 absent]
    exact lookup_eq_none_iff_notMem.1 none h

theorem sorted_insertMember (order : (members.map Prod.fst).Pairwise (· < ·)) :
    ((insertMember name value members).map Prod.fst).Pairwise (· < ·) := by
  induction members with
  | nil => exact List.pairwise_singleton ..
  | cons member rest ih =>
    obtain ⟨next, kept⟩ := member
    obtain ⟨first, order'⟩ := List.pairwise_cons.1 order
    rw [insertMember]
    by_cases same : name = next
    · subst same
      rw [if_pos rfl]
      exact order
    · rw [if_neg same]
      by_cases before : name < next
      · rw [if_pos before]
        refine List.pairwise_cons.2 ⟨fun other known => ?_, order⟩
        rcases List.mem_cons.1 known with rfl | behind
        · exact before
        · exact String.lt_trans before (first other behind)
      · rw [if_neg before]
        refine List.pairwise_cons.2 ⟨fun other known => ?_, ih order'⟩
        rcases mem_names_insertMember known with rfl | behind
        · exact not_not.1 fun above =>
            same (String.le_antisymm (String.not_lt.1 above) (String.not_lt.1 before))
        · exact first other behind

/-- A map lists its names in order. -/
theorem sorted_sortMembers : ((sortMembers members).map Prod.fst).Pairwise (· < ·) := by
  unfold sortMembers
  induction members using List.reverseRecOn with
  | nil => exact .nil
  | append_singleton members member ih =>
    rw [List.foldl_append, List.foldl_cons, List.foldl_nil]
    exact sorted_insertMember ih

theorem sortedValues_related (members : List (String × Json)) :
    EntriesRelated (fun j k => k = j.sorted) members (sortedValues members) := by
  rw [sortedValues_eq_map]
  refine List.forall₂_map_right_iff.2 (List.forall₂_same.2 fun _ _ => ⟨rfl, rfl⟩)

/-- The sorted document has under each name what comes last under it, sorted. -/
theorem lookup_sorted_members :
    (sortMembers (sortedValues members)).lookup name =
      (lastValue? name members).map sorted := by
  rw [lookup_sortMembers]
  have related : Option.Rel (fun j k => k = j.sorted) (lastValue? name members)
      (lastValue? name (sortedValues members)) := (sortedValues_related members).lastValue?
  generalize lastValue? name members = x at related ⊢
  generalize lastValue? name (sortedValues members) = y at related ⊢
  cases related with
  | none => rfl
  | some same => rw [same, Option.map_some]

end Sorting

variable {α β γ δ : Type}

/-- If both computations succeed, the second one yields the image of what the first one yields. -/
def Meets (f : α → β) (x : Option α) (y : Option β) : Prop :=
  ∀ a b, x = some a → y = some b → b = f a

namespace Meets

variable {f : α → β} {g : γ → δ} {x : Option α} {y : Option β}

theorem none_left : Meets f none y := fun _ _ h => nomatch h

theorem none_right : Meets f x none := fun _ _ _ h => nomatch h

theorem some {a : α} {b : β} (h : b = f a) : Meets f (Option.some a) (Option.some b) := by
  intro a' b' ha hb
  rw [← Option.some.inj ha, ← Option.some.inj hb, h]

theorem bind {k : α → Option γ} {k' : β → Option δ} (h : Meets f x y)
    (next : ∀ a, Meets g (k a) (k' (f a))) : Meets g (x >>= k) (y >>= k') := by
  intro c d hc hd
  obtain ⟨a, ha, hc⟩ := Option.bind_eq_some_iff.1 hc
  obtain ⟨b, hb, hd⟩ := Option.bind_eq_some_iff.1 hd
  rw [h a b ha hb] at hd
  exact next a c d hc hd

theorem map {wrap : α → γ} {wrap' : β → δ} (h : Meets f x y)
    (wrapped : ∀ a, wrap' (f a) = g (wrap a)) : Meets g (x.map wrap) (y.map wrap') := by
  intro c d hc hd
  obtain ⟨a, ha, rfl⟩ := Option.map_eq_some_iff.1 hc
  obtain ⟨b, hb, rfl⟩ := Option.map_eq_some_iff.1 hd
  rw [h a b ha hb, wrapped]

/-- Both readers go down one level. -/
theorem enter {k : Reading → Option γ} {k' : Reading → Option δ} {l m : Nat}
    (next : ∀ l m, Meets g (k ⟨.text, l⟩) (k' ⟨.request, m⟩)) :
    Meets g ((Reading.mk .text l).enter >>= k) ((Reading.mk .request m).enter >>= k') := by
  cases l with
  | zero => exact none_left
  | succ l =>
    cases m with
    | zero => exact none_right
    | succ m => exact next l m

theorem enter_bind {p : Reading → Option α} {p' : Reading → Option β} {k : α → Option γ}
    {k' : β → Option δ} {l m : Nat}
    (next : ∀ l m, Meets g (p ⟨.text, l⟩ >>= k) (p' ⟨.request, m⟩ >>= k')) :
    Meets g ((Reading.mk .text l).enter >>= p >>= k)
      ((Reading.mk .request m).enter >>= p' >>= k') := by
  cases l with
  | zero => exact none_left
  | succ l =>
    cases m with
    | zero => exact none_right
    | succ m => exact next l m

theorem mapM {d : Json → Option α} {d' : Json → Option β}
    (h : ∀ j, Meets f (d j) (d' j.sorted)) (items : List Json) :
    Meets (List.map f) (items.mapM d) ((sortedItems items).mapM d') := by
  rw [sortedItems_eq_map]
  induction items with
  | nil => exact some rfl
  | cons item rest ih =>
    rw [List.map_cons, List.mapM_cons, List.mapM_cons]
    refine (h item).bind fun a => ih.bind fun as => ?_
    exact some rfl

end Meets

/-- The reader of request values agrees with the reader of text, whatever their levels are. -/
def Agrees (d : Decoder α) (d' : Decoder β) (f : α → β) : Prop :=
  ∀ l m j, Meets f (d ⟨.text, l⟩ j) (d' ⟨.request, m⟩ j.sorted)

variable {d : Decoder α} {d' : Decoder β} {f : α → β} {g : γ → δ}

/-- What is read from a token alone does not depend on the reader. -/
theorem Agrees.scalar {d : Decoder α}
    (read : ∀ r j a, d r j = some a → ∀ r', d r' j.sorted = some a) :
    Agrees d d id := by
  intro l m j a b ha hb
  rw [read _ _ _ ha] at hb
  exact (Option.some.inj hb).symm

theorem agrees_boolean : Agrees Decoder.boolean Decoder.boolean id := by
  refine .scalar fun r j a h r' => ?_
  cases j with
  | boolean b => exact h
  | _ => cases h

theorem agrees_string : Agrees Decoder.string Decoder.string id := by
  refine .scalar fun r j a h r' => ?_
  cases j with
  | string s => exact h
  | _ => cases h

theorem agrees_integer : Agrees Decoder.integer Decoder.integer id := by
  refine .scalar fun r j a h r' => ?_
  cases j with
  | integer i => exact h
  | _ => cases h

theorem agrees_unsigned32 : Agrees Decoder.unsigned32 Decoder.unsigned32 id :=
  fun l m j => (agrees_integer l m j).bind fun _ _ _ ha hb => Option.some.inj (hb.symm.trans ha)

theorem agrees_unsigned64 : Agrees Decoder.unsigned64 Decoder.unsigned64 id :=
  fun l m j => (agrees_integer l m j).bind fun _ _ _ ha hb => Option.some.inj (hb.symm.trans ha)

theorem agrees_signed64 : Agrees Decoder.signed64 Decoder.signed64 id :=
  fun l m j => (agrees_integer l m j).bind fun _ _ _ ha hb => Option.some.inj (hb.symm.trans ha)

theorem agrees_double : Agrees Decoder.double Decoder.double id := by
  refine .scalar fun r j a h r' => ?_
  cases j with
  | integer i => exact h
  | real x => exact h
  | _ => cases h

theorem Agrees.list (h : Agrees d d' f) :
    Agrees (Decoder.list d) (Decoder.list d') (List.map f) := by
  intro l m j
  cases j with
  | array items => exact .enter fun l m => .mapM (h l m) items
  | _ => exact .none_left

theorem Agrees.nullable (h : Agrees d d' f) :
    Agrees (Decoder.nullable d) (Decoder.nullable d') (Option.map f) := by
  intro l m j
  cases j with
  | null => exact .some rfl
  | _ => exact (h l m _).map fun _ => rfl

section Same

variable {d d' : Decoder α}

theorem Agrees.list_same (h : Agrees d d' id) : Agrees (Decoder.list d) (Decoder.list d') id := by
  have lists := h.list
  rwa [List.map_id_fun] at lists

theorem Agrees.nullable_same (h : Agrees d d' id) :
    Agrees (Decoder.nullable d) (Decoder.nullable d') id := by
  have values := h.nullable
  rwa [Option.map_id_fun] at values

end Same

/-- A slot as the reader of request values holds it. -/
def sortedSlots (slots : List (Option Json)) : List (Option Json) :=
  slots.map (Option.map sorted)

/-- What is made of the fields agrees if the slots of the one reader are sorted by the other. -/
def FieldsAgree (k : Fields → Option γ) (k' : Fields → Option δ) (g : γ → δ) : Prop :=
  ∀ l m slots, Meets g (k ⟨⟨.text, l⟩, slots⟩) (k' ⟨⟨.request, m⟩, sortedSlots slots⟩)

section Fields

variable {slots slots' : List (Option Json)} {slot : Option Json} {l m : Nat}

theorem Agrees.required (h : Agrees d d' f) :
    Meets f (Fields.required ⟨⟨.text, l⟩, slots⟩ d slot)
      (Fields.required ⟨⟨.request, m⟩, slots'⟩ d' (slot.map sorted)) := by
  cases slot with
  | none => exact .none_left
  | some j => exact h l m j

theorem Agrees.optional (h : Agrees d d' f) :
    Meets (Option.map f) (Fields.optional ⟨⟨.text, l⟩, slots⟩ d slot)
      (Fields.optional ⟨⟨.request, m⟩, slots'⟩ d' (slot.map sorted)) := by
  cases slot with
  | none => exact .some rfl
  | some j => exact h.nullable l m j

theorem Agrees.optional_same {d d' : Decoder α} (h : Agrees d d' id) :
    Meets id (Fields.optional ⟨⟨.text, l⟩, slots⟩ d slot)
      (Fields.optional ⟨⟨.request, m⟩, slots'⟩ d' (slot.map sorted)) := by
  cases slot with
  | none => exact .some rfl
  | some j => exact h.nullable_same l m j

end Fields

namespace FieldsAgree

variable {names : List String} {k : Fields → Option γ} {k' : Fields → Option δ}

/-- A field that is not repeated is found in the sorted members as well. -/
theorem map_lookup_sorted {members : List (String × Json)}
    (once : Fields.unrepeated names members = true) :
    names.map (fun name => (sortMembers (sortedValues members)).lookup name) =
      sortedSlots (names.map fun name => members.lookup name) := by
  unfold sortedSlots
  rw [List.map_map]
  refine List.map_congr_left fun name hn => ?_
  have few := of_decide_eq_true (List.all_eq_true.1 once name hn)
  rw [lookup_sorted_members, lastValue?_eq_lookup few]
  rfl

theorem members (h : FieldsAgree k k' g) (l m : Nat) (members : List (String × Json)) :
    Meets g (Fields.ofMembers names ⟨.text, l⟩ members >>= k)
      (Fields.ofMembers names ⟨.request, m⟩ (sortMembers (sortedValues members)) >>= k') := by
  refine .enter_bind fun l m => ?_
  by_cases once : Fields.unrepeated names members = true
  · have kept : ¬(Origin.request = .text ∧
        ¬Fields.unrepeated names (sortMembers (sortedValues members)) = true) := nofun
    rw [if_neg fun refused => refused.2 once, if_neg kept, map_lookup_sorted once]
    exact h l m _
  · rw [if_pos ⟨rfl, once⟩]
    exact .none_left

theorem array (h : FieldsAgree k k' g) (size l m : Nat) (items : List Json) :
    Meets g (Fields.ofTuple size ⟨.text, l⟩ (.array items) >>= k)
      (Fields.ofTuple size ⟨.request, m⟩ (Json.array items).sorted >>= k') := by
  change Meets g (Fields.ofTuple size ⟨.text, l⟩ (.array items) >>= k)
    (Fields.ofTuple size ⟨.request, m⟩ (.array (sortedItems items)) >>= k')
  rw [sortedItems_eq_map]
  refine .enter_bind fun l m => ?_
  by_cases size : items.length = size
  · have slots : (items.map sorted).map some = sortedSlots (items.map some) := by
      rw [sortedSlots, List.map_map, List.map_map]
      rfl
    rw [List.length_map, if_pos size, if_pos size, slots]
    exact h l m _
  · rw [if_neg size]
    exact .none_left

theorem tuple (h : FieldsAgree k k' g) (size : Nat) :
    Agrees (fun r j => Fields.ofTuple size r j >>= k) (fun r j => Fields.ofTuple size r j >>= k')
      g := by
  intro l m j
  cases j with
  | array items => exact h.array size l m items
  | _ => exact .none_left

theorem record (names : List String) (h : FieldsAgree k k' g) :
    Agrees (fun r j => do let fs ← Fields.ofRecord names r j; k fs)
      (fun r j => do let fs ← Fields.ofRecord names r j; k' fs) g := by
  intro l m j
  cases j with
  | object members => exact h.members l m members
  | array items => exact h.array names.length l m items
  | _ => exact .none_left

/-- Only the reader of text takes the fields of a variant from an array. -/
theorem variant (names : List String) (h : FieldsAgree k k' g) :
    Agrees (fun r j => Fields.ofVariant names r j >>= k)
      (fun r j => Fields.ofVariant names r j >>= k') g := by
  intro l m j
  cases j with
  | object members => exact h.members l m members
  | array items => exact .none_right
  | _ => exact .none_left

end FieldsAgree

/-- What is made of a variant agrees if the content of the one reader is sorted by the other. -/
def VariantsAgree (k : Variant → Option γ) (k' : Variant → Option δ) (g : γ → δ) : Prop :=
  ∀ l m name content, Meets g (k ⟨name, content, ⟨.text, l⟩⟩)
    (k' ⟨name, content.map sorted, ⟨.request, m⟩⟩)

theorem VariantsAgree.variant {k : Variant → Option γ} {k' : Variant → Option δ}
    (h : VariantsAgree k k' g) :
    Agrees (fun r j => do let v ← Variant.of? r j; k v)
      (fun r j => do let v ← Variant.of? r j; k' v) g := by
  intro l m j
  cases j with
  | string name => exact h l m name none
  | object members =>
    match members with
    | [(name, content)] =>
      refine .enter_bind fun l m => ?_
      exact h l m name (some content)
    | [] | _ :: _ :: _ => exact .none_left
  | _ => exact .none_left

section Contents

variable {name : String} {content : Option Json} {l m : Nat}

theorem Meets.bare {c : γ} {e : δ} (h : e = g c) :
    Meets g (Variant.bare ⟨name, content, ⟨.text, l⟩⟩ c)
      (Variant.bare ⟨name, content.map sorted, ⟨.request, m⟩⟩ e) := by
  intro a b ha hb
  unfold Variant.bare at ha hb
  split at ha
  · split at hb
    · rw [← Option.some.inj ha, ← Option.some.inj hb, h]
    · cases hb
  · cases ha

theorem Agrees.single (h : Agrees d d' f) :
    Meets f (Variant.single ⟨name, content, ⟨.text, l⟩⟩ d)
      (Variant.single ⟨name, content.map sorted, ⟨.request, m⟩⟩ d') := by
  cases content with
  | none => exact .none_left
  | some j => exact h l m j

theorem FieldsAgree.fields {names : List String} {k : Fields → Option γ} {k' : Fields → Option δ}
    (h : FieldsAgree k k' g) :
    Meets g (Variant.fields ⟨name, content, ⟨.text, l⟩⟩ names >>= k)
      (Variant.fields ⟨name, content.map sorted, ⟨.request, m⟩⟩ names >>= k') := by
  cases content with
  | none => exact .none_left
  | some j => exact h.variant names l m j

theorem FieldsAgree.items {size : Nat} {k : Fields → Option γ} {k' : Fields → Option δ}
    (h : FieldsAgree k k' g) :
    Meets g (Variant.tuple ⟨name, content, ⟨.text, l⟩⟩ size >>= k)
      (Variant.tuple ⟨name, content.map sorted, ⟨.request, m⟩⟩ size >>= k') := by
  cases content with
  | none => exact .none_left
  | some j => exact h.tuple size l m j

end Contents

theorem agrees_oneOf (all : List α) (name : α → String) :
    Agrees (Decoder.oneOf all name) (Decoder.oneOf all name) id := by
  refine VariantsAgree.variant fun l m tag content => ?_
  cases found : all.find? fun a => name a == tag with
  | none => exact .none_left
  | some a => exact .bare rfl

end QueryForge.Json
