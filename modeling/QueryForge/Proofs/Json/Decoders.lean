import Mathlib.Data.List.Basic
import QueryForge.Proofs.Json.ReadBack
import QueryForge.Proofs.Json.Views
import QueryForge.Proofs.Lookup

/-!
# Documents that stand for values

A document stands for a value if it has a text and every reader with enough levels takes it for
that value. This is stated shape by shape: records, variants, lists and optional values inherit
it from their parts.
-/

namespace QueryForge.Json

variable {α β : Type} {d : Decoder α} {o : Origin} {n : Nat} {j : Json} {a : α}

/-- The document can be written, is not `null`, and is taken for the value by a decoder with at
most `n` levels whenever the levels suffice for all of it. -/
structure Stands (d : Decoder α) (o : Origin) (n : Nat) (j : Json) (a : α) : Prop where
  present : j ≠ .null
  writable : j.Writable
  reads : ∀ l ≤ n, (o.view j).depth ≤ l → d ⟨o, l⟩ (o.view j) = some a

theorem Stands.of_succ (h : Stands d o (n + 1) j a) : Stands d o n j a :=
  ⟨h.present, h.writable, fun l below => h.reads l (by omega)⟩

section Scalars

theorem stands_boolean (b : Bool) : Stands Decoder.boolean o n (.boolean b) b :=
  ⟨nofun, .boolean b, fun l _ _ => by rw [Origin.view_boolean]; rfl⟩

theorem stands_string (s : String) : Stands Decoder.string o n (.string s) s :=
  ⟨nofun, .string s, fun l _ _ => by rw [Origin.view_string]; rfl⟩

theorem stands_double {x : Double} (h : x.IsFinite) :
    Stands Decoder.double o n (ofDouble x) x := by
  cases x with
  | finite x => exact ⟨nofun, .real x, fun l _ _ => by rw [ofDouble, Origin.view_real]; rfl⟩
  | infinite | nan => cases h

/-- Whole numbers of a machine type stand for themselves if the decoder asks for its range. -/
theorem stands_integer {i : Int} (range : integerRange i) (read : ∀ r, d r (.integer i) = some a) :
    Stands d o n (.integer i) a :=
  ⟨nofun, .integer range, fun l _ _ => by rw [Origin.view_integer, read]⟩

theorem stands_unsigned32 (v : UInt32) : Stands Decoder.unsigned32 o n (.integer v.toNat) v := by
  have below := v.toNat_lt
  refine stands_integer (by unfold integerRange; omega) fun r => ?_
  have range : 0 ≤ (v.toNat : Int) ∧ (v.toNat : Int) < 4294967296 := by omega
  rw [Decoder.unsigned32, Decoder.integer, Option.bind_eq_bind, Option.bind_some, if_pos range,
    Int.toNat_natCast, UInt32.ofNat_toNat]

theorem stands_unsigned64 (v : UInt64) : Stands Decoder.unsigned64 o n (.integer v.toNat) v := by
  have below := v.toNat_lt
  refine stands_integer (by unfold integerRange; omega) fun r => ?_
  have range : 0 ≤ (v.toNat : Int) ∧ (v.toNat : Int) < 18446744073709551616 := by omega
  rw [Decoder.unsigned64, Decoder.integer, Option.bind_eq_bind, Option.bind_some, if_pos range,
    Int.toNat_natCast, UInt64.ofNat_toNat]

theorem stands_signed32 (v : Int32) : Stands Decoder.signed32 o n (.integer v.toInt) v := by
  have below := v.toInt_lt
  have above := v.le_toInt
  refine stands_integer (by unfold integerRange; omega) fun r => ?_
  have range : -2147483648 ≤ v.toInt ∧ v.toInt < 2147483648 := by omega
  rw [Decoder.signed32, Decoder.integer, Option.bind_eq_bind, Option.bind_some, if_pos range,
    Int32.ofInt_toInt]

theorem stands_signed64 (v : Int64) : Stands Decoder.signed64 o n (.integer v.toInt) v := by
  have below := v.toInt_lt
  have above := v.le_toInt
  refine stands_integer (by unfold integerRange; omega) fun r => ?_
  have range : -9223372036854775808 ≤ v.toInt ∧ v.toInt < 9223372036854775808 := by omega
  rw [Decoder.signed64, Decoder.integer, Option.bind_eq_bind, Option.bind_some, if_pos range,
    Int64.ofInt_toInt]

end Scalars

theorem exists_levels_of_array {items : List Json} {l : Nat}
    (h : (o.view (.array items)).depth ≤ l) :
    ∃ m, l = m + 1 ∧ ∀ item ∈ items, (o.view item).depth ≤ m := by
  rw [Origin.view_array] at h
  obtain ⟨m, rfl⟩ : ∃ m, l = m + 1 := ⟨l - 1, by rw [depth] at h; omega⟩
  exact ⟨m, rfl, fun item hi => depth_array_le.1 h _ (List.mem_map_of_mem hi)⟩

theorem exists_levels_of_object {members : List (String × Json)} {l : Nat}
    (nodup : (members.map Prod.fst).Nodup) (h : (o.view (.object members)).depth ≤ l) :
    ∃ m, l = m + 1 ∧ ∀ member ∈ members, (o.view member.2).depth ≤ m := by
  obtain ⟨held, view, perm⟩ := Origin.view_object_perm (o := o) nodup
  rw [view] at h
  obtain ⟨m, rfl⟩ : ∃ m, l = m + 1 := ⟨l - 1, by rw [depth] at h; omega⟩
  exact ⟨m, rfl, fun member hm =>
    depth_object_le.1 h _ (perm.mem_iff.2 (List.mem_map_of_mem hm))⟩

theorem mapM_map_eq_some {f : β → Option α} {g : α → β} {as : List α}
    (h : ∀ a ∈ as, f (g a) = some a) : (as.map g).mapM f = some as := by
  induction as with
  | nil => rfl
  | cons a rest ih =>
    obtain ⟨first, others⟩ := List.forall_mem_cons.1 h
    rw [List.map_cons, List.mapM_cons, first, ih others]
    rfl

theorem Stands.list {f : α → Json} {as : List α} (h : ∀ a ∈ as, Stands d o n (f a) a) :
    Stands (Decoder.list d) o n (.array (as.map f)) as where
  present := nofun
  writable := by
    refine .array fun item hi => ?_
    obtain ⟨a, ha, rfl⟩ := List.mem_map.1 hi
    exact (h a ha).writable
  reads := by
    intro l below deep
    obtain ⟨m, rfl, inside⟩ := exists_levels_of_array deep
    rw [Origin.view_array, List.map_map]
    refine mapM_map_eq_some (f := d ⟨o, m⟩) fun a ha => ?_
    exact (h a ha).reads m (by omega) (inside _ (List.mem_map_of_mem ha))

theorem stands_ofStrings (strings : List String) :
    Stands (Decoder.list Decoder.string) o n (ofStrings strings) strings :=
  .list fun s _ => stands_string s

theorem Stands.nullable {f : α → Json} {x : Option α} (h : ∀ a, x = some a → Stands d o n (f a) a)
    {l : Nat} (below : l ≤ n) (deep : (o.view (ofOption f x)).depth ≤ l) :
    d.nullable ⟨o, l⟩ (o.view (ofOption f x)) = some x := by
  cases x with
  | none => rw [ofOption, Origin.view_null]; rfl
  | some a =>
    have here := h a rfl
    have present : o.view (f a) ≠ .null := by
      cases o with
      | text => exact here.present
      | request =>
        cases view : f a with
        | null => exact absurd view here.present
        | _ => exact nofun
    rw [ofOption] at deep ⊢
    rw [Decoder.nullable, here.reads l below deep]
    · rfl
    · exact present

theorem writable_ofOption {f : α → Json} {x : Option α}
    (h : ∀ a, x = some a → Stands d o n (f a) a) : (ofOption f x).Writable := by
  cases x with
  | none => exact .null
  | some a => exact (h a rfl).writable

theorem Stands.entries {f : α → Json} {es : List (String × α)} (kept : o.Keeps (es.map Prod.fst))
    (nodup : (es.map Prod.fst).Nodup) (h : ∀ e ∈ es, Stands d o n (f e.2) e.2) :
    Stands (Decoder.entries d) o n (.object (es.map fun e => (e.1, f e.2))) es where
  present := nofun
  writable := by
    refine .object fun member hm => ?_
    obtain ⟨e, he, rfl⟩ := List.mem_map.1 hm
    exact (h e he).writable
  reads := by
    intro l below deep
    have names : (es.map fun e => (e.1, f e.2)).map Prod.fst = es.map Prod.fst := by
      rw [List.map_map]
      rfl
    obtain ⟨m, rfl, inside⟩ := exists_levels_of_object (names ▸ nodup) deep
    rw [Origin.view_object_of_keeps (names ▸ kept), List.map_map]
    refine mapM_map_eq_some
      (f := fun member : String × Json => (d ⟨o, m⟩ member.2).map (member.1, ·)) ?_
    intro e he
    have read := (h e he).reads m (by omega) (inside _ (List.mem_map_of_mem he))
    exact congrArg (Option.map (e.1, ·)) read

theorem map_lookup_of_forall_zip (members : List (String × Json)) (g : Json → Json)
    {names : List String} {docs : List Json} (length : names.length = docs.length)
    (h : ∀ p ∈ names.zip docs, members.lookup p.1 = some (g p.2)) :
    names.map (fun name => members.lookup name) = docs.map fun doc => some (g doc) := by
  induction names generalizing docs with
  | nil =>
    obtain rfl := List.length_eq_zero_iff.1 length.symm
    rfl
  | cons name names ih =>
    cases docs with
    | nil => cases length
    | cons doc docs =>
      obtain ⟨first, others⟩ := List.forall_mem_cons.1 h
      rw [List.map_cons, List.map_cons, ih (Nat.succ.inj length) others, first]

theorem unrepeated_of_nodup {members : List (String × Json)} (names : List String)
    (nodup : (members.map Prod.fst).Nodup) : Fields.unrepeated names members = true := by
  refine List.all_eq_true.2 fun name _ => ?_
  rw [decide_eq_true_iff]
  rw [length_filter_eq_count]
  exact List.nodup_iff_count.1 nodup name

namespace Fields

variable {names : List String} {docs : List Json}

/-- The fields of an object that names each of them once. -/
theorem ofMembers_view (nodup : names.Nodup) (length : names.length = docs.length) (m : Nat) :
    ∃ held, o.view (.object (names.zip docs)) = .object held ∧
      ofMembers names ⟨o, m + 1⟩ held =
        some ⟨⟨o, m⟩, docs.map fun doc => some (o.view doc)⟩ := by
  have zipped : (names.zip docs).map Prod.fst = names := List.map_fst_zip (by omega)
  obtain ⟨held, view, perm⟩ := Origin.view_object_perm (o := o) (zipped.symm ▸ nodup)
  have heldNodup : (held.map Prod.fst).Nodup := by
    refine (perm.map Prod.fst).nodup_iff.2 ?_
    rw [List.map_map]
    exact zipped.symm ▸ nodup
  refine ⟨held, view, ?_⟩
  have slots := map_lookup_of_forall_zip held o.view length fun p hp =>
    (lookup_eq_some_iff_mem heldNodup).2 (perm.mem_iff.2 (List.mem_map_of_mem hp))
  simp only [ofMembers, Reading.enter, Option.bind_eq_bind, Option.bind_some,
    unrepeated_of_nodup names heldNodup, not_true_eq_false, and_false, if_false, slots]

theorem ofRecord_view (nodup : names.Nodup) (length : names.length = docs.length) (m : Nat) :
    ofRecord names ⟨o, m + 1⟩ (o.view (.object (names.zip docs))) =
      some ⟨⟨o, m⟩, docs.map fun doc => some (o.view doc)⟩ := by
  obtain ⟨held, view, read⟩ := ofMembers_view (o := o) nodup length m
  rw [view, ofRecord, read]

theorem ofVariant_view (nodup : names.Nodup) (length : names.length = docs.length) (m : Nat) :
    ofVariant names ⟨o, m + 1⟩ (o.view (.object (names.zip docs))) =
      some ⟨⟨o, m⟩, docs.map fun doc => some (o.view doc)⟩ := by
  obtain ⟨held, view, read⟩ := ofMembers_view (o := o) nodup length m
  rw [view, ofVariant, read]

theorem ofTuple_view (m : Nat) :
    ofTuple docs.length ⟨o, m + 1⟩ (o.view (.array docs)) =
      some ⟨⟨o, m⟩, docs.map fun doc => some (o.view doc)⟩ := by
  rw [Origin.view_array]
  simp [ofTuple, Reading.enter]

end Fields

/-- The documents of the fields, if the levels suffice for each, are read as the parts of the
value. -/
def FieldsRead (k : Fields → Option α) (o : Origin) (n : Nat) (docs : List Json) (a : α) : Prop :=
  ∀ m ≤ n, docs.Forall (fun doc => (o.view doc).depth ≤ m) →
    k ⟨⟨o, m⟩, docs.map fun doc => some (o.view doc)⟩ = some a

section Records

variable {names : List String} {docs : List Json}

theorem writable_zip (writable : docs.Forall Writable) : (Json.object (names.zip docs)).Writable :=
  .object fun _ hm => List.forall_iff_forall_mem.1 writable _ (List.of_mem_zip hm).2

theorem exists_levels_of_zip (nodup : names.Nodup) (length : names.length = docs.length) {l : Nat}
    (deep : (o.view (.object (names.zip docs))).depth ≤ l) :
    ∃ m, l = m + 1 ∧ docs.Forall fun doc => (o.view doc).depth ≤ m := by
  have zipped : (names.zip docs).map Prod.fst = names := List.map_fst_zip (by omega)
  obtain ⟨m, rfl, inside⟩ := exists_levels_of_object (zipped.symm ▸ nodup) deep
  refine ⟨m, rfl, List.forall_iff_forall_mem.2 fun doc hd => ?_⟩
  obtain ⟨i, hi, rfl⟩ := List.getElem_of_mem hd
  have bound : i < (names.zip docs).length := by
    rw [List.length_zip]
    omega
  have member := inside _ (List.getElem_mem bound)
  rwa [List.getElem_zip] at member

theorem Stands.record (docs : List Json) {k : Fields → Option α} (nodup : names.Nodup)
    (length : names.length = docs.length) (writable : docs.Forall Writable)
    (read : FieldsRead k o n docs a) :
    Stands (fun r j => do let f ← Fields.ofRecord names r j; k f) o (n + 1)
      (.object (names.zip docs)) a where
  present := nofun
  writable := writable_zip writable
  reads := by
    intro l below deep
    obtain ⟨m, rfl, inside⟩ := exists_levels_of_zip nodup length deep
    rw [Fields.ofRecord_view nodup length]
    exact read m (by omega) inside

end Records

section Variants

variable {k : Variant → Option α} {name : String} {content : Json}

theorem Stands.tagged (writable : content.Writable)
    (read : ∀ m ≤ n, (o.view content).depth ≤ m →
      k ⟨name, some (o.view content), ⟨o, m⟩⟩ = some a) :
    Stands (fun r j => do let v ← Variant.of? r j; k v) o (n + 1) (tagged name content) a where
  present := nofun
  writable := by
    refine .object fun member hm => ?_
    rw [List.mem_singleton.1 hm]
    exact writable
  reads := by
    intro l below deep
    rw [Origin.view_tagged, depth_tagged] at deep
    obtain ⟨m, rfl⟩ : ∃ m, l = m + 1 := ⟨l - 1, by omega⟩
    rw [Origin.view_tagged]
    exact read m (by omega) (by omega)

/-- A variant without content. -/
theorem Stands.bare
    (choose : ∀ content inner,
      k ⟨name, content, inner⟩ = Variant.bare ⟨name, content, inner⟩ a) :
    Stands (fun r j => do let v ← Variant.of? r j; k v) o n (.string name) a where
  present := nofun
  writable := .string name
  reads := by
    intro l _ _
    rw [Origin.view_string]
    exact choose none ⟨o, l⟩

/-- A variant that holds one value. -/
theorem Stands.single {d : Decoder β} {wrap : β → α} {b : β}
    (choose : ∀ content inner,
      k ⟨name, content, inner⟩ = (Variant.single ⟨name, content, inner⟩ d).map wrap)
    (h : Stands d o n content b) :
    Stands (fun r j => do let v ← Variant.of? r j; k v) o (n + 1) (Json.tagged name content)
      (wrap b) := by
  refine .tagged h.writable fun m below deep => ?_
  rw [choose, Variant.single, Option.bind_some, h.reads m below deep, Option.map_some]

/-- A variant with named fields. -/
theorem Stands.fields (names : List String) (docs : List Json) {body : Fields → Option α}
    (choose : ∀ content inner,
      k ⟨name, content, inner⟩ = (Variant.fields ⟨name, content, inner⟩ names).bind body)
    (nodup : names.Nodup) (length : names.length = docs.length) (writable : docs.Forall Writable)
    (read : FieldsRead body o n docs a) :
    Stands (fun r j => do let v ← Variant.of? r j; k v) o (n + 1)
      (Json.tagged name (.object (names.zip docs))) a := by
  refine .tagged (writable_zip writable) fun m below deep => ?_
  obtain ⟨m, rfl, inside⟩ := exists_levels_of_zip nodup length deep
  rw [choose, Variant.fields, Option.bind_some, Fields.ofVariant_view nodup length,
    Option.bind_some]
  exact read m (by omega) inside

/-- A variant with fields that have no names. -/
theorem Stands.tuple (docs : List Json) {body : Fields → Option α}
    (choose : ∀ content inner,
      k ⟨name, content, inner⟩ = (Variant.tuple ⟨name, content, inner⟩ docs.length).bind body)
    (writable : docs.Forall Writable) (read : FieldsRead body o n docs a) :
    Stands (fun r j => do let v ← Variant.of? r j; k v) o (n + 1)
      (Json.tagged name (.array docs)) a := by
  refine .tagged (.array (List.forall_iff_forall_mem.1 writable)) fun m below deep => ?_
  obtain ⟨m, rfl, inside⟩ := exists_levels_of_array deep
  rw [choose, Variant.tuple, Option.bind_some, Fields.ofTuple_view, Option.bind_some]
  exact read m (by omega) (List.forall_iff_forall_mem.2 inside)

/-- One of finitely many named values. -/
theorem Stands.oneOf {all : List α} {name : α → String}
    (found : ∀ a, all.find? (fun b => name b == name a) = some a) (a : α) :
    Stands (Decoder.oneOf all name) o n (.string (name a)) a where
  present := nofun
  writable := .string (name a)
  reads := by
    intro l _ _
    rw [Origin.view_string, Decoder.oneOf, Variant.of?, Option.bind_eq_bind, Option.bind_some,
      found]
    rfl

end Variants

end QueryForge.Json
