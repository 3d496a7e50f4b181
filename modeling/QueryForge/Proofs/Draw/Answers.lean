import Mathlib.Data.List.Nodup
import QueryForge.Draw.Words
import QueryForge.Proofs.Draw.Ensures

/-!
# Words answer requests

Whatever words a source yields, the answer to a well-formed request is one that the request
permits. So what a draw ensures holds of its result on every source of words.
-/

namespace QueryForge.WordSource

variable {σ : Type} (source : WordSource σ) {nan : Prop}

theorem nextWord_lt (width : Width) (s : σ) : (source.nextWord width s).1 < width.words := by
  cases width with
  | narrow => exact (source.next32 s).1.toNat_lt
  | wide => exact (source.next64 s).1.toNat_lt

/-- A lost part that may still carry does not come with the greatest result. -/
theorem scaled_succ_lt {words word size : Nat} (hw : word < words)
    (hl : words - size < word * size % words) : word * size / words + 1 < size := by
  have parts := Nat.div_add_mod (word * size) words
  have upper : word * size + size ≤ words * size := by
    rw [← Nat.succ_mul]
    exact Nat.mul_le_mul_right size hw
  have := Nat.mod_lt (word * size) (by omega : 0 < words)
  generalize word * size / words = result at *
  by_contra hn
  have lower : words * (size - 1) ≤ words * result := Nat.mul_le_mul_left words (by omega)
  rw [Nat.mul_sub_one] at lower
  omega

theorem within_bounds (width : Width) {low high : Int} (h : low ≤ high) (s : σ) :
    low ≤ (source.within width low high s).1 ∧ (source.within width low high s).1 ≤ high := by
  have hw := source.nextWord_lt width s
  have hwords : 0 < width.words := by omega
  obtain ⟨total, ht⟩ := Int.eq_ofNat_of_zero_le (by omega : 0 ≤ high - low + 1)
  have size : ((high - low + 1) % width.words).toNat = total % width.words := by
    rw [ht]
    rfl
  have hle := Nat.mod_le total width.words
  unfold within
  simp only [size]
  split
  · next hz =>
    have : width.words ≤ total := Nat.le_of_dvd (by omega) (Nat.dvd_of_mod_eq_zero hz)
    dsimp only
    omega
  · next hz =>
    have hs := scaled_lt hw (by omega : 0 < total % width.words)
    have hc (hl : _ < (source.nextWord width s).1 * (total % width.words) % width.words) :=
      scaled_succ_lt hw hl
    generalize (source.nextWord width s).1 * (total % width.words) / width.words = result at *
    split
    · next hl =>
      have := hc hl
      dsimp only
      split <;> omega
    · dsimp only
      omega

theorem chance_permits (p : Double) (s : σ) :
    (Request.chance p).Permits (source.chance p s).1 := by
  cases p with
  | finite p =>
    simp only [chance]
    by_cases certain : p.signedUnits = Binary64.unitsPerOne
    · rw [if_pos certain]
      constructor
      · intro impossible
        exact absurd (impossible.symm.trans certain) (by decide)
      · intro _
        rfl
    · rw [if_neg certain]
      constructor
      · intro (impossible : p.signedUnits = 0)
        have hu : p.units = 0 := by
          unfold Binary64.signedUnits at impossible
          split at impossible <;> omega
        simp [hu]
      · intro h
        exact absurd h certain
  | infinite negative => exact ⟨nofun, nofun⟩
  | nan => exact ⟨nofun, nofun⟩

/-- Drawing from all positions up to j keeps the found ones different and below j + 1. -/
theorem fewPositions_step {j t : Nat} {found : List Nat} (hn : found.Nodup)
    (hb : ∀ i ∈ found, i < j) (ht : t ≤ j) :
    let next := (found.map fun i => if i = t then j else i) ++ [t]
    next.Nodup ∧ ∀ i ∈ next, i < j + 1 := by
  intro next
  have fresh : ∀ i ∈ found, (if i = t then j else i) ≠ t := by
    intro i hi he
    have := hb i hi
    split at he <;> omega
  refine ⟨List.nodup_append.2 ⟨?_, by simp, ?_⟩, ?_⟩
  · refine hn.map_on fun a ha b hb' he => ?_
    have := hb a ha
    have := hb b hb'
    split at he <;> split at he <;> omega
  · intro a ha b hb'
    obtain ⟨i, hi, rfl⟩ := List.mem_map.1 ha
    rw [List.mem_singleton.1 hb']
    exact fresh i hi
  · intro i hi
    rcases List.mem_append.1 hi with hi | hi
    · obtain ⟨k, hk, rfl⟩ := List.mem_map.1 hi
      have := hb k hk
      split <;> omega
    · rw [List.mem_singleton.1 hi]
      omega

theorem fewPositions_permits (start amount : Nat) {found : List Nat} (s : σ) (hn : found.Nodup)
    (hb : ∀ i ∈ found, i < start) :
    (Request.positions (start + amount) (found.length + amount)).Permits
      (source.fewPositions (List.range' start amount) found s).1 := by
  induction amount generalizing start found s with
  | zero => exact ⟨rfl, hn, hb⟩
  | succ amount ih =>
    have ht := source.within_bounds .narrow (Int.natCast_nonneg start) s
    have next := fewPositions_step (t := (source.within .narrow 0 start s).1.toNat) hn hb (by omega)
    have rest := ih (start + 1) (source.within .narrow 0 start s).2 next.1 next.2
    rw [List.length_append, List.length_map, List.length_singleton] at rest
    have amounts : found.length + 1 + amount = found.length + (amount + 1) := by omega
    have lengths : start + 1 + amount = start + (amount + 1) := by omega
    rwa [amounts, lengths] at rest

theorem swapIfInBounds_perm (items : Array Nat) (i j : Nat) :
    (items.swapIfInBounds i j).Perm items := by
  unfold Array.swapIfInBounds
  split
  · split
    · exact Array.swap_perm _ _
    · exact .refl _
  · exact .refl _

theorem shuffle_perm (steps : List Nat) (items : Array Nat) (s : σ) :
    (source.shuffle steps items s).1.Perm items := by
  induction steps generalizing items s with
  | nil => exact .refl _
  | cons i rest ih => exact (ih _ _).trans (swapIfInBounds_perm items i _)

/-- Drawing goes on as long as positions are missing. -/
theorem search_eq {length amount : Nat} (possible : amount ≤ length)
    (p : Found length amount × σ) :
    source.search possible p = (source.attempt possible p).elim (source.search possible) id := by
  have : Nonempty (Complete length amount σ) := ⟨.first possible p.2⟩
  have unrolled :=
    repeatM_eq_of_monadTail (m := Id) (f := fun p => pure (source.attempt possible p)) p
  refine (congrArg Id.run unrolled).trans ?_
  unfold repeatM.body
  rw [pure_bind]
  cases source.attempt possible p with
  | inl next => rfl
  | inr complete => rfl

/-- Some number of attempts leads from what was found to enough positions. -/
inductive Ends {length amount : Nat} (possible : amount ≤ length) :
    Found length amount × σ → Complete length amount σ → Prop
  | now {p : Found length amount × σ} {c : Complete length amount σ}
      (last : source.attempt possible p = .inr c) : Ends possible p c
  | later {p next : Found length amount × σ} {c : Complete length amount σ}
      (first : source.attempt possible p = .inl next) (rest : Ends possible next c) :
      Ends possible p c

/-- A search that ends has the result of its last attempt, however many there are. -/
theorem Ends.search_eq {length amount : Nat} {possible : amount ≤ length}
    {p : Found length amount × σ} {c : Complete length amount σ} (h : source.Ends possible p c) :
    source.search possible p = c := by
  induction h with
  | now last => rw [source.search_eq, last, Sum.elim_inr, id]
  | later first _ ih => rw [source.search_eq, first, Sum.elim_inl, ih]

theorem sparsePositions_permits {length amount : Nat} (possible : amount ≤ length) (s : σ) :
    (Request.positions length amount).Permits (source.sparsePositions possible s).1 := by
  unfold sparsePositions
  dsimp only
  generalize source.search possible _ = result
  refine ⟨?_, List.nodup_reverse.2 result.found.different,
    fun i hi => result.found.bounded i (List.mem_reverse.1 hi)⟩
  rw [List.length_reverse]
  exact Nat.le_antisymm result.found.few result.enough

theorem positions_permits {length amount : Nat} (ha : amount ≤ length) (s : σ) :
    (Request.positions length amount).Permits (source.positions length amount s).1 := by
  unfold positions
  split
  · have steps : (List.range amount).map (length - amount + ·) =
        List.range' (length - amount) amount := by
      rw [List.range_eq_range', List.map_add_range', Nat.add_zero]
    rw [steps]
    have permits := source.fewPositions_permits (length - amount) amount s List.nodup_nil
      fun i hi => nomatch hi
    rwa [List.length_nil, Nat.zero_add, Nat.sub_add_cancel ha] at permits
  · have perm := Array.perm_iff_toList_perm.1
      (source.shuffle_perm (List.range amount) (Array.range length) s)
    rw [Array.toList_range] at perm
    dsimp only
    rw [Array.take_eq_extract, Array.toList_extract, List.extract_eq_take_drop, List.drop_zero]
    refine ⟨?_, ?_, fun i hi => ?_⟩
    · rw [List.length_take, perm.length_eq, List.length_range]
      omega
    · exact (perm.nodup_iff.2 List.nodup_range).sublist (List.take_sublist _ _)
    · exact List.mem_range.1 (perm.mem_iff.1 (List.mem_of_mem_take hi))
  · rw [dif_pos ha]
    exact source.sparsePositions_permits ha s

theorem answer_permits {r : Request} (h : r.Sound nan) (s : σ) :
    r.Permits (source.answer r s).1 := by
  rcases h with h | ⟨-, rfl⟩
  swap
  · exact source.chance_permits .nan s
  cases r with
  | chance p => exact source.chance_permits p s
  | within width low high => exact source.within_bounds width h s
  | positions length amount => exact source.positions_permits h s
  | word32 => trivial
  | word64 => trivial
  | fits type value => trivial

end QueryForge.WordSource

namespace QueryForge.Draw

/-- What a draw ensures holds of its result on every source of words. -/
theorem Ensures.run {α σ : Type} {d : Draw α} {P : α → Prop} (h : d.Ensures nan P)
    (source : WordSource σ) (s : σ) : P (d.run source s).1 := by
  induction d generalizing s with
  | done value => exact h
  | ask request next ih => exact ih _ (h.2 _ (source.answer_permits h.1 s)) _

end QueryForge.Draw

namespace QueryForge.Building

/-- What is observed of one run is observed of something that has the ensured property. -/
theorem Ensures.exists_of_run {α β σ : Type} {x : Building α} {P : α → Prop} (h : x.Ensures nan P)
    {source : WordSource σ} {s : σ} {f : α → β} {b : β}
    (run : (x.run.run source s).1.toOption.map f = some b) : ∃ a, f a = b ∧ P a := by
  obtain ⟨a, same, ha⟩ := Draw.Ensures.run h source s
  rw [same] at run
  exact ⟨a, Option.some.inj run, ha⟩

end QueryForge.Building
