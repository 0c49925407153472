import Mathlib.Order.Bounds.Basic
import Tenancy.Closure.Completion
import Tenancy.Closure.Cycle
import Tenancy.Closure.Growth
import Tenancy.Closure.Reattachment

namespace Tenancy.Closure

/-!
# What statements leave behind

Every statement on a closure table is described here by the depth that it leaves for each pair, for
all tables, consistent or not.  The theory of moves, repairs and insertions rests on these laws and
opens none of the statements again.

* `depth?_shorten_eq_some_iff`, `depth?_lower_eq_some_iff` — a pair ends up with the least of the
  depths that it has and that it is offered.
* `depth?_fill` — a pair that has a depth keeps it; another gets the first one that it is offered.
* `Within`, `Fits` — no row is deeper than a number, or than the largest number of a cell.
* `Stored` — all depths are such as cells hold, floats among them.
* `admits_of_new` — rows that are new can be added; `admits_missingRows`, `admits_inheritedRows`.
* `mem_subtree`, `mem_supertree`, `mem_links` — the lists that a move works on.
* `depth?_detach_eq_some_iff`, `depth?_dropOtherParents_eq_some_iff`, `depth?_adopt` — the
  statements of moves, and of new parent edges.
-/

variable {t u : Closure} {rows : List Row} {accepts : Closure → Row → Bool} {a d n : Int} {k : Nat}

/-! ### Rows that are joined -/

theorem joins_iff : t.joins a d = true ↔ ∃ k, t.depth? a d = some k := by
  rw [joins, Option.isSome_iff_exists]

theorem joins_of_depth? (h : t.depth? a d = some k) : t.joins a d = true := joins_iff.2 ⟨k, h⟩

theorem mem_ids_of_joins (h : t.joins a d = true) : a ∈ t.ids ∧ d ∈ t.ids := by
  obtain ⟨k, hk⟩ := joins_iff.1 h
  exact ⟨mem_ids.2 ⟨⟨a, d, k⟩, hk, .inl rfl⟩, mem_ids.2 ⟨⟨a, d, k⟩, hk, .inr rfl⟩⟩

/-- The ids of a table are the ends of its rows. -/
theorem mem_ids_iff_joins : n ∈ t.ids ↔ ∃ m, t.joins n m = true ∨ t.joins m n = true := by
  constructor
  · intro h
    obtain ⟨⟨a, d, k⟩, hr, rfl | rfl⟩ := mem_ids.1 h
    · exact ⟨d, .inl (joins_of_depth? hr)⟩
    · exact ⟨a, .inr (joins_of_depth? hr)⟩
  · rintro ⟨m, h | h⟩
    · exact (mem_ids_of_joins h).1
    · exact (mem_ids_of_joins h).2

theorem nodup_ids : t.ids.toList.Nodup :=
  Std.ExtTreeSet.distinct_toList.imp fun hne he => by simp [he] at hne

/-- That no row between different ids has depth 0 is a matter of each row. -/
theorem pos_iff_rows : (∀ a d, t.depth? a d = some 0 → a = d) ↔
    ∀ r ∈ t.rows, r.depth = 0 → r.ancestor = r.descendant := by
  constructor
  · intro h r hr hz
    refine h r.ancestor r.descendant ?_
    rw [← hz]
    exact mem_rows.1 hr
  · exact fun h a d hk => h ⟨a, d, 0⟩ (mem_rows.2 hk) rfl

/-! ### Depths that fit -/

/-- No row is deeper than `n`. -/
def Within (t : Closure) (n : Nat) : Prop := ∀ a d k, t.depth? a d = some k → k ≤ n

/-- A bound on the depths, row by row. -/
theorem within_iff_rows {m : Nat} : t.Within m ↔ ∀ r ∈ t.rows, r.depth ≤ m :=
  ⟨fun h _ hr => h _ _ _ (mem_rows.1 hr), fun h a d k hk => h ⟨a, d, k⟩ (mem_rows.2 hk)⟩

instance {m : Nat} : Decidable (t.Within m) := decidable_of_iff _ within_iff_rows.symm

theorem Within.mono {m m' : Nat} (h : t.Within m) (hle : m ≤ m') : t.Within m' :=
  fun a d k hk => Nat.le_trans (h a d k hk) hle

/-- All depths are whole numbers that cells hold: no sum that a row comes from was too large. -/
def Fits (t : Closure) : Prop := t.Within TenantId.maxCell

instance : Decidable t.Fits := inferInstanceAs (Decidable (t.Within _))

/-- All depths are such as cells hold: whole numbers that fit, or floats beyond these. -/
def Stored (t : Closure) : Prop := ∀ a d k, t.depth? a d = some k → Cell.Holds k

theorem Fits.stored (h : t.Fits) : t.Stored := fun a d k hk => .inl (h a d k hk)

/-- Depths that fit are exact a level deeper, too. -/
theorem Fits.map_sum_one (h : t.Fits) :
    (t.depth? a d).map (Cell.sum · 1) = (t.depth? a d).map (· + 1) :=
  Option.map_congr fun k hk => Cell.sum_one (h a d k hk)

/-- A single depth is the least of itself. -/
theorem isLeast_some_iff {o : Option Nat} : IsLeast {j | o = some j} k ↔ o = some k := by
  constructor
  · exact fun h => h.1
  · intro h
    refine ⟨h, fun j hj => ?_⟩
    rw [Set.mem_ofPred_eq, h, Option.some.injEq] at hj
    exact Nat.le_of_eq hj

/-! ### Offering rows in order -/

/-- A statement that refuses every row it is offered changes and counts nothing. -/
theorem write_eq_self (h : ∀ r ∈ rows, accepts t r = false) : t.write accepts rows = ⟨t, 0⟩ := by
  unfold write
  induction rows with
  | nil => rfl
  | cons r rows ih =>
    have hr : offer accepts ⟨t, 0⟩ r = ⟨t, 0⟩ := by
      rw [offer, if_neg]
      simp [h r List.mem_cons_self]
    rw [List.foldl_cons, hr]
    exact ih fun s hs => h s (List.mem_cons_of_mem _ hs)

/-- One offered row, through the view of a pair. -/
theorem depth?_offer {w : Written} {r : Row} :
    (offer accepts w r).closure.depth? a d
      = if accepts w.closure r = true ∧ r.ancestor = a ∧ r.descendant = d then some r.depth
        else w.closure.depth? a d := by
  unfold offer
  by_cases h : accepts w.closure r = true
  · simp [h, depth?_put]
  · simp [h]

/-- **Filling.** A pair keeps its depth; a pair without one gets the first that it is offered. -/
theorem depth?_fill :
    (t.fill rows).closure.depth? a d
      = (t.depth? a d).or ((rows.find? fun r => r.pair = ⟨a, d⟩).map Row.depth) := by
  have key : ∀ w : Written, (rows.foldl (offer lacks) w).closure.depth? a d
      = (w.closure.depth? a d).or ((rows.find? fun r => r.pair = ⟨a, d⟩).map Row.depth) := by
    -- over the rows that are offered, from any table that is reached so far
    induction rows with
    | nil => simp
    | cons r rows ih =>
      intro w
      rw [List.foldl_cons, ih, depth?_offer, List.find?_cons]
      by_cases hp : r.ancestor = a ∧ r.descendant = d
      · obtain ⟨rfl, rfl⟩ := hp
        cases h : w.closure.depth? r.ancestor r.descendant <;> simp [Row.pair, lacks, h]
      · have hne : decide (r.pair = ⟨a, d⟩) = false := by simpa [Row.pair] using hp
        rw [if_neg fun h => hp h.2, hne]
  exact key ⟨t, 0⟩

/-- Filling with rows that agree on each pair: a pair without a depth gets the one it is offered. -/
theorem depth?_fill_eq_some_iff (h : ∀ i j, ⟨a, d, i⟩ ∈ rows → ⟨a, d, j⟩ ∈ rows → i = j) :
    (t.fill rows).closure.depth? a d = some k ↔
      t.depth? a d = some k ∨ t.depth? a d = none ∧ ⟨a, d, k⟩ ∈ rows := by
  rw [depth?_fill, Option.or_eq_some_iff]
  refine or_congr_right (and_congr_right fun _ => ?_)
  constructor
  · intro hk
    obtain ⟨r, hr, rfl⟩ := Option.map_eq_some_iff.1 hk
    have hp := List.find?_some hr
    simp only [Row.pair, decide_eq_true_eq, Pair.mk.injEq] at hp
    obtain ⟨rfl, rfl⟩ := hp
    exact List.mem_of_find?_eq_some hr
  · intro hk
    cases hf : rows.find? fun r => r.pair = ⟨a, d⟩ with
    | none => exact absurd (List.find?_eq_none.1 hf _ hk) (by simp [Row.pair])
    | some r =>
      -- another row for the pair may come first, but it has the same depth
      have hp := List.find?_some hf
      simp only [Row.pair, decide_eq_true_eq, Pair.mk.injEq] at hp
      obtain ⟨rfl, rfl⟩ := hp
      exact congrArg some (h _ _ (List.mem_of_find?_eq_some hf) hk)

/-- Where every offered pair has a depth already, filling changes nothing. -/
theorem fill_eq_self (h : ∀ r ∈ rows, t.joins r.ancestor r.descendant = true) :
    t.fill rows = ⟨t, 0⟩ := by
  refine write_eq_self fun r hr => ?_
  obtain ⟨k, hk⟩ := joins_iff.1 (h r hr)
  simp [lacks, hk]

/-- Rows that are new, each for a pair of its own, can all be added. -/
theorem admits_of_new (hnew : ∀ r ∈ rows, t.lacks r = true)
    (hdist : rows.Pairwise fun r s => r.pair ≠ s.pair) : t.admits rows = true := by
  have key : ∀ w : Written, (∀ r ∈ rows, w.closure.lacks r = true) →
      (rows.foldl (offer lacks) w).count = w.count + rows.length := by
    induction rows with
    | nil => exact fun w _ => rfl
    | cons r rows ih =>
      intro w hw
      obtain ⟨hr, hrows⟩ := List.pairwise_cons.1 hdist
      have hoffer : offer lacks w r = ⟨w.closure.put r, w.count + 1⟩ :=
        if_pos (hw r List.mem_cons_self)
      -- the row that is written is for another pair than those to come
      have hrest : ∀ s ∈ rows, (offer lacks w r).closure.lacks s = true := by
        intro s hs
        have hs' := hw s (List.mem_cons_of_mem r hs)
        rw [lacks_iff] at hs' ⊢
        rw [hoffer, depth?_put, if_neg fun he => hr s hs (congrArg₂ Pair.mk he.1 he.2), hs']
      rw [List.foldl_cons,
        ih (fun s hs => hnew s (List.mem_cons_of_mem r hs)) hrows _ hrest, hoffer, List.length_cons]
      dsimp only
      omega
  rw [admits, beq_iff_eq, fill, write, key ⟨t, 0⟩ hnew, Nat.zero_add]

/-- Rows for pairs that have one already make no difference to filling. -/
theorem fill_filter_lacks : t.fill (rows.filter t.lacks) = t.fill rows := by
  -- generalised over what has been written so far, which lacks no more than the table at the start
  have key : ∀ w : Written, (∀ r, t.lacks r = false → w.closure.lacks r = false) →
      (rows.filter t.lacks).foldl (offer lacks) w = rows.foldl (offer lacks) w := by
    induction rows with
    | nil => exact fun w _ => rfl
    | cons r rows ih =>
      intro w hw
      have hthen : ∀ s, t.lacks s = false → (offer lacks w r).closure.lacks s = false := by
        intro s hs
        have hs' := hw s hs
        rw [lacks, Option.isNone_eq_false_iff] at hs' ⊢
        rw [depth?_offer]
        split
        · rfl
        · exact hs'
      rw [List.foldl_cons, ← ih _ hthen]
      cases hr : t.lacks r with
      | true => rw [List.filter_cons_of_pos hr, List.foldl_cons]
      | false =>
        have hskip : offer lacks w r = w := if_neg (by simp [hw r hr])
        rw [List.filter_cons_of_neg (by simp [hr]), hskip]
  exact key ⟨t, 0⟩ fun _ => id

/-- Where no offered row is shorter than what is there, lowering changes nothing. -/
theorem lower_eq_self (h : ∀ r ∈ rows, ∀ k, t.depth? r.ancestor r.descendant = some k →
    k ≤ r.depth) :
    t.lower rows = ⟨t, 0⟩ := by
  refine write_eq_self fun r hr => ?_
  rw [← Bool.not_eq_true, exceeds_iff]
  rintro ⟨k, hk, hlt⟩
  exact absurd (h r hr k hk) (Nat.not_le.2 hlt)

/-- A deletion that leaves the table as it was has counted nothing. -/
theorem remove_eq_self {gone : Row → Bool} (h : (t.remove gone).closure = t) :
    t.remove gone = ⟨t, 0⟩ := by
  have hcount : (t.remove gone).count = 0 := by
    refine List.countP_eq_zero.2 fun r hr => ?_
    -- a row that was deleted would not be there any more
    have hrow := mem_rows.1 hr
    rw [← h, mem_iff, depth?_remove, Option.filter_eq_some_iff] at hrow
    simpa using hrow.2
  calc t.remove gone = ⟨(t.remove gone).closure, (t.remove gone).count⟩ := rfl
    _ = ⟨t, 0⟩ := by rw [h, hcount]

/-- Where every offered pair has a depth that is no greater, shortening changes nothing. -/
theorem shorten_eq_self
    (h : ∀ r ∈ rows, ∃ k ≤ r.depth, t.depth? r.ancestor r.descendant = some k) :
    t.shorten rows = ⟨t, 0⟩ := by
  refine write_eq_self fun r hr => ?_
  obtain ⟨k, hle, hk⟩ := h r hr
  simpa [lacks, exceeds, hk] using hle

/-- Of two depths, only the lesser one matters for the least of all. -/
private theorem isLeast_min_iff {P : Nat → Prop} {i j : Nat} :
    IsLeast {l | l = min i j ∨ P l} k ↔ IsLeast {l | l = j ∨ l = i ∨ P l} k := by
  simp only [IsLeast, mem_lowerBounds, Set.mem_ofPred_eq]
  constructor
  · rintro ⟨hk, hle⟩
    have hmin := hle (min i j) (.inl rfl)
    refine ⟨?_, ?_⟩
    · rcases hk with rfl | hk
      · rcases Nat.le_total i j with h | h
        · exact .inr (.inl (Nat.min_eq_left h))
        · exact .inl (Nat.min_eq_right h)
      · exact .inr (.inr hk)
    · rintro l (rfl | rfl | hl)
      · omega
      · omega
      · exact hle l (.inr hl)
  · rintro ⟨hk, hle⟩
    have hj := hle j (.inl rfl)
    have hi := hle i (.inr (.inl rfl))
    refine ⟨?_, ?_⟩
    · rcases hk with rfl | rfl | hk
      · exact .inl (Nat.min_eq_right hi).symm
      · exact .inl (Nat.min_eq_left hj).symm
      · exact .inr hk
    · rintro l (rfl | hl)
      · exact Nat.le_min.2 ⟨hi, hj⟩
      · exact hle l (.inr (.inr hl))

private theorem row_eq_iff {r : Row} {j : Nat} :
    (⟨r.ancestor, r.descendant, j⟩ : Row) = r ↔ j = r.depth :=
  ⟨fun h => congrArg Row.depth h, fun h => h ▸ rfl⟩

/-- A row of another pair is another row. -/
private theorem row_ne {r : Row} (h : ¬(r.ancestor = a ∧ r.descendant = d)) (j : Nat) :
    (⟨a, d, j⟩ : Row) ≠ r := by
  rintro rfl
  exact h ⟨rfl, rfl⟩

/-- A pair with a depth, under a statement that lets exactly the shorter rows pass: it ends up with
    the least of its own depth and those that it is offered. -/
private theorem foldl_offer_eq_some_iff
    (hacc : ∀ u r i, u.depth? r.ancestor r.descendant = some i →
      (accepts u r = true ↔ r.depth < i))
    (w : Written) {i : Nat} (hi : w.closure.depth? a d = some i) :
    (rows.foldl (offer accepts) w).closure.depth? a d = some k ↔
      IsLeast {j | j = i ∨ ⟨a, d, j⟩ ∈ rows} k := by
  induction rows generalizing w i with
  | nil =>
    simp only [List.foldl_nil, hi, List.not_mem_nil, or_false]
    rw [← isLeast_some_iff]
    simp only [Option.some.injEq, eq_comm]
  | cons r rows ih =>
    rw [List.foldl_cons]
    by_cases hp : r.ancestor = a ∧ r.descendant = d
    · -- a row for the pair leaves the lesser of two depths, which stands for both from now on
      obtain ⟨rfl, rfl⟩ := hp
      have hmin : (offer accepts w r).closure.depth? r.ancestor r.descendant
          = some (min r.depth i) := by
        rw [depth?_offer]
        by_cases hlt : r.depth < i
        · rw [if_pos ⟨(hacc _ _ _ hi).2 hlt, rfl, rfl⟩, Nat.min_eq_left (Nat.le_of_lt hlt)]
        · rw [if_neg fun h => hlt ((hacc _ _ _ hi).1 h.1), hi,
            Nat.min_eq_right (Nat.not_lt.1 hlt)]
      rw [ih _ hmin]
      simp only [List.mem_cons, row_eq_iff]
      exact isLeast_min_iff
    -- a row for another pair leaves this depth
    · have hsame : (offer accepts w r).closure.depth? a d = some i := by
        rw [depth?_offer, if_neg fun h => hp h.2, hi]
      rw [ih _ hsame]
      simp only [List.mem_cons, row_ne hp, false_or]

/-- **Shortening.** A pair ends up with the least of the depths that it has and is offered. -/
theorem depth?_shorten_eq_some_iff :
    (t.shorten rows).closure.depth? a d = some k ↔
      IsLeast {j | t.depth? a d = some j ∨ ⟨a, d, j⟩ ∈ rows} k := by
  have hacc : ∀ (u : Closure) (r : Row) (i : Nat), u.depth? r.ancestor r.descendant = some i →
      ((u.lacks r || u.exceeds r) = true ↔ r.depth < i) := by
    intro u r i hi
    simp [lacks, exceeds, hi]
  have key : ∀ w : Written,
      (rows.foldl (offer fun t r => t.lacks r || t.exceeds r) w).closure.depth? a d = some k ↔
        IsLeast {j | w.closure.depth? a d = some j ∨ ⟨a, d, j⟩ ∈ rows} k := by
    intro w
    cases hw : w.closure.depth? a d with
    | some i =>
      rw [foldl_offer_eq_some_iff hacc w hw]
      simp only [Option.some.injEq, eq_comm]
    | none =>
      -- up to the first row for the pair nothing changes for it
      induction rows generalizing w with
      | nil => simp [hw, IsLeast]
      | cons r rows ih =>
        rw [List.foldl_cons]
        by_cases hp : r.ancestor = a ∧ r.descendant = d
        · obtain ⟨rfl, rfl⟩ := hp
          have hr : (offer (fun t r => t.lacks r || t.exceeds r) w r).closure.depth? r.ancestor
              r.descendant = some r.depth := by
            rw [depth?_offer, if_pos]
            simp [lacks, hw]
          rw [foldl_offer_eq_some_iff hacc _ hr]
          simp only [List.mem_cons, row_eq_iff, reduceCtorEq, false_or]
        · have hsame : (offer (fun t r => t.lacks r || t.exceeds r) w r).closure.depth? a d
              = none := by
            rw [depth?_offer, if_neg fun h => hp h.2, hw]
          rw [ih _ hsame]
          simp only [List.mem_cons, row_ne hp, false_or]
  exact key ⟨t, 0⟩

/-- **Lowering.** A pair that has a depth ends up with the least of it and those it is offered; a
    pair without one stays so. -/
theorem depth?_lower_eq_some_iff :
    (t.lower rows).closure.depth? a d = some k ↔
      ∃ i, t.depth? a d = some i ∧ IsLeast {j | j = i ∨ ⟨a, d, j⟩ ∈ rows} k := by
  -- lowering takes exactly the rows below what is there; a pair without a row never gains one
  have hacc : ∀ (u : Closure) (r : Row) (i : Nat), u.depth? r.ancestor r.descendant = some i →
      (u.exceeds r = true ↔ r.depth < i) := by
    intro u r i hi
    simp [exceeds, hi]
  cases hi : t.depth? a d with
  | some i =>
    show (rows.foldl (offer exceeds) ⟨t, 0⟩).closure.depth? a d = some k ↔ _
    rw [foldl_offer_eq_some_iff hacc ⟨t, 0⟩ hi]
    simp
  | none =>
    have hnone : ((t.lower rows).closure.depth? a d).isSome = false := by
      rw [lower_spec.1, hi]; rfl
    cases hk : (t.lower rows).closure.depth? a d <;> simp_all

/-- Lowering takes no row away, and raises no depth. -/
theorem exists_le_lower (h : t.depth? a d = some k) :
    ∃ j ≤ k, (t.lower rows).closure.depth? a d = some j := by
  have hstays : (t.lower rows).closure.joins a d = true := by
    rw [joins, lower_spec.1]
    exact joins_of_depth? h
  obtain ⟨j, hj⟩ := joins_iff.1 hstays
  obtain ⟨i, hi, hleast⟩ := depth?_lower_eq_some_iff.1 hj
  exact ⟨j, hleast.2 (.inl (Option.some.inj (h.symm.trans hi))), hj⟩

/-- The table of least depths holds, for each pair, the least depth that it is offered. -/
theorem depth?_shortest_eq_some_iff :
    (shortest rows).depth? a d = some k ↔ IsLeast {j | ⟨a, d, j⟩ ∈ rows} k := by
  rw [shortest, depth?_shorten_eq_some_iff]
  simp

/-! ### The lists around one id -/

/-- Below an id are the lower ends of its rows, each with its depth. -/
@[simp] theorem mem_below {m : Kin} : m ∈ t.below n ↔ t.depth? n m.id = some m.depth := by
  simp only [below, List.mem_map, List.mem_filter, mem_rows, beq_iff_eq]
  constructor
  · rintro ⟨r, ⟨hr, rfl⟩, rfl⟩
    exact hr
  · intro h
    exact ⟨⟨n, m.id, m.depth⟩, ⟨h, rfl⟩, rfl⟩

/-- Above an id are the upper ends of its rows, each with its depth. -/
@[simp] theorem mem_above {m : Kin} : m ∈ t.above n ↔ t.depth? m.id n = some m.depth := by
  simp only [above, List.mem_map, List.mem_filter, mem_rows, beq_iff_eq]
  constructor
  · rintro ⟨r, ⟨hr, rfl⟩, rfl⟩
    exact hr
  · intro h
    exact ⟨⟨m.id, n, m.depth⟩, ⟨h, rfl⟩, rfl⟩

/-- What is anchored at an id are the id itself at depth 0 and what was there. -/
theorem mem_anchor {m : Kin} {kin : List Kin} : m ∈ anchor n kin ↔ m = ⟨n, 0⟩ ∨ m ∈ kin := by
  unfold anchor
  split
  · rename_i h
    have h : (⟨n, 0⟩ : Kin) ∈ kin := by simpa using h
    exact ⟨.inr, fun hm => hm.elim (fun he => he ▸ h) id⟩
  · rw [List.mem_cons]

/-- A subtree: its root at depth 0, and what the rows of the root lead to. -/
theorem mem_subtree {m : Kin} :
    m ∈ t.subtree n ↔ m = ⟨n, 0⟩ ∨ t.depth? n m.id = some m.depth := by
  rw [subtree, mem_anchor, mem_below]

/-- A supertree: the parent at depth 0, and what has a row to the parent. -/
theorem mem_supertree {m : Kin} :
    m ∈ t.supertree n ↔ m = ⟨n, 0⟩ ∨ t.depth? m.id n = some m.depth := by
  rw [supertree, mem_anchor, mem_above]

/-- The rows that join a subtree to a supertree: one for each pair, with the linked depth. -/
theorem mem_links {sup sub : List Kin} :
    (⟨a, d, k⟩ : Row) ∈ links sup sub ↔
      ∃ i j, ⟨a, i⟩ ∈ sup ∧ ⟨d, j⟩ ∈ sub ∧ k = Cell.link i j := by
  simp only [links, List.mem_flatMap, List.mem_map, Row.mk.injEq]
  constructor
  · rintro ⟨s, hs, m, hm, rfl, rfl, rfl⟩
    exact ⟨s.depth, m.depth, hs, hm, rfl⟩
  · rintro ⟨i, j, hs, hm, rfl⟩
    exact ⟨_, hs, _, hm, rfl, rfl, rfl⟩

/-- A self row at depth 0 makes the anchor of a subtree one of the rows. -/
theorem mem_subtree_of_self {m : Kin} (h : t.depth? n n = some 0) :
    m ∈ t.subtree n ↔ t.depth? n m.id = some m.depth := by
  rw [mem_subtree, or_iff_right_of_imp]
  rintro rfl
  exact h

/-- Where the self row is at depth 0, the anchor adds nothing to it. -/
theorem mem_supertree_of_self {m : Kin} (h : t.depth? n n = some 0) :
    m ∈ t.supertree n ↔ t.depth? m.id n = some m.depth := by
  rw [mem_supertree, or_iff_right_of_imp]
  rintro rfl
  exact h

/-! ### Statements of a move -/

variable {tenant parent child : Int}

/-- `n` is the moved tenant or one of the descendants that its rows name. -/
def InSubtree (t : Closure) (tenant n : Int) : Prop := n = tenant ∨ t.joins tenant n = true

/-- Being in a subtree, as the test that runs. -/
theorem inSubtree_iff_any :
    t.InSubtree tenant n ↔ ((t.subtree tenant).any fun m => m.id == n) = true := by
  simp only [List.any_eq_true, mem_subtree, beq_iff_eq, InSubtree, joins_iff]
  constructor
  · rintro (rfl | ⟨k, hk⟩)
    · exact ⟨⟨n, 0⟩, .inl rfl, rfl⟩
    · exact ⟨⟨n, k⟩, .inr hk, rfl⟩
  · rintro ⟨m, rfl | hm, rfl⟩
    · exact .inl rfl
    · exact .inr ⟨_, hm⟩

/-- **Detaching.** A row that leads into the subtree from outside stays only if it has just the
    depth that the new place gives it; all other rows stay. -/
theorem depth?_detach_eq_some_iff :
    (t.detach tenant parent).closure.depth? a d = some k ↔
      t.depth? a d = some k ∧ (t.InSubtree tenant d → ¬t.InSubtree tenant a →
        ⟨a, d, k⟩ ∈ links (t.ancestry parent) (t.subtree tenant)) := by
  rw [detach, depth?_remove, Option.filter_eq_some_iff]
  simp only [inSubtree_iff_any, Bool.not_eq_true', Bool.and_eq_false_iff, Bool.not_eq_false',
    List.contains_iff_mem, Bool.not_eq_true]
  refine and_congr_right fun _ => ?_
  cases (t.subtree tenant).any fun m => m.id == d <;>
    cases (t.subtree tenant).any fun m => m.id == a <;> simp

/-- **Dropping old parents.** Only rows of depth 1 into the tenant go. -/
theorem depth?_dropOtherParents_eq_some_iff :
    (t.dropOtherParents tenant parent).closure.depth? a d = some k ↔
      t.depth? a d = some k ∧ ¬(d = tenant ∧ k = 1 ∧ a ≠ parent) := by
  rw [dropOtherParents, depth?_remove, Option.filter_eq_some_iff]
  refine and_congr_right fun _ => ?_
  by_cases hd : d = tenant <;> by_cases hk : k = 1 <;> simp [hd, hk]

/-- **Attaching.** A pair gets the least of its depth and the depths over the new parent. -/
theorem depth?_attach_eq_some_iff :
    (t.attach tenant parent).closure.depth? a d = some k ↔
      IsLeast {j | t.depth? a d = some j
        ∨ ⟨a, d, j⟩ ∈ links (t.supertree parent) (t.subtree tenant)} k :=
  depth?_shorten_eq_some_iff

/-! ### Statements that add a parent edge -/

/-- The parent edge and the rows that it brings along. -/
def adopt (t : Closure) (parent child : Int) : Closure :=
  ((t.direct parent child).closure.inherit parent child).closure

/-- Planting writes the self row unless there is one, and nothing else. -/
theorem depth?_plant :
    (t.plant n).closure.depth? a d
      = (t.depth? a d).or (if a = n ∧ d = n then some 0 else none) := by
  rw [plant, depth?_fill]
  by_cases h : a = n ∧ d = n
  · obtain ⟨rfl, rfl⟩ := h
    simp [Row.self, Row.pair]
  · have hne : ¬((Row.self n).pair = ⟨a, d⟩) := by
      simp only [Row.self, Row.pair, Pair.mk.injEq]
      exact fun he => h ⟨he.1.symm, he.2.symm⟩
    simp [hne, h]

/-- Planting joins an id to itself. -/
theorem joins_plant :
    (t.plant n).closure.joins a d = true ↔ t.joins a d = true ∨ a = n ∧ d = n := by
  rw [joins, depth?_plant, joins]
  cases t.depth? a d with
  | none => by_cases h : a = n ∧ d = n <;> simp [h]
  | some k => simp

/-- A self row brings in its own id, and no other. -/
theorem mem_ids_plant {leaf : Int} : n ∈ (t.plant leaf).closure.ids ↔ n = leaf ∨ n ∈ t.ids := by
  simp only [mem_ids_iff_joins, joins_plant]
  constructor
  · rintro ⟨m, (hj | ⟨hn, -⟩) | hj | ⟨-, hn⟩⟩
    · exact .inr ⟨m, .inl hj⟩
    · exact .inl hn
    · exact .inr ⟨m, .inr hj⟩
    · exact .inl hn
  · rintro (rfl | ⟨m, hj | hj⟩)
    · exact ⟨n, .inl (.inr ⟨rfl, rfl⟩)⟩
    · exact ⟨m, .inl (.inl hj)⟩
    · exact ⟨m, .inr (.inl hj)⟩

/-- Planting an id with a self row changes nothing. -/
theorem plant_eq_self (h : t.depth? n n = some k) : (t.plant n).closure = t := by
  have hfill : t.fill [Row.self n] = ⟨t, 0⟩ := by
    refine fill_eq_self fun r hr => ?_
    rw [List.mem_singleton.1 hr]
    exact joins_of_depth? h
  rw [plant, hfill]

/-- Where there is no row from the parent, its parent edge is added; where there is one, it is
    lowered. -/
theorem direct_of_none (h : t.depth? parent child = none) :
    t.direct parent child = t.fill [⟨parent, child, 1⟩] := by
  simp [direct, shorten, fill, write, offer, lacks, h]

/-- On an edge that is there, the statement can only lower it. -/
theorem direct_of_some (h : t.depth? parent child = some k) :
    t.direct parent child = t.lower [⟨parent, child, 1⟩] := by
  simp [direct, shorten, lower, write, offer, lacks, h]

/-- The edge to the parent ends at depth 1, or at 0 if it was there; all other rows stay. -/
theorem depth?_direct :
    (t.direct parent child).closure.depth? a d
      = if a = parent ∧ d = child then some (((t.depth? parent child).map (min 1)).getD 1)
        else t.depth? a d := by
  refine Option.ext fun k => ?_
  rw [direct, depth?_shorten_eq_some_iff]
  by_cases h : a = parent ∧ d = child
  · obtain ⟨rfl, rfl⟩ := h
    cases hk : t.depth? a d with
    | none =>
      simp only [reduceCtorEq, List.mem_singleton, Row.mk.injEq, true_and, false_or, and_self,
        if_true, Option.map_none, Option.getD_none]
      rw [← isLeast_some_iff]
      simp only [Option.some.injEq, eq_comm]
    | some i =>
      simp only [Option.some.injEq, List.mem_singleton, Row.mk.injEq, true_and, and_self, if_true,
        Option.map_some, Option.getD_some]
      constructor
      · rintro ⟨hk, hle⟩
        have h1 := hle (.inr rfl)
        have hi := hle (.inl rfl)
        rcases hk with rfl | rfl <;> omega
      · rintro rfl
        refine ⟨?_, ?_⟩
        · rcases Nat.le_total 1 i with h | h
          · exact .inr (Nat.min_eq_left h)
          · exact .inl (Nat.min_eq_right h).symm
        · rintro j (rfl | rfl) <;> omega
  -- another pair is not offered a row at all
  · have hne : ∀ j, ¬((⟨a, d, j⟩ : Row) ∈ [(⟨parent, child, 1⟩ : Row)]) := by
      intro j hj
      simp only [List.mem_singleton, Row.mk.injEq] at hj
      exact h ⟨hj.1, hj.2.1⟩
    simp only [hne, or_false, if_neg h, isLeast_some_iff]

/-- The rows of a list of inherited rows. -/
theorem mem_inheritedRows :
    (⟨a, d, k⟩ : Row) ∈ t.inheritedRows parent child ↔
      d = child ∧ a ≠ parent ∧ ∃ i, t.depth? a parent = some i ∧ k = Cell.sum i 1 := by
  simp only [inheritedRows, List.mem_map, List.mem_filter, mem_above, bne_iff_ne, Row.mk.injEq]
  constructor
  · rintro ⟨s, ⟨hs, hne⟩, rfl, rfl, rfl⟩
    exact ⟨rfl, hne, s.depth, hs, rfl⟩
  · rintro ⟨rfl, hne, i, hi, rfl⟩
    exact ⟨⟨a, i⟩, ⟨hi, hne⟩, rfl, rfl, rfl⟩

/-- Each inherited row comes from another id. -/
theorem pairwise_inheritedRows :
    (t.inheritedRows parent child).Pairwise fun r s => r.pair ≠ s.pair := by
  have habove : (t.above parent).Pairwise fun k l => k.id ≠ l.id := by
    unfold above
    rw [List.pairwise_map]
    refine (t.rows_ordered.filter _).imp_of_mem fun {r s} hr hs hlt he => ?_
    -- two rows that end at the parent and begin at the same id are rows of one pair
    have hd : r.descendant = s.descendant := by
      rw [eq_of_beq (List.mem_filter.1 hr).2, eq_of_beq (List.mem_filter.1 hs).2]
    have hpair : r.pair = s.pair := congrArg₂ Pair.mk he hd
    rw [hpair, Std.compare_self] at hlt
    cases hlt
  unfold inheritedRows
  rw [List.pairwise_map]
  exact (habove.filter _).imp fun hne he => hne (Pair.mk.inj he).1

/-- The rows that a child lacks can all be added, and that is what it means to inherit. -/
theorem admits_missingRows : t.admits (t.missingRows parent child) = true := by
  refine admits_of_new (fun r hr => ?_) (pairwise_inheritedRows.filter _)
  exact (Bool.and_eq_true_iff.1 (List.mem_filter.1 hr).2).2

/-- Adding what is missing is filling in what is inherited. -/
theorem fill_missingRows : t.fill (t.missingRows parent child) = t.inherit parent child := by
  have hsplit : t.missingRows parent child
      = ((t.inheritedRows parent child).filter fun r => r.ancestor != child).filter t.lacks := by
    rw [missingRows, List.filter_filter]
    exact List.filter_congr fun r _ => Bool.and_comm _ _
  rw [hsplit, fill_filter_lacks, inherit]

/-- A child to which no row leads, but for its own, inherits all rows at once. -/
theorem admits_inheritedRows (h : ∀ a, a ≠ parent → a ≠ child → t.depth? a child = none)
    (hback : t.depth? child parent = none) :
    t.admits (t.inheritedRows parent child) = true ∧
      t.fill (t.inheritedRows parent child) = t.inherit parent child := by
  have hne : ∀ r ∈ t.inheritedRows parent child, r.ancestor ≠ child ∧ t.lacks r = true := by
    rintro ⟨a, d, k⟩ hr
    obtain ⟨rfl, hp, i, hi, -⟩ := mem_inheritedRows.1 hr
    have hc : a ≠ d := by
      rintro rfl
      rw [hback] at hi
      cases hi
    exact ⟨hc, lacks_iff.2 (h a hp hc)⟩
  refine ⟨admits_of_new (fun r hr => (hne r hr).2) pairwise_inheritedRows, ?_⟩
  rw [inherit, List.filter_eq_self.2 fun r hr => bne_iff_ne.2 (hne r hr).1]

/-- Adopting a child mentions no id that was not there. -/
theorem ids_adopt (hp : parent ∈ t.ids) (hc : child ∈ t.ids) :
    (t.adopt parent child).ids = t.ids := by
  have hdirect : (t.direct parent child).closure.ids = t.ids := by
    refine ids_write fun r hr => ?_
    rw [List.mem_singleton.1 hr]
    exact ⟨hp, hc⟩
  rw [← hdirect]
  refine ids_write fun r hr => ?_
  obtain ⟨hd, -, i, hi, -⟩ := mem_inheritedRows.1 (List.mem_filter.1 hr).1
  exact ⟨(mem_ids_of_joins (joins_of_depth? hi)).1, by rw [hd, hdirect]; exact hc⟩

/-- **Adopting.** The parent edge ends up at depth 1 at most; the proper ancestors of the parent
    become ancestors of the child where they were none; nothing else changes. -/
theorem depth?_adopt (h : parent ≠ child) :
    (t.adopt parent child).depth? a d
      = if d = child then
          if a = parent then some (((t.depth? parent child).map (min 1)).getD 1)
          else if a = child then t.depth? child child
          else (t.depth? a child).or ((t.depth? a parent).map (Cell.sum · 1))
        else t.depth? a d := by
  refine Option.ext fun k => ?_
  -- the parent edge leads to the child, so that the parent inherits nothing through it
  have hpar : ∀ b, (t.direct parent child).closure.depth? b parent = t.depth? b parent :=
    fun b => by
    rw [depth?_direct, if_neg fun he => h he.2]
  have hrows : ∀ j, (⟨a, d, j⟩ : Row) ∈ ((t.direct parent child).closure.inheritedRows parent
      child).filter (fun r => r.ancestor != child) ↔
      d = child ∧ a ≠ parent ∧ a ≠ child ∧ (t.depth? a parent).map (Cell.sum · 1) = some j := by
    intro j
    simp only [List.mem_filter, mem_inheritedRows, hpar, bne_iff_ne, Option.map_eq_some_iff]
    constructor
    · rintro ⟨⟨hd, hp, i, hi, rfl⟩, hc⟩
      exact ⟨hd, hp, hc, i, hi, rfl⟩
    · rintro ⟨hd, hp, hc, i, hi, rfl⟩
      exact ⟨⟨hd, hp, i, hi, rfl⟩, hc⟩
  rw [adopt, inherit, depth?_fill_eq_some_iff, hrows, depth?_direct]
  · by_cases hd : d = child
    · subst hd
      by_cases hp : a = parent
      · simp [hp]
      · by_cases hc : a = d
        · subst hc
          simp [hp]
        · simp [hp, hc, Option.or_eq_some_iff]
    · simp [hd]
  · intro i j hi hj
    rw [hrows] at hi hj
    exact Option.some.inj (hi.2.2.2.symm.trans hj.2.2.2)

end Tenancy.Closure
