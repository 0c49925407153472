import Mathlib.Algebra.Group.Nat.Defs
import Mathlib.Data.Finset.Card
import Mathlib.Data.Nat.Log
import Tenancy.Proofs.Passes
import Tenancy.Proofs.ShortestWays

namespace Tenancy

/-!
# How many passes a repair takes

A pass joins any two rows that meet, so that it doubles the number of rows that a row of the table
can stand for: after `k` passes, no way over at most `2 ^ k` rows is shorter than the row between
its ends.  A shortest way comes past no id twice, and so has fewer rows than there are ids.  Once
`2 ^ k` is as large as that, nothing is left to add or lower, and the next pass is the last one.

* `Closure.Walk` — a way along the rows of a table, with the number of rows and its length.
* `Closure.exists_le_of_hop` — what one pass does with two rows that meet.
* `Closure.exists_le_of_walk` — what `k` passes do with a way over at most `2 ^ k` rows.
* `Closure.exists_walk` — a shortest way has fewer rows than there are ids.
* `Hierarchy.passes_le` — the number of passes of a repair.
-/

variable {s : Scope} {t u : Closure} {a b c : Int} {i j k l m : Nat}

namespace Closure

/-! ### Walks -/

/-- A walk from one id to another along rows between different ids, with the number of these rows
    and the sum of their depths.  It may have no row at all. -/
inductive Walk (t : Closure) : Int → Int → Nat → Nat → Prop
  | nil (a : Int) : Walk t a a 0 0
  | cons {a b c : Int} {m i j : Nat} (hne : a ≠ b) (hi : t.depth? a b = some i)
      (rest : Walk t b c m j) : Walk t a c (m + 1) (i + j)

/-- A walk can be cut in two behind any of its rows. -/
theorem Walk.split (h : t.Walk a c m k) (hl : l ≤ m) :
    ∃ b i j, t.Walk a b l i ∧ t.Walk b c (m - l) j ∧ k = i + j := by
  induction h generalizing l with
  | nil a =>
    obtain rfl : l = 0 := by omega
    exact ⟨a, 0, 0, .nil a, .nil a, rfl⟩
  | @cons a b c m i j hne hi rest ih =>
    cases l with
    | zero => exact ⟨a, 0, i + j, .nil a, .cons hne hi rest, (Nat.zero_add _).symm⟩
    | succ l =>
      obtain ⟨d, i', j', hfirst, hsecond, rfl⟩ := ih (Nat.le_of_succ_le_succ hl)
      refine ⟨d, i + i', j', .cons hne hi hfirst, ?_, by omega⟩
      rwa [Nat.succ_sub_succ]

/-- A walk over one row at most leads along this row, unless it ends where it starts. -/
theorem Walk.row (h : t.Walk a c m k) (hm : m ≤ 1) (hne : a ≠ c) : t.depth? a c = some k := by
  cases h with
  | nil => exact absurd rfl hne
  | cons _ hi rest =>
    cases rest with
    | nil => exact hi
    | cons => omega

/-- Where no row between different ids has depth 0, no way between different ids has length 0. -/
theorem Way.pos (h : t.Way a c k) (hpos : ∀ a d, t.depth? a d = some 0 → a = d) : 0 < k := by
  have hrow : ∀ a d i, a ≠ d → t.depth? a d = some i → 0 < i := fun a d i hne hi =>
    Nat.pos_of_ne_zero fun hz => hne (hpos a d (hz ▸ hi))
  cases h with
  | row hne hk => exact hrow _ _ _ hne hk
  | step hne hi _ => exact Nat.add_pos_left (hrow _ _ _ hne hi) _

/-! ### Passes -/

/-- **One pass.** Two rows that meet are no shorter together than the row that they stand for. -/
theorem exists_le_of_hop (hi : 0 < i) (hj : 0 < j) (hne : a ≠ c) (hab : u.depth? a b = some i)
    (hbc : u.depth? b c = some j) : ∃ k ≤ Cell.sum i j, u.pass.depth? a c = some k := by
  -- the rows are still there when the pass has added what was missing
  have hkept : ∀ a d k, u.depth? a d = some k → u.complete.closure.depth? a d = some k :=
    fill_spec.1
  have hhop : (⟨a, c, Cell.sum i j⟩ : Row) ∈ u.hops :=
    mem_hops.2 ⟨hne, b, i, j, hi, hj, hab, hbc, rfl⟩
  have hhop' : (⟨a, c, Cell.sum i j⟩ : Row) ∈ u.complete.closure.hops :=
    mem_hops.2 ⟨hne, b, i, j, hi, hj, hkept a b i hab, hkept b c j hbc, rfl⟩
  obtain ⟨l, hl, hleast⟩ := exists_isLeast (S := {k | (⟨a, c, k⟩ : Row) ∈ u.hops}) hhop
  obtain ⟨l', hl', hleast'⟩ :=
    exists_isLeast (S := {k | (⟨a, c, k⟩ : Row) ∈ u.complete.closure.hops}) hhop'
  obtain ⟨k, hk⟩ : ∃ k, u.complete.closure.depth? a c = some k := by
    cases hold : u.depth? a c with
    | some k => exact ⟨k, hkept a c k hold⟩
    | none => exact ⟨l, depth?_complete_eq_some_iff.2 (.inr ⟨hold, hleast⟩)⟩
  -- and then it is lowered to the shortest hop, or was as short already
  refine ⟨min k l', by omega, depth?_minimize_eq_some_iff.2 ⟨k, hk, ?_, ?_⟩⟩
  · rcases Nat.le_total k l' with h | h
    · exact .inl (Nat.min_eq_left h)
    · rw [Nat.min_eq_right h]
      exact .inr hleast'
  · rintro x (rfl | hx)
    · exact Nat.min_le_left _ _
    · rw [hx.unique hleast']
      exact Nat.min_le_right _ _

/-- The rows on the way of a repair are backed by ways of the table before it. -/
theorem backs_of_depth?_iterate (n : Nat) :
    ∀ a d k, (pass^[n] t.selved).depth? a d = some k → t.Backs a d k := by
  induction n with
  | zero => exact backs_of_depth?_selved
  | succ n ih =>
    rw [Function.iterate_succ_apply']
    exact chains_backs.pass ih

/-- None of them is less deep than the one that is left in the end. -/
theorem exists_le_of_depth?_iterate (n : Nat) (hk : (pass^[n] t.selved).depth? a c = some k) :
    ∃ j ≤ k, t.repaired.depth? a c = some j := by
  rw [repaired, ← saturate_iterate n]
  exact exists_le_saturate hk

/-- **Doubling.** After `k` passes, no walk over at most `2 ^ k` rows from one id to another is
    shorter than the row between them, which exists, if the length of the walk is exact. -/
theorem exists_le_of_walk (hpos : ∀ a d, t.depth? a d = some 0 → a = d) (h : t.Walk a c m l)
    (hfit : l ≤ TenantId.maxCell) (hm : m ≤ 2 ^ k) (hne : a ≠ c) :
    ∃ j ≤ l, (pass^[k] t.selved).depth? a c = some j := by
  induction k generalizing a c m l with
  | zero =>
    -- the row is one of those that the repair starts from
    refine ⟨l, Nat.le_refl l, ?_⟩
    show t.selved.depth? a c = some l
    rw [depth?_selved, if_neg fun hs => hne hs.1]
    exact h.row hm hne
  | succ k ih =>
    rw [Function.iterate_succ_apply']
    -- each half of the walk is covered by a row already
    obtain ⟨b, i, j, hfirst, hsecond, rfl⟩ := h.split (Nat.min_le_left m (2 ^ k))
    have hhalf : min m (2 ^ k) ≤ 2 ^ k := Nat.min_le_right _ _
    have hhalf' : m - min m (2 ^ k) ≤ 2 ^ k := by
      rw [Nat.pow_succ] at hm
      omega
    by_cases hab : a = b
    · subst hab
      obtain ⟨j', hj', hrow⟩ := ih hsecond (Nat.le_of_add_left_le hfit) hhalf' hne
      obtain ⟨j'', hj'', hrow'⟩ := exists_le_pass hrow
      exact ⟨j'', by omega, hrow'⟩
    · obtain ⟨i', hi', hrow⟩ := ih hfirst (Nat.le_of_add_right_le hfit) hhalf hab
      by_cases hbc : b = c
      · subst hbc
        obtain ⟨i'', hi'', hrow'⟩ := exists_le_pass hrow
        exact ⟨i'', by omega, hrow'⟩
      · obtain ⟨j', hj', hrow'⟩ := ih hsecond (Nat.le_of_add_left_le hfit) hhalf' hbc
        have hi : 0 < i' := ((backs_of_depth?_iterate k a b i' hrow).2 hab (by omega)).pos hpos
        have hj : 0 < j' := ((backs_of_depth?_iterate k b c j' hrow').2 hbc (by omega)).pos hpos
        obtain ⟨x, hx, hhop⟩ := exists_le_of_hop hi hj hne hrow hrow'
        rw [Cell.sum_eq (by omega)] at hx
        exact ⟨x, by omega, hhop⟩

/-! ### Shortest ways -/

/-- The ids other than `c` from which a way of length `l` at most leads to `c`. -/
def near (t : Closure) (c : Int) (l : Nat) : Finset Int :=
  t.ids.toList.toFinset.filter fun n => n ≠ c ∧ (t.repaired.depth? n c).any (· ≤ l) = true

/-- The ids near an end are those within so many steps of it. -/
theorem mem_near : a ∈ t.near c l ↔ a ≠ c ∧ ∃ k ≤ l, t.repaired.depth? a c = some k := by
  simp only [near, Finset.mem_filter, List.mem_toFinset, Std.ExtTreeSet.mem_toList,
    Option.any_eq_true, decide_eq_true_eq]
  constructor
  · rintro ⟨-, hne, k, hk, hle⟩
    exact ⟨hne, k, hle, hk⟩
  · rintro ⟨hne, k, hle, hk⟩
    refine ⟨?_, hne, k, hk, hle⟩
    rw [← ids_repaired]
    exact (mem_ids_of_joins (joins_of_depth? hk)).1

/-- One id less than there are is near another one at most. -/
theorem card_near_le (hc : c ∈ t.ids) : (t.near c l).card ≤ t.ids.size - 1 := by
  have hsub : t.near c l ⊆ t.ids.toList.toFinset.erase c := fun n hn =>
    Finset.mem_erase.2 ⟨(mem_near.1 hn).1, (Finset.mem_filter.1 hn).1⟩
  have hmem : c ∈ t.ids.toList.toFinset := List.mem_toFinset.2 (Std.ExtTreeSet.mem_toList.2 hc)
  refine (Finset.card_le_card hsub).trans_eq ?_
  rw [Finset.card_erase_of_mem hmem, List.toFinset_card_of_nodup nodup_ids,
    Std.ExtTreeSet.length_toList]

/-- **A shortest way has few rows.** Each row that it goes along brings it nearer to its end, so
    that it has no more rows than there are ids as near to the end as its start. -/
theorem exists_walk (hpos : ∀ a d, t.depth? a d = some 0 → a = d) (hne : a ≠ c)
    (hfit : l ≤ TenantId.maxCell) (hl : t.repaired.depth? a c = some l) :
    ∃ m ≤ (t.near c l).card, t.Walk a c m l := by
  induction l using Nat.strong_induction_on generalizing a with
  | _ l ih =>
    have ha : a ∈ t.near c l := mem_near.2 ⟨hne, l, Nat.le_refl l, hl⟩
    have hone : 1 ≤ (t.near c l).card := Finset.card_pos.2 ⟨a, ha⟩
    cases (backs_of_depth?_repaired hl).2 hne hfit with
    | row _ hk => exact ⟨1, hone, .cons hne hk (.nil c)⟩
    | @step _ b _ i j hab hi rest =>
      have hi0 : 0 < i := (Way.row hab hi).pos hpos
      by_cases hbc : b = c
      · -- the first row leads to the end already, and the rest is no more than a way back to it
        subst hbc
        obtain ⟨x, hx, hrow⟩ := exists_le_of_way hpos (.row hab hi) (by omega) hab
        obtain rfl : j = 0 := by
          have hsame : i + j = x := Option.some.inj (hl.symm.trans hrow)
          omega
        exact ⟨1, hone, .cons hab hi (.nil b)⟩
      · -- the rest is a shortest way as well
        obtain ⟨j', hj', hrow⟩ := exists_le_of_way hpos rest (by omega) hbc
        have hway : t.Way a c (i + j') :=
          .step hab hi ((backs_of_depth?_repaired hrow).2 hbc (by omega))
        obtain ⟨x, hx, hrow'⟩ := exists_le_of_way hpos hway (by omega) hne
        obtain rfl : j' = j := by
          have hsame : i + j = x := Option.some.inj (hl.symm.trans hrow')
          omega
        obtain ⟨m, hm, hwalk⟩ := ih j' (by omega) hbc (by omega) hrow
        refine ⟨m + 1, ?_, .cons hab hi hwalk⟩
        -- its ids are nearer to the end than the start is
        have hnot : a ∉ t.near c j' := by
          intro hnear
          obtain ⟨-, k, hk, hak⟩ := mem_near.1 hnear
          have hsame : i + j' = k := Option.some.inj (hl.symm.trans hak)
          omega
        have hsub : insert a (t.near c j') ⊆ t.near c (i + j') := by
          refine Finset.insert_subset ha fun n hn => ?_
          obtain ⟨hnc, k, hk, hrow⟩ := mem_near.1 hn
          exact mem_near.2 ⟨hnc, k, by omega, hrow⟩
        have hcard := Finset.card_le_card hsub
        rw [Finset.card_insert_of_notMem hnot] at hcard
        omega

/-! ### The last pass -/

/-- When the passes have come as far as the number of ids, nothing is left to add or lower. -/
theorem closed_iterate (hpos : ∀ a d, t.depth? a d = some 0 → a = d) (hfit : t.repaired.Fits)
    (hk : t.ids.size - 1 ≤ 2 ^ k) : (pass^[k] t.selved).Closed := by
  refine closed_iff.2 fun a b c i j hi hj hne hab hbc => ?_
  -- the two rows are no less deep than those that are left in the end, which stand for a third one
  obtain ⟨i', hi', hab'⟩ := exists_le_of_depth?_iterate k hab
  obtain ⟨j', hj', hbc'⟩ := exists_le_of_depth?_iterate k hbc
  have hself : ∀ n ∈ t.repaired.ids, t.repaired.depth? n n = some 0 := fun n hn =>
    depth?_repaired_self (ids_repaired (t := t) ▸ hn)
  obtain ⟨l, hrow, hl⟩ := closed_repaired.exists_row hself (eq_of_depth?_repaired hpos) hab' hbc'
  have hexact := hfit a c l hrow
  have hle : l ≤ Cell.sum i j := by
    rcases hl with hl | hl
    · exact (Cell.le_sum_iff (Nat.le_succ_of_le hexact)).2 (hl.trans (Nat.add_le_add hi' hj'))
    · exact hl.trans (Cell.sum_mono hi' hj')
  -- a shortest way between the two ends has few enough rows to be covered by now
  obtain ⟨m, hm, hwalk⟩ := exists_walk hpos hne hexact hrow
  have hc : c ∈ t.ids := by
    rw [← ids_repaired]
    exact (mem_ids_of_joins (joins_of_depth? hrow)).2
  have hfew : m ≤ 2 ^ k := hm.trans ((card_near_le hc).trans hk)
  obtain ⟨x, hx, hrow'⟩ := exists_le_of_walk hpos hwalk hexact hfew hne
  exact ⟨x, hx.trans hle, hrow'⟩

end Closure

namespace Hierarchy

/-- **The number of passes is logarithmic.** On any table without a row of depth 0 between different
    ids, a repair of the whole table takes at most `⌈log₂ (n - 1)⌉ + 1` passes, where `n` is the
    number of ids that the table mentions, if the sums that are left are exact. -/
theorem passes_le (h : s.Holds t) (hpos : ∀ a d, t.depth? a d = some 0 → a = d)
    (hfit : t.repaired.Fits) :
    ∃ report s', repairAll.on s = (.ok report, s') ∧
      report.passes ≤ Nat.clog 2 (max 1 (t.ids.size - 1)) + 1 := by
  obtain ⟨n, hpasses, -, hbusy⟩ := t.selved.exists_saturate_eq
  have hcount : (repairReport t).passes = n + 1 := by
    show t.selved.saturate.2.length = n + 1
    rw [hpasses, List.length_map, List.length_range]
  refine ⟨_, _, repairAll_on h, ?_⟩
  rw [hcount]
  have henough : t.ids.size - 1 ≤ 2 ^ Nat.clog 2 (max 1 (t.ids.size - 1)) :=
    (Nat.le_max_right _ _).trans (Nat.le_pow_clog Nat.one_lt_two _)
  -- the first idle pass comes no later than the table is closed
  refine Nat.succ_le_succ (Nat.le_of_not_lt fun hlt => ?_)
  exact hbusy _ hlt (Closure.closed_iterate hpos hfit henough).idle

/-- A chain of five ids, with a row that leads back from its end. -/
def chain : Closure := (Closure.empty.fill
  [⟨1, 2, 1⟩, ⟨2, 3, 4⟩, ⟨3, 4, 1⟩, ⟨4, 5, 2⟩, ⟨5, 1, 1⟩]).closure

/-- Two passes complete it, and a third one finds nothing to do. -/
theorem passes_le_chain :
    let s : Scope := { database := { table := some { closure := chain } } }
    ∃ report s', repairAll.on s = (.ok report, s') ∧ report.passes ≤ 3 := by
  intro s
  have h : s.Holds chain := ⟨rfl, rfl⟩
  have hpos : ∀ a d, chain.depth? a d = some 0 → a = d := Closure.pos_iff_rows.2 (by decide +kernel)
  have hfit : chain.repaired.Fits := by
    rw [Closure.repaired_eq_iterate (n := 2) (by decide +kernel)]
    decide +kernel
  have hsize : chain.ids.size = 5 := by decide +kernel
  obtain ⟨report, s', hrun, hle⟩ := passes_le h hpos hfit
  have hlog : Nat.clog 2 (max 1 (5 - 1)) = 2 := by decide
  rw [hsize, hlog] at hle
  exact ⟨report, s', hrun, hle⟩

end Hierarchy

end Tenancy
