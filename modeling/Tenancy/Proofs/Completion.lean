import Mathlib.Data.Nat.Find
import Tenancy.Proofs.Statements

namespace Tenancy.Closure

/-!
# What completing a table leads to

A table is *closed* if no two rows that meet are shorter together than the row that they stand for.
Completing a table ends with a closed one, and whatever holds of the rows before and carries over to
the row that two rows stand for holds of all rows afterwards.  These two facts together say all
about the result; the passes themselves are not looked at again.

* `Closed` — nothing is left to add or lower.
* `closed_saturate`, `saturate_induction` — the two facts about the passes.
* `repaired` — the table after a whole repair; `closed_repaired`, `repaired_induction`.
* `repaired_eq_self_iff` — which tables a repair leaves alone.
-/

variable {t u : Closure} {a b c d n : Int} {i j k : Nat}

/-- No two rows that meet are shorter together than the row that they stand for, which exists. -/
def Closed (t : Closure) : Prop :=
  ∀ r ∈ t.hops, ∃ k ≤ r.depth, t.depth? r.ancestor r.descendant = some k

/-- Closedness, depth by depth: two rows that meet are dominated by one over their sum. -/
theorem closed_iff : t.Closed ↔ ∀ a b c i j, 0 < i → 0 < j → a ≠ c → t.depth? a b = some i →
    t.depth? b c = some j → ∃ k ≤ Cell.sum i j, t.depth? a c = some k := by
  constructor
  · intro h a b c i j hi hj hne hab hbc
    exact h ⟨a, c, Cell.sum i j⟩ (mem_hops.2 ⟨hne, b, i, j, hi, hj, hab, hbc, rfl⟩)
  · intro h r hr
    obtain ⟨hne, b, i, j, hi, hj, hab, hbc, hk⟩ := mem_hops.1 hr
    rw [hk]
    exact h _ b _ i j hi hj hne hab hbc

/-! ### One pass -/

/-- Completing keeps every row and adds the least of the sums where there was none. -/
theorem depth?_complete_eq_some_iff :
    t.complete.closure.depth? a d = some k ↔
      t.depth? a d = some k ∨ t.depth? a d = none ∧ IsLeast {j | ⟨a, d, j⟩ ∈ t.hops} k := by
  rw [complete, depth?_fill_eq_some_iff]
  · simp only [mem_rows, mem_iff, depth?_shortest_eq_some_iff]
  · intro i j hi hj
    simp only [mem_rows, mem_iff] at hi hj
    exact Option.some.inj (hi.symm.trans hj)

/-- Minimizing adds no pair; the depth becomes the lesser of itself and the least sum. -/
theorem depth?_minimize_eq_some_iff :
    t.minimize.closure.depth? a d = some k ↔
      ∃ i, t.depth? a d = some i ∧ IsLeast {j | j = i ∨ IsLeast {j | ⟨a, d, j⟩ ∈ t.hops} j} k := by
  rw [minimize, depth?_lower_eq_some_iff]
  simp only [mem_rows, mem_iff, depth?_shortest_eq_some_iff]

/-- Any set of depths that is not empty has a least one. -/
theorem exists_isLeast {S : Set Nat} (h : k ∈ S) : ∃ j ≤ k, IsLeast S j := by
  classical
  have hS : ∃ j, j ∈ S := ⟨k, h⟩
  exact ⟨Nat.find hS, Nat.find_min' hS h, Nat.find_spec hS, fun j hj => Nat.find_min' hS hj⟩

/-- A pass that neither adds nor lowers a row has found a closed table. -/
theorem closed_of_pass (hc : t.complete.closure = t) (hm : t.minimize.closure = t) : t.Closed := by
  intro r hr
  obtain ⟨j, hjr, hj⟩ := exists_isLeast (S := {j | ⟨r.ancestor, r.descendant, j⟩ ∈ t.hops}) hr
  cases hk : t.depth? r.ancestor r.descendant with
  | none =>
    -- the pair would have been filled
    have h := depth?_complete_eq_some_iff.2 (.inr ⟨hk, hj⟩)
    rw [hc, hk] at h
    cases h
  | some k =>
    -- a row that is deeper than the hop would have been lowered
    have h := hk
    rw [← hm, depth?_minimize_eq_some_iff] at h
    obtain ⟨i, -, hleast⟩ := h
    exact ⟨k, Nat.le_trans (hleast.2 (.inr hj)) hjr, rfl⟩

/-- A closed table is not changed by a pass. -/
theorem Closed.pass (h : t.Closed) : t.complete = ⟨t, 0⟩ ∧ t.minimize = ⟨t, 0⟩ := by
  have hrow : ∀ r ∈ (shortest t.hops).rows, ∃ k ≤ r.depth,
      t.depth? r.ancestor r.descendant = some k :=
    fun r hr => h r (mem_of_mem_shortest r (mem_rows.1 hr))
  constructor
  · refine fill_eq_self fun r hr => ?_
    obtain ⟨k, -, hk⟩ := hrow r hr
    exact joins_of_depth? hk
  · refine lower_eq_self fun r hr k hk => ?_
    obtain ⟨k', hle, hk'⟩ := hrow r hr
    rw [hk, Option.some.injEq] at hk'
    exact hk' ▸ hle

/-! ### All passes -/

/-- The table after one pass. -/
def pass (t : Closure) : Closure := t.complete.closure.minimize.closure

/-- A pass counts no row, in neither of its statements. -/
def Idle (t : Closure) : Prop := t.complete.count = 0 ∧ t.complete.closure.minimize.count = 0

/-- An idle pass changes nothing. -/
theorem Idle.eq_self (h : t.Idle) : t.complete.closure = t ∧ t.minimize.closure = t := by
  have hcomplete : t.complete.closure = t := fill_spec.2.1 h.1
  have hcount : t.minimize.count = 0 := hcomplete ▸ h.2
  exact ⟨hcomplete, lower_spec.2.2.1 hcount⟩

theorem Idle.pass (h : t.Idle) : t.pass = t := by
  rw [Closure.pass, h.eq_self.1, h.eq_self.2]

/-- The passes end with an idle one. -/
theorem Idle.saturate (h : t.Idle) : t.saturate = (t, [⟨0, 0⟩]) := by
  have hpass : t.complete.closure.minimize.closure = t := h.pass
  rw [Closure.saturate]
  simp only [h.1, h.2, and_self, if_true, hpass]

/-- Behind a pass that is not idle comes another. -/
theorem saturate_of_not_idle (h : ¬t.Idle) : t.saturate = (t.pass.saturate.1,
    ⟨t.complete.count, t.complete.closure.minimize.count⟩ :: t.pass.saturate.2) := by
  have h : ¬(t.complete.count = 0 ∧ t.complete.closure.minimize.count = 0) := h
  rw [saturate]
  simp only [h, if_false, pass]

/-- The first pass is one of those that complete a table. -/
theorem saturate_pass : t.pass.saturate.1 = t.saturate.1 := by
  by_cases h : t.Idle
  · rw [h.pass]
  · rw [saturate_of_not_idle h]

/-- The recursion of the passes: each that is not idle leaves fewer gaps, or as many and depths that
    sum up to less. -/
theorem passes_induction (P : Closure → Prop) (done : ∀ t, t.Idle → P t)
    (more : ∀ t, ¬t.Idle → P t.pass → P t) (t : Closure) : P t := by
  have wf : WellFounded (InvImage (Prod.Lex (· < ·) (· < ·)) fun t : Closure =>
      (t.gaps, t.totalDepth)) :=
    InvImage.wf _ (Prod.lex Nat.lt_wfRel Nat.lt_wfRel).wf
  induction t using wf.induction with
  | h t ih =>
    by_cases h : t.Idle
    · exact done t h
    · exact more t h (ih t.pass (pass_lt h))

/-- **Induction over the passes.** What holds between a table and the one that a pass leaves behind
    when it changes nothing, and can be told from the next pass on, holds of the whole. -/
theorem saturate_rec (Q : Closure → Closure → Prop)
    (done : ∀ t, t.complete.closure = t → t.minimize.closure = t → Q t t)
    (more : ∀ t v, Q t.pass v → Q t v) : Q t t.saturate.1 := by
  induction t using passes_induction with
  | done t h =>
    rw [h.saturate]
    exact done t h.eq_self.1 h.eq_self.2
  | more t h ih =>
    rw [saturate_of_not_idle h]
    exact more t _ ih

/-- Properties of rows that carry over to the row that two rows stand for. -/
def Chains (P : Int → Int → Nat → Prop) : Prop :=
  ∀ a b c i j, 0 < i → 0 < j → a ≠ c → P a b i → P b c j → P a c (Cell.sum i j)

variable {P : Int → Int → Nat → Prop}

/-- What holds of all rows and chains holds of the sums that a pass offers. -/
theorem Chains.of_mem_hops (hP : Chains P) (h : ∀ a d k, t.depth? a d = some k → P a d k)
    (hr : (⟨a, d, k⟩ : Row) ∈ t.hops) : P a d k := by
  obtain ⟨hne, b, i, j, hi, hj, hab, hbc, rfl⟩ := mem_hops.1 hr
  exact hP a b d i j hi hj hne (h _ _ _ hab) (h _ _ _ hbc)

/-- One pass keeps what carries over to hops. -/
theorem Chains.pass (hP : Chains P) (h : ∀ a d k, t.depth? a d = some k → P a d k) :
    ∀ a d k, t.pass.depth? a d = some k → P a d k := by
  have hcomplete : ∀ a d k, t.complete.closure.depth? a d = some k → P a d k := by
    intro a d k hk
    rcases depth?_complete_eq_some_iff.1 hk with hk | ⟨-, hk⟩
    · exact h a d k hk
    · exact hP.of_mem_hops h hk.1
  intro a d k hk
  obtain ⟨i, hi, hleast⟩ := depth?_minimize_eq_some_iff.1 hk
  rcases hleast.1 with rfl | hj
  · exact hcomplete a d k hi
  · exact hP.of_mem_hops hcomplete hj.1

/-- **Nothing new arises.** What holds of all rows and carries over to hops holds of all rows of the
    completed table. -/
theorem saturate_induction (hP : Chains P) (h : ∀ a d k, t.depth? a d = some k → P a d k) :
    ∀ a d k, t.saturate.1.depth? a d = some k → P a d k :=
  saturate_rec (fun t v => (∀ a d k, t.depth? a d = some k → P a d k) →
      ∀ a d k, v.depth? a d = some k → P a d k)
    (fun _ _ _ h => h) (fun _ _ ih h => ih (hP.pass h)) h

/-- **Nothing is missing.** The completed table is closed. -/
theorem closed_saturate : t.saturate.1.Closed :=
  saturate_rec (fun _ v => v.Closed) (fun _ hc hm => closed_of_pass hc hm) fun _ _ ih => ih

/-- A pass takes no row away, and raises no depth. -/
theorem exists_le_pass (h : t.depth? a d = some k) : ∃ j ≤ k, t.pass.depth? a d = some j :=
  exists_le_lower (fill_spec.1 a d k h)

/-- **Nothing gets worse.** Completing a table takes no row away, and raises no depth. -/
theorem exists_le_saturate (h : t.depth? a d = some k) :
    ∃ j ≤ k, t.saturate.1.depth? a d = some j := by
  refine saturate_rec (fun t v => ∀ k, t.depth? a d = some k → ∃ j ≤ k, v.depth? a d = some j)
    (fun _ _ _ k hk => ⟨k, Nat.le_refl k, hk⟩) (fun t v ih k hk => ?_) k h
  obtain ⟨i, hik, hi⟩ := exists_le_pass hk
  obtain ⟨j, hji, hj⟩ := ih i hi
  exact ⟨j, Nat.le_trans hji hik, hj⟩

/-- No pair is lost in the passes. -/
theorem joins_saturate (h : t.joins a d = true) : t.saturate.1.joins a d = true := by
  obtain ⟨k, hk⟩ := joins_iff.1 h
  obtain ⟨j, -, hj⟩ := exists_le_saturate hk
  exact joins_of_depth? hj

theorem ids_pass : t.pass.ids = t.ids := ids_minimize.trans ids_complete

theorem ids_saturate : t.saturate.1.ids = t.ids :=
  saturate_rec (fun t v => v.ids = t.ids) (fun _ _ _ => rfl) fun _ _ ih => ih.trans ids_pass

/-- On a closed table a pass has nothing to do. -/
theorem Closed.idle (h : t.Closed) : t.Idle := by
  obtain ⟨hc, hm⟩ := h.pass
  rw [Idle, hc, hm]
  exact ⟨rfl, rfl⟩

/-! ### A whole repair -/

/-- The table with a self row of depth 0 for each id that it mentions. -/
def selved (t : Closure) : Closure :=
  ((t.fill t.selfRows).closure.lower (t.fill t.selfRows).closure.selfRows).closure

/-- The table after a repair. -/
def repaired (t : Closure) : Closure := t.selved.saturate.1

/-- The self rows are those of the ids of the table, at depth 0. -/
theorem mem_selfRows : (⟨a, d, k⟩ : Row) ∈ t.selfRows ↔ a = d ∧ a ∈ t.ids ∧ k = 0 := by
  simp only [selfRows, List.mem_map, Std.ExtTreeSet.mem_toList, Row.self, Row.mk.injEq]
  constructor
  · rintro ⟨n, hn, rfl, rfl, rfl⟩
    exact ⟨rfl, hn, rfl⟩
  · rintro ⟨rfl, hn, rfl⟩
    exact ⟨a, hn, rfl, rfl, rfl⟩

/-- Self rows mention no new id. -/
theorem ids_fill_selfRows : (t.fill t.selfRows).closure.ids = t.ids := by
  refine ids_write fun r hr => ?_
  obtain ⟨hd, hn, -⟩ := mem_selfRows.1 hr
  exact ⟨hn, hd ▸ hn⟩

/-- After the self rows every id is at depth 0 from itself; all other rows stay. -/
theorem depth?_selved :
    t.selved.depth? a d = if a = d ∧ a ∈ t.ids then some 0 else t.depth? a d := by
  refine Option.ext fun k => ?_
  -- first the statement that adds rows, whose rows all have depth 0, then the one that lowers them
  have hfill : ∀ i, (t.fill t.selfRows).closure.depth? a d = some i ↔
      t.depth? a d = some i ∨ t.depth? a d = none ∧ a = d ∧ a ∈ t.ids ∧ i = 0 := by
    intro i
    rw [depth?_fill_eq_some_iff, mem_selfRows]
    intro i j hi hj
    rw [(mem_selfRows.1 hi).2.2, (mem_selfRows.1 hj).2.2]
  have hrows : ∀ j, (⟨a, d, j⟩ : Row) ∈ (t.fill t.selfRows).closure.selfRows ↔
      a = d ∧ a ∈ t.ids ∧ j = 0 := fun j => by rw [mem_selfRows, ids_fill_selfRows]
  rw [selved, depth?_lower_eq_some_iff]
  simp only [hfill, hrows]
  by_cases h : a = d ∧ a ∈ t.ids
  · rw [if_pos h]
    constructor
    · rintro ⟨i, -, -, hle⟩
      exact congrArg some (Nat.le_zero.1 (hle (.inr ⟨h.1, h.2, rfl⟩))).symm
    · intro hk
      obtain rfl := Option.some.inj hk
      cases hi : t.depth? a d with
      | none => exact ⟨0, .inr ⟨rfl, h.1, h.2, rfl⟩, .inl rfl, fun j _ => Nat.zero_le j⟩
      | some i => exact ⟨i, .inl rfl, .inr ⟨h.1, h.2, rfl⟩, fun j _ => Nat.zero_le j⟩
  · have hnot : ∀ j, ¬(a = d ∧ a ∈ t.ids ∧ j = 0) := fun j hj => h ⟨hj.1, hj.2.1⟩
    simp only [hnot, and_false, or_false, if_neg h]
    constructor
    · rintro ⟨i, hi, hk, -⟩
      exact hk ▸ hi
    · intro hk
      exact ⟨k, hk, rfl, fun j hj => Nat.le_of_eq hj.symm⟩

/-- Self rows mention no new id, whether added or lowered. -/
theorem ids_selved : t.selved.ids = t.ids := by
  rw [selved, ← ids_fill_selfRows (t := t)]
  refine ids_write fun r hr => ?_
  obtain ⟨hd, hn, -⟩ := mem_selfRows.1 hr
  exact ⟨hn, hd ▸ hn⟩

/-- **A repaired table is closed.** -/
theorem closed_repaired : t.repaired.Closed := closed_saturate

theorem ids_repaired : t.repaired.ids = t.ids := ids_saturate.trans ids_selved

/-- What holds of self rows at depth 0 and of all other rows, and carries over to hops, holds of all
    rows of the repaired table. -/
theorem repaired_induction (hP : Chains P) (hself : ∀ n ∈ t.ids, P n n 0)
    (h : ∀ a d k, a ≠ d → t.depth? a d = some k → P a d k) :
    ∀ a d k, t.repaired.depth? a d = some k → P a d k := by
  refine saturate_induction hP fun a d k hk => ?_
  rw [depth?_selved] at hk
  split at hk
  · rename_i hs
    obtain rfl := Option.some.inj hk
    exact hs.1 ▸ hself a hs.2
  · rename_i hs
    refine h a d k (fun he => hs ⟨he, ?_⟩) hk
    exact (mem_ids_of_joins (joins_of_depth? hk)).1

/-- A repair takes no row away, and raises no depth. -/
theorem exists_le_repaired (h : t.depth? a d = some k) :
    ∃ j ≤ k, t.repaired.depth? a d = some j := by
  by_cases hs : a = d ∧ a ∈ t.ids
  · have hzero : t.selved.depth? a d = some 0 := by rw [depth?_selved, if_pos hs]
    obtain ⟨j, hj, hrow⟩ := exists_le_saturate hzero
    exact ⟨j, Nat.le_trans hj (Nat.zero_le k), hrow⟩
  · have hsame : t.selved.depth? a d = some k := by rw [depth?_selved, if_neg hs, h]
    exact exists_le_saturate hsame

/-- A repair loses no pair. -/
theorem joins_repaired (h : t.joins a d = true) : t.repaired.joins a d = true := by
  obtain ⟨k, hk⟩ := joins_iff.1 h
  obtain ⟨j, -, hj⟩ := exists_le_repaired hk
  exact joins_of_depth? hj

/-- After a repair each id has its self row. -/
theorem depth?_repaired_self (h : n ∈ t.ids) : t.repaired.depth? n n = some 0 := by
  have hself : t.selved.joins n n = true := by simp [joins, depth?_selved, h]
  obtain ⟨k, hk⟩ := joins_iff.1 (joins_saturate hself)
  have hzero : n = n → k = 0 :=
    saturate_induction (P := fun a d k => a = d → k = 0)
      (fun a b c i j _ _ hne _ _ he => absurd he hne)
      (fun a d k hk he => by
        have ha := (mem_ids_of_joins (joins_of_depth? hk)).1
        rw [ids_selved] at ha
        rw [depth?_selved, if_pos ⟨he, ha⟩] at hk
        exact (Option.some.inj hk).symm) n n k hk
  rw [repaired, hk, hzero rfl]

/-- A repair brings no row at depth 0 between different ids. -/
theorem eq_of_depth?_repaired (hpos : ∀ a d, t.depth? a d = some 0 → a = d) :
    ∀ a d, t.repaired.depth? a d = some 0 → a = d := by
  have key : ∀ a d k, t.repaired.depth? a d = some k → k = 0 → a = d := by
    refine repaired_induction (fun a b c i j hi _ _ _ _ hz => ?_) ?_ ?_
    · exact absurd hz (Nat.ne_of_gt (Cell.sum_pos (Nat.add_pos_left hi j)))
    · exact fun n _ _ => rfl
    · exact fun a d k _ hk hz => hpos a d (hz ▸ hk)
  exact fun a d hk => key a d 0 hk rfl

/-- Where all self rows are at depth 0, the first two statements change nothing. -/
theorem selved_eq_self (h : ∀ n ∈ t.ids, t.depth? n n = some 0) : t.selved = t := by
  refine ext fun a d => ?_
  rw [depth?_selved]
  split
  · rename_i hs
    rw [← hs.1, h a hs.2]
  · rfl

/-- **Fixed points of repair.** A repair leaves a table alone if and only if every id has its self
    row and the table is closed. -/
theorem repaired_eq_self_iff :
    t.repaired = t ↔ (∀ n ∈ t.ids, t.depth? n n = some 0) ∧ t.Closed := by
  constructor
  · intro h
    refine ⟨fun n hn => ?_, h ▸ closed_repaired⟩
    have := depth?_repaired_self hn
    rwa [h] at this
  · rintro ⟨hself, hclosed⟩
    rw [repaired, selved_eq_self hself, hclosed.idle.saturate]

end Tenancy.Closure
