import Tenancy.Proofs.Passes

namespace Tenancy

/-!
# Shortest ways

The rows of a table between different ids, with their depths as lengths, make a graph.  A repair of
the whole table finds the shortest ways in it, whatever rows are missing or too deep, and whether or
not there are cycles: a pass only ever writes the length of a way (`backs_of_depth?_repaired`), and
what is left when a pass changes nothing is no longer than any way (`exists_le_of_way`).  All of this
is said of lengths that a cell holds; a row beyond these is that of a way as well, but no longer tells
its length.

* `Closure.Way` — a way in this graph, with its length.
* `Closure.fits_repaired_iff` — the repaired table is exact if no two ids are too far apart.
* `Closure.depth?_repaired_iff_isLeast` — between different ids, a repaired table holds the lengths
  of the shortest ways.
* `Hierarchy.repairAll_shortest` — so it does when a repair is asked for, and each id has its self
  row.
-/

variable {s : Scope} {t : Closure} {a b c d : Int} {i j k : Nat}

namespace Closure

/-- A way from one id to another: one or more rows, each between different ids, that meet end to
    end.  Its length is the sum of their depths. -/
inductive Way (t : Closure) : Int → Int → Nat → Prop
  | row {a d : Int} {k : Nat} (hne : a ≠ d) (hk : t.depth? a d = some k) : Way t a d k
  | step {a b c : Int} {i j : Nat} (hne : a ≠ b) (hi : t.depth? a b = some i) (rest : Way t b c j) :
      Way t a c (i + j)

/-- Ways that meet make a longer one. -/
theorem Way.trans (h : t.Way a b i) (h' : t.Way b c j) : t.Way a c (i + j) := by
  induction h with
  | row hne hk => exact .step hne hk h'
  | step hne hi _ ih =>
    rw [Nat.add_assoc]
    exact .step hne hi (ih h')

/-- Give each id a height, such that no row leads up by more than its depth.  Then no way leads up
    by more than its length. -/
theorem Way.height_le (h : t.Way a c k) (height : Int → Nat)
    (hrow : ∀ r ∈ t.rows, height r.descendant ≤ height r.ancestor + r.depth) :
    height c ≤ height a + k := by
  induction h with
  | @row a d k _ hk => exact hrow ⟨a, d, k⟩ (mem_rows.2 hk)
  | @step a b c i j _ hi _ ih =>
    have hab : height b ≤ height a + i := hrow ⟨a, b, i⟩ (mem_rows.2 hi)
    omega

/-- The ways of the table back a depth: a self row has depth 0, and any other row has the length of
    a way, unless its depth was too large to be exact. -/
def Backs (t : Closure) (a d : Int) (k : Nat) : Prop :=
  (a = d → k = 0) ∧ (a ≠ d → k ≤ TenantId.maxCell → t.Way a d k)

/-- Being backed by ways carries over to the row that two rows stand for: the rows of a hop have
    positive depths, so that neither of them is a self row, and if their sum is exact so are both of
    them. -/
theorem chains_backs : Chains t.Backs := by
  rintro a b c i j hi hj hac ⟨hab, hab'⟩ ⟨hbc, hbc'⟩
  refine ⟨fun he => absurd he hac, fun _ hfit => ?_⟩
  have hne : a ≠ b := fun he => absurd (hab he) (Nat.ne_of_gt hi)
  have hne' : b ≠ c := fun he => absurd (hbc he) (Nat.ne_of_gt hj)
  have hsum := Cell.sum_le_maxCell_iff.1 hfit
  rw [Cell.sum_eq hsum]
  exact (hab' hne (Nat.le_of_add_right_le hsum)).trans (hbc' hne' (Nat.le_of_add_left_le hsum))

/-- The rows that a repair starts from. -/
theorem backs_of_depth?_selved (a d : Int) (k : Nat) (hk : t.selved.depth? a d = some k) :
    t.Backs a d k := by
  have hmem : a ∈ t.ids := by
    rw [← ids_selved]
    exact (mem_ids_of_joins (joins_of_depth? hk)).1
  rw [depth?_selved] at hk
  by_cases had : a = d
  · rw [if_pos ⟨had, hmem⟩, Option.some.injEq] at hk
    exact ⟨fun _ => hk.symm, fun hne => absurd had hne⟩
  · rw [if_neg fun hs => had hs.1] at hk
    exact ⟨fun he => absurd he had, fun hne _ => .row hne hk⟩

/-- **Nothing but ways.** A row of the repaired table between different ids has the length of a way
    of the table before, if its depth is exact; a self row has depth 0. -/
theorem backs_of_depth?_repaired (hk : t.repaired.depth? a d = some k) : t.Backs a d k :=
  saturate_induction chains_backs backs_of_depth?_selved a d k hk

/-- Whatever its depth, there is a way for each row of the repaired table between different ids. -/
theorem exists_way_of_depth?_repaired (hne : a ≠ d) (hk : t.repaired.depth? a d = some k) :
    ∃ l, t.Way a d l := by
  refine repaired_induction (P := fun a d _ => a ≠ d → ∃ l, t.Way a d l) ?_
    (fun _ _ hne => absurd rfl hne) (fun a d k hne hk _ => ⟨k, .row hne hk⟩) a d k hk hne
  -- ways lead between different ids, so a chain over one of its own ends is the other part alone
  intro a b c i j _ _ _ hab hbc hac
  by_cases hne : a = b
  · subst hne
    exact hbc hac
  · by_cases hne' : b = c
    · subst hne'
      exact hab hac
    · obtain ⟨l, hl⟩ := hab hne
      obtain ⟨m, hm⟩ := hbc hne'
      exact ⟨l + m, hl.trans hm⟩

/-- The repaired table has a row for each way. -/
theorem joins_repaired_of_way (hpos : ∀ a d, t.depth? a d = some 0 → a = d) (h : t.Way a c k) :
    t.repaired.joins a c = true := by
  induction h with
  | row _ hk => exact joins_repaired (joins_of_depth? hk)
  | step _ hi _ ih => exact joins_trans_repaired hpos (joins_repaired (joins_of_depth? hi)) ih

/-- **No way is shorter** than the row of the repaired table, if its length is exact. -/
theorem exists_le_of_way (hpos : ∀ a d, t.depth? a d = some 0 → a = d) (h : t.Way a c k)
    (hfit : k ≤ TenantId.maxCell) (hne : a ≠ c) : ∃ j ≤ k, t.repaired.depth? a c = some j := by
  -- over the rows of the way, from its end
  induction h with
  | row _ hk => exact exists_le_repaired hk
  | @step a b c i j hab hi _ ih =>
    obtain ⟨i', hi', hrow⟩ := exists_le_repaired hi
    by_cases hbc : b = c
    · -- the rest leads back to where it begins
      subst hbc
      exact ⟨i', Nat.le_trans hi' (Nat.le_add_right i j), hrow⟩
    · obtain ⟨j', hj', hrest⟩ := ih (Nat.le_of_add_left_le hfit) hbc
      have hself : ∀ n ∈ t.repaired.ids, t.repaired.depth? n n = some 0 := fun n hn =>
        depth?_repaired_self (ids_repaired (t := t) ▸ hn)
      obtain ⟨l, hac, hl | hl⟩ :=
        closed_repaired.exists_row hself (eq_of_depth?_repaired hpos) hrow hrest
      · exact ⟨l, by omega, hac⟩
      · rw [Cell.sum_eq (by omega)] at hl
        exact ⟨l, by omega, hac⟩

/-- **Which repairs are exact.** No depth of the repaired table is too large if and only if,
    wherever there is a way, there is one whose length a cell holds. -/
theorem fits_repaired_iff (hpos : ∀ a d, t.depth? a d = some 0 → a = d) :
    t.repaired.Fits ↔ ∀ a c k, a ≠ c → t.Way a c k → ∃ j ≤ TenantId.maxCell, t.Way a c j := by
  constructor
  · intro hfit a c k hne hway
    -- a depth that fits is the length of a way; above that a cell no longer tells lengths apart
    obtain ⟨j, hj⟩ := joins_iff.1 (joins_repaired_of_way hpos hway)
    have hle := hfit a c j hj
    exact ⟨j, hle, (backs_of_depth?_repaired hj).2 hne hle⟩
  · intro h a c k hk
    by_cases hne : a = c
    · exact (backs_of_depth?_repaired hk).1 hne ▸ Nat.zero_le _
    · obtain ⟨l, hl⟩ := exists_way_of_depth?_repaired hne hk
      obtain ⟨j, hj, hway⟩ := h a c l hne hl
      obtain ⟨k', hle, hk'⟩ := exists_le_of_way hpos hway hj hne
      obtain rfl := Option.some.inj (hk.symm.trans hk')
      exact Nat.le_trans hle hj

/-- **Shortest ways.** Between different ids, the repaired table has a row exactly if there is a
    way, and its depth is the length of a shortest one. -/
theorem depth?_repaired_iff_isLeast (hpos : ∀ a d, t.depth? a d = some 0 → a = d)
    (hfit : t.repaired.Fits) (hne : a ≠ c) :
    t.repaired.depth? a c = some k ↔ IsLeast {l | t.Way a c l} k := by
  have hway : ∀ j, t.repaired.depth? a c = some j → t.Way a c j := fun j hj =>
    (backs_of_depth?_repaired hj).2 hne (hfit a c j hj)
  -- a way that is too long to be exact is longer than the row in any case
  have hleast : ∀ j, t.repaired.depth? a c = some j → ∀ l, t.Way a c l → j ≤ l := by
    intro j hj l hl
    by_cases hle : l ≤ TenantId.maxCell
    · obtain ⟨j', hjl, hj'⟩ := exists_le_of_way hpos hl hle hne
      obtain rfl := Option.some.inj (hj.symm.trans hj')
      exact hjl
    · exact Nat.le_trans (hfit a c j hj) (Nat.le_of_not_le hle)
  constructor
  · exact fun hk => ⟨hway k hk, fun l hl => hleast k hk l hl⟩
  · rintro ⟨hk, hle⟩
    obtain ⟨j, hj⟩ := joins_iff.1 (joins_repaired_of_way hpos hk)
    rw [hj, Nat.le_antisymm (hleast j hj k hk) (hle (hway j hj))]

/-- The self rows of a repaired table. -/
theorem depth?_repaired_self_iff : t.repaired.depth? a a = some k ↔ a ∈ t.ids ∧ k = 0 := by
  constructor
  · intro hk
    have hmem : a ∈ t.repaired.ids := (mem_ids_of_joins (joins_of_depth? hk)).1
    rw [ids_repaired] at hmem
    exact ⟨hmem, (backs_of_depth?_repaired hk).1 rfl⟩
  · rintro ⟨ha, rfl⟩
    exact depth?_repaired_self ha

end Closure

namespace Hierarchy

/-- **A repair computes shortest ways.** On any table without a row of depth 0 between different
    ids, a repair of the whole table succeeds and leaves a self row for each id that was mentioned,
    a row between different ids exactly where a way led over the rows of the table before, at the
    length of a shortest such way, and no other row.  The sums that are left have to be exact for
    this, as they are if `Closure.fits_repaired_iff` says so. -/
theorem repairAll_shortest (h : s.Holds t) (hpos : ∀ a d, t.depth? a d = some 0 → a = d)
    (hfit : t.repaired.Fits) :
    ∃ report u s', repairAll.on s = (.ok report, s') ∧ s'.Holds u ∧
      (∀ n k, u.depth? n n = some k ↔ n ∈ t.ids ∧ k = 0) ∧
      ∀ a c k, a ≠ c → (u.depth? a c = some k ↔ IsLeast {l | t.Way a c l} k) :=
  ⟨_, t.repaired, _, repairAll_on h, h.after, fun _ _ => Closure.depth?_repaired_self_iff,
    fun _ _ _ hne => Closure.depth?_repaired_iff_isLeast hpos hfit hne⟩

/-- Three ids on a cycle, one of them with a self row that is too deep, and a row that is too deep
    from 1 to 3. -/
def ring : Closure := (Closure.empty.fill
  [⟨1, 2, 5⟩, ⟨2, 3, 1⟩, ⟨1, 3, 9⟩, ⟨3, 1, 2⟩, ⟨3, 3, 4⟩]).closure

/-- The row from 1 to 3 is lowered to the way over 2, and the one from 2 to 1 is found. -/
theorem repairAll_shortest_ring :
    let s : Scope := { database := { table := some { closure := ring } } }
    ∃ report u s', repairAll.on s = (.ok report, s') ∧ s'.Holds u ∧ u.depth? 1 3 = some 6 ∧
      u.depth? 2 1 = some 3 ∧ u.depth? 3 3 = some 0 ∧ u.depth? 4 4 = none := by
  intro s
  have h : s.Holds ring := ⟨rfl, rfl⟩
  have hpos : ∀ a d, ring.depth? a d = some 0 → a = d := by
    have hrows : ∀ r ∈ ring.rows, r.depth = 0 → r.ancestor = r.descendant := by decide +kernel
    exact fun a d hk => hrows ⟨a, d, 0⟩ (Closure.mem_rows.2 hk) rfl
  have hfit : ring.repaired.Fits := by
    rw [Closure.repaired_eq_iterate (n := 2) (by decide +kernel)]
    decide +kernel
  have h12 : ring.depth? 1 2 = some 5 := by decide +kernel
  have h23 : ring.depth? 2 3 = some 1 := by decide +kernel
  have h31 : ring.depth? 3 1 = some 2 := by decide +kernel
  have hway : ring.Way 1 3 (5 + 1) := .step (by decide) h12 (.row (by decide) h23)
  have hway' : ring.Way 2 1 (1 + 2) := .step (by decide) h23 (.row (by decide) h31)
  have hone : IsLeast {l | ring.Way 1 3 l} 6 := by
    refine ⟨hway, fun l (hl : ring.Way 1 3 l) => ?_⟩
    have := hl.height_le (fun n => if n = 1 then 0 else if n = 2 then 5 else 6) (by decide +kernel)
    simpa using this
  have htwo : IsLeast {l | ring.Way 2 1 l} 3 := by
    refine ⟨hway', fun l (hl : ring.Way 2 1 l) => ?_⟩
    have := hl.height_le (fun n => if n = 2 then 0 else if n = 3 then 1 else 3) (by decide +kernel)
    simpa using this
  obtain ⟨report, u, s', hrun, hu, hself, hways⟩ := repairAll_shortest h hpos hfit
  refine ⟨report, u, s', hrun, hu, (hways 1 3 6 (by decide)).2 hone,
    (hways 2 1 3 (by decide)).2 htwo, (hself 3 0).2 ⟨by decide +kernel, rfl⟩, ?_⟩
  refine Option.eq_none_iff_forall_ne_some.2 fun k hk => ?_
  exact absurd ((hself 4 k).1 hk).1 (by decide +kernel)

end Hierarchy

end Tenancy
