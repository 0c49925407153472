import Mathlib.Data.Finset.Card
import Mathlib.Data.Finset.Sort
import Tenancy.Proofs.Order

namespace Tenancy

/-!
# Forests

A forest says of each of finitely many ids which id its parent is, if any, and has no cycle.  Its
closure is the table of all pairs of an ancestor and a descendant; it is a sound table, and the
closure of a forest with one more leaf, or with a subtree elsewhere, is what an insertion and a move
make of it.

* `Forest`, `Forest.up` — forests, and the ancestor a given number of levels up.
* `Forest.closure` — the table; `Forest.depth?_closure_eq_some_iff` says which rows it holds.
* `Forest.plant`, `Forest.graft` — a leaf is added, and a subtree is put elsewhere.
* `Forest.closure_plant`, `Forest.closure_graft` — their closures.
-/

/-- The id that lies `k` levels above `n`. -/
def climb (parent : Int → Option Int) : Nat → Int → Option Int
  | 0, n => some n
  | k + 1, n => (parent n).bind (climb parent k)

/-- Finitely many ids other than 0, each with at most one parent, and without a cycle. -/
structure Forest where
  nodes : Finset Int
  parent : Int → Option Int
  rootless : 0 ∉ nodes
  mem_of_parent : ∀ n p, parent n = some p → n ∈ nodes ∧ p ∈ nodes
  acyclic : ∀ n k, climb parent (k + 1) n ≠ some n

variable {parent par : Int → Option Int} {a b d n p x : Int} {i j k : Nat}

/-! ### Climbing -/

/-- Climbing on from where the climb has got to. -/
theorem climb_add : climb parent (i + j) n = (climb parent i n).bind (climb parent j) := by
  induction i generalizing n with
  | zero => rw [Nat.zero_add]; rfl
  | succ i ih =>
    rw [Nat.succ_add]
    show (parent n).bind (climb parent (i + j)) = ((parent n).bind (climb parent i)).bind _
    rw [Option.bind_assoc]
    exact congrArg _ (funext fun m => ih)

/-- A change of one parent does not show on the way up from an id that does not lie below it. -/
theorem climb_update_of_forall_ne {q : Option Int} (h : ∀ j, climb parent j n ≠ some x) :
    climb (Function.update parent x q) k n = climb parent k n := by
  induction k generalizing n with
  | zero => rfl
  | succ k ih =>
    have hne : n ≠ x := fun he => h 0 (congrArg some he)
    show (Function.update parent x q n).bind _ = (parent n).bind _
    rw [Function.update_of_ne hne]
    cases hp : parent n with
    | none => rfl
    | some m =>
      refine ih fun j hj => h (j + 1) ?_
      show (parent n).bind _ = _
      rw [hp]
      exact hj

/-- A change of one parent does not show on the way up to it. -/
theorem climb_update_of_climb {q : Option Int} (hx : climb parent j n = some x)
    (hfirst : ∀ i < j, climb parent i n ≠ some x) (hk : k ≤ j) :
    climb (Function.update parent x q) k n = climb parent k n := by
  -- the changed id is not met before step j, so each of the first steps looks the parent up
  -- elsewhere
  induction k generalizing n j with
  | zero => rfl
  | succ k ih =>
    obtain ⟨j, rfl⟩ : ∃ m, j = m + 1 := ⟨j - 1, by omega⟩
    have hne : n ≠ x := fun he => hfirst 0 (by omega) (congrArg some he)
    show (Function.update parent x q n).bind _ = (parent n).bind _
    rw [Function.update_of_ne hne]
    cases hp : parent n with
    | none => rfl
    | some m =>
      have hclimb : ∀ i, climb parent (i + 1) n = climb parent i m := fun i => by
        show (parent n).bind _ = _
        rw [hp]
        rfl
      rw [hclimb] at hx
      exact ih hx (fun i hi he => hfirst (i + 1) (by omega) (by rw [hclimb, he])) (by omega)

namespace Forest

variable (f : Forest)

/-- The ancestor `k` levels up. -/
def up (k : Nat) (n : Int) : Option Int := climb f.parent k n

variable {f}

theorem up_zero : f.up 0 n = some n := rfl

theorem up_add : f.up (i + j) n = (f.up i n).bind (f.up j) := climb_add

theorem up_succ : f.up (k + 1) n = (f.parent n).bind (f.up k) := rfl

theorem up_trans (hi : f.up i n = some a) (hj : f.up j a = some b) : f.up (i + j) n = some b := by
  rw [up_add, hi]
  exact hj

/-- Ids above a node are nodes. -/
theorem mem_of_up (hn : n ∈ f.nodes) (h : f.up k n = some a) : a ∈ f.nodes := by
  induction k generalizing n with
  | zero => exact Option.some.inj h ▸ hn
  | succ k ih =>
    obtain ⟨m, hm, ha⟩ := Option.bind_eq_some_iff.1 (up_succ ▸ h)
    exact ih (f.mem_of_parent n m hm).2 ha

theorem mem_of_up_succ (h : f.up (k + 1) n = some a) : n ∈ f.nodes := by
  obtain ⟨m, hm, -⟩ := Option.bind_eq_some_iff.1 (up_succ ▸ h)
  exact (f.mem_of_parent n m hm).1

/-- What lies below an id of the forest is one of its ids. -/
theorem mem_of_up_to (ha : a ∈ f.nodes) (h : f.up k n = some a) : n ∈ f.nodes := by
  cases k with
  | zero => exact Option.some.inj h ▸ ha
  | succ k => exact mem_of_up_succ h

/-- The parent is what is one step up. -/
theorem parent_eq_some_iff : f.parent n = some p ↔ n ∈ f.nodes ∧ f.up 1 n = some p := by
  have hone : f.up 1 n = f.parent n := by
    rw [up_succ]
    cases f.parent n <;> rfl
  rw [hone]
  exact ⟨fun h => ⟨(f.mem_of_parent n p h).1, h⟩, And.right⟩

theorem up_ne_self (hk : 0 < k) : f.up k n ≠ some n := by
  obtain ⟨k, rfl⟩ : ∃ m, k = m + 1 := ⟨k - 1, by omega⟩
  exact f.acyclic n k

/-- An ancestor lies at one level only. -/
theorem up_inj (hi : f.up i n = some a) (hj : f.up j n = some a) : i = j := by
  -- going on from the lower of two levels would lead from `a` back to `a`
  have key : ∀ {i j}, i ≤ j → f.up i n = some a → f.up j n = some a → i = j := by
    intro i j hle hi hj
    obtain ⟨m, rfl⟩ := Nat.exists_eq_add_of_le hle
    rw [up_add, hi] at hj
    by_contra hne
    exact up_ne_self (by omega) hj
  rcases Nat.le_total i j with h | h
  · exact key h hi hj
  · exact (key h hj hi).symm

/-- Every level below an ancestor is inhabited. -/
theorem exists_up_of_le (h : f.up k n = some a) (hik : i ≤ k) :
    ∃ b, f.up i n = some b ∧ f.up (k - i) b = some a := by
  obtain ⟨m, rfl⟩ := Nat.exists_eq_add_of_le hik
  rw [up_add] at h
  obtain ⟨b, hb, ha⟩ := Option.bind_eq_some_iff.1 h
  exact ⟨b, hb, by rwa [Nat.add_sub_cancel_left]⟩

/-- **Depths are bounded.** An ancestor is fewer levels up than there are ids: the ids on the way
    are all different. -/
theorem lt_card_of_up (hn : n ∈ f.nodes) (h : f.up k n = some a) : k < f.nodes.card := by
  -- the levels from 0 to `k`, mapped to the ids there
  have hmem : ∀ i ∈ Finset.range (k + 1), (f.up i n).getD 0 ∈ f.nodes := by
    intro i hi
    obtain ⟨b, hb, -⟩ := exists_up_of_le h (Nat.lt_succ_iff.1 (Finset.mem_range.1 hi))
    rw [hb]
    exact mem_of_up hn hb
  have hinj : Set.InjOn (fun i => (f.up i n).getD 0) (Finset.range (k + 1)) := by
    intro i hi j hj he
    obtain ⟨b, hb, -⟩ := exists_up_of_le h (Nat.lt_succ_iff.1 (Finset.mem_range.1 hi))
    obtain ⟨c, hc, -⟩ := exists_up_of_le h (Nat.lt_succ_iff.1 (Finset.mem_range.1 hj))
    simp only [hb, hc, Option.getD_some] at he
    exact up_inj hb (he ▸ hc)
  have hcard := Finset.card_le_card_of_injOn _ hmem hinj
  rw [Finset.card_range] at hcard
  exact hcard

/-! ### The closure -/

/-- All pairs of an ancestor and a descendant, with their distance. -/
def rows (f : Forest) : List Row :=
  (f.nodes.sort (· ≤ ·)).flatMap fun d =>
    (List.range f.nodes.card).filterMap fun k => (f.up k d).map fun a => ⟨a, d, k⟩

/-- The table of all ancestors and descendants. -/
def closure (f : Forest) : Closure := (Closure.empty.fill f.rows).closure

/-- The rows of a forest are its ways up, those of length 0 included. -/
theorem mem_rows : (⟨a, d, k⟩ : Row) ∈ f.rows ↔ d ∈ f.nodes ∧ f.up k d = some a := by
  simp only [rows, List.mem_flatMap, Finset.mem_sort, List.mem_filterMap, List.mem_range,
    Option.map_eq_some_iff, Row.mk.injEq]
  constructor
  · rintro ⟨n, hn, i, -, b, hb, rfl, rfl, rfl⟩
    exact ⟨hn, hb⟩
  · rintro ⟨hd, ha⟩
    exact ⟨d, hd, k, lt_card_of_up hd ha, a, ha, rfl, rfl, rfl⟩

/-- **Rows of the closure.** Each ancestor of each id, at its distance. -/
theorem depth?_closure_eq_some_iff :
    f.closure.depth? a d = some k ↔ d ∈ f.nodes ∧ f.up k d = some a := by
  rw [closure, Closure.depth?_fill_eq_some_iff, Closure.depth?_empty, mem_rows]
  · simp
  · intro i j hi hj
    exact up_inj (mem_rows.1 hi).2 (mem_rows.1 hj).2

theorem joins_closure_iff : f.closure.joins a d = true ↔ d ∈ f.nodes ∧ ∃ k, f.up k d = some a := by
  simp only [Closure.joins_iff, depth?_closure_eq_some_iff, exists_and_left]

/-- The table of a forest mentions the nodes of the forest. -/
theorem mem_ids_closure : n ∈ f.closure.ids ↔ n ∈ f.nodes := by
  rw [Closure.mem_ids_iff_joins]
  constructor
  · rintro ⟨m, h | h⟩
    · obtain ⟨hm, k, hk⟩ := joins_closure_iff.1 h
      exact mem_of_up hm hk
    · exact (joins_closure_iff.1 h).1
  · intro hn
    exact ⟨n, .inl (joins_closure_iff.2 ⟨hn, 0, rfl⟩)⟩

/-- A table with the rows of the closure is the closure. -/
theorem eq_closure_iff {t : Closure} :
    t = f.closure ↔ ∀ a d k, t.depth? a d = some k ↔ d ∈ f.nodes ∧ f.up k d = some a := by
  constructor
  · rintro rfl a d k
    exact depth?_closure_eq_some_iff
  · intro h
    refine Closure.ext fun a d => Option.ext fun k => ?_
    rw [h, depth?_closure_eq_some_iff]

/-- The ancestors of a forest are ordered. -/
theorem ordered_closure : f.closure.Ordered where
  self n hn := depth?_closure_eq_some_iff.2 ⟨mem_ids_closure.1 hn, rfl⟩
  pos a d h := (Option.some.inj (depth?_closure_eq_some_iff.1 h).2).symm
  trans a b c hab hbc := by
    obtain ⟨-, i, hi⟩ := joins_closure_iff.1 hab
    obtain ⟨hc, j, hj⟩ := joins_closure_iff.1 hbc
    exact joins_closure_iff.2 ⟨hc, j + i, up_trans hj hi⟩
  antisymm a b hab hba := by
    obtain ⟨-, i, hi⟩ := joins_closure_iff.1 hab
    obtain ⟨-, j, hj⟩ := joins_closure_iff.1 hba
    -- there and back again is no way at all
    have hzero : i + j = 0 := up_inj (up_trans hi hj) up_zero
    have hi0 : i = 0 := by omega
    rw [hi0] at hi
    exact (Option.some.inj hi).symm
  rootless h := f.rootless (mem_ids_closure.1 h)

/-- No way up is longer than there are nodes, since no id lies on it twice. -/
theorem short_closure : f.closure.Short := by
  intro a b c i j hab hbc
  obtain ⟨-, hi⟩ := depth?_closure_eq_some_iff.1 hab
  obtain ⟨hc, hj⟩ := depth?_closure_eq_some_iff.1 hbc
  exact ⟨j + i, by omega, depth?_closure_eq_some_iff.2 ⟨hc, up_trans hj hi⟩⟩

/-- Fewer ids than a cell can count are fewer levels apart than that. -/
theorem fits_closure (hcard : f.nodes.card ≤ TenantId.maxCell) : f.closure.Fits := by
  intro a d k hk
  obtain ⟨hd, ha⟩ := depth?_closure_eq_some_iff.1 hk
  exact Nat.le_trans (Nat.le_of_lt (lt_card_of_up hd ha)) hcard

/-- **The table of a forest is sound**, as long as the nodes can be counted in a cell. -/
theorem sound_closure (hcard : f.nodes.card ≤ TenantId.maxCell) : f.closure.Sound :=
  (fits_closure hcard).sound_iff.2 ⟨ordered_closure, short_closure⟩

/-! ### A new leaf -/

/-- The parent that a number stands for: 0 is no parent. -/
def link (p : Int) : Option Int := if p = 0 then none else some p

/-- The id `leaf` is new, and `parent` is there unless it stands for no parent. -/
structure Plantable (f : Forest) (parent leaf : Int) : Prop where
  leaf_ne : leaf ≠ 0
  leaf_notMem : leaf ∉ f.nodes
  parent_mem : parent = 0 ∨ parent ∈ f.nodes

/-- What is no node has no parent. -/
theorem parent_eq_none (hn : n ∉ f.nodes) : f.parent n = none := by
  cases hp : f.parent n with
  | none => rfl
  | some m => exact absurd (f.mem_of_parent n m hp).1 hn

/-- The way up from an old id never comes to the new leaf. -/
theorem climb_plant {leaf : Int} {q : Option Int} (hl : leaf ∉ f.nodes) (hn : n ∈ f.nodes) :
    climb (Function.update f.parent leaf q) k n = f.up k n :=
  climb_update_of_forall_ne fun _ hj => hl (mem_of_up hn hj)

/-- From a new leaf the way up leads through its parent. -/
theorem climb_plant_leaf {leaf q : Int} (hl : leaf ∉ f.nodes) (hq : q = 0 ∨ q ∈ f.nodes) :
    climb (Function.update f.parent leaf (link q)) (k + 1) leaf = (link q).bind (f.up k) := by
  show (Function.update f.parent leaf (link q) leaf).bind _ = _
  rw [Function.update_self]
  unfold link
  split
  · rfl
  · exact climb_plant hl (hq.resolve_left ‹_›)

/-- The forest with one more leaf. -/
def plant (f : Forest) (p leaf : Int) (h : f.Plantable p leaf) : Forest where
  nodes := insert leaf f.nodes
  parent := Function.update f.parent leaf (link p)
  rootless h0 := (Finset.mem_insert.1 h0).elim (fun he => h.leaf_ne he.symm) f.rootless
  mem_of_parent n q hq := by
    by_cases hn : n = leaf
    · subst hn
      rw [Function.update_self, link] at hq
      split at hq
      · cases hq
      · rename_i hp
        obtain rfl := Option.some.inj hq
        exact ⟨Finset.mem_insert_self n _, Finset.mem_insert_of_mem (h.parent_mem.resolve_left hp)⟩
    · rw [Function.update_of_ne hn] at hq
      obtain ⟨hn', hq'⟩ := f.mem_of_parent n q hq
      exact ⟨Finset.mem_insert_of_mem hn', Finset.mem_insert_of_mem hq'⟩
  acyclic n k := by
    by_cases hn : n = leaf
    · -- the way up from the leaf goes on among ids that were there before
      subst hn
      rw [climb_plant_leaf h.leaf_notMem h.parent_mem, link]
      split
      · exact fun he => nomatch he
      · rename_i hp
        exact fun he => h.leaf_notMem (mem_of_up (h.parent_mem.resolve_left hp) he)
    · by_cases hmem : n ∈ f.nodes
      · rw [climb_plant h.leaf_notMem hmem]
        exact f.acyclic n k
      · show (Function.update f.parent leaf (link p) n).bind _ ≠ _
        rw [Function.update_of_ne hn, parent_eq_none hmem]
        exact fun he => nomatch he

theorem up_plant {leaf : Int} (h : f.Plantable p leaf) (hn : n ∈ f.nodes) :
    (f.plant p leaf h).up k n = f.up k n := climb_plant h.leaf_notMem hn

theorem up_plant_leaf {leaf : Int} (h : f.Plantable p leaf) :
    (f.plant p leaf h).up (k + 1) leaf = (link p).bind (f.up k) :=
  climb_plant_leaf h.leaf_notMem h.parent_mem

theorem Plantable.closure {leaf : Int} (h : f.Plantable p leaf) : f.closure.Plantable p leaf :=
  ⟨h.leaf_ne, fun hn => h.leaf_notMem (mem_ids_closure.1 hn),
    h.parent_mem.imp_right mem_ids_closure.2⟩

/-- **The closure with one more leaf** is what an insertion makes of the closure. -/
theorem closure_plant {leaf : Int} (hcard : f.nodes.card ≤ TenantId.maxCell)
    (h : f.Plantable p leaf) :
    (f.plant p leaf h).closure = f.closure.planted p leaf := by
  refine Eq.symm (eq_closure_iff.2 fun a d k => ?_)
  have hmem : d ∈ (f.plant p leaf h).nodes ↔ d = leaf ∨ d ∈ f.nodes := Finset.mem_insert
  rw [ordered_closure.depth?_planted h.closure, hmem]
  by_cases hd : d = leaf
  · subst hd
    rw [if_pos rfl]
    cases k with
    | zero =>
      rw [up_zero, Option.some.injEq]
      by_cases ha : a = d
      · simp [ha]
      · have hdeeper : ∀ i, Cell.sum i 1 ≠ 0 := fun i => Nat.ne_of_gt (Cell.sum_pos i.succ_pos)
        simp [ha, Ne.symm ha, hdeeper]
    | succ k =>
      rw [up_plant_leaf h, link]
      -- the way up from the parent does not come to the leaf, and neither did any row
      have hne : a = d → p ≠ 0 → f.up k p ≠ some a := fun ha hp he =>
        h.leaf_notMem (ha ▸ mem_of_up (h.parent_mem.resolve_left hp) he)
      by_cases hp : p = 0
      · subst hp
        by_cases ha : a = d
        · simp [ha]
        · simp [ha, ordered_closure.depth?_root]
      · have hp' := h.parent_mem.resolve_left hp
        by_cases ha : a = d
        · simp [ha, hp, ha ▸ hne ha hp]
        · rw [if_neg ha, if_neg hp, Option.bind_some, Option.map_eq_some_iff]
          -- a level above the parent is one more above the leaf, as far as cells can count
          constructor
          · rintro ⟨i, hi, hk⟩
            rw [Cell.sum_one (fits_closure hcard a p i hi)] at hk
            exact ⟨.inl rfl, Nat.succ.inj hk ▸ (depth?_closure_eq_some_iff.1 hi).2⟩
          · rintro ⟨-, hup⟩
            have hi := depth?_closure_eq_some_iff.2 ⟨hp', hup⟩
            exact ⟨k, hi, Cell.sum_one (fits_closure hcard a p k hi)⟩
  · rw [if_neg hd, depth?_closure_eq_some_iff]
    simp only [hd, false_or]
    refine and_congr_right fun hn => ?_
    rw [up_plant h hn]

/-! ### A subtree elsewhere -/

/-- The id `tenant` is there, and so is `parent` unless it stands for no parent; the parent is
    neither the tenant nor below it. -/
structure Graftable (f : Forest) (tenant parent : Int) : Prop where
  tenant_mem : tenant ∈ f.nodes
  parent_mem : parent = 0 ∨ parent ∈ f.nodes
  apart : ∀ k, f.up k parent ≠ some tenant

variable {tenant : Int}

/-- Above the new parent nothing has changed. -/
theorem climb_graft_above {q : Option Int} (h : ∀ j, f.up j n ≠ some tenant) :
    climb (Function.update f.parent tenant q) k n = f.up k n := climb_update_of_forall_ne h

/-- Up to the tenant nothing has changed. -/
theorem climb_graft_inside {q : Option Int} (h : f.up j n = some tenant) (hk : k ≤ j) :
    climb (Function.update f.parent tenant q) k n = f.up k n :=
  climb_update_of_climb h (fun _ hi he => Nat.ne_of_lt hi (up_inj he h)) hk

/-- From the tenant on, the way leads over the new parent. -/
theorem climb_graft_outside (hap : ∀ k, f.up k p ≠ some tenant) (h : f.up j n = some tenant) :
    climb (Function.update f.parent tenant (link p)) (j + 1 + i) n = (link p).bind (f.up i) := by
  rw [Nat.add_assoc, climb_add, climb_graft_inside h (Nat.le_refl j), h, Nat.add_comm 1 i]
  show (Function.update f.parent tenant (link p) tenant).bind _ = _
  rw [Function.update_self, link]
  split
  · rfl
  · exact climb_graft_above hap

/-- The forest with the subtree of `tenant` under the parent `p`. -/
def graft (f : Forest) (tenant p : Int) (h : f.Graftable tenant p) : Forest where
  nodes := f.nodes
  parent := Function.update f.parent tenant (link p)
  rootless := f.rootless
  mem_of_parent n q hq := by
    by_cases hn : n = tenant
    · subst hn
      rw [Function.update_self, link] at hq
      split at hq
      · cases hq
      · rename_i hp
        obtain rfl := Option.some.inj hq
        exact ⟨h.tenant_mem, h.parent_mem.resolve_left hp⟩
    · rw [Function.update_of_ne hn] at hq
      exact f.mem_of_parent n q hq
  acyclic n k := by
    by_cases hin : ∃ j, f.up j n = some tenant
    · obtain ⟨j, hj⟩ := hin
      by_cases hk : k + 1 ≤ j
      · rw [climb_graft_inside hj hk]
        exact f.acyclic n k
      · -- a way back would lead from the new parent down into the subtree
        obtain ⟨i, rfl⟩ : ∃ i, k = j + i := ⟨k - j, by omega⟩
        rw [show j + i + 1 = j + 1 + i by omega, climb_graft_outside h.apart hj, link]
        split
        · exact fun he => nomatch he
        · exact fun he => h.apart (i + j) (up_trans he hj)
    · rw [climb_graft_above fun j hj => hin ⟨j, hj⟩]
      exact f.acyclic n k

theorem up_graft_above (h : f.Graftable tenant p) (hn : ∀ j, f.up j n ≠ some tenant) :
    (f.graft tenant p h).up k n = f.up k n := climb_graft_above hn

theorem up_graft_inside (h : f.Graftable tenant p) (hj : f.up j n = some tenant) (hk : k ≤ j) :
    (f.graft tenant p h).up k n = f.up k n := climb_graft_inside hj hk

/-- Beyond the root of the moved subtree the way up leads through the new parent. -/
theorem up_graft_outside (h : f.Graftable tenant p) (hj : f.up j n = some tenant) :
    (f.graft tenant p h).up (j + 1 + i) n = (link p).bind (f.up i) := climb_graft_outside h.apart hj

/-- What may be grafted in a forest may be moved in its table. -/
theorem Graftable.closure (h : f.Graftable tenant p) : f.closure.Movable tenant p := by
  refine ⟨mem_ids_closure.2 h.tenant_mem, h.parent_mem.imp_right mem_ids_closure.2, fun hj => ?_⟩
  obtain ⟨-, k, hk⟩ := joins_closure_iff.1 hj
  exact h.apart k hk

/-- What can be moved in the closure can be moved in the forest. -/
theorem graftable_of_closure (h : f.closure.Movable tenant p) : f.Graftable tenant p := by
  have htenant : tenant ∈ f.nodes := mem_ids_closure.1 h.tenant_mem
  refine ⟨htenant, h.parent_mem.imp_right mem_ids_closure.1, fun k hk => h.apart ?_⟩
  exact joins_closure_iff.2 ⟨mem_of_up_to htenant hk, k, hk⟩

/-- Where a subtree is put elsewhere, the depths over the new parent are those of another forest,
    and so they fit. -/
theorem placeFits_closure (hcard : f.nodes.card ≤ TenantId.maxCell) (h : f.Graftable tenant p)
    (hz : p ≠ 0) : f.closure.PlaceFits tenant p := by
  intro a d k hk
  rw [ordered_closure.placeDepth?_eq_linkDepth? h.closure hz, Closure.linkDepth?_eq_some_iff] at hk
  obtain ⟨i, j, hi, hj, rfl⟩ := hk
  obtain ⟨hp, hi⟩ := depth?_closure_eq_some_iff.1 hi
  obtain ⟨hd, hj⟩ := depth?_closure_eq_some_iff.1 hj
  -- the way up from `d` leads to the tenant, over the new parent, and on to `a`
  have hup : (f.graft tenant p h).up (j + 1 + i) d = some a := by
    rw [up_graft_outside h hj, link, if_neg hz]
    exact hi
  have hlt : j + 1 + i < f.nodes.card := lt_card_of_up (f := f.graft tenant p h) hd hup
  exact Cell.link_le_maxCell_iff.2 (by omega)

/-- The depth over the new parent, in a forest. -/
theorem linkDepth?_closure (hcard : f.nodes.card ≤ TenantId.maxCell) (h : f.Graftable tenant p)
    (hd : d ∈ f.nodes)
    (hj : f.up j d = some tenant) :
    f.closure.linkDepth? tenant p a d = some k ↔
      ∃ i, (link p).bind (f.up i) = some a ∧ k = j + 1 + i := by
  rw [ordered_closure.linkDepth?_eq_some_iff h.closure (placeFits_closure hcard h)]
  simp only [depth?_closure_eq_some_iff, link]
  constructor
  · rintro ⟨i, j', ⟨hp, hi⟩, ⟨-, hj'⟩, rfl⟩
    rw [up_inj hj' hj]
    have hz : p ≠ 0 := fun he => f.rootless (he ▸ hp)
    exact ⟨i, by rw [if_neg hz]; exact hi, by omega⟩
  · rintro ⟨i, hi, rfl⟩
    split at hi
    · cases hi
    · rename_i hz
      exact ⟨i, j, ⟨h.parent_mem.resolve_left hz, hi⟩, ⟨hd, hj⟩, by omega⟩

/-- From one id of the subtree to another, nothing has changed. -/
theorem up_graft_iff_of_inside (h : f.Graftable tenant p) (hj : f.up j d = some tenant)
    (hi : f.up i a = some tenant) : (f.graft tenant p h).up k d = some a ↔ f.up k d = some a := by
  constructor
  · intro hk
    by_cases hle : k ≤ j
    · rwa [up_graft_inside h hj hle] at hk
    · -- beyond the tenant the way would lead over the parent, and from there to the tenant again
      obtain ⟨m, rfl⟩ : ∃ m, k = j + 1 + m := ⟨k - (j + 1), by omega⟩
      rw [up_graft_outside h hj, link] at hk
      split at hk
      · cases hk
      · exact absurd (up_trans hk hi) (h.apart _)
  · intro hk
    have hle : k + i = j := up_inj (up_trans hk hi) hj
    rwa [up_graft_inside h hj (by omega)]

/-- From an id of the subtree to one outside of it, the way leads over the new parent. -/
theorem up_graft_iff_of_outside (h : f.Graftable tenant p) (hj : f.up j d = some tenant)
    (ha : ∀ i, f.up i a ≠ some tenant) :
    (f.graft tenant p h).up k d = some a ↔ ∃ i, (link p).bind (f.up i) = some a ∧
      k = j + 1 + i := by
  constructor
  · intro hk
    by_cases hle : k ≤ j
    · rw [up_graft_inside h hj hle] at hk
      obtain ⟨b, hb, hbt⟩ := exists_up_of_le hj hle
      obtain rfl := Option.some.inj (hb.symm.trans hk)
      exact absurd hbt (ha _)
    · obtain ⟨m, rfl⟩ : ∃ m, k = j + 1 + m := ⟨k - (j + 1), by omega⟩
      rw [up_graft_outside h hj] at hk
      exact ⟨m, hk, rfl⟩
  · rintro ⟨i, hi, rfl⟩
    rw [up_graft_outside h hj, hi]

/-- **The closure with a subtree elsewhere** is what a move makes of the closure. -/
theorem closure_graft (hcard : f.nodes.card ≤ TenantId.maxCell) (h : f.Graftable tenant p) :
    (f.graft tenant p h).closure = f.closure.moved tenant p := by
  refine Eq.symm (eq_closure_iff.2 fun a d k => ?_)
  have hmem : d ∈ (f.graft tenant p h).nodes ↔ d ∈ f.nodes := Iff.rfl
  rw [ordered_closure.depth?_moved h.closure, hmem]
  by_cases hin : ∃ j, f.up j d = some tenant
  · obtain ⟨j, hj⟩ := hin
    have hd : d ∈ f.nodes := mem_of_up_to h.tenant_mem hj
    by_cases ha : f.closure.joins tenant a = true
    · -- both ends in the subtree
      obtain ⟨-, i, hi⟩ := joins_closure_iff.1 ha
      rw [if_neg fun he => he.2 ha, depth?_closure_eq_some_iff, up_graft_iff_of_inside h hj hi]
    · -- a row into the subtree: its upper end has no way to the tenant
      rw [if_pos ⟨joins_closure_iff.2 ⟨hd, j, hj⟩, ha⟩, linkDepth?_closure hcard h hd hj]
      have hout : ∀ i, f.up i a ≠ some tenant := fun i hi =>
        ha (joins_closure_iff.2 ⟨mem_of_up_to h.tenant_mem hi, i, hi⟩)
      rw [up_graft_iff_of_outside h hj hout]
      exact (and_iff_right hd).symm
  -- outside the subtree neither the way up nor the row changes
  · rw [if_neg fun he => hin (joins_closure_iff.1 he.1).2, depth?_closure_eq_some_iff,
      up_graft_above h fun j hj => hin ⟨j, hj⟩]

end Forest

end Tenancy
