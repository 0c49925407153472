import Tenancy.Proofs.Moves

namespace Tenancy.Closure

/-!
# Tables that order their ids

In a consistent table the rows are a partial order of the ids, with depth 0 exactly between an id
and itself.  On such a table a move and an insertion have a short description; it needs no
distances, so that it also covers tables in which an id has several parents or a depth is too large.

* `Ordered` — the rows are a partial order.
* `planted` — the table after an insertion; for the one after a move, see `moved`.
* `depth?_planted` — what an insertion leaves, on any table.
* `Ordered.depth?_moved`, `Ordered.depth?_planted` — what they hold, on ordered tables.
* `Ordered.moved`, `Ordered.planted` — they are ordered again.
* `Short` — no way over a third id is shorter than a row; `Short.moved`, `Short.planted`.
-/

variable {t : Closure} {tenant parent child a b c d n : Int} {i j k : Nat}

/-- The rows are a partial order of the ids other than 0. -/
structure Ordered (t : Closure) : Prop where
  self : ∀ n ∈ t.ids, t.depth? n n = some 0
  pos : ∀ a d, t.depth? a d = some 0 → a = d
  trans : ∀ a b c, t.joins a b = true → t.joins b c = true → t.joins a c = true
  antisymm : ∀ a b, t.joins a b = true → t.joins b a = true → a = b
  rootless : (0 : Int) ∉ t.ids

/-- The empty table is in order. -/
theorem ordered_empty : empty.Ordered := by
  have hrow : ∀ a d, ¬empty.joins a d = true := by
    intro a d hj
    obtain ⟨k, hk⟩ := joins_iff.1 hj
    rw [depth?_empty] at hk
    cases hk
  have hids : ∀ n, n ∉ empty.ids := by
    intro n hn
    obtain ⟨m, hm | hm⟩ := mem_ids_iff_joins.1 hn
    · exact hrow n m hm
    · exact hrow m n hm
  exact ⟨fun n hn => absurd hn (hids n), fun a d hk => absurd (joins_of_depth? hk) (hrow a d),
    fun a b _ hab => absurd hab (hrow a b), fun a b hab => absurd hab (hrow a b), hids 0⟩

/-- In order, every id has its self row. -/
theorem Ordered.joins_self (h : t.Ordered) (hn : n ∈ t.ids) : t.joins n n = true :=
  joins_of_depth? (h.self n hn)

/-- In order, a self row is at depth 0. -/
theorem Ordered.eq_of_depth?_self (h : t.Ordered) (hk : t.depth? n n = some k) : k = 0 := by
  have hn := (mem_ids_of_joins (joins_of_depth? hk)).1
  rw [h.self n hn] at hk
  exact (Option.some.inj hk).symm

/-- Rows of an ordered table meet in one direction only. -/
theorem Ordered.inSubtree_iff (h : t.Ordered) (ht : tenant ∈ t.ids) :
    t.InSubtree tenant n ↔ t.joins tenant n = true := by
  rw [InSubtree, or_iff_right_of_imp]
  rintro rfl
  exact h.joins_self ht

/-! ### A move -/

/-- A row into the subtree of `tenant` from outside. -/
def Enters (t : Closure) (tenant a d : Int) : Prop :=
  t.joins tenant d = true ∧ ¬t.joins tenant a = true

instance : Decidable (t.Enters tenant a d) := inferInstanceAs (Decidable (_ ∧ _))

/-- The depth at which `a` gets to be above `d` if `tenant` is put under `parent`. -/
def linkDepth? (t : Closure) (tenant parent a d : Int) : Option Nat :=
  (t.depth? a parent).bind fun i => (t.depth? tenant d).map fun j => Cell.link i j

/-- The depth of a way through a new edge: from above to the parent, and from the tenant down. -/
theorem linkDepth?_eq_some_iff :
    t.linkDepth? tenant parent a d = some k ↔
      ∃ i j, t.depth? a parent = some i ∧ t.depth? tenant d = some j ∧ k = Cell.link i j := by
  simp only [linkDepth?, Option.bind_eq_some_iff, Option.map_eq_some_iff]
  constructor
  · rintro ⟨i, hi, j, hj, rfl⟩
    exact ⟨i, j, hi, hj, rfl⟩
  · rintro ⟨i, j, hi, hj, rfl⟩
    exact ⟨i, hi, j, hj, rfl⟩

/-- What the caller of a move has made sure of: both ends are there, and the new parent is neither
    the tenant nor below it. -/
structure Movable (t : Closure) (tenant parent : Int) : Prop where
  tenant_mem : tenant ∈ t.ids
  parent_mem : parent = 0 ∨ parent ∈ t.ids
  apart : ¬t.joins tenant parent = true

namespace Ordered

variable (h : t.Ordered) (hm : t.Movable tenant parent)

include h

/-- Where the tenant and the parent have their self rows, the lists of a move add nothing to
    them. -/
theorem placeDepth?_eq_linkDepth? (hm : t.Movable tenant parent) (hz : parent ≠ 0) :
    t.placeDepth? tenant parent a d = t.linkDepth? tenant parent a d := by
  rw [placeDepth?, linkDepth?, subDepth?_of_self (h.self tenant hm.tenant_mem),
    supDepth?_of_self (h.self parent (hm.parent_mem.resolve_left hz))]

/-- Where the sums fit, a link is what its two parts come to, and a level more. -/
theorem linkDepth?_eq_some_iff (hm : t.Movable tenant parent)
    (hfit : parent ≠ 0 → t.PlaceFits tenant parent) :
    t.linkDepth? tenant parent a d = some k ↔
      ∃ i j, t.depth? a parent = some i ∧ t.depth? tenant d = some j ∧ k = i + j + 1 := by
  by_cases hz : parent = 0
  · have hroot : t.depth? a parent = none := Option.eq_none_iff_forall_ne_some.2 fun i hi =>
      h.rootless (hz ▸ (mem_ids_of_joins (joins_of_depth? hi)).2)
    simp [linkDepth?, hroot]
  · rw [← h.placeDepth?_eq_linkDepth? hm hz, (hfit hz).placeDepth?_eq_some_iff,
      subDepth?_of_self (h.self tenant hm.tenant_mem),
      supDepth?_of_self (h.self parent (hm.parent_mem.resolve_left hz))]

/-- **What a move does.** Rows that enter the subtree lead over the new parent; all others stay. -/
theorem depth?_moved (hm : t.Movable tenant parent) :
    (t.moved tenant parent).depth? a d
      = if t.Enters tenant a d then t.linkDepth? tenant parent a d else t.depth? a d := by
  have hsub : ∀ n, t.InSubtree tenant n ↔ t.joins tenant n = true :=
    fun n => h.inSubtree_iff hm.tenant_mem
  -- the rows of a move are known on every table; in order, being in the subtree is having a row
  -- from the tenant
  have hout : ¬t.InSubtree tenant parent := fun hin => hm.apart ((hsub parent).1 hin)
  by_cases he : t.Enters tenant a d
  · have hd : t.InSubtree tenant d := (hsub d).2 he.1
    have ha : ¬t.InSubtree tenant a := fun hin => he.2 ((hsub a).1 hin)
    rw [if_pos he]
    by_cases hz : parent = 0
    · subst hz
      have hroot : ∀ b, t.depth? b 0 = none := fun b =>
        Option.eq_none_iff_forall_ne_some.2 fun i hi =>
          h.rootless (mem_ids_of_joins (joins_of_depth? hi)).2
      rw [depth?_moved_into_zero hroot hd ha, linkDepth?, hroot]
      rfl
    · rw [depth?_moved_into hz hout hd ha, h.placeDepth?_eq_linkDepth? hm hz]
  · rw [if_neg he]
    by_cases hd : t.joins tenant d = true
    · have ha : t.joins tenant a = true := by_contra fun hno => he ⟨hd, hno⟩
      refine depth?_moved_inside (.inr hout) ((hsub a).2 ha) (fun _ habove => ?_) fun _ hone => ?_
      · -- an id above the parent and in the subtree would put the parent there
        rcases habove with rfl | hap
        · exact hm.apart ha
        · exact hm.apart (h.trans _ _ _ ha hap)
      · have hsame : tenant = a := h.antisymm _ _ ha (joins_of_depth? hone)
        rw [← hsame] at hone
        exact absurd (h.eq_of_depth?_self hone) Nat.one_ne_zero
    · exact depth?_moved_outside (.inr hout) fun hin => hd ((hsub d).1 hin)

/-- Which pairs a move joins: into the subtree those above the new parent, elsewhere those of
    before. -/
theorem joins_moved (hm : t.Movable tenant parent) :
    (t.moved tenant parent).joins a d = true ↔
      if t.Enters tenant a d then t.joins a parent = true else t.joins a d = true := by
  rw [joins, h.depth?_moved hm]
  split
  · rename_i he
    obtain ⟨j, hj⟩ := joins_iff.1 he.1
    rw [linkDepth?, hj, joins]
    cases t.depth? a parent <;> simp
  · rw [joins]

/-- A row that is there after a move does not leave the subtree. -/
theorem joins_of_inside (hm : t.Movable tenant parent) (hin : t.joins tenant a = true)
    (had : (t.moved tenant parent).joins a d = true) : t.joins tenant d = true := by
  have hstay : ¬t.Enters tenant a d := fun he => he.2 hin
  rw [h.joins_moved hm, if_neg hstay] at had
  exact h.trans _ _ _ hin had

/-- In order, a move mentions no new id. -/
theorem mem_ids_moved (hm : t.Movable tenant parent) (hn : n ∈ (t.moved tenant parent).ids) :
    n ∈ t.ids := by
  have key : ∀ a d, (t.moved tenant parent).joins a d = true → a ∈ t.ids ∧ d ∈ t.ids := by
    intro a d had
    rw [h.joins_moved hm] at had
    split at had
    · rename_i he
      exact ⟨(mem_ids_of_joins had).1, (mem_ids_of_joins he.1).2⟩
    · exact mem_ids_of_joins had
  obtain ⟨m, hm | hm⟩ := mem_ids_iff_joins.1 hn
  · exact (key _ _ hm).1
  · exact (key _ _ hm).2

/-- **A move keeps the order.** -/
theorem moved (hm : t.Movable tenant parent) : (t.moved tenant parent).Ordered where
  self n hn := by
    have hstay : ¬t.Enters tenant n n := fun he => he.2 he.1
    rw [h.depth?_moved hm, if_neg hstay]
    exact h.self n (h.mem_ids_moved hm hn)
  pos a d had := by
    rw [h.depth?_moved hm] at had
    split at had
    · obtain ⟨i, j, -, -, hij⟩ := Closure.linkDepth?_eq_some_iff.1 had
      exact absurd hij (Nat.ne_of_lt Cell.link_pos)
    · exact h.pos a d had
  trans a b c hab hbc := by
    have hinside := h.joins_of_inside hm (a := a) (d := b)
    have hinside' := h.joins_of_inside hm (a := b) (d := c)
    rw [h.joins_moved hm] at hab hbc ⊢
    by_cases hc : t.joins tenant c = true
    · by_cases ha : t.joins tenant a = true
      · -- everything inside the subtree
        have hac : ¬t.Enters tenant a c := fun he => he.2 ha
        have hab' : ¬t.Enters tenant a b := fun he => he.2 ha
        rw [if_neg hab'] at hab
        have hb : t.joins tenant b = true := h.trans _ _ _ ha hab
        rw [if_neg fun he => he.2 hb] at hbc
        rw [if_neg hac]
        exact h.trans _ _ _ hab hbc
      · -- the way crosses the edge of the subtree, before `b` or behind it
        rw [if_pos ⟨hc, ha⟩]
        by_cases hb : t.joins tenant b = true
        · rwa [if_pos ⟨hb, ha⟩] at hab
        · rw [if_pos ⟨hc, hb⟩] at hbc
          rw [if_neg fun he => hb he.1] at hab
          exact h.trans _ _ _ hab hbc
    · -- nothing that is outside the subtree lies below something inside it
      rw [if_neg fun he => hc he.1] at hbc ⊢
      have hb : ¬t.joins tenant b = true := fun hb => hc (h.trans _ _ _ hb hbc)
      rw [if_neg fun he => hb he.1] at hab
      exact h.trans _ _ _ hab hbc
  antisymm a b hab hba := by
    have hinside := h.joins_of_inside hm (a := a) (d := b)
    have hinside' := h.joins_of_inside hm (a := b) (d := a)
    have hboth : ¬t.Enters tenant a b ∧ ¬t.Enters tenant b a :=
      ⟨fun he => he.2 (hinside' he.1 hba), fun he => he.2 (hinside he.1 hab)⟩
    rw [h.joins_moved hm, if_neg hboth.1] at hab
    rw [h.joins_moved hm, if_neg hboth.2] at hba
    exact h.antisymm a b hab hba
  rootless h0 := h.rootless (h.mem_ids_moved hm h0)

end Ordered

/-! ### An insertion -/

/-- The table after an insertion. -/
def planted (t : Closure) (parent leaf : Int) : Closure :=
  let rooted := (t.plant leaf).closure
  if parent = 0 then rooted else rooted.adopt parent leaf

theorem planted_zero {leaf : Int} : t.planted 0 leaf = (t.plant leaf).closure := by
  rw [planted, if_pos rfl]

/-- What the caller of an insertion has made sure of. -/
structure Plantable (t : Closure) (parent leaf : Int) : Prop where
  leaf_ne : leaf ≠ 0
  leaf_notMem : leaf ∉ t.ids
  parent_mem : parent = 0 ∨ parent ∈ t.ids

/-- A leaf is new, and so it is not its own parent. -/
theorem Plantable.parent_ne {leaf : Int} (hp : t.Plantable parent leaf) : parent ≠ leaf := by
  rintro rfl
  exact hp.parent_mem.elim hp.leaf_ne hp.leaf_notMem

variable {leaf : Int}

/-- An id that is not mentioned has no rows, neither down nor up. -/
theorem depth?_eq_none_of_notMem (hn : n ∉ t.ids) : t.depth? n a = none ∧ t.depth? a n = none := by
  constructor <;> refine Option.eq_none_iff_forall_ne_some.2 fun k hk => hn ?_
  · exact (mem_ids_of_joins (joins_of_depth? hk)).1
  · exact (mem_ids_of_joins (joins_of_depth? hk)).2

theorem depth?_plant_of_ne (hd : d ≠ leaf) :
    (t.plant leaf).closure.depth? a d = t.depth? a d := by
  rw [depth?_plant, if_neg fun he => hd he.2, Option.or_none]

/-- A new leaf is above itself, and nothing else is above it. -/
theorem depth?_plant_leaf (hleaf : leaf ∉ t.ids) :
    (t.plant leaf).closure.depth? a leaf = if a = leaf then some 0 else none := by
  rw [depth?_plant, (depth?_eq_none_of_notMem hleaf).2, Option.none_or]
  simp only [and_true]

/-- The rows of a new leaf can be added one statement after the other: its self row, the parent
    edge, and the rows that it inherits.  None of them is there already, whatever the table
    holds. -/
theorem admits_leaf (hleaf : leaf ∉ t.ids) : t.admits [.self leaf] = true := by
  refine admits_of_new (fun r hr => ?_) (List.pairwise_singleton _ _)
  rw [List.mem_singleton.1 hr]
  exact lacks_iff.2 (depth?_eq_none_of_notMem hleaf).1

/-- A new leaf has no row yet, hence its parent edge can be added. -/
theorem admits_leaf_edge (hleaf : leaf ∉ t.ids) (hne : parent ≠ leaf) :
    (t.plant leaf).closure.admits [⟨parent, leaf, 1⟩] = true ∧
      (t.plant leaf).closure.fill [⟨parent, leaf, 1⟩]
        = (t.plant leaf).closure.direct parent leaf := by
  have hnone : (t.plant leaf).closure.depth? parent leaf = none := by
    rw [depth?_plant_leaf hleaf, if_neg hne]
  refine ⟨admits_of_new (fun r hr => ?_) (List.pairwise_singleton _ _), (direct_of_none hnone).symm⟩
  rw [List.mem_singleton.1 hr]
  exact lacks_iff.2 hnone

/-- Nor has it any of the rows that it inherits, hence they can be added too. -/
theorem admits_leaf_inherited (hleaf : leaf ∉ t.ids) (hne : parent ≠ leaf) :
    let u := ((t.plant leaf).closure.direct parent leaf).closure
    u.admits (u.inheritedRows parent leaf) = true ∧
      u.fill (u.inheritedRows parent leaf) = u.inherit parent leaf := by
  refine admits_inheritedRows (fun a hp hl => ?_) ?_
  · rw [depth?_direct, if_neg fun he => hp he.1, depth?_plant_leaf hleaf, if_neg hl]
  · rw [depth?_direct, if_neg fun he => hne he.2, depth?_plant_of_ne hne,
      (depth?_eq_none_of_notMem hleaf).1]

/-- Planting a leaf changes nothing above the parent. -/
theorem supDepth?_plant (hne : parent ≠ leaf) :
    (t.plant leaf).closure.supDepth? parent a = t.supDepth? parent a := by
  unfold supDepth?
  rw [depth?_plant_of_ne hne]

/-- **What an insertion leaves, on any table.**  The leaf gets its self row, and under a parent the
    rows of the supertree of the parent, one level deeper. -/
theorem depth?_planted (hp : t.Plantable parent leaf) : (t.planted parent leaf).depth? a d
    = if d = leaf then
        if a = leaf then some 0
        else if parent = 0 then none else (t.supDepth? parent a).map (Cell.sum · 1)
      else t.depth? a d := by
  have hne := hp.parent_ne
  unfold planted
  by_cases hd : d = leaf
  · subst hd
    rw [if_pos rfl]
    by_cases hz : parent = 0
    · rw [if_pos hz, if_pos hz, depth?_plant_leaf hp.leaf_notMem]
    · rw [if_neg hz, if_neg hz, depth?_adopt hne, if_pos rfl, depth?_plant_leaf hp.leaf_notMem,
        depth?_plant_leaf hp.leaf_notMem, depth?_plant_leaf hp.leaf_notMem, depth?_plant_of_ne hne,
        supDepth?]
      -- the parent, the leaf itself, and the other ids above the parent
      by_cases hap : a = parent
      · simp [hap, hne, Cell.sum_one (Nat.zero_le _)]
      · by_cases had : a = d <;> simp [hap, had, hne.symm]
  · rw [if_neg hd]
    by_cases hz : parent = 0
    · rw [if_pos hz, depth?_plant_of_ne hd]
    · rw [if_neg hz, depth?_adopt hne, if_neg hd, depth?_plant_of_ne hd]

namespace Ordered

variable (h : t.Ordered)

include h

/-- In order, nothing lies above the root: it is no id of the table. -/
theorem depth?_root : t.depth? a 0 = none := (depth?_eq_none_of_notMem h.rootless).2

/-- **What an insertion does.** The leaf gets its self row and the rows of its parent, one
    deeper. -/
theorem depth?_planted (hp : t.Plantable parent leaf) :
    (t.planted parent leaf).depth? a d
      = if d = leaf then if a = leaf then some 0 else (t.depth? a parent).map (Cell.sum · 1)
        else t.depth? a d := by
  rw [Closure.depth?_planted hp]
  by_cases hz : parent = 0
  · rw [if_pos hz, hz, h.depth?_root, Option.map_none]
  · rw [if_neg hz, supDepth?_of_self (h.self parent (hp.parent_mem.resolve_left hz))]

/-- Which pairs planting joins: to the leaf those above its parent, elsewhere those of before. -/
theorem joins_planted (hp : t.Plantable parent leaf) :
    (t.planted parent leaf).joins a d = true ↔
      if d = leaf then a = leaf ∨ t.joins a parent = true else t.joins a d = true := by
  rw [joins, h.depth?_planted hp]
  split
  · split
    · simp [*]
    · rw [Option.isSome_map, ← joins]
      simp [*]
  · rw [joins]

/-- In order, planting mentions one new id, the leaf. -/
theorem mem_ids_planted (hp : t.Plantable parent leaf)
    (hn : n ∈ (t.planted parent leaf).ids) : n = leaf ∨ n ∈ t.ids := by
  have key : ∀ a d, (t.planted parent leaf).joins a d = true →
      (a = leaf ∨ a ∈ t.ids) ∧ (d = leaf ∨ d ∈ t.ids) := by
    intro a d had
    rw [h.joins_planted hp] at had
    split at had
    · exact ⟨had.imp_right fun hj => (mem_ids_of_joins hj).1, .inl ‹_›⟩
    · exact ⟨.inr (mem_ids_of_joins had).1, .inr (mem_ids_of_joins had).2⟩
  obtain ⟨m, hm | hm⟩ := mem_ids_iff_joins.1 hn
  · exact (key _ _ hm).1
  · exact (key _ _ hm).2

/-- Nothing but the leaf itself lies below the leaf. -/
theorem eq_leaf_of_joins_planted (hp : t.Plantable parent leaf)
    (had : (t.planted parent leaf).joins leaf d = true) : d = leaf := by
  by_contra hd
  rw [h.joins_planted hp, if_neg hd] at had
  exact hp.leaf_notMem (mem_ids_of_joins had).1

/-- **An insertion keeps the order.** -/
theorem planted (hp : t.Plantable parent leaf) : (t.planted parent leaf).Ordered where
  self n hn := by
    rw [h.depth?_planted hp]
    split
    · rfl
    · exact h.self n ((h.mem_ids_planted hp hn).resolve_left ‹_›)
  pos a d had := by
    rw [h.depth?_planted hp] at had
    split at had
    · split at had
      · simp [*]
      -- an inherited row is longer than the one above it, so it is not at depth 0
      · obtain ⟨i, -, hi⟩ := Option.map_eq_some_iff.1 had
        exact absurd hi (Nat.ne_of_gt (Cell.sum_pos i.succ_pos))
    · exact h.pos a d had
  trans a b c hab hbc := by
    by_cases hb : b = leaf
    · -- there is no way on from the leaf but to itself
      rw [hb] at hab hbc
      rw [h.eq_leaf_of_joins_planted hp hbc]
      exact hab
    · rw [h.joins_planted hp] at hab hbc ⊢
      rw [if_neg hb] at hab
      split
      · rename_i hc
        rw [if_pos hc] at hbc
        exact .inr (h.trans _ _ _ hab (hbc.resolve_left hb))
      · rename_i hc
        rw [if_neg hc] at hbc
        exact h.trans _ _ _ hab hbc
  antisymm a b hab hba := by
    by_cases ha : a = leaf
    · rw [ha] at hab
      exact ha.trans (h.eq_leaf_of_joins_planted hp hab).symm
    · by_cases hb : b = leaf
      · rw [hb] at hba
        exact (h.eq_leaf_of_joins_planted hp hba).trans hb.symm
      · rw [h.joins_planted hp, if_neg hb] at hab
        rw [h.joins_planted hp, if_neg ha] at hba
        exact h.antisymm a b hab hba
  rootless h0 := (h.mem_ids_planted hp h0).elim (fun he => hp.leaf_ne he.symm) h.rootless

end Ordered

/-! ### Depths -/

/-- No way over a third id is shorter than the row that it stands for, which exists. -/
def Short (t : Closure) : Prop :=
  ∀ a b c i j, t.depth? a b = some i → t.depth? b c = some j →
    ∃ k ≤ i + j, t.depth? a c = some k

namespace Short

variable (hs : t.Short) (h : t.Ordered)

include hs

/-- **A move keeps rows short**, if the sums that it forms are exact. -/
theorem moved (h : t.Ordered) (hm : t.Movable tenant parent)
    (hfit : parent ≠ 0 → t.PlaceFits tenant parent) : (t.moved tenant parent).Short := by
  intro a b c i j hab hbc
  have hj := joins_of_depth? hab
  have hj' := joins_of_depth? hbc
  rw [h.depth?_moved hm] at hab hbc ⊢
  by_cases hc : t.joins tenant c = true
  · by_cases ha : t.joins tenant a = true
    · have hb := h.joins_of_inside hm ha hj
      rw [if_neg fun he => he.2 ha] at hab
      rw [if_neg fun he => he.2 hb] at hbc
      rw [if_neg fun he => he.2 ha]
      exact hs a b c i j hab hbc
    · rw [if_pos ⟨hc, ha⟩]
      by_cases hb : t.joins tenant b = true
      · -- over the new parent, and then down inside the subtree
        rw [if_pos ⟨hb, ha⟩] at hab
        rw [if_neg fun he => he.2 hb] at hbc
        obtain ⟨p, q, hp, hq, rfl⟩ := (h.linkDepth?_eq_some_iff hm hfit).1 hab
        obtain ⟨r, hr, hrc⟩ := hs tenant b c q j hq hbc
        exact ⟨p + r + 1, by omega, (h.linkDepth?_eq_some_iff hm hfit).2 ⟨p, r, hp, hrc, rfl⟩⟩
      · -- down to an ancestor of the new parent, and over the parent from there
        rw [if_neg fun he => hb he.1] at hab
        rw [if_pos ⟨hc, hb⟩] at hbc
        obtain ⟨p, q, hp, hq, rfl⟩ := (h.linkDepth?_eq_some_iff hm hfit).1 hbc
        obtain ⟨r, hr, har⟩ := hs a b parent i p hab hp
        exact ⟨r + q + 1, by omega, (h.linkDepth?_eq_some_iff hm hfit).2 ⟨r, q, har, hq, rfl⟩⟩
  -- wholly outside the subtree no row has changed
  · have hb : ¬t.joins tenant b = true := fun hb => hc (h.joins_of_inside hm hb hj')
    rw [if_neg fun he => hb he.1] at hab
    rw [if_neg fun he => hc he.1] at hbc
    rw [if_neg fun he => hc he.1]
    exact hs a b c i j hab hbc

/-- **An insertion keeps rows short**, if the depths before are exact. -/
theorem planted (h : t.Ordered) (hp : t.Plantable parent leaf) (hfit : t.Fits) :
    (t.planted parent leaf).Short := by
  intro a b c i j hab hbc
  by_cases hb : b = leaf
  · rw [hb] at hab hbc
    rw [h.eq_leaf_of_joins_planted hp (joins_of_depth? hbc)]
    exact ⟨i, Nat.le_add_right i j, hab⟩
  · rw [h.depth?_planted hp, if_neg hb] at hab
    rw [h.depth?_planted hp] at hbc ⊢
    by_cases hc : c = leaf
    · rw [if_pos hc, if_neg hb] at hbc
      rw [if_pos hc]
      -- the last step is the parent edge, and up to the parent the rows were short before
      obtain ⟨p, hbp, rfl⟩ := Option.map_eq_some_iff.1 hbc
      obtain ⟨r, hr, har⟩ := hs a b parent i p hab hbp
      have ha : a ≠ leaf := by
        rintro rfl
        exact hp.leaf_notMem (mem_ids_of_joins (joins_of_depth? hab)).1
      rw [if_neg ha, har]
      rw [Cell.sum_one (hfit _ _ _ hbp)]
      exact ⟨r + 1, by omega, congrArg some (Cell.sum_one (hfit _ _ _ har))⟩
    · rw [if_neg hc] at hbc ⊢
      exact hs a b c i j hab hbc

end Short

/-- A move whose sums are exact leaves depths that fit. -/
theorem Fits.moved (hfit : t.Fits) (h : t.Ordered) (hm : t.Movable tenant parent)
    (hplace : parent ≠ 0 → t.PlaceFits tenant parent) : (t.moved tenant parent).Fits := by
  intro a d k hk
  rw [h.depth?_moved hm] at hk
  split at hk
  · by_cases hz : parent = 0
    · rw [linkDepth?, hz, h.depth?_root] at hk
      cases hk
    · rw [← h.placeDepth?_eq_linkDepth? hm hz] at hk
      exact hplace hz a d k hk
  · exact hfit a d k hk

/-- An insertion goes a level beyond the depths before at most. -/
theorem Fits.planted (hfit : t.Fits) (h : t.Ordered) (hp : t.Plantable parent leaf) :
    (t.planted parent leaf).Within (TenantId.maxCell + 1) := by
  intro a d k hk
  rw [h.depth?_planted hp] at hk
  split at hk
  · split at hk
    · exact Option.some.inj hk ▸ Nat.zero_le _
    · obtain ⟨i, hi, rfl⟩ := Option.map_eq_some_iff.1 hk
      have hle := hfit a parent i hi
      rw [Cell.sum_one hle]
      exact Nat.succ_le_succ hle
  · exact Nat.le_succ_of_le (hfit a d k hk)

/-! ### Sound tables -/

/-- A table that a repair leaves alone, in which no two ids are above each other, no row between
    different ids has depth 0, and no row mentions 0. -/
structure Sound (t : Closure) : Prop where
  repaired_eq : t.repaired = t
  antisymm : ∀ a b, a ≠ b → ¬(t.joins a b = true ∧ t.joins b a = true)
  pos : ∀ a d, a ≠ d → t.depth? a d ≠ some 0
  rootless : t.mentions 0 = false

/-- Two rows that meet in a closed table stand for a third one, which is not longer, over rows at
    depth 0 and back to the same id as well. -/
theorem Closed.exists_row (hclosed : t.Closed) (hself : ∀ n ∈ t.ids, t.depth? n n = some 0)
    (hpos : ∀ a d, t.depth? a d = some 0 → a = d) (hab : t.depth? a b = some i)
    (hbc : t.depth? b c = some j) :
    ∃ k, t.depth? a c = some k ∧ (k ≤ i + j ∨ k ≤ Cell.sum i j) := by
  rcases Nat.eq_zero_or_pos i with rfl | hi
  · rw [hpos a b hab]
    exact ⟨j, hbc, .inl (Nat.le_add_left j 0)⟩
  · rcases Nat.eq_zero_or_pos j with rfl | hj
    · rw [← hpos b c hbc]
      exact ⟨i, hab, .inl (Nat.le_refl i)⟩
    · by_cases hac : a = c
      · rw [← hac]
        exact ⟨0, hself a (mem_ids_of_joins (joins_of_depth? hab)).1, .inl (Nat.zero_le _)⟩
      · obtain ⟨k, hk, hrow⟩ := closed_iff.1 hclosed a b c i j hi hj hac hab hbc
        exact ⟨k, hrow, .inr hk⟩

/-- Where self rows alone have depth 0, closedness makes being joined transitive. -/
theorem Closed.joins_trans (hclosed : t.Closed) (hself : ∀ n ∈ t.ids, t.depth? n n = some 0)
    (hpos : ∀ a d, t.depth? a d = some 0 → a = d) (hab : t.joins a b = true)
    (hbc : t.joins b c = true) : t.joins a c = true := by
  obtain ⟨i, hi⟩ := joins_iff.1 hab
  obtain ⟨j, hj⟩ := joins_iff.1 hbc
  obtain ⟨k, hk, -⟩ := hclosed.exists_row hself hpos hi hj
  exact joins_of_depth? hk

/-- What a repair leaves alone is short, if no depth is beyond the first float. -/
theorem Closed.short (hclosed : t.Closed) (hself : ∀ n ∈ t.ids, t.depth? n n = some 0)
    (hpos : ∀ a d, t.depth? a d = some 0 → a = d) (hfit : t.Within (TenantId.maxCell + 1)) :
    t.Short := by
  intro a b c i j hab hbc
  obtain ⟨k, hrow, hk | hk⟩ := hclosed.exists_row hself hpos hab hbc
  · exact ⟨k, hk, hrow⟩
  · exact ⟨k, (Cell.le_sum_iff (hfit a c k hrow)).1 hk, hrow⟩

/-- A repair joins what two rows that meet join, unless there is a row at depth 0 between different
    ids. -/
theorem joins_trans_repaired (hpos : ∀ a d, t.depth? a d = some 0 → a = d)
    (hab : t.repaired.joins a b = true) (hbc : t.repaired.joins b c = true) :
    t.repaired.joins a c = true :=
  closed_repaired.joins_trans (fun _ hn => depth?_repaired_self (ids_repaired (t := t) ▸ hn))
    (eq_of_depth?_repaired hpos) hab hbc

/-- Sound tables are the ordered ones with short rows, if no depth is beyond the first float. -/
theorem sound_iff (hfit : t.Within (TenantId.maxCell + 1)) : t.Sound ↔ t.Ordered ∧ t.Short := by
  have hzero : t.mentions 0 = false ↔ (0 : Int) ∉ t.ids := by
    rw [← Bool.not_eq_true, mentions_iff]
  constructor
  · rintro ⟨hrep, hanti, hpos, hroot⟩
    obtain ⟨hself, hclosed⟩ := repaired_eq_self_iff.1 hrep
    -- soundness says that other rows are not at depth 0, which is the same as that rows at depth 0
    -- are self rows
    have hpos' : ∀ a d, t.depth? a d = some 0 → a = d :=
      fun a d hk => by_contra fun hne => hpos a d hne hk
    refine ⟨⟨hself, hpos', fun a b c => hclosed.joins_trans hself hpos', ?_, hzero.1 hroot⟩,
      hclosed.short hself hpos' hfit⟩
    intro a b hab hba
    exact by_contra fun hne => hanti a b hne ⟨hab, hba⟩
  · rintro ⟨h, hs⟩
    refine ⟨repaired_eq_self_iff.2 ⟨h.self, closed_iff.2 ?_⟩, ?_, ?_, hzero.2 h.rootless⟩
    · intro a b c i j _ _ _ hab hbc
      obtain ⟨k, hk, hrow⟩ := hs a b c i j hab hbc
      -- depths within the bound are compared with a sum of cells as they are with the exact sum
      exact ⟨k, (Cell.le_sum_iff (hfit a c k hrow)).2 hk, hrow⟩
    · exact fun a b hne hboth => hne (h.antisymm a b hboth.1 hboth.2)
    · exact fun a d hne hk => hne (h.pos a d hk)

/-- Where all depths are exact, a sound table is one that orders its ids and has no row too deep. -/
theorem Fits.sound_iff (hfit : t.Fits) : t.Sound ↔ t.Ordered ∧ t.Short :=
  Closure.sound_iff (hfit.mono (Nat.le_succ _))

end Tenancy.Closure
