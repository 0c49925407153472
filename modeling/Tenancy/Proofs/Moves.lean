import Tenancy.Proofs.Completion

namespace Tenancy.Closure

/-!
# What a move does

A move works on the subtree of its tenant and on the supertree of the new parent, as the rows name
them.  On a table that is not consistent these lists may hold an id twice, the same id may be in
both, and rows may be there that lead into the subtree at any depth.  The least depths in the lists
decide all the same: each pair ends up with the lesser of what the cut has left and what the new
place gives.

* `cut`, `moved` — the table without the rows that a move deletes, and the table after the move.
* `Cuts` — the rows that a move deletes; `depth?_cut_eq_some_iff`.
* `subDepth?`, `supDepth?`, `placeDepth?` — the least depths in the subtree and in the supertree,
  and what the new place makes of them.
* `PlaceFits` — what the new place makes of them fits a cell, and so is exact; `Within.placeFits`.
* `depth?_moved` — what a move under a parent leaves, on any table.
* `depth?_moved_outside`, `depth?_moved_into`, `depth?_moved_inside` — the same, by where the ends
  of a row lie.
* `eq_parent_or_of_edge` — where parent edges into the tenant come from after a move.
-/

variable {t : Closure} {tenant parent a d n : Int} {i j k : Nat}

/-- The table without the rows that a move deletes. -/
def cut (t : Closure) (tenant parent : Int) : Closure :=
  ((t.detach tenant parent).closure.dropOtherParents tenant parent).closure

/-- The table after a move: the old ancestors are cut off, and the new ones are joined. -/
def moved (t : Closure) (tenant parent : Int) : Closure :=
  let cut := ((t.detach tenant parent).closure.dropOtherParents tenant parent).closure
  if parent = 0 then cut else (cut.attach tenant parent).closure

theorem moved_zero : t.moved tenant 0 = t.cut tenant 0 := by
  unfold moved
  exact if_pos rfl

/-- A move to a parent cuts and then attaches. -/
theorem moved_of_ne_zero (hz : parent ≠ 0) :
    t.moved tenant parent = ((t.cut tenant parent).attach tenant parent).closure := by
  unfold moved
  exact if_neg hz

/-! ### Rows that a move deletes -/

/-- A move deletes the row: it leads into the subtree from outside, and not at just the depth that
    the new place gives it, or it is a parent edge into the tenant from another id than the
    parent. -/
def Cuts (t : Closure) (tenant parent : Int) (r : Row) : Prop :=
  (t.InSubtree tenant r.descendant ∧ ¬t.InSubtree tenant r.ancestor ∧
    r ∉ links (t.ancestry parent) (t.subtree tenant)) ∨
  r.descendant = tenant ∧ r.depth = 1 ∧ r.ancestor ≠ parent

instance : Decidable (t.InSubtree tenant n) := inferInstanceAs (Decidable (_ ∨ _))

instance {r : Row} : Decidable (t.Cuts tenant parent r) :=
  inferInstanceAs (Decidable ((_ ∧ _ ∧ _) ∨ _ ∧ _ ∧ _))

/-- The two statements of a move that delete rows leave the others. -/
theorem depth?_cut_eq_some_iff : (t.cut tenant parent).depth? a d = some k ↔
    t.depth? a d = some k ∧ ¬t.Cuts tenant parent ⟨a, d, k⟩ := by
  rw [cut, depth?_dropOtherParents_eq_some_iff, depth?_detach_eq_some_iff, Cuts]
  dsimp only
  tauto

theorem depth?_cut_of_not_cuts (h : ∀ k, ¬t.Cuts tenant parent ⟨a, d, k⟩) :
    (t.cut tenant parent).depth? a d = t.depth? a d :=
  Option.ext fun k => depth?_cut_eq_some_iff.trans (and_iff_left (h k))

/-- A table of which no row is deleted stays as it is. -/
theorem cut_eq_self (h : ∀ a d k, t.depth? a d = some k → ¬t.Cuts tenant parent ⟨a, d, k⟩) :
    t.cut tenant parent = t :=
  ext fun a d => Option.ext fun k => depth?_cut_eq_some_iff.trans (and_iff_left_of_imp (h a d k))

/-- A row that does not lead into the subtree is not deleted. -/
theorem not_cuts_of_outside (hd : ¬t.InSubtree tenant d) : ¬t.Cuts tenant parent ⟨a, d, k⟩ := by
  rintro (⟨hin, -, -⟩ | ⟨he, -, -⟩)
  · exact hd hin
  · exact hd (.inl he)

/-- A row within the subtree is not deleted, unless it ends at the tenant at depth 1. -/
theorem not_cuts_of_inside (ha : t.InSubtree tenant a) (hd : d = tenant → k ≠ 1) :
    ¬t.Cuts tenant parent ⟨a, d, k⟩ := by
  rintro (⟨-, hout, -⟩ | ⟨he, hone, -⟩)
  · exact hout ha
  · exact hd he hone

/-- A row from the tenant to what lies below it is not deleted. -/
theorem not_cuts_of_tenant (hd : d ≠ tenant) : ¬t.Cuts tenant parent ⟨tenant, d, k⟩ :=
  not_cuts_of_inside (.inl rfl) fun he => absurd he hd

/-- A self row at depth 0 is not deleted: it does not lead in from outside, and is no parent
    edge. -/
theorem not_cuts_self : ¬t.Cuts tenant parent (.self n) := by
  rintro (⟨hin, hout, -⟩ | ⟨-, hdepth, -⟩)
  · exact hout hin
  · exact absurd hdepth Nat.zero_ne_one

/-! ### Depths that the new place gives -/

/-- The least depth at which the subtree of `tenant` lists `d`. -/
def subDepth? (t : Closure) (tenant d : Int) : Option Nat :=
  if d = tenant then some 0 else t.depth? tenant d

/-- The least depth at which the supertree of `parent` lists `a`. -/
def supDepth? (t : Closure) (parent a : Int) : Option Nat :=
  if a = parent then some 0 else t.depth? a parent

/-- The depth at which `a` gets to be above `d` if the subtree of `tenant` is put under `parent`. -/
def placeDepth? (t : Closure) (tenant parent a d : Int) : Option Nat :=
  (t.supDepth? parent a).bind fun i => (t.subDepth? tenant d).map fun j => Cell.link i j

/-- The sums that give the new depths are exact: each of them fits a cell. -/
def PlaceFits (t : Closure) (tenant parent : Int) : Prop :=
  ∀ a d k, t.placeDepth? tenant parent a d = some k → k ≤ TenantId.maxCell

/-- The id `n` is the new parent or one of the ancestors that its rows name. -/
def InSupertree (t : Closure) (parent n : Int) : Prop := n = parent ∨ t.joins n parent = true

/-- Where the tenant has its self row, the subtree says no more than the rows from it. -/
theorem subDepth?_of_self (h : t.depth? tenant tenant = some 0) :
    t.subDepth? tenant d = t.depth? tenant d := by
  unfold subDepth?
  split
  · rename_i hd
    rw [hd, h]
  · rfl

/-- Where the parent has its self row, the anchor adds nothing to it. -/
theorem supDepth?_of_self (h : t.depth? parent parent = some 0) :
    t.supDepth? parent a = t.depth? a parent := by
  unfold supDepth?
  split
  · rename_i ha
    rw [ha, h]
  · rfl

theorem inSubtree_iff_exists : t.InSubtree tenant d ↔ ∃ j, t.subDepth? tenant d = some j := by
  rw [InSubtree, subDepth?, joins_iff]
  by_cases h : d = tenant <;> simp [h]

theorem inSupertree_iff_exists : t.InSupertree parent a ↔ ∃ i, t.supDepth? parent a = some i := by
  rw [InSupertree, supDepth?, joins_iff]
  by_cases h : a = parent <;> simp [h]

/-- The depth of a new row: the way up to the parent, the new edge, and the way down. -/
theorem placeDepth?_eq_some_iff : t.placeDepth? tenant parent a d = some k ↔
    ∃ i j, t.supDepth? parent a = some i ∧ t.subDepth? tenant d = some j ∧ k = Cell.link i j := by
  simp only [placeDepth?, Option.bind_eq_some_iff, Option.map_eq_some_iff]
  constructor
  · rintro ⟨i, hi, j, hj, rfl⟩
    exact ⟨i, j, hi, hj, rfl⟩
  · rintro ⟨i, j, hi, hj, rfl⟩
    exact ⟨i, hi, j, hj, rfl⟩

/-- Where the sums fit, a new depth is what its two parts come to, and a level more. -/
theorem PlaceFits.placeDepth?_eq_some_iff (h : t.PlaceFits tenant parent) :
    t.placeDepth? tenant parent a d = some k ↔
      ∃ i j, t.supDepth? parent a = some i ∧ t.subDepth? tenant d = some j ∧ k = i + j + 1 := by
  rw [Closure.placeDepth?_eq_some_iff]
  refine exists_congr fun i => exists_congr fun j => and_congr_right fun hi =>
    and_congr_right fun hj => ?_
  have hle := h a d (Cell.link i j) (Closure.placeDepth?_eq_some_iff.2 ⟨i, j, hi, hj, rfl⟩)
  rw [Cell.link_eq_of_le hle]

/-- The lists of a move hold no depth beyond those of the rows. -/
theorem Within.le_of_supDepth? {m : Nat} (h : t.Within m) (hi : t.supDepth? parent a = some i) :
    i ≤ m := by
  rw [supDepth?] at hi
  split at hi
  · exact Option.some.inj hi ▸ Nat.zero_le m
  · exact h a parent i hi

/-- Depths above a parent are depths of the table or 0, so a cell holds them too. -/
theorem Stored.holds_of_supDepth? (h : t.Stored) (hi : t.supDepth? parent a = some i) :
    Cell.Holds i := by
  rw [supDepth?] at hi
  split at hi
  · exact .inl (Option.some.inj hi ▸ Nat.zero_le _)
  · exact h a parent i hi

/-- A bound on the depths of the table bounds those in a subtree. -/
theorem Within.le_of_subDepth? {m : Nat} (h : t.Within m) (hj : t.subDepth? tenant d = some j) :
    j ≤ m := by
  rw [subDepth?] at hj
  split at hj
  · exact Option.some.inj hj ▸ Nat.zero_le m
  · exact h tenant d j hj

/-- Depths of which two and a level more fit a cell are not too deep to be put together. -/
theorem Within.placeFits {m : Nat} (h : t.Within m) (hm : m + m + 1 ≤ TenantId.maxCell) :
    t.PlaceFits tenant parent := by
  intro a d k hk
  obtain ⟨i, j, hi, hj, rfl⟩ := Closure.placeDepth?_eq_some_iff.1 hk
  have hi' := h.le_of_supDepth? hi
  have hj' := h.le_of_subDepth? hj
  exact Cell.link_le_maxCell_iff.2 (by omega)

/-- Nothing is placed at ids outside the subtree. -/
theorem placeDepth?_eq_none_of_outside (hd : ¬t.InSubtree tenant d) :
    t.placeDepth? tenant parent a d = none := by
  refine Option.eq_none_iff_forall_ne_some.2 fun k hk => hd ?_
  obtain ⟨-, j, -, hj, -⟩ := placeDepth?_eq_some_iff.1 hk
  exact inSubtree_iff_exists.2 ⟨j, hj⟩

/-- Nothing is placed below ids that are not above the parent. -/
theorem placeDepth?_eq_none_of_not_above (ha : ¬t.InSupertree parent a) :
    t.placeDepth? tenant parent a d = none := by
  refine Option.eq_none_iff_forall_ne_some.2 fun k hk => ha ?_
  obtain ⟨i, -, hi, -, -⟩ := placeDepth?_eq_some_iff.1 hk
  exact inSupertree_iff_exists.2 ⟨i, hi⟩

/-- An anchored list holds the anchor at depth 0, whatever depth its own row has. -/
private theorem isLeast_anchored_iff {o : Option Nat} :
    IsLeast {j | (⟨d, j⟩ : Kin) = ⟨n, 0⟩ ∨ o = some j} k ↔
      (if d = n then some 0 else o) = some k := by
  by_cases h : d = n
  · subst h
    rw [if_pos rfl, Option.some.injEq]
    constructor
    · intro hk
      have hzero : k ≤ 0 := hk.2 (.inl rfl)
      omega
    · rintro rfl
      exact ⟨.inl rfl, fun j _ => Nat.zero_le j⟩
  · have hne : ∀ j, (⟨d, j⟩ : Kin) ≠ ⟨n, 0⟩ := fun j he => h (Kin.mk.inj he).1
    rw [if_neg h, ← isLeast_some_iff]
    simp only [hne, false_or]

/-- The least depth with which an id is listed in a subtree is its depth there. -/
theorem isLeast_subtree_iff :
    IsLeast {j | (⟨d, j⟩ : Kin) ∈ t.subtree tenant} k ↔ t.subDepth? tenant d = some k := by
  simp only [mem_subtree]
  exact isLeast_anchored_iff

/-- The least depth with which an id is listed in a supertree is its depth there. -/
theorem isLeast_supertree_iff :
    IsLeast {i | (⟨a, i⟩ : Kin) ∈ t.supertree parent} k ↔ t.supDepth? parent a = some k := by
  simp only [mem_supertree]
  exact isLeast_anchored_iff

/-- The least depth of a link joins the least depths in the two lists. -/
theorem isLeast_links_iff :
    IsLeast {k | (⟨a, d, k⟩ : Row) ∈ links (t.supertree parent) (t.subtree tenant)} k ↔
      t.placeDepth? tenant parent a d = some k := by
  simp only [placeDepth?_eq_some_iff, ← isLeast_supertree_iff, ← isLeast_subtree_iff]
  constructor
  · rintro ⟨hk, hle⟩
    obtain ⟨i, j, hi, hj, rfl⟩ := mem_links.1 hk
    obtain ⟨i', hi', hleast⟩ := exists_isLeast (S := {i | (⟨a, i⟩ : Kin) ∈ t.supertree parent}) hi
    obtain ⟨j', hj', hleast'⟩ := exists_isLeast (S := {j | (⟨d, j⟩ : Kin) ∈ t.subtree tenant}) hj
    -- the link of the least depths is not shorter than the least link, and not longer either
    have hmin : Cell.link i j ≤ Cell.link i' j' :=
      hle (mem_links.2 ⟨i', j', hleast.1, hleast'.1, rfl⟩)
    exact ⟨i', j', hleast, hleast', Nat.le_antisymm hmin (Cell.link_mono hi' hj')⟩
  · rintro ⟨i, j, ⟨hi, hile⟩, ⟨hj, hjle⟩, rfl⟩
    refine ⟨mem_links.2 ⟨i, j, hi, hj, rfl⟩, fun l hl => ?_⟩
    obtain ⟨i', j', hi', hj', rfl⟩ := mem_links.1 hl
    exact Cell.link_mono (hile hi') (hjle hj')

/-- Of two optional depths, the least of all is the lesser one. -/
private theorem isLeast_merge_iff {o p : Option Nat} {S : Set Nat}
    (hS : ∀ k, IsLeast S k ↔ p = some k) :
    IsLeast {j | o = some j ∨ j ∈ S} k ↔ o.merge min p = some k := by
  cases p with
  | none =>
    -- a set of depths without a least one is empty
    have hno : ∀ j, j ∉ S := fun j hj => by
      obtain ⟨i, -, hi⟩ := exists_isLeast hj
      cases (hS i).1 hi
    simp only [hno, or_false, isLeast_some_iff]
    cases o <;> simp
  | some l =>
    have hl : IsLeast S l := (hS l).2 rfl
    cases o with
    | none =>
      rw [Option.merge_none_left, ← hS]
      simp
    | some i =>
      have hmin : IsLeast {j | some i = some j ∨ j ∈ S} (min i l) :=
        (isLeast_some_iff.2 rfl : IsLeast {j | some i = some j} i).union hl
      rw [show (some i).merge min (some l) = some (min i l) from rfl, Option.some.injEq]
      exact ⟨hmin.unique, fun he => he ▸ hmin⟩

/-- **Attaching** leaves the lesser of the depth that a pair has and the one that its place
    gives. -/
theorem depth?_attach : (t.attach tenant parent).closure.depth? a d
    = (t.depth? a d).merge min (t.placeDepth? tenant parent a d) :=
  Option.ext fun _ => depth?_attach_eq_some_iff.trans
    (isLeast_merge_iff fun _ => isLeast_links_iff)

/-- Attaching loses no pair. -/
theorem joins_attach (h : t.joins a d = true) :
    (t.attach tenant parent).closure.joins a d = true := by
  obtain ⟨k, hk⟩ := joins_iff.1 h
  rw [joins, depth?_attach, hk]
  cases t.placeDepth? tenant parent a d <;> rfl

/-! ### Moves of any table -/

/-- The cut leaves the rows from the tenant, but for its self row. -/
theorem subDepth?_cut : (t.cut tenant parent).subDepth? tenant d = t.subDepth? tenant d := by
  unfold subDepth?
  by_cases hd : d = tenant
  · rw [if_pos hd, if_pos hd]
  · rw [if_neg hd, if_neg hd, depth?_cut_of_not_cuts fun _ => not_cuts_of_tenant hd]

/-- The cut leaves the rows to the new parent, which lies outside the subtree. -/
theorem supDepth?_cut (hout : ¬t.InSubtree tenant parent) :
    (t.cut tenant parent).supDepth? parent a = t.supDepth? parent a := by
  unfold supDepth?
  rw [depth?_cut_of_not_cuts fun _ => not_cuts_of_outside hout]

/-- **A move under a parent**, on any table on which the parent does not lie in the subtree. -/
theorem depth?_moved (hz : parent ≠ 0) (hout : ¬t.InSubtree tenant parent) :
    (t.moved tenant parent).depth? a d
      = ((t.cut tenant parent).depth? a d).merge min (t.placeDepth? tenant parent a d) := by
  rw [moved_of_ne_zero hz, depth?_attach, placeDepth?, subDepth?_cut, supDepth?_cut hout]
  rfl

variable (hguard : parent = 0 ∨ ¬t.InSubtree tenant parent)

include hguard

/-- **Outside the subtree** a move changes nothing. -/
theorem depth?_moved_outside (hd : ¬t.InSubtree tenant d) :
    (t.moved tenant parent).depth? a d = t.depth? a d := by
  have hcut : (t.cut tenant parent).depth? a d = t.depth? a d :=
    depth?_cut_of_not_cuts fun _ => not_cuts_of_outside hd
  rcases hguard with rfl | hout
  · rw [moved_zero, hcut]
  · by_cases hz : parent = 0
    · subst hz
      rw [moved_zero, hcut]
    · rw [depth?_moved hz hout, hcut, placeDepth?_eq_none_of_outside hd, Option.merge_none_right]

/-- **Within the subtree** a move changes nothing where the row does not come from above the new
    parent, and is no parent edge into the tenant. -/
theorem depth?_moved_inside (ha : t.InSubtree tenant a)
    (hsup : parent ≠ 0 → ¬t.InSupertree parent a)
    (hedge : d = tenant → t.depth? a tenant ≠ some 1) :
    (t.moved tenant parent).depth? a d = t.depth? a d := by
  have hcut : (t.cut tenant parent).depth? a d = t.depth? a d := by
    refine Option.ext fun k => ⟨fun hk => (depth?_cut_eq_some_iff.1 hk).1, fun hk => ?_⟩
    refine depth?_cut_eq_some_iff.2 ⟨hk, not_cuts_of_inside ha ?_⟩
    rintro rfl rfl
    exact hedge rfl hk
  by_cases hz : parent = 0
  · subst hz
    rw [moved_zero, hcut]
  · rw [depth?_moved hz (hguard.resolve_left hz), hcut,
      placeDepth?_eq_none_of_not_above (hsup hz), Option.merge_none_right]

omit hguard

/-- **Into the subtree** lead only the rows over the new parent: one that the cut has left has the
    depth of a link, and no link is shorter than the place. -/
theorem depth?_moved_into (hz : parent ≠ 0) (hout : ¬t.InSubtree tenant parent)
    (hd : t.InSubtree tenant d) (ha : ¬t.InSubtree tenant a) :
    (t.moved tenant parent).depth? a d = t.placeDepth? tenant parent a d := by
  rw [depth?_moved hz hout]
  cases hk : (t.cut tenant parent).depth? a d with
  | none => exact Option.merge_none_left
  | some k =>
    have hlink : (⟨a, d, k⟩ : Row) ∈ links (t.supertree parent) (t.subtree tenant) := by
      have hkept := (depth?_cut_eq_some_iff.1 hk).2
      by_contra hno
      refine hkept (.inl ⟨hd, ha, ?_⟩)
      rwa [ancestry, if_neg hz]
    obtain ⟨l, hlk, hl⟩ := exists_isLeast
      (S := {k | (⟨a, d, k⟩ : Row) ∈ links (t.supertree parent) (t.subtree tenant)}) hlink
    rw [isLeast_links_iff.1 hl]
    exact congrArg some (Nat.min_eq_right hlk)

/-- A move under a parent leaves the parent edge at depth 1. -/
theorem depth?_moved_edge (hz : parent ≠ 0) (hout : ¬t.InSubtree tenant parent) :
    (t.moved tenant parent).depth? parent tenant = some 1 := by
  rw [depth?_moved_into hz hout (.inl rfl) hout]
  exact placeDepth?_eq_some_iff.2 ⟨0, 0, if_pos rfl, if_pos rfl, rfl⟩

/-- The lesser of two optional depths is one of them. -/
private theorem eq_or_eq_of_merge {o p : Option Nat} (h : o.merge min p = some k) :
    o = some k ∨ p = some k := by
  cases o with
  | none =>
    rw [Option.merge_none_left] at h
    exact .inr h
  | some i =>
    cases p with
    | none => exact .inl h
    | some j =>
      have hmin : min i j = k := Option.some.inj h
      rw [← hmin]
      exact (Nat.le_total i j).imp (fun hle => by rw [Nat.min_eq_left hle])
        fun hle => by rw [Nat.min_eq_right hle]

/-- **Parent edges after a move** come from the new parent, or from an id at no distance from it:
    the others were deleted, and the new place brings no more. -/
theorem eq_parent_or_of_edge (hguard : parent = 0 ∨ ¬t.InSubtree tenant parent)
    (hk : (t.moved tenant parent).depth? a tenant = some 1) :
    a = parent ∨ parent ≠ 0 ∧ t.depth? a parent = some 0 := by
  by_cases ha : a = parent
  · exact .inl ha
  · have hcut : (t.cut tenant parent).depth? a tenant ≠ some 1 := fun hone =>
      (depth?_cut_eq_some_iff.1 hone).2 (.inr ⟨rfl, rfl, ha⟩)
    by_cases hz : parent = 0
    · subst hz
      rw [moved_zero] at hk
      exact absurd hk hcut
    · rw [depth?_moved hz (hguard.resolve_left hz)] at hk
      -- the depth comes from the new place, and so from an id that is as near to it as the parent
      have hplace := (eq_or_eq_of_merge hk).resolve_left hcut
      obtain ⟨i, j, hi, -, hij⟩ := placeDepth?_eq_some_iff.1 hplace
      obtain rfl : i = 0 := (Cell.link_eq_one_iff.1 hij.symm).1
      rw [supDepth?, if_neg ha] at hi
      exact .inr ⟨hz, hi⟩

/-- Without a new parent, nothing leads into the subtree any more, if no row ends at 0. -/
theorem depth?_moved_into_zero (hroot : ∀ b, t.depth? b 0 = none) (hd : t.InSubtree tenant d)
    (ha : ¬t.InSubtree tenant a) : (t.moved tenant 0).depth? a d = none := by
  rw [moved_zero]
  refine Option.eq_none_iff_forall_ne_some.2 fun k hk => (depth?_cut_eq_some_iff.1 hk).2 ?_
  refine .inl ⟨hd, ha, fun hlink => ?_⟩
  obtain ⟨i, -, hi, -, -⟩ := mem_links.1 hlink
  rw [ancestry, if_pos rfl, mem_above, hroot] at hi
  cases hi

/-- A row that is not deleted stays. -/
theorem joins_moved_of_not_cuts (hk : t.depth? a d = some k)
    (hcut : ¬t.Cuts tenant parent ⟨a, d, k⟩) : (t.moved tenant parent).joins a d = true := by
  have hleft := joins_of_depth? (depth?_cut_eq_some_iff.2 ⟨hk, hcut⟩)
  by_cases hz : parent = 0
  · subst hz
    rwa [moved_zero]
  · rw [moved_of_ne_zero hz]
    exact joins_attach hleft

/-- A move under a parent leaves a row from the parent to the tenant, whether or not the parent lies
    in the subtree. -/
theorem joins_moved_edge (hz : parent ≠ 0) :
    (t.moved tenant parent).joins parent tenant = true := by
  have hplace : (t.cut tenant parent).placeDepth? tenant parent parent tenant = some 1 :=
    placeDepth?_eq_some_iff.2 ⟨0, 0, if_pos rfl, if_pos rfl, rfl⟩
  rw [joins, moved_of_ne_zero hz, depth?_attach, hplace]
  cases (t.cut tenant parent).depth? parent tenant <;> rfl

end Tenancy.Closure
