import Mathlib.Data.List.Sort
import Tenancy.Proofs.Effect

namespace Tenancy

/-!
# Reading lists

What callers get of a table are lists of ids, of ids with distances, and of edges.  Each entry has a
form that is kept in the table, and reading succeeds exactly if it gives back a list of which the
entries have the forms that were read.  So what holds of the cells, and of their order, holds of the
list that callers get.

* `mapM_eq_ok_iff` — reading a list gives the list whose forms were read.
* `Relative.kin`, `Edge.row` — the forms that are kept; `readKin_eq_ok_iff`, `readRows_eq_ok_iff`.
* `Closure.below_sorted`, `Closure.above_sorted`, `pairwise_byDistance` — the order of what is read.
* `Hierarchy.on_parentOf_of_read`, `Hierarchy.on_parentOf` — the parent of a tenant, and where there
  is one parent edge at most.
-/

/-! ### Lists of readings -/

section

variable {ε α β : Type} {g : α → Except ε β} {h : β → α} {P : β → Prop} {xs : List α} {ys : List β}

/-- Reading a list of things, each of which can only be read as something that it is the form of. -/
theorem mapM_eq_ok_iff (hg : ∀ x y, g x = .ok y ↔ P y ∧ h y = x) :
    xs.mapM g = .ok ys ↔ ys.map h = xs ∧ ∀ y ∈ ys, P y := by
  induction xs generalizing ys with
  | nil =>
    rw [List.mapM_nil]
    constructor
    · intro he
      cases he
      exact ⟨rfl, fun y hy => absurd hy List.not_mem_nil⟩
    · rintro ⟨he, -⟩
      rw [List.map_eq_nil_iff.1 he]
      rfl
  | cons x xs ih =>
    rw [List.mapM_cons]
    constructor
    · intro hread
      -- the first reading that fails makes the whole fail
      cases hx : g x with
      | error e =>
        rw [hx] at hread
        cases hread
      | ok y =>
        cases hxs : xs.mapM g with
        | error e =>
          rw [hx, hxs] at hread
          cases hread
        | ok zs =>
          rw [hx, hxs] at hread
          cases hread
          obtain ⟨hy, rfl⟩ := (hg x y).1 hx
          obtain ⟨rfl, hzs⟩ := ih.1 hxs
          exact ⟨rfl, List.forall_mem_cons.2 ⟨hy, hzs⟩⟩
    · rintro ⟨hmap, hall⟩
      cases ys with
      | nil => cases hmap
      | cons y ys =>
        obtain ⟨hy, hys⟩ := List.cons.inj hmap
        rw [(hg x y).2 ⟨hall y List.mem_cons_self, hy⟩,
          ih.2 ⟨hys, fun z hz => hall z (List.mem_cons_of_mem y hz)⟩]
        rfl

/-- A list can be read if all its entries can. -/
theorem exists_mapM_eq_ok (hread : ∀ x ∈ xs, ∃ y, g x = .ok y) : ∃ ys, xs.mapM g = .ok ys := by
  induction xs with
  | nil => exact ⟨[], rfl⟩
  | cons x xs ih =>
    obtain ⟨y, hy⟩ := hread x List.mem_cons_self
    obtain ⟨ys, hys⟩ := ih fun x' hx' => hread x' (List.mem_cons_of_mem x hx')
    exact ⟨y :: ys, by rw [List.mapM_cons, hy, hys]; rfl⟩

end

/-! ### Cells and rows -/

variable {c k : Nat} {found : List Kin} {rows : List Row} {cells : List Int}

/-- A cell is read as a depth exactly if it holds that number. -/
theorem Cell.depth_eq_ok_iff {d : Depth} : Cell.depth c k = .ok d ↔ d.toNat = k := by
  unfold Cell.depth
  split
  · rename_i hk
    rw [Except.ok.injEq]
    constructor
    · rintro rfl
      exact UInt32.toNat_ofNat_of_lt' hk
    · rintro rfl
      exact UInt32.ofNat_toNat
  · rename_i hk
    refine iff_of_false (fun he => nomatch he) ?_
    rintro rfl
    exact hk d.toNat_lt

/-- The ids that a list of cells holds. -/
theorem readIds_eq_ok_iff {ids : List TenantId} :
    cells.mapM (Cell.id c) = .ok ids ↔ ids.map TenantId.cell = cells ∧ ∀ id ∈ ids, id.Storable :=
  mapM_eq_ok_iff fun _ _ => Cell.id_eq_ok_iff

/-- The ids that a cell can hold are those from 0 up to the largest. -/
theorem TenantId.exists_cell {n : Int} (hn : 0 ≤ n ∧ n ≤ TenantId.maxCell) :
    ∃ id : TenantId, id.Storable ∧ id.cell = n := by
  have hcell : 0 ≤ n ∧ n.toNat ≤ TenantId.maxCell := ⟨hn.1, by omega⟩
  exact ⟨_, ofCell?_eq_some_iff.1 (if_pos hcell)⟩

/-- Cells that hold ids of tenants can be read. -/
theorem exists_readIds (h : ∀ n ∈ cells, ∃ id : TenantId, id.Storable ∧ id.cell = n) :
    ∃ ids, cells.mapM (Cell.id c) = .ok ids := by
  refine exists_mapM_eq_ok fun n hn => ?_
  obtain ⟨id, hid⟩ := h n hn
  exact ⟨id, Cell.id_eq_ok_iff.2 hid⟩

theorem TenantId.cell_injective : Function.Injective TenantId.cell := fun _ _ => cell_inj.1

/-- An id and its distance as the table keeps them. -/
def Relative.kin (r : Relative) : Kin := ⟨r.id.cell, r.depth.toNat⟩

/-- Different relatives have different rows. -/
theorem Relative.kin_injective : Function.Injective Relative.kin := by
  rintro ⟨a, i⟩ ⟨b, j⟩ h
  have hid : a.cell = b.cell := (Kin.mk.inj h).1
  have hdepth : i.toNat = j.toNat := (Kin.mk.inj h).2
  rw [TenantId.cell_inj.1 hid, UInt32.toNat_inj.1 hdepth]

/-- A list holds what its kept form holds. -/
theorem Relative.mem_iff_kin_mem {rs : List Relative} {r : Relative}
    (h : rs.map Relative.kin = found) : r ∈ rs ↔ r.kin ∈ found := by
  rw [← h, List.mem_map_of_injective Relative.kin_injective]

/-- The ids and distances that a list holds. -/
theorem Hierarchy.readKin_eq_ok_iff {rs : List Relative} :
    readKin found = .ok rs ↔ rs.map Relative.kin = found ∧ ∀ r ∈ rs, r.id.Storable := by
  refine mapM_eq_ok_iff fun k r => ?_
  constructor
  · intro h
    cases hid : Cell.id 0 k.id with
    | error e =>
      rw [hid] at h
      cases h
    | ok id =>
      cases hdepth : Cell.depth 1 k.depth with
      | error e =>
        rw [hid, hdepth] at h
        cases h
      | ok d =>
        rw [hid, hdepth] at h
        cases h
        obtain ⟨hs, hcell⟩ := Cell.id_eq_ok_iff.1 hid
        exact ⟨hs, congrArg₂ Kin.mk hcell (Cell.depth_eq_ok_iff.1 hdepth)⟩
  · rintro ⟨hs, rfl⟩
    unfold Relative.kin
    dsimp only
    rw [Cell.id_cell hs, Cell.depth_eq_ok_iff.2 rfl]
    rfl

/-- Ids and distances that callers can have are read without a failure. -/
theorem Hierarchy.exists_readKin
    (h : ∀ k ∈ found, (∃ id : TenantId, id.Storable ∧ id.cell = k.id) ∧ k.depth < UInt32.size) :
    ∃ rs, readKin found = .ok rs := by
  refine exists_mapM_eq_ok fun k hk => ?_
  obtain ⟨⟨id, hs, hid⟩, hd⟩ := h k hk
  have hcell : Cell.id 0 k.id = .ok id := Cell.id_eq_ok_iff.2 ⟨hs, hid⟩
  have hdepth : Cell.depth 1 k.depth = .ok (.ofNat k.depth) := Cell.depth_eq_ok hd
  exact ⟨⟨id, .ofNat k.depth⟩, by rw [hcell, hdepth]; rfl⟩

/-- What is found around an id is listed, if callers can have all of it. -/
theorem Hierarchy.exists_relatives {s : Scope} {t : Closure} {id : TenantId}
    (h : s.database.closure? = some t) (hid : id.Storable) (step : String)
    (select : Closure → Int → List Kin) (hread : ∀ k ∈ select t id.cell,
      (∃ id : TenantId, id.Storable ∧ id.cell = k.id) ∧ k.depth < UInt32.size) :
    ∃ rs, (relatives step id select).on s = (.ok rs, s) ∧
      rs.map Relative.kin = select t id.cell ∧ ∀ r ∈ rs, r.id.Storable := by
  obtain ⟨rs, hrs⟩ := exists_readKin hread
  refine ⟨rs, ?_, readKin_eq_ok_iff.1 hrs⟩
  rw [on_relatives h hid, readRelatives, hrs]
  rfl

/-- An edge as the table keeps it. -/
def Edge.row (e : Edge) : Row := ⟨e.ancestor.cell, e.descendant.cell, e.depth.toNat⟩

/-- Different edges have different rows. -/
theorem Edge.row_injective : Function.Injective Edge.row := by
  rintro ⟨a, d, i⟩ ⟨b, e, j⟩ h
  have ha : a.cell = b.cell := (Row.mk.inj h).1
  have hd : d.cell = e.cell := (Row.mk.inj h).2.1
  have hdepth : i.toNat = j.toNat := (Row.mk.inj h).2.2
  rw [TenantId.cell_inj.1 ha, TenantId.cell_inj.1 hd, UInt32.toNat_inj.1 hdepth]

/-- The edge that a row holds. -/
theorem Hierarchy.readRow_eq_ok_iff (r : Row) (e : Edge) :
    readRow r = .ok e ↔ (e.ancestor.Storable ∧ e.descendant.Storable) ∧ e.row = r := by
  unfold readRow
  constructor
  · intro h
    -- the cells are read from left to right, and a row is read if all three are
    cases ha : Cell.id 0 r.ancestor with
    | error f =>
      rw [ha] at h
      cases h
    | ok a =>
      cases hd : Cell.id 1 r.descendant with
      | error f =>
        rw [ha, hd] at h
        cases h
      | ok d =>
        cases hk : Cell.depth 2 r.depth with
        | error f =>
          rw [ha, hd, hk] at h
          cases h
        | ok k =>
          rw [ha, hd, hk] at h
          cases h
          obtain ⟨hsa, hca⟩ := Cell.id_eq_ok_iff.1 ha
          obtain ⟨hsd, hcd⟩ := Cell.id_eq_ok_iff.1 hd
          refine ⟨⟨hsa, hsd⟩, ?_⟩
          rw [Edge.row, hca, hcd, Cell.depth_eq_ok_iff.1 hk]
  · rintro ⟨⟨ha, hd⟩, rfl⟩
    unfold Edge.row
    dsimp only
    rw [Cell.id_cell ha, Cell.id_cell hd, Cell.depth_eq_ok_iff.2 rfl]
    rfl

/-- The edges that a list of rows holds. -/
theorem Hierarchy.readRows_eq_ok_iff {es : List Edge} : rows.mapM readRow = .ok es ↔
    es.map Edge.row = rows ∧ ∀ e ∈ es, e.ancestor.Storable ∧ e.descendant.Storable :=
  mapM_eq_ok_iff readRow_eq_ok_iff

/-! ### The order of what is read -/

/-- Pairs are ordered by their upper ends first, and then by their lower ends. -/
theorem Pair.compare_eq_lt_iff {p q : Pair} : compare p q = .lt ↔
    p.ancestor < q.ancestor ∨ p.ancestor = q.ancestor ∧ p.descendant < q.descendant := by
  show (compare p.ancestor q.ancestor).then (compare p.descendant q.descendant) = .lt ↔ _
  rw [Ordering.then_eq_lt, compare_lt_iff_lt, compare_lt_iff_lt, compare_eq_iff_eq]

namespace Closure

variable (t : Closure)

/-- The rows from an id lead to ids in ascending order. -/
theorem below_sorted (n : Int) : (t.below n).Pairwise fun k l => k.id < l.id := by
  unfold below
  rw [List.pairwise_map]
  refine (t.rows_ordered.filter _).imp_of_mem fun {r s} hr hs h => ?_
  have ha : r.ancestor = s.ancestor := by
    rw [eq_of_beq (List.mem_filter.1 hr).2, eq_of_beq (List.mem_filter.1 hs).2]
  exact ((Pair.compare_eq_lt_iff.1 h).resolve_left fun hlt => (Int.ne_of_lt hlt) ha).2

/-- The rows to an id come from ids in ascending order. -/
theorem above_sorted (n : Int) : (t.above n).Pairwise fun k l => k.id < l.id := by
  unfold above
  rw [List.pairwise_map]
  refine (t.rows_ordered.filter _).imp_of_mem fun {r s} hr hs h => ?_
  have hd : r.descendant = s.descendant := by
    rw [eq_of_beq (List.mem_filter.1 hr).2, eq_of_beq (List.mem_filter.1 hs).2]
  exact (Pair.compare_eq_lt_iff.1 h).resolve_right fun hlt => (Int.ne_of_lt hlt.2) hd

/-- The ids that parent edges come from, in ascending order. -/
theorem parents_eq {t : Closure} {n : Int} {l : List Int} (hl : l.Pairwise (· < ·))
    (h : ∀ a, t.depth? a n = some 1 ↔ a ∈ l) :
    ((t.above n).filter fun k => k.depth == 1).map Kin.id = l := by
  have hsorted : (((t.above n).filter fun k => k.depth == 1).map Kin.id).Pairwise (· < ·) :=
    List.pairwise_map.2 ((t.above_sorted n).filter _)
  refine hsorted.eq_of_mem_iff hl fun a => ?_
  rw [← h]
  simp only [List.mem_map, List.mem_filter, mem_above, beq_iff_eq]
  constructor
  · rintro ⟨k, ⟨hk, hone⟩, rfl⟩
    rw [hk, hone]
  · intro hone
    exact ⟨⟨a, 1⟩, ⟨hone, rfl⟩, rfl⟩

end Closure

/-- What is told of the parents of a tenant, if there are more than one. -/
def parentWarning (id : TenantId) (parents : List TenantId) : List Event :=
  if 1 < parents.length then
    [.logged ⟨.warn, .lookup, "Tenant has more than one direct parent",
      [("tenant_id", .ofId id), ("parents", .ofIds parents)]⟩]
  else []

/-- The parent of a tenant is the first of those that are read. -/
theorem Hierarchy.on_parentOf_of_read {s : Scope} {t : Closure} {id : TenantId}
    {parents : List TenantId} (h : s.database.closure? = some t) (hid : id.Storable)
    (hread : (((t.above id.cell).filter fun k => k.depth == 1).map Kin.id).mapM (Cell.id 0)
      = .ok parents) :
    (parentOf id).on s
      = (.ok parents.head?, { s with trail := s.trail ++ parentWarning id parents }) := by
  rw [parentOf, Work.on_bind_ok (Work.on_read_of_closure? h), Work.on_bind_ok (on_cellOf hid)]
  dsimp only
  rw [hread, Work.on_bind_ok Work.on_step_ok, parentWarning]
  by_cases hmany : 1 < parents.length
  · rw [if_pos hmany, if_pos hmany]
    rfl
  · rw [if_neg hmany, if_neg hmany, List.append_nil]
    rfl

/-- The parent of a tenant with one parent edge at most.  There is nothing to warn of. -/
theorem Hierarchy.on_parentOf {s : Scope} {t : Closure} {id : TenantId} {o : Option TenantId}
    (h : s.Holds t) (hid : id.Storable) (ho : ∀ p ∈ o, p.Storable)
    (hedge : ∀ a, t.depth? a id.cell = some 1 ↔ o.map TenantId.cell = some a) :
    (parentOf id).on s = (.ok o, s) := by
  have hcells : ((t.above id.cell).filter fun k => k.depth == 1).map Kin.id
      = o.toList.map TenantId.cell := by
    refine Closure.parents_eq ?_ fun a => ?_
    · cases o <;> simp
    · rw [hedge]
      cases o <;> simp [eq_comm]
  have hread : (o.toList.map TenantId.cell).mapM (Cell.id 0) = .ok o.toList :=
    readIds_eq_ok_iff.2 ⟨rfl, fun p hp => ho p (Option.mem_toList.1 hp)⟩
  have hquiet : parentWarning id o.toList = [] := by cases o <;> rfl
  rw [on_parentOf_of_read h.closure? hid (hcells ▸ hread), hquiet, List.append_nil]
  cases o <;> rfl

/-- Nearer, or as near and with a lower id. -/
def Kin.Before (k l : Kin) : Prop := k.depth < l.depth ∨ k.depth = l.depth ∧ k.id < l.id

/-- Different ids stay different when they are listed by distance. -/
theorem Hierarchy.nodup_byDistance (h : found.Pairwise fun k l => k.id < l.id) :
    ((byDistance found).map Kin.id).Nodup :=
  ((List.mergeSort_perm found _).map Kin.id).nodup_iff.2
    ((List.pairwise_map.2 h).imp fun hlt => Int.ne_of_lt hlt)

/-- Things that are listed once each are listed one before the other by distance. -/
theorem Hierarchy.pairwise_byDistance_of_nodup (h : found.Nodup) :
    (byDistance found).Pairwise Kin.Before := by
  have hle : ∀ k l : Kin, (decide (k.depth < l.depth) ||
      (k.depth == l.depth && decide (k.id ≤ l.id))) = true ↔
      k.depth < l.depth ∨ k.depth = l.depth ∧ k.id ≤ l.id := by
    intro k l
    simp
  have hsorted : (byDistance found).Pairwise fun k l =>
      k.depth < l.depth ∨ k.depth = l.depth ∧ k.id ≤ l.id := by
    refine (List.pairwise_mergeSort (fun a b c hab hbc => ?_) (fun a b => ?_) found).imp
      fun h => (hle _ _).1 h
    · rw [hle] at hab hbc ⊢
      omega
    · rw [Bool.or_eq_true, hle, hle]
      omega
  -- the sort promises no more than `≤`, and nothing is listed twice
  have hnodup : (byDistance found).Nodup := (List.mergeSort_perm found _).nodup_iff.2 h
  refine (hsorted.and hnodup).imp ?_
  rintro ⟨a, i⟩ ⟨b, j⟩ ⟨hlt | ⟨heq, hle⟩, hne⟩
  · exact .inl hlt
  · refine .inr ⟨heq, lt_of_le_of_ne hle fun hid => hne ?_⟩
    exact congrArg₂ Kin.mk hid heq

/-- Different ids are listed once each. -/
theorem Kin.nodup_of_sorted (h : found.Pairwise fun k l => k.id < l.id) : found.Nodup :=
  h.imp fun hlt he => Int.ne_of_lt hlt (congrArg Kin.id he)

/-- Different ids by distance are listed one before the other. -/
theorem Hierarchy.pairwise_byDistance (h : found.Pairwise fun k l => k.id < l.id) :
    (byDistance found).Pairwise Kin.Before :=
  pairwise_byDistance_of_nodup (Kin.nodup_of_sorted h)

theorem Hierarchy.mem_byDistance {k : Kin} : k ∈ byDistance found ↔ k ∈ found := List.mem_mergeSort

/-- Ascending numbers that leave none out are counted through. -/
theorem eq_range'_of_pairwise {l : List Nat} {m : Nat} (hlt : l.Pairwise (· < ·))
    (hge : ∀ i ∈ l, m ≤ i) (hall : ∀ i ∈ l, ∀ j, m ≤ j → j ≤ i → j ∈ l) :
    l = List.range' m l.length := by
  induction l generalizing m with
  | nil => rfl
  | cons i l ih =>
    obtain ⟨hhead, htail⟩ := List.pairwise_cons.1 hlt
    have hi : m = i := by
      rcases List.mem_cons.1 (hall i List.mem_cons_self m (Nat.le_refl m)
        (hge i List.mem_cons_self)) with he | hm
      · exact he
      · exact absurd (hhead m hm) (Nat.not_lt.2 (hge i List.mem_cons_self))
    subst hi
    rw [List.length_cons, List.range'_succ, ← ih htail hhead fun j hj k hk hkj => ?_]
    have hk' := hall j (List.mem_cons_of_mem m hj) k (Nat.le_of_succ_le hk) hkj
    exact (List.mem_cons.1 hk').resolve_left (Nat.ne_of_gt hk)

/-- What lies on the levels of a way up, one thing on each level as far as it leads, is listed level
    by level. -/
theorem Kin.getElem?_of_levels (up : Nat → Option Int) (hbefore : found.Pairwise Kin.Before)
    (hmem : ∀ k, k ∈ found ↔ 1 ≤ k.depth ∧ up k.depth = some k.id)
    (hway : ∀ i j a, up i = some a → j ≤ i → ∃ b, up j = some b) :
    found[k]? = (up (k + 1)).map fun a => ⟨a, k + 1⟩ := by
  -- two things on one level would be the same, and below a level there is no empty one
  have hdepths : found.map Kin.depth = List.range' 1 found.length := by
    rw [← List.length_map Kin.depth]
    refine eq_range'_of_pairwise (List.pairwise_map.2 ?_) ?_ ?_
    · refine hbefore.imp_of_mem fun {k l} hk hl hkl => hkl.resolve_right fun hsame => ?_
      have hup := ((hmem k).1 hk).2
      rw [hsame.1, ((hmem l).1 hl).2] at hup
      exact Int.ne_of_lt hsame.2 (Option.some.inj hup).symm
    · intro i hi
      obtain ⟨k, hk, rfl⟩ := List.mem_map.1 hi
      exact ((hmem k).1 hk).1
    · intro i hi j hj hji
      obtain ⟨k, hk, rfl⟩ := List.mem_map.1 hi
      obtain ⟨b, hb⟩ := hway _ j _ ((hmem k).1 hk).2 hji
      exact List.mem_map.2 ⟨⟨b, j⟩, (hmem ⟨b, j⟩).2 ⟨hj, hb⟩, rfl⟩
  cases hk : found[k]? with
  | some l =>
    have hlevel : some l.depth = (List.range' 1 found.length)[k]? := by
      rw [← hdepths, List.getElem?_map, hk, Option.map_some]
    obtain ⟨hlt, -⟩ := List.getElem?_eq_some_iff.1 hk
    rw [List.getElem?_range' hlt, Option.some.injEq] at hlevel
    have hdepth : l.depth = k + 1 := by omega
    rw [← hdepth, ((hmem l).1 (List.mem_of_getElem? hk)).2, Option.map_some]
  | none =>
    cases hup : up (k + 1) with
    | none => rfl
    | some a =>
      -- the level would be listed
      have hin : k + 1 ∈ found.map Kin.depth :=
        List.mem_map.2 ⟨⟨a, k + 1⟩, (hmem ⟨a, k + 1⟩).2 ⟨Nat.succ_pos k, hup⟩, rfl⟩
      rw [hdepths, List.mem_range'_1] at hin
      have hlength := List.getElem?_eq_none_iff.1 hk
      omega

end Tenancy
