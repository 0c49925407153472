import Tenancy.Proofs.Plans

namespace Tenancy

/-!
# Lookups that agree

Each lookup reads the table by a statement of its own, with its own condition, order and choice of
columns.  On a table of which all rows can be read they still tell the same, whatever else is wrong
with it: wrong or missing self rows, rows at depth 0 between different ids, several parents,
cycles.  What they agree on is the list of all rows.

* `Edge.Before`, `Relative.Before` — the orders of what is listed.
* `Closure.Legible.edges`, `Closure.Legible.ancestors`, `Closure.Legible.descendants` — rows that
  can be read are listed.
* `Hierarchy.nearest_eq` — those listed at depth 1 are in the order of their ids.
* `Hierarchy.lookups_agree` — every lookup says of the list of all rows what it stands for.
-/

variable {s : Scope} {t : Closure} {a d id : TenantId} {es : List Edge} {rs : List Relative}
  {found : List Kin}

/-- A lower ancestor, or the same one and a lower descendant: so a list in this order has no pair
    twice. -/
def Edge.Before (e f : Edge) : Prop :=
  e.ancestor.toNat < f.ancestor.toNat ∨
    e.ancestor = f.ancestor ∧ e.descendant.toNat < f.descendant.toNat

/-- The ids that are listed at depth 1. -/
def nearest (rs : List Relative) : List TenantId :=
  (rs.filter fun r => r.depth == 1).map Relative.id

namespace Closure.Legible

variable (ht : t.Legible)

include ht

/-! ### All rows -/

/-- A row of the table can be read. -/
theorem exists_readRow {r : Row} (hr : r ∈ t) : ∃ e, Hierarchy.readRow r = .ok e := by
  obtain ⟨hancestor, hdescendant⟩ := mem_ids_of_joins (joins_of_depth? hr)
  obtain ⟨a, ha, hca⟩ := TenantId.exists_cell (ht.ids _ hancestor)
  obtain ⟨d, hd, hcd⟩ := TenantId.exists_cell (ht.ids _ hdescendant)
  have hdepth : (UInt32.ofNat r.depth).toNat = r.depth := UInt32.toNat_ofNat_of_lt' (ht.depths r hr)
  refine ⟨⟨a, d, .ofNat r.depth⟩, (Hierarchy.readRow_eq_ok_iff _ _).2 ⟨⟨ha, hd⟩, ?_⟩⟩
  rw [Edge.row, hca, hcd, hdepth]

/-- All rows are listed, in their order. -/
theorem edges (h : s.database.closure? = some t) :
    ∃ es, Hierarchy.edges.on s = (.ok es, s) ∧ es.map Edge.row = t.rows := by
  obtain ⟨es, hes⟩ := exists_mapM_eq_ok fun r hr => ht.exists_readRow (mem_rows.1 hr)
  refine ⟨es, ?_, (Hierarchy.readRows_eq_ok_iff.1 hes).1⟩
  rw [Hierarchy.edges, Work.on_bind_ok (Work.on_read_of_closure? h), hes]
  rfl

/-! ### Rows around one id -/

/-- On a readable table everything listed below an id can be read. -/
theorem readable_below {n : Int} {m : Kin} (hm : m ∈ t.below n) : m.Readable := by
  have hrow : (⟨n, m.id, m.depth⟩ : Row) ∈ t := mem_below.1 hm
  exact ht.readable hrow (mem_ids_of_joins (joins_of_depth? hrow)).2 rfl

/-- On a readable table everything listed above an id can be read. -/
theorem readable_above {n : Int} {m : Kin} (hm : m ∈ t.above n) : m.Readable := by
  have hrow : (⟨m.id, n, m.depth⟩ : Row) ∈ t := mem_above.1 hm
  exact ht.readable hrow (mem_ids_of_joins (joins_of_depth? hrow)).1 rfl

/-- The ancestors of a tenant are listed. -/
theorem ancestors (h : s.database.closure? = some t) (hd : d.Storable) :
    ∃ up, (Hierarchy.ancestors d).on s = (.ok up, s) ∧
      up.map Relative.kin = Hierarchy.byDistance ((t.above d.cell).filter fun k => 0 < k.depth) ∧
      ∀ r ∈ up, r.id.Storable :=
  Hierarchy.exists_relatives h hd "list ancestors"
    (fun t n => Hierarchy.byDistance ((t.above n).filter fun k => 0 < k.depth)) fun _ hm =>
      ht.readable_above (List.mem_of_mem_filter (Hierarchy.mem_byDistance.1 hm))

/-- The descendants of a tenant are listed. -/
theorem descendants (h : s.database.closure? = some t) (ha : a.Storable) :
    ∃ down, (Hierarchy.descendants a).on s = (.ok down, s) ∧
      down.map Relative.kin = Hierarchy.byDistance ((t.below a.cell).filter fun k => 0 < k.depth) ∧
      ∀ r ∈ down, r.id.Storable :=
  Hierarchy.exists_relatives h ha "list descendants"
    (fun t n => Hierarchy.byDistance ((t.below n).filter fun k => 0 < k.depth)) fun _ hm =>
      ht.readable_below (List.mem_of_mem_filter (Hierarchy.mem_byDistance.1 hm))

/-- The depth of a row can be read. -/
theorem exists_readDepth : ∃ o, Hierarchy.readDepth t a d = .ok o ∧
    o.map UInt32.toNat = t.depth? a.cell d.cell := by
  cases hk : t.depth? a.cell d.cell with
  | none => exact ⟨none, Hierarchy.readDepth_of_none hk, rfl⟩
  | some k =>
    have hlt : k < UInt32.size := ht.depths ⟨a.cell, d.cell, k⟩ hk
    refine ⟨some (.ofNat k), Hierarchy.readDepth_of_lt hk hlt, ?_⟩
    rw [Option.map_some, UInt32.toNat_ofNat_of_lt' hlt]

end Closure.Legible

namespace Hierarchy

/-! ### What is in the lists -/

/-- An edge is listed just if its row is in the table. -/
theorem mem_edges_iff (h : es.map Edge.row = t.rows) {k : Depth} :
    ⟨a, d, k⟩ ∈ es ↔ t.depth? a.cell d.cell = some k.toNat := by
  rw [← List.mem_map_of_injective Edge.row_injective, h, Closure.mem_rows]
  rfl

/-- An id is mentioned just if an edge that is listed has it on either side. -/
theorem mentions_iff_edges (h : es.map Edge.row = t.rows) :
    t.mentions a.cell = true ↔ ∃ e ∈ es, e.ancestor = a ∨ e.descendant = a := by
  -- cells are compared, and different ids have different cells
  have hends : ∀ e : Edge, (e.row.ancestor = a.cell ∨ e.row.descendant = a.cell) ↔
      (e.ancestor = a ∨ e.descendant = a) := fun e => or_congr TenantId.cell_inj TenantId.cell_inj
  rw [Closure.mentions_iff, Closure.mem_ids]
  constructor
  · rintro ⟨r, hr, hend⟩
    rw [← Closure.mem_rows, ← h] at hr
    obtain ⟨e, he, rfl⟩ := List.mem_map.1 hr
    exact ⟨e, he, (hends e).1 hend⟩
  · rintro ⟨e, he, hend⟩
    refine ⟨e.row, ?_, (hends e).2 hend⟩
    rw [← Closure.mem_rows, ← h]
    exact List.mem_map_of_mem he

/-- Edges are listed as their rows are. -/
theorem pairwise_edges (h : es.map Edge.row = t.rows) : es.Pairwise Edge.Before := by
  have hrows := t.rows_ordered
  rw [← h] at hrows
  refine (List.pairwise_map.1 hrows).imp fun hlt => ?_
  exact (Pair.compare_eq_lt_iff.1 hlt).imp Int.ofNat_lt.1
    (And.imp TenantId.cell_inj.1 Int.ofNat_lt.1)

/-- What is listed by distance comes from a row, and not from one at depth 0. -/
theorem mem_distant_iff {r : Relative}
    (h : rs.map Relative.kin = byDistance (found.filter fun k => 0 < k.depth)) :
    r ∈ rs ↔ 0 < r.depth ∧ r.kin ∈ found := by
  rw [Relative.mem_iff_kin_mem h, mem_byDistance, List.mem_filter, and_comm, decide_eq_true_iff]
  exact Iff.rfl

/-- Those at depth 1 stand together in the list by distance, and there in the order of their ids: so
    they are the ids that a statement with that condition finds. -/
theorem nearest_eq (hsorted : found.Pairwise fun k l => k.id < l.id)
    (h : rs.map Relative.kin = byDistance (found.filter fun k => 0 < k.depth)) :
    (nearest rs).map TenantId.cell = (found.filter fun k => k.depth == 1).map Kin.id := by
  have hpositive := hsorted.filter fun k => decide (0 < k.depth)
  have hbefore : rs.Pairwise fun r r' => Kin.Before r.kin r'.kin :=
    List.pairwise_map.1 (h ▸ pairwise_byDistance hpositive)
  -- between two at the same depth only the ids decide
  have hleft : ((nearest rs).map TenantId.cell).Pairwise (· < ·) := by
    rw [nearest, List.map_map, List.pairwise_map]
    refine (hbefore.filter _).imp_of_mem fun {r r'} hr hr' hlt => ?_
    have hsame : r.depth = r'.depth := by
      rw [eq_of_beq (List.mem_filter.1 hr).2, eq_of_beq (List.mem_filter.1 hr').2]
    rcases hlt with hlt | hlt
    · exact absurd hlt (by rw [Relative.kin, Relative.kin, hsame]; exact Nat.lt_irrefl _)
    · exact hlt.2
  have hright : ((found.filter fun k => k.depth == 1).map Kin.id).Pairwise (· < ·) :=
    List.pairwise_map.2 (hsorted.filter _)
  refine hleft.eq_of_mem_iff hright fun n => ?_
  simp only [nearest, List.map_map, List.mem_map, List.mem_filter, beq_iff_eq, Function.comp_apply]
  constructor
  · rintro ⟨r, ⟨hr, hone⟩, rfl⟩
    exact ⟨r.kin, ⟨((mem_distant_iff h).1 hr).2, congrArg UInt32.toNat hone⟩, rfl⟩
  · rintro ⟨m, ⟨hm, hone⟩, rfl⟩
    have hlisted : m ∈ rs.map Relative.kin := by
      rw [h, mem_byDistance, List.mem_filter, hone]
      exact ⟨hm, rfl⟩
    obtain ⟨r, hr, rfl⟩ := List.mem_map.1 hlisted
    exact ⟨r, ⟨hr, UInt32.toNat_inj.1 hone⟩, rfl⟩

/-! ### The lookups -/

/-- The children of a tenant are those of its descendants that are listed at depth 1. -/
theorem on_children_of_descendants (h : s.database.closure? = some t) (ht : t.Legible)
    (ha : a.Storable)
    (hrs : rs.map Relative.kin = byDistance ((t.below a.cell).filter fun k => 0 < k.depth)) :
    (children a).on s = (.ok (nearest rs), s) := by
  obtain ⟨kin, hkin, hcells, -⟩ := exists_relatives h ha "list children"
    (fun t n => (t.below n).filter fun k => k.depth == 1) fun m hm =>
      ht.readable_below (List.mem_of_mem_filter hm)
  have hids : (kin.map Relative.id).map TenantId.cell = (nearest rs).map TenantId.cell := by
    rw [nearest_eq (t.below_sorted a.cell) hrs, ← hcells, List.map_map, List.map_map]
    rfl
  rw [children, Work.on_bind_ok hkin]
  show (Except.ok (kin.map Relative.id), s) = _
  rw [List.map_injective_iff.2 TenantId.cell_injective hids]

/-- The parent of a tenant is the first of its ancestors that are listed at depth 1; several are
    told of. -/
theorem on_parentOf_of_ancestors (h : s.database.closure? = some t) (hd : d.Storable)
    (hstored : ∀ r ∈ rs, r.id.Storable)
    (hrs : rs.map Relative.kin = byDistance ((t.above d.cell).filter fun k => 0 < k.depth)) :
    (parentOf d).on s = (.ok (nearest rs).head?,
      { s with trail := s.trail ++ parentWarning d (nearest rs) }) := by
  refine on_parentOf_of_read h hd (readIds_eq_ok_iff.2 ⟨nearest_eq (t.above_sorted d.cell) hrs, ?_⟩)
  intro p hp
  obtain ⟨r, hr, rfl⟩ := List.mem_map.1 hp
  exact hstored r (List.mem_of_mem_filter hr)

/-- **The lookups agree.**  On a table of which all rows can be read, the list of all rows is the
    table, in strict order.  Whether there is a path, and how long it is, is what this list says;
    the ancestors and the descendants of a tenant are its rows at a positive depth, seen from either
    end and strictly by distance; the children and the parent are the nearest of these; and a tenant
    is there if an edge in the list has it on either side.  Nothing is changed, but several parents
    are told of. -/
theorem lookups_agree (h : s.database.closure? = some t) (ht : t.Legible) :
    ∃ es, edges.on s = (.ok es, s) ∧ es.map Edge.row = t.rows ∧ es.Pairwise Edge.Before ∧
      (∀ a d : TenantId, a.Storable → d.Storable →
        ∃ reach, (depthBetween a d).on s = (.ok reach, s) ∧
        ∀ k, reach = some k ↔ ⟨a, d, k⟩ ∈ es) ∧
      (∀ d : TenantId, d.Storable → ∃ up, (ancestors d).on s = (.ok up, s) ∧
        up.Pairwise Relative.Before ∧ (∀ r, r ∈ up ↔ 0 < r.depth ∧ ⟨r.id, d, r.depth⟩ ∈ es) ∧
        (parentOf d).on s = (.ok (nearest up).head?,
          { s with trail := s.trail ++ parentWarning d (nearest up) })) ∧
      (∀ a : TenantId, a.Storable → ∃ down, (descendants a).on s = (.ok down, s) ∧
        down.Pairwise Relative.Before ∧ (∀ r, r ∈ down ↔ 0 < r.depth ∧ ⟨a, r.id, r.depth⟩ ∈ es) ∧
        (children a).on s = (.ok (nearest down), s)) ∧
      ∀ a : TenantId, a.Storable → ∃ present, (isPresent a).on s = (.ok present, s) ∧
        (present = true ↔ ∃ e ∈ es, e.ancestor = a ∨ e.descendant = a) := by
  -- every other lookup is compared with the list of all edges, which is the table itself
  obtain ⟨es, hes, hrows⟩ := ht.edges h
  refine ⟨es, hes, hrows, pairwise_edges hrows, fun a d ha hd => ?_, fun d hd => ?_, fun a ha => ?_,
    fun a ha => ?_⟩
  · obtain ⟨reach, hreach, hdepth⟩ := ht.exists_readDepth (a := a) (d := d)
    refine ⟨reach, by rw [on_depthBetween h ha hd, hreach], fun k => ?_⟩
    rw [mem_edges_iff hrows, ← hdepth, ← Option.map_some,
      (Option.map_injective fun _ _ => UInt32.toNat_inj.1).eq_iff]
  · obtain ⟨up, hup, hkin, hstored⟩ := ht.ancestors h hd
    refine ⟨up, hup, Relative.pairwise_before ?_ hkin, fun r => ?_,
      on_parentOf_of_ancestors h hd hstored hkin⟩
    · exact Kin.nodup_of_sorted ((t.above_sorted d.cell).filter _)
    · rw [mem_distant_iff hkin, Closure.mem_above, mem_edges_iff hrows]
      rfl
  · obtain ⟨down, hdown, hkin, -⟩ := ht.descendants h ha
    refine ⟨down, hdown, Relative.pairwise_before ?_ hkin, fun r => ?_,
      on_children_of_descendants h ht ha hkin⟩
    · exact Kin.nodup_of_sorted ((t.below_sorted a.cell).filter _)
    · rw [mem_distant_iff hkin, Closure.mem_below, mem_edges_iff hrows]
      rfl
  · exact ⟨t.mentions a.cell, on_isPresent h ha, mentions_iff_edges hrows⟩

/-- A table with all that can be wrong: 3 has the parents 0 and 1 and a row to itself at depth 5, 1
    has one at depth 1, 1 and 2 reach each other, 1 reaches 2 at depth 0, and 2 has no row of its
    own. -/
def crooked : Closure := (Closure.empty.fill
  [⟨1, 3, 1⟩, ⟨0, 3, 1⟩, ⟨3, 3, 5⟩, ⟨1, 1, 1⟩, ⟨1, 2, 0⟩, ⟨2, 1, 4⟩]).closure

/-- The edge from 1 to 2 is listed, but at depth 0, so that 2 is no descendant of 1; 1 is a child of
    its own, and 3 an ancestor of its own. -/
theorem lookups_agree_crooked :
    let s : Scope := { database := { table := some { closure := crooked } } }
    ∃ es down up, edges.on s = (.ok es, s) ∧ (descendants (.ofNat 1)).on s = (.ok down, s) ∧
      (ancestors (.ofNat 3)).on s = (.ok up, s) ∧ ⟨.ofNat 1, .ofNat 2, 0⟩ ∈ es ∧
      ⟨.ofNat 2, 0⟩ ∉ down ∧ ⟨.ofNat 1, 1⟩ ∈ down ∧ ⟨.ofNat 3, 5⟩ ∈ up ∧
      (children (.ofNat 1)).on s = (.ok (nearest down), s) := by
  intro s
  have ht : crooked.Legible := by decide +kernel
  obtain ⟨es, hes, hrows, -, -, hups, hdowns, -⟩ := lookups_agree (s := s) rfl ht
  obtain ⟨down, hdown, -, hdownmem, hchildren⟩ := hdowns (.ofNat 1) (by decide)
  obtain ⟨up, hup, -, hupmem, -⟩ := hups (.ofNat 3) (by decide)
  refine ⟨es, down, up, hes, hdown, hup, ?_, fun hmem => ?_, ?_, ?_, hchildren⟩
  · exact (mem_edges_iff hrows).2 (by decide +kernel)
  · exact absurd ((hdownmem _).1 hmem).1 (by decide)
  · exact (hdownmem _).2 ⟨by decide, (mem_edges_iff hrows).2 (by decide +kernel)⟩
  · exact (hupmem _).2 ⟨by decide, (mem_edges_iff hrows).2 (by decide +kernel)⟩

end Hierarchy

end Tenancy
