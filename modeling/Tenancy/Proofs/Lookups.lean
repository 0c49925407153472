import Tenancy.Proofs.History

namespace Tenancy

/-!
# Looking up the forest

A store that keeps a forest answers every lookup as the forest says.  The forest does not show in
the final statement: what it says of ancestors at any distance can be asked of the store itself, by
asking for the parent, and for the parent of that one, and so on.

* `Store.ask` — the answer to a lookup.
* `Store.climb` — asking for the parent a number of times; `Keeps.climb_eq_ok_iff`.
* `Keeps.parentOf`, `Keeps.ancestors`, `Keeps.descendants`, `Keeps.children`, `Keeps.depthBetween`,
  `Keeps.edges` — the lookups on a forest.
* `Store.History.lookups` — the lookups in a store with a history.
-/

open Hierarchy

variable {α : Type} {u : Store} {f : Forest} {id a d : TenantId} {n : Int} {k : Nat} {step : String}

/-! ### Forests of tenants -/

namespace Forest

/-- Nodes of a forest with names are cells of ids that can be stored. -/
theorem Named.storable (h : f.Named) (hid : id.cell ∈ f.nodes) : id.Storable := by
  obtain ⟨a, ha, hcell⟩ := h id.cell hid
  rwa [← TenantId.cell_inj.1 hcell]

/-- An id and a distance such as the table of a forest holds. -/
def Holds (f : Forest) (k : Kin) : Prop := k.id ∈ f.nodes ∧ k.depth < f.nodes.card

/-- In the table of a forest, the rows down from an id lead to what has it above. -/
theorem mem_below_closure {k : Kin} :
    k ∈ f.closure.below n ↔ k.id ∈ f.nodes ∧ f.up k.depth k.id = some n := by
  rw [Closure.mem_below, depth?_closure_eq_some_iff]

/-- In the table of a forest, the rows up from an id lead to what lies above it. -/
theorem mem_above_closure {k : Kin} :
    k ∈ f.closure.above n ↔ n ∈ f.nodes ∧ f.up k.depth n = some k.id := by
  rw [Closure.mem_above, depth?_closure_eq_some_iff]

/-- What is listed below an id is a node with a depth that can be read. -/
theorem holds_of_mem_below {k : Kin} (h : k ∈ f.closure.below n) : f.Holds k := by
  obtain ⟨hk, hup⟩ := mem_below_closure.1 h
  exact ⟨hk, lt_card_of_up hk hup⟩

/-- What is listed above an id is a node with a depth that can be read. -/
theorem holds_of_mem_above {k : Kin} (h : k ∈ f.closure.above n) : f.Holds k := by
  obtain ⟨hn, hup⟩ := mem_above_closure.1 h
  exact ⟨mem_of_up hn hup, lt_card_of_up hn hup⟩

end Forest

namespace Store

/-! ### Asking -/

/-- The answer to a lookup. -/
def ask (s : Store) (w : Work α) : Except Failure α := ((look w).on s).1

/-- The id that is found by asking for the parent `k` times, beginning with `id`. -/
def climb (s : Store) : Nat → TenantId → Except Failure (Option TenantId)
  | 0, id => .ok (some id)
  | k + 1, id => do
    match ← s.ask (parentOf id) with
    | none => .ok none
    | some p => s.climb k p

/-- A lookup sees the database as it is. -/
theorem Ready.ask (h : u.Ready) (w : Work α) : u.ask w = (w.on { database := u.database }).1 := by
  rw [Store.ask, look_on h.connectFault?, h.free]

namespace Keeps

theorem holds (h : u.Keeps f) : Scope.Holds { database := u.database } f.closure :=
  ⟨h.closure?, rfl⟩

theorem isPresent_iff (h : u.Keeps f) : u.ask (isPresent id) = .ok true ↔ id.cell ∈ f.nodes := by
  rw [h.ready.ask, isPresent_eq_ok_true_iff h.holds, Forest.mem_ids_closure]
  exact and_iff_right_of_imp h.named.storable

/-- The parent of a tenant can always be told. -/
theorem parentOf (h : u.Keeps f) (hid : id.Storable) :
    ∃ o : Option TenantId, u.ask (parentOf id) = .ok o ∧
      o.map TenantId.cell = f.parent id.cell := by
  obtain ⟨o, ho, hparent⟩ : ∃ o : Option TenantId, (∀ p ∈ o, p.Storable) ∧
      o.map TenantId.cell = f.parent id.cell := by
    cases hp : f.parent id.cell with
    | none => exact ⟨none, fun p hp => (Option.not_mem_none p hp).elim, rfl⟩
    | some p =>
      obtain ⟨a, ha, hcell⟩ := h.named p (f.mem_of_parent id.cell p hp).2
      exact ⟨some a, fun q hq => Option.mem_some.1 hq ▸ ha, congrArg some hcell⟩
  refine ⟨o, ?_, hparent⟩
  rw [h.ready.ask, on_parentOf h.holds hid ho fun a => ?_]
  rw [hparent, Forest.parent_eq_some_iff, Forest.depth?_closure_eq_some_iff]

/-- The parent that is told is that of the forest. -/
theorem parentOf_eq_ok_iff (h : u.Keeps f) (hid : id.Storable) {o : Option TenantId} :
    u.ask (Hierarchy.parentOf id) = .ok o ↔ f.parent id.cell = o.map TenantId.cell := by
  obtain ⟨o', ho', hparent⟩ := h.parentOf hid
  rw [ho', ← hparent, Except.ok.injEq,
    (Option.map_injective TenantId.cell_injective).eq_iff]

/-- Only an id that can be stored has a parent. -/
theorem parentOf_eq_some_iff (h : u.Keeps f) :
    u.ask (Hierarchy.parentOf id) = .ok (some a) ↔ f.parent id.cell = some a.cell := by
  by_cases hid : id.Storable
  · exact h.parentOf_eq_ok_iff hid
  · refine iff_of_false ?_ fun hp => hid (h.named.storable (f.mem_of_parent _ _ hp).1)
    rw [h.ready.ask, Hierarchy.parentOf, Work.on_bind_ok (Work.on_read h.holds), cellOf, Cell.bind,
      if_neg hid]
    intro he
    cases he

/-- **Climbing** in the store is climbing in the forest. -/
theorem climb_eq_ok_iff (h : u.Keeps f) (hid : id.Storable) {o : Option TenantId} :
    u.climb k id = .ok o ↔ f.up k id.cell = o.map TenantId.cell := by
  -- the store always answers, and answers what the forest says
  suffices hclimb : ∃ o : Option TenantId, u.climb k id = .ok o ∧
      f.up k id.cell = o.map TenantId.cell by
    obtain ⟨o', ho', hup⟩ := hclimb
    rw [ho', hup, Except.ok.injEq, (Option.map_injective TenantId.cell_injective).eq_iff]
  induction k generalizing id with
  | zero => exact ⟨some id, rfl, rfl⟩
  | succ k ih =>
    obtain ⟨o, ho, hparent⟩ := h.parentOf hid
    rw [Store.climb, ho, Forest.up_succ, ← hparent]
    cases o with
    | none => exact ⟨none, rfl, rfl⟩
    | some p =>
      have hp : p.Storable := h.named.storable (f.mem_of_parent id.cell p.cell hparent.symm).2
      exact ih hp

/-! ### Lists of relatives -/

/-- What is found around an id can be read, if the table holds such ids and distances. -/
theorem relatives (h : u.Keeps f) (hcard : f.nodes.card < 2 ^ 32) (hid : id.Storable)
    (step : String)
    (select : Closure → Int → List Kin) (hfound : ∀ k ∈ select f.closure id.cell, f.Holds k) :
    ∃ rs, u.ask (relatives step id select) = .ok rs ∧
      rs.map Relative.kin = select f.closure id.cell := by
  obtain ⟨rs, hrs, hkin, -⟩ := exists_relatives h.holds.closure? hid step _ fun k hk =>
    ⟨h.named k.id (hfound k hk).1, Nat.lt_trans (hfound k hk).2 hcard⟩
  exact ⟨rs, by rw [h.ready.ask, hrs], hkin⟩

/-- **Descendants.** The list holds exactly what has the id above it, nearest first and each
    once. -/
theorem descendants (h : u.Keeps f) (hcard : f.nodes.card < 2 ^ 32) (hid : id.Storable) :
    ∃ rs, u.ask (descendants id) = .ok rs ∧
      (∀ r, r ∈ rs ↔ r.id.cell ∈ f.nodes ∧ 1 ≤ r.depth.toNat ∧
        f.up r.depth.toNat r.id.cell = some id.cell) ∧
      (rs.map Relative.kin).Pairwise Kin.Before ∧ (rs.map Relative.id).Nodup := by
  have hsorted : ((f.closure.below id.cell).filter fun k => 0 < k.depth).Pairwise
      fun k l => k.id < l.id := (f.closure.below_sorted id.cell).filter _
  obtain ⟨rs, hrs, hkin⟩ := h.relatives hcard hid "list descendants"
    (fun t n => byDistance ((t.below n).filter fun k => 0 < k.depth)) fun k hk =>
      Forest.holds_of_mem_below (List.mem_of_mem_filter (mem_byDistance.1 hk))
  refine ⟨rs, hrs, fun r => ?_, ?_, ?_⟩
  · rw [Relative.mem_iff_kin_mem hkin, mem_byDistance, List.mem_filter, Forest.mem_below_closure,
      decide_eq_true_iff]
    exact ⟨fun hr => ⟨hr.1.1, hr.2, hr.1.2⟩, fun hr => ⟨⟨hr.1, hr.2.2⟩, hr.2.1⟩⟩
  · rw [hkin]
    exact pairwise_byDistance hsorted
  · have hids : ((rs.map Relative.kin).map Kin.id).Nodup := hkin ▸ nodup_byDistance hsorted
    rw [List.map_map] at hids
    have hne : rs.Pairwise fun r r' => r.id ≠ r'.id :=
      (List.pairwise_map.1 hids).imp fun hne he => hne (congrArg TenantId.cell he)
    exact List.pairwise_map.2 hne

/-- The ancestors are listed level by level. -/
theorem ancestors (h : u.Keeps f) (hcard : f.nodes.card < 2 ^ 32) (hid : id.Storable) :
    ∃ rs, u.ask (ancestors id) = .ok rs ∧ ∀ k : Nat,
      f.up (k + 1) id.cell = rs[k]?.map (·.id.cell) ∧ ∀ r ∈ rs[k]?, r.depth.toNat = k + 1 := by
  have hsorted : ((f.closure.above id.cell).filter fun k => 0 < k.depth).Pairwise
      fun k l => k.id < l.id := (f.closure.above_sorted id.cell).filter _
  obtain ⟨rs, hrs, hkin⟩ := h.relatives hcard hid "list ancestors"
    (fun t n => byDistance ((t.above n).filter fun k => 0 < k.depth)) fun k hk =>
      Forest.holds_of_mem_above (List.mem_of_mem_filter (mem_byDistance.1 hk))
  -- the ids above `id` at a distance, each distance once, are the way up
  have hlevels : ∀ k : Nat,
      rs[k]?.map Relative.kin = (f.up (k + 1) id.cell).map fun a => ⟨a, k + 1⟩ := by
    intro k
    rw [← List.getElem?_map, hkin]
    refine Kin.getElem?_of_levels (f.up · id.cell) (pairwise_byDistance hsorted) (fun l => ?_)
      fun i j a hi hji => ?_
    · rw [mem_byDistance, List.mem_filter, Forest.mem_above_closure, decide_eq_true_iff]
      constructor
      · exact fun hl => ⟨hl.2, hl.1.2⟩
      · rintro ⟨hpos, hup⟩
        obtain ⟨j, hj⟩ : ∃ j, l.depth = j + 1 := ⟨l.depth - 1, by omega⟩
        exact ⟨⟨Forest.mem_of_up_succ (hj ▸ hup), hup⟩, hpos⟩
    · obtain ⟨b, hb, -⟩ := Forest.exists_up_of_le hi hji
      exact ⟨b, hb⟩
  refine ⟨rs, hrs, fun k => ?_⟩
  have hlevel := hlevels k
  cases hr : rs[k]? with
  | none =>
    rw [hr] at hlevel
    exact ⟨Option.map_eq_none_iff.1 hlevel.symm, fun r hr => nomatch hr⟩
  | some r =>
    rw [hr] at hlevel
    obtain ⟨a, ha, hkin⟩ := Option.map_eq_some_iff.1 hlevel.symm
    refine ⟨ha.trans (congrArg some (Kin.mk.inj hkin).1), fun r' hr' => ?_⟩
    cases hr'
    exact (Kin.mk.inj hkin).2.symm

/-- **Children.** The list holds exactly the ids with this parent, in ascending order. -/
theorem children (h : u.Keeps f) (hcard : f.nodes.card < 2 ^ 32) (hid : id.Storable) :
    ∃ ids, u.ask (children id) = .ok ids ∧
      (∀ c, c ∈ ids ↔ f.parent c.cell = some id.cell) ∧
        ids.Pairwise fun c c' => c.cell < c'.cell := by
  obtain ⟨rs, hrs, hkin⟩ := h.relatives hcard hid "list children"
    (fun t n => (t.below n).filter fun k => k.depth == 1) fun k hk =>
      Forest.holds_of_mem_below (List.mem_of_mem_filter hk)
  have hids : (rs.map Relative.id).map TenantId.cell
      = ((f.closure.below id.cell).filter fun k => k.depth == 1).map Kin.id := by
    rw [← hkin, List.map_map, List.map_map]
    rfl
  refine ⟨rs.map Relative.id, ?_, fun c => ?_, ?_⟩
  · -- the ids are taken out of the list within the lookup
    rw [h.ready.ask] at hrs ⊢
    unfold Hierarchy.children
    rw [Work.on_bind]
    generalize (Hierarchy.relatives _ _ _).on _ = o at hrs ⊢
    obtain ⟨x, scope⟩ := o
    cases hrs
    rfl
  · rw [← List.mem_map_of_injective TenantId.cell_injective, hids, Forest.parent_eq_some_iff]
    simp only [List.mem_map, List.mem_filter, Forest.mem_below_closure, beq_iff_eq]
    constructor
    · rintro ⟨k, ⟨⟨hk, hup⟩, hone⟩, hc⟩
      rw [← hc, ← hone]
      exact ⟨hk, hup⟩
    · rintro ⟨hc, hup⟩
      exact ⟨⟨c.cell, 1⟩, ⟨⟨hc, hup⟩, rfl⟩, rfl⟩
  · rw [← List.pairwise_map, hids, List.pairwise_map]
    exact (f.closure.below_sorted id.cell).filter _

/-- **Depths.** The depth that is told is the length of the way up. -/
theorem depthBetween (h : u.Keeps f) (hcard : f.nodes.card < 2 ^ 32) (ha : a.Storable)
    (hd : d.Storable) : ∃ o : Option Depth, u.ask (depthBetween a d) = .ok o ∧
      ∀ k, o.map UInt32.toNat = some k ↔ d.cell ∈ f.nodes ∧ f.up k d.cell = some a.cell := by
  rw [h.ready.ask, on_depthBetween h.closure? ha hd]
  cases hk : f.closure.depth? a.cell d.cell with
  | none =>
    refine ⟨none, readDepth_of_none hk, fun k => ?_⟩
    rw [← Forest.depth?_closure_eq_some_iff, hk]
    simp
  | some j =>
    obtain ⟨hmem, hup⟩ := Forest.depth?_closure_eq_some_iff.1 hk
    have hlt : j < UInt32.size := Nat.lt_trans (Forest.lt_card_of_up hmem hup) hcard
    refine ⟨some (.ofNat j), readDepth_of_lt hk hlt, fun k => ?_⟩
    rw [← Forest.depth?_closure_eq_some_iff, hk, Option.map_some, UInt32.toNat_ofNat_of_lt' hlt]

/-- **Rows.** The list holds exactly the ways up, in the order of the table. -/
theorem edges (h : u.Keeps f) (hcard : f.nodes.card < 2 ^ 32) :
    ∃ es, u.ask edges = .ok es ∧
      (∀ e, e ∈ es ↔ e.descendant.cell ∈ f.nodes ∧
        f.up e.depth.toNat e.descendant.cell = some e.ancestor.cell) ∧
      es.Pairwise fun e e' => e.ancestor.cell < e'.ancestor.cell ∨
        e.ancestor.cell = e'.ancestor.cell ∧ e.descendant.cell < e'.descendant.cell := by
  -- every row of the table of a forest can be read, since its ends have names and its depth is
  -- below the number of nodes
  obtain ⟨es, hes⟩ : ∃ es, f.closure.rows.mapM readRow = .ok es := by
    refine exists_mapM_eq_ok fun r hr => ?_
    obtain ⟨hd, hup⟩ := Forest.depth?_closure_eq_some_iff.1 (Closure.mem_rows.1 hr)
    obtain ⟨d, hd', hcell⟩ := h.named _ hd
    obtain ⟨a, ha', hcell'⟩ := h.named _ (Forest.mem_of_up hd hup)
    have hlt : r.depth < UInt32.size := Nat.lt_trans (Forest.lt_card_of_up hd hup) hcard
    refine ⟨⟨a, d, .ofNat r.depth⟩, (readRow_eq_ok_iff r _).2 ⟨⟨ha', hd'⟩, ?_⟩⟩
    rw [Edge.row, hcell, hcell', UInt32.toNat_ofNat_of_lt' hlt]
  obtain ⟨hrows, -⟩ := readRows_eq_ok_iff.1 hes
  refine ⟨es, ?_, fun e => ?_, ?_⟩
  · rw [h.ready.ask, Hierarchy.edges, Work.on_bind_ok (Work.on_read h.holds), hes]
    rfl
  · rw [← List.mem_map_of_injective Edge.row_injective, hrows, Closure.mem_rows, Closure.mem_iff,
      Forest.depth?_closure_eq_some_iff]
    rfl
  · have hordered := f.closure.rows_ordered
    rw [← hrows, List.pairwise_map] at hordered
    exact hordered.imp Pair.compare_eq_lt_iff.1

end Keeps

/-! ### Lookups in a store with a history -/

/-- **Lookups read the hierarchy.** Whatever changes the table of a store has gone through since it
    was empty, if it mentions fewer than 2^32 ids now, then all that can be asked about ancestors,
    descendants, children and edges is answered, and the answer is what one finds by asking for the
    parent again and again. -/
theorem History.lookups (h : u.History) (hready : u.Ready) (hsmall : u.population < 2 ^ 32) :
    (∀ x : TenantId, x.Storable →
      (∃ rs, u.ask (ancestors x) = .ok rs ∧ ∀ k : Nat,
        u.climb (k + 1) x = .ok (rs[k]?.map Relative.id) ∧ ∀ r ∈ rs[k]?, r.depth.toNat = k + 1) ∧
      (∃ rs, u.ask (descendants x) = .ok rs ∧
        (∀ r, r ∈ rs ↔ u.ask (isPresent r.id) = .ok true ∧ 1 ≤ r.depth.toNat ∧
          u.climb r.depth.toNat r.id = .ok (some x)) ∧
        (rs.Pairwise fun r r' => r.depth < r'.depth ∨ r.depth = r'.depth ∧
        r.id.toNat < r'.id.toNat) ∧ (rs.map Relative.id).Nodup) ∧
      ∃ ids, u.ask (children x) = .ok ids ∧
        (∀ c, c ∈ ids ↔ u.ask (parentOf c) = .ok (some x)) ∧
        ids.Pairwise fun c c' => c.toNat < c'.toNat) ∧
    (∀ a d : TenantId, a.Storable → d.Storable →
      ∃ o : Option Depth, u.ask (depthBetween a d) = .ok o ∧ ∀ k,
        o.map UInt32.toNat = some k ↔ u.ask (isPresent d) = .ok true ∧ u.climb k d = .ok (some a)) ∧
    ∃ es, u.ask edges = .ok es ∧
      (∀ e, e ∈ es ↔ u.ask (isPresent e.descendant) = .ok true ∧
        u.climb e.depth.toNat e.descendant = .ok (some e.ancestor)) ∧
      es.Pairwise fun e e' => e.ancestor.toNat < e'.ancestor.toNat ∨
        e.ancestor = e'.ancestor ∧ e.descendant.toNat < e'.descendant.toNat := by
  -- from here on the forest is known, and each list is compared with it; then the forest is taken
  -- out of the statement by climbing
  obtain ⟨f, hu, hcard⟩ := h.keeps hready hsmall
  have hclimb : ∀ {k : Nat} {d a : TenantId}, d.cell ∈ f.nodes →
      (u.climb k d = .ok (some a) ↔ f.up k d.cell = some a.cell) := fun hd =>
    hu.climb_eq_ok_iff (hu.named.storable hd)
  have hlt : ∀ {a b : TenantId}, a.cell < b.cell → a.toNat < b.toNat := Int.ofNat_lt.1
  refine ⟨fun x hx => ⟨?_, ?_, ?_⟩, fun a d ha hd => ?_, ?_⟩
  · obtain ⟨rs, hrs, hlevels⟩ := hu.ancestors hcard hx
    refine ⟨rs, hrs, fun k => ⟨?_, (hlevels k).2⟩⟩
    rw [hu.climb_eq_ok_iff hx, (hlevels k).1, Option.map_map]
    rfl
  · obtain ⟨rs, hrs, hmem, hsorted, hnodup⟩ := hu.descendants hcard hx
    refine ⟨rs, hrs, fun r => ?_, ?_, hnodup⟩
    · rw [hmem, hu.isPresent_iff]
      exact and_congr_right fun hr => and_congr_right fun _ => (hclimb hr).symm
    · refine (List.pairwise_map.1 hsorted).imp fun hbefore => ?_
      exact hbefore.imp id fun hsame => ⟨UInt32.toNat_inj.1 hsame.1, hlt hsame.2⟩
  · obtain ⟨ids, hids, hmem, hsorted⟩ := hu.children hcard hx
    refine ⟨ids, hids, fun c => ?_, hsorted.imp hlt⟩
    rw [hmem, hu.parentOf_eq_some_iff]
  · obtain ⟨o, ho, hmem⟩ := hu.depthBetween hcard ha hd
    refine ⟨o, ho, fun k => ?_⟩
    rw [hmem, hu.isPresent_iff]
    exact and_congr_right fun hd => (hclimb hd).symm
  · obtain ⟨es, hes, hmem, hsorted⟩ := hu.edges hcard
    refine ⟨es, hes, fun e => ?_, hsorted.imp fun hbefore => ?_⟩
    · rw [hmem, hu.isPresent_iff]
      exact and_congr_right fun hd => (hclimb hd).symm
    · exact hbefore.imp hlt fun hsame => ⟨TenantId.cell_inj.1 hsame.1, hlt hsame.2⟩

/-- Tenant 2 below tenant 1 has this one ancestor. -/
theorem History.lookups_of_two :
    let u := initial.afterAll
      ([.insert (.ofNat 0) (.ofNat 1), .insert (.ofNat 1) (.ofNat 2)].map .change)
    ∃ rs, u.ask (ancestors (.ofNat 2)) = .ok rs ∧ rs.map Relative.id = [.ofNat 1] := by
  intro u
  have h : u.History := history_initial.afterAll
  have hready : u.Ready := (ready_afterAll _ ready_initial closure?_initial).1
  obtain ⟨hlists, -, -⟩ := h.lookups hready (by decide +kernel)
  obtain ⟨⟨rs, hrs, hlevels⟩, -, -⟩ := hlists (.ofNat 2) (by decide)
  have hone : u.climb 1 (.ofNat 2) = .ok (some (.ofNat 1)) := rfl
  have htwo : u.climb 2 (.ofNat 2) = .ok none := rfl
  have hfirst : rs[0]?.map Relative.id = some (.ofNat 1) :=
    Except.ok.inj ((hlevels 0).1.symm.trans hone)
  have hsecond : rs[1]? = none :=
    Option.map_eq_none_iff.1 (Except.ok.inj ((hlevels 1).1.symm.trans htwo))
  refine ⟨rs, hrs, List.ext_getElem? fun k => ?_⟩
  rw [List.getElem?_map]
  match k with
  | 0 => exact hfirst
  | k + 1 =>
    have hlength := List.getElem?_eq_none_iff.1 hsecond
    rw [List.getElem?_eq_none (by omega)]
    rfl

end Store

end Tenancy
