import Tenancy.Proofs.Lookups

namespace Tenancy

/-!
# Tables without memory

The table of a store does not tell how it came about.  Which tenants are there, and who their
parents are, determines every row of it; so moves of different tenants can be exchanged, and a move
can be undone.

* `Forest.ext` — a forest is its ids and their parents.
* `Forest.graft_comm`, `Forest.graft_back` — moves that are exchanged or undone, on a forest.
* `Store.History.independent` — the same for stores with a history.
-/

variable {f g : Forest}

/-! ### Forests -/

namespace Forest

variable {n p q x y : Int}

/-- Forests with the same nodes and the same parents are the same. -/
theorem ext (hnodes : f.nodes = g.nodes) (hparent : f.parent = g.parent) : f = g := by
  cases f
  cases g
  cases hnodes
  cases hparent
  rfl

/-- **Moves of different tenants** lead to the same forest in either order. -/
theorem graft_comm (hne : x ≠ y) (hx : f.Graftable x p) (hy : f.Graftable y q)
    (hxy : (f.graft x p hx).Graftable y q) (hyx : (f.graft y q hy).Graftable x p) :
    (f.graft x p hx).graft y q hxy = (f.graft y q hy).graft x p hyx :=
  ext rfl (Function.update_comm hne _ _ f.parent)

/-- The number that stands for the parent of an id. -/
def parentCell (f : Forest) (n : Int) : Int := (f.parent n).getD 0

/-- The cell of the parent stands for the parent, with 0 for none. -/
theorem link_parentCell : link (f.parentCell n) = f.parent n := by
  unfold parentCell link
  cases hp : f.parent n with
  | none => rfl
  | some m =>
    have hm : m ≠ 0 := fun he => f.rootless (he ▸ (f.mem_of_parent n m hp).2)
    rw [Option.getD_some, if_neg hm]

/-- The former parent does not lie below a tenant that was moved away from it. -/
theorem Graftable.back (h : f.Graftable x p) : (f.graft x p h).Graftable x (f.parentCell x) := by
  cases hp : f.parent x with
  | none =>
    have hzero : f.parentCell x = 0 := by rw [parentCell, hp]; rfl
    have hx : x ∈ (f.graft x p h).nodes := h.tenant_mem
    rw [hzero]
    exact ⟨hx, .inl rfl, fun k hk => not_below_root hx ⟨k, hk⟩⟩
  | some m =>
    have hcell : f.parentCell x = m := by rw [parentCell, hp]; rfl
    -- the former parent lies above `x`, and so not below it
    have hapart : ∀ k, f.up k m ≠ some x := by
      intro k hk
      refine f.acyclic x k ?_
      show (f.parent x).bind (f.up k) = some x
      rw [hp]
      exact hk
    rw [hcell]
    refine ⟨h.tenant_mem, .inr (f.mem_of_parent x m hp).2, fun k => ?_⟩
    rw [up_graft_above h hapart]
    exact hapart k

/-- **Away and back**: a tenant that is put under its former parent again is where it was. -/
theorem graft_back (h : f.Graftable x p) : (f.graft x p h).graft x (f.parentCell x) h.back = f := by
  refine ext rfl ?_
  show Function.update (Function.update f.parent x (link p)) x (link (f.parentCell x)) = f.parent
  rw [Function.update_idem, link_parentCell, Function.update_eq_self]

end Forest

namespace Store

open Hierarchy

variable {u v : Store} {tenant parent p q x y : TenantId}

/-! ### Stores -/

namespace Keeps

/-- A move succeeds if its ids can be stored and the subtree can be put there. -/
theorem answer_move_iff (h : u.Keeps f) (hcard : f.nodes.card < 2 ^ 32) {verbose : Bool} :
    u.answer (.change (.move tenant parent verbose)) = .ok none ↔
      tenant.Storable ∧ parent.Storable ∧ f.Graftable tenant.cell parent.cell := by
  rw [h.answer hcard, ← Forest.moveFault?_eq_none_iff]
  dsimp only [Forest.answer]
  cases f.moveFault? tenant parent <;> simp

/-- A move that succeeds puts the subtree elsewhere. -/
theorem next_move (h : u.Keeps f) (hcard : f.nodes.card < 2 ^ 32) {verbose : Bool}
    (ht : tenant.Storable) (hp : parent.Storable) (hm : f.Graftable tenant.cell parent.cell) :
    (u.next (.change (.move tenant parent verbose))).Keeps
      (f.graft tenant.cell parent.cell hm) := by
  have hfault : f.moveFault? tenant parent = none := Forest.moveFault?_eq_none_iff.2 ⟨ht, hp, hm⟩
  have hnext : f.next (.move tenant parent verbose) = f.graft tenant.cell parent.cell hm :=
    dif_pos hfault
  exact hnext ▸ h.next hcard

/-- **Ids and parents determine the forest.** -/
theorem forest_eq (hu : u.Keeps f) (hv : v.Keeps g)
    (hpresent : ∀ id, u.ask (isPresent id) = .ok true ↔ v.ask (isPresent id) = .ok true)
    (hparent : ∀ id, u.ask (Hierarchy.parentOf id) = v.ask (Hierarchy.parentOf id)) : f = g := by
  -- the forests are kept out of the statement, so they are recovered from the answers
  have hmem : ∀ id : TenantId, id.cell ∈ f.nodes ↔ id.cell ∈ g.nodes := fun id => by
    rw [← hu.isPresent_iff, ← hv.isPresent_iff]
    exact hpresent id
  have hnodes : f.nodes = g.nodes := by
    ext n
    constructor
    · intro hn
      obtain ⟨id, -, rfl⟩ := hu.named n hn
      exact (hmem id).1 hn
    · intro hn
      obtain ⟨id, -, rfl⟩ := hv.named n hn
      exact (hmem id).2 hn
  refine Forest.ext hnodes (funext fun n => ?_)
  by_cases hn : n ∈ f.nodes
  · obtain ⟨id, hid, rfl⟩ := hu.named n hn
    obtain ⟨o, ho, hf⟩ := hu.parentOf hid
    rw [← hf]
    exact ((hv.parentOf_eq_ok_iff hid).1 (hparent id ▸ ho)).symm
  · -- an id that is not there has no parent in either forest
    have habsent : ∀ {f : Forest}, n ∉ f.nodes → f.parent n = none := fun hn =>
      Option.eq_none_iff_forall_ne_some.2 fun p hp => hn (Forest.mem_of_parent _ n p hp).1
    rw [habsent hn, habsent (hnodes ▸ hn)]

/-- Two moves that succeed in either order. -/
theorem closure?_next_next (h : u.Keeps f) (hcard : f.nodes.card < 2 ^ 32) {b c : Bool}
    (hne : x ≠ y)
    (hx : u.answer (.change (.move x p b)) = .ok none)
    (hxy : (u.next (.change (.move x p b))).answer (.change (.move y q c)) = .ok none)
    (hy : u.answer (.change (.move y q c)) = .ok none)
    (hyx : (u.next (.change (.move y q c))).answer (.change (.move x p b)) = .ok none) :
    ((u.next (.change (.move x p b))).next (.change (.move y q c))).database.closure?
      = ((u.next (.change (.move y q c))).next (.change (.move x p b))).database.closure? := by
  obtain ⟨hsx, hsp, hgx⟩ := (h.answer_move_iff hcard).1 hx
  obtain ⟨hsy, hsq, hgy⟩ := (h.answer_move_iff hcard).1 hy
  have hx' : (u.next (.change (.move x p b))).Keeps (f.graft x.cell p.cell hgx) :=
    h.next_move hcard hsx hsp hgx
  have hy' : (u.next (.change (.move y q c))).Keeps (f.graft y.cell q.cell hgy) :=
    h.next_move hcard hsy hsq hgy
  -- a move changes no ids, so that the second one can be told from the forest as well
  obtain ⟨-, -, hgxy⟩ := (hx'.answer_move_iff hcard).1 hxy
  obtain ⟨-, -, hgyx⟩ := (hy'.answer_move_iff hcard).1 hyx
  rw [(hx'.next_move hcard hsy hsq hgxy).closure?, (hy'.next_move hcard hsx hsp hgyx).closure?,
    Forest.graft_comm (fun he => hne (TenantId.cell_inj.1 he)) hgx hgy hgxy hgyx]

/-- A move that is taken back. -/
theorem closure?_next_back (h : u.Keeps f) (hcard : f.nodes.card < 2 ^ 32) {b c : Bool}
    {o : Option TenantId} (ho : u.ask (Hierarchy.parentOf x) = .ok o)
    (hx : u.answer (.change (.move x p b)) = .ok none) :
    (u.next (.change (.move x p b))).answer (.change (.move x (o.getD .root) c)) = .ok none ∧
      ((u.next (.change (.move x p b))).next (.change (.move x (o.getD .root) c))).database.closure?
        = u.database.closure? := by
  obtain ⟨hsx, hsp, hgx⟩ := (h.answer_move_iff hcard).1 hx
  have hx' : (u.next (.change (.move x p b))).Keeps (f.graft x.cell p.cell hgx) :=
    h.next_move hcard hsx hsp hgx
  have hparent : f.parent x.cell = o.map TenantId.cell := (h.parentOf_eq_ok_iff hsx).1 ho
  -- the parent that was told names the old place, the root standing for none
  have hcell : f.parentCell x.cell = (o.getD .root).cell := by
    rw [Forest.parentCell, hparent]
    cases o <;> rfl
  have hso : (o.getD .root).Storable := by
    cases o with
    | none => exact (by decide : TenantId.root.Storable)
    | some m => exact h.named.storable (f.mem_of_parent x.cell m.cell hparent).2
  have hback : (f.graft x.cell p.cell hgx).Graftable x.cell (o.getD .root).cell := hcell ▸ hgx.back
  refine ⟨(hx'.answer_move_iff hcard).2 ⟨hsx, hso, hback⟩, ?_⟩
  have hsame : (f.graft x.cell p.cell hgx).graft x.cell (o.getD .root).cell hback = f := by
    have hgraft := Forest.graft_back hgx
    simp only [hcell] at hgraft
    exact hgraft
  rw [(hx'.next_move hcard hsx hso hback).closure?, hsame, h.closure?]

end Keeps

/-! ### Stores with a history -/

/-- **Tables without memory.** Whatever changes the tables of two stores have gone through since
    they were empty: if the same ids are there now, with the same parents, then the tables are
    equal.  Two moves of different tenants that succeed in either order lead to the same table; and
    a tenant that was moved away can be put back under its former parent, which restores the
    table. -/
theorem History.independent (hu : u.History) (hready : u.Ready) (hsmall : u.population < 2 ^ 32) :
    (∀ v : Store, v.History → v.Ready → v.population < 2 ^ 32 →
      (∀ id, u.ask (isPresent id) = .ok true ↔ v.ask (isPresent id) = .ok true) →
      (∀ id, u.ask (parentOf id) = v.ask (parentOf id)) →
      u.database.closure? = v.database.closure?) ∧
    (∀ (x y p q : TenantId) (b c : Bool), x ≠ y →
      let m : Request := .change (.move x p b)
      let n : Request := .change (.move y q c)
      u.answer m = .ok none → (u.next m).answer n = .ok none →
      u.answer n = .ok none → (u.next n).answer m = .ok none →
      ((u.next m).next n).database.closure? = ((u.next n).next m).database.closure?) ∧
    ∀ (x p : TenantId) (b c : Bool) (o : Option TenantId),
      let away : Request := .change (.move x p b)
      let back : Request := .change (.move x (o.getD .root) c)
      u.ask (parentOf x) = .ok o → u.answer away = .ok none →
      (u.next away).answer back = .ok none ∧
        ((u.next away).next back).database.closure? = u.database.closure? := by
  obtain ⟨f, hf, hcard⟩ := hu.keeps hready hsmall
  refine ⟨fun v hv hready' hsmall' hpresent hparent => ?_, fun x y p q b c hne hx hxy hy hyx => ?_,
    fun x p b c o ho hx => ?_⟩
  · obtain ⟨g, hg, -⟩ := hv.keeps hready' hsmall'
    obtain rfl := hf.forest_eq hg hpresent hparent
    rw [hf.closure?, hg.closure?]
  · exact hf.closure?_next_next hcard hne hx hxy hy hyx
  · exact hf.closure?_next_back hcard ho hx

/-- Tenant 3 goes from 1 to 2, and 2 goes below 1, in either order; 3 goes back to 1.  An insertion
    that fails leaves no trace. -/
theorem History.independent_of_three :
    let u := initial.afterAll ([.insert (.ofNat 0) (.ofNat 1), .insert (.ofNat 0) (.ofNat 2),
      .insert (.ofNat 1) (.ofNat 3)].map .change)
    let v := initial.afterAll ([.insert (.ofNat 0) (.ofNat 1), .insert (.ofNat 4) (.ofNat 5),
      .insert (.ofNat 0) (.ofNat 2), .insert (.ofNat 1) (.ofNat 3)].map .change)
    let m : Request := .change (.move (.ofNat 3) (.ofNat 2) false)
    let n : Request := .change (.move (.ofNat 2) (.ofNat 1) false)
    u.database.closure? = v.database.closure? ∧
      ((u.next m).next n).database.closure? = ((u.next n).next m).database.closure? ∧
      ((u.next m).next (.change (.move (.ofNat 3) (.ofNat 1) true))).database.closure?
        = u.database.closure? := by
  intro u v m n
  have hu : u.Ready := (ready_afterAll _ ready_initial closure?_initial).1
  have hv : v.Ready := (ready_afterAll _ ready_initial closure?_initial).1
  have hask : ∀ {α} (w : Work α), u.ask w = v.ask w := fun w => by
    rw [hu.ask, hv.ask]
    rfl
  obtain ⟨hsame, hswap, hback⟩ :=
    (history_initial.afterAll : u.History).independent hu (by decide +kernel)
  refine ⟨?_, ?_, ?_⟩
  · exact hsame v history_initial.afterAll hv (by decide +kernel)
      (fun id => by rw [hask]) fun id => hask _
  · exact hswap (.ofNat 3) (.ofNat 2) (.ofNat 2) (.ofNat 1) false false (by decide)
      (by decide +kernel)
      (by decide +kernel) (by decide +kernel) (by decide +kernel)
  · exact (hback (.ofNat 3) (.ofNat 2) false true (some (.ofNat 1)) (by decide +kernel)
      (by decide +kernel)).2

end Store

end Tenancy
