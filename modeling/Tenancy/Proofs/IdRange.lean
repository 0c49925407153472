import Tenancy.Proofs.Presence
import Tenancy.Proofs.Refusals
import Tenancy.Proofs.Rejections
import Tenancy.Proofs.RepairCounts

namespace Tenancy

/-!
# Ids that fit no cell

Ids are unsigned numbers of 64 bits, and cells hold signed ones.  Were the upper half of the ids to
be bound to the negative numbers, or to be cut off at the largest cell, two tenants would share
their rows.  It is not: an id of the upper half ends every request and every lookup before a row is
read, so that no row ever holds anything but the number of a tenant.

* `TenantId.bind_id`, `TenantId.id_bind` — what is bound for an id reads as that id, and the other
  way round.
* `Work.Stops` — work that comes to a fault of the store, the same one on all tables.
* `Closure.InRange` — the ids in the rows are numbers of tenants; `Request.inRange_work` keeps it
  so, and `Scope.inRange_afterAll` after any requests.
* `Hierarchy.no_aliasing` — all of this together.
-/

variable {α β : Type} {s : Scope} {t : Closure} {tenant parent id a b : TenantId} {r : Request}
    {n : Int}

/-! ### Cells for ids -/

namespace TenantId

/-- The cell of an id is in range exactly if the id can be stored. -/
theorem cell_lt_iff : a.cell < 2 ^ 63 ↔ a.Storable := by
  rw [storable_iff, cell]
  omega

/-- An id of the lower half is bound to the number that reads as this id. -/
theorem bind_id (h : a.Storable) (column : Nat) :
    Cell.bind a = .ok a.cell ∧ Cell.id column a.cell = .ok a :=
  ⟨if_pos h, Cell.id_cell h⟩

/-- A number that a cell can hold reads as an id if it is not negative. -/
theorem exists_id_iff (hn : n < 2 ^ 63) {column : Nat} :
    (∃ a, Cell.id column n = .ok a) ↔ 0 ≤ n := by
  simp only [Cell.id_eq_ok_iff]
  constructor
  · rintro ⟨a, -, rfl⟩
    exact Int.natCast_nonneg _
  · intro h0
    have hmax : (maxCell : Int) = 2 ^ 63 - 1 := rfl
    exact exists_cell ⟨h0, by omega⟩

/-- An id that a number reads as is bound to this number. -/
theorem id_bind {column : Nat} (h : Cell.id column n = .ok a) : Cell.bind a = .ok n := by
  obtain ⟨hs, rfl⟩ := Cell.id_eq_ok_iff.1 h
  exact if_pos hs

end TenantId

/-! ### Lookups -/

namespace Work

variable {w : Work α} {name : String}

/-- The work comes to a fault of the store, and to nothing else: which fault it is, depends on
    nothing but whether there is a table. -/
def Stops (w : Work α) : Prop := ∃ fault missing : StoreFault, ∀ s : Scope,
  w.on s = (.error (.store (if s.database.closure?.isSome then fault else missing)), s)

/-- A lookup that fails in the same way on all tables. -/
theorem stops_read {f : Closure → Work α} (fault : StoreFault)
    (hf : ∀ t s, (f t).on s = (.error (.store fault), s)) : (read name >>= f).Stops := by
  refine ⟨fault, .statement name (.noTable Database.tableName), fun s => ?_⟩
  cases h : s.database.closure? with
  | some t => exact (on_bind_ok (on_read_of_closure? h)).trans (hf t s)
  | none =>
    have hget : (get : Work Scope).on s = (.ok s, s) := rfl
    have hread : (read name).on s
        = (.error (failure name (.noTable Database.tableName)), s) := by
      rw [read, on_bind_ok hget, h]
      rfl
    rw [on_bind, hread]
    rfl

theorem Stops.bind {f : α → Work β} (hw : w.Stops) : (w >>= f).Stops := by
  obtain ⟨fault, missing, hw⟩ := hw
  exact ⟨fault, missing, fun s => by rw [on_bind, hw]⟩

end Work

namespace Hierarchy

open Work

variable {name step : String}

/-- There is no cell for the id. -/
theorem on_cellOf_bind (h : ¬id.Storable) {f : Int → Work β} :
    (cellOf name id >>= f).on s = (.error (.store (.statement name .idTooLarge)), s) := by
  have hbind : Cell.bind id = .error .idTooLarge := if_neg h
  rw [cellOf, hbind]
  rfl

/-- The queries for one id stop before they read, if no cell holds it. -/
theorem stops_isPresent (h : ¬id.Storable) : (isPresent id).Stops :=
  stops_read _ fun _ _ => on_cellOf_bind h

/-- The query for a depth stops if either of its ids cannot be stored. -/
theorem stops_depthBetween (h : ¬(a.Storable ∧ b.Storable)) : (depthBetween a b).Stops := by
  refine stops_read (.statement "look up closure edge" .idTooLarge) fun t s => ?_
  -- the ids are bound one after the other, so that the first may fit where the second does not
  by_cases ha : a.Storable
  · rw [on_bind_ok (on_cellOf ha)]
    exact on_cellOf_bind fun hb => h ⟨ha, hb⟩
  · exact on_cellOf_bind ha

theorem stops_parentOf (h : ¬id.Storable) : (parentOf id).Stops :=
  stops_read _ fun _ _ => on_cellOf_bind h

theorem stops_relatives {select : Closure → Int → List Kin} (h : ¬id.Storable) :
    (relatives name id select).Stops :=
  stops_read _ fun _ _ => on_cellOf_bind h

theorem stops_children (h : ¬id.Storable) : (children id).Stops := (stops_relatives h).bind

end Hierarchy

/-! ### Requests -/

namespace Closure

variable {leaf child above : Int}

/-- All ids of the table are numbers of tenants. -/
def InRange (t : Closure) : Prop := ∀ n ∈ t.ids, 1 ≤ n ∧ n ≤ 2 ^ 63 - 1

theorem inRange_empty : InRange .empty := fun n hn => by
  obtain ⟨r, hr, -⟩ := mem_ids.1 hn
  cases hr

/-- A leaf in range keeps the table in range. -/
theorem InRange.plant (h : t.InRange) (hleaf : 1 ≤ leaf ∧ leaf ≤ 2 ^ 63 - 1) :
    (t.plant leaf).closure.InRange := by
  intro n hn
  rcases mem_ids_plant.1 hn with rfl | hold
  · exact hleaf
  · exact h n hold

theorem InRange.adopt (h : t.InRange) (habove : above ∈ t.ids) (hleaf : leaf ∈ t.ids) :
    (t.adopt above leaf).InRange := fun n hn => h n (ids_adopt habove hleaf ▸ hn)

/-- Planting mentions the leaf besides the ids of the table. -/
theorem InRange.planted (h : t.InRange) (hleaf : 1 ≤ leaf ∧ leaf ≤ 2 ^ 63 - 1)
    (habove : above = 0 ∨ above ∈ t.ids) : (t.planted above leaf).InRange := by
  have hplant := h.plant hleaf
  by_cases hz : above = 0
  · rw [hz, planted_zero]
    exact hplant
  · rw [Closure.planted, if_neg hz]
    exact hplant.adopt (mem_ids_plant.2 (.inr (habove.resolve_left hz)))
      (mem_ids_plant.2 (.inl rfl))

theorem InRange.moved (h : t.InRange) (htenant : leaf ∈ t.ids)
    (habove : above = 0 ∨ above ∈ t.ids) :
    (t.moved leaf above).InRange := fun n hn => h n (mem_ids_of_mem_moved htenant habove hn)

theorem InRange.repaired (h : t.InRange) : t.repaired.InRange := fun n hn => h n (ids_repaired ▸ hn)

/-- The repair of a parent edge writes rows for its two ids only. -/
theorem InRange.rooted (h : t.InRange) (habove : 1 ≤ above ∧ above ≤ 2 ^ 63 - 1)
    (hleaf : 1 ≤ leaf ∧ leaf ≤ 2 ^ 63 - 1) : (Hierarchy.rooted t above leaf).InRange :=
  (h.plant habove).plant hleaf

end Closure

open Hierarchy

/-- The cell of an id that names a tenant is in range. -/
theorem TenantId.cell_range (h : id ≠ .root ∧ id.Storable) :
    1 ≤ id.cell ∧ id.cell ≤ 2 ^ 63 - 1 := by
  have hne := mt cell_eq_zero_iff.1 h.1
  have hlt := cell_lt_iff.2 h.2
  have hnonneg : 0 ≤ id.cell := Int.natCast_nonneg _
  omega

/-- The scope has a table, and its ids are in range. -/
def Scope.InRange (s : Scope) : Prop := ∃ t, s.database.closure? = some t ∧ t.InRange

namespace Hierarchy

variable {verbose : Bool}

/-- Insertion keeps the table in range: a leaf that is too large is refused before. -/
theorem inRange_insert (h : s.Holds t) (ht : t.InRange) : ((insert parent id).on s).2.InRange := by
  rw [insert_on h]
  cases hfault : insertFault? t parent id with
  | some e => exact ⟨t, h.closure?, ht⟩
  | none =>
    obtain ⟨hid, -, -, -, hparent⟩ := insertFault?_eq_none_iff.1 hfault
    exact ⟨_, h.after.closure?,
      ht.planted (TenantId.cell_range hid) (hparent.imp_left cell_eq_zero_iff.2)⟩

/-- A move keeps the table in range. -/
theorem inRange_move (h : s.Holds t) (ht : t.InRange) :
    ((move tenant parent verbose).on s).2.InRange := by
  rw [move_on h]
  cases hfault : moveFault? t tenant parent with
  | some e => exact ⟨t, h.closure?, ht⟩
  | none =>
    obtain ⟨-, -, -, htenant, hparent⟩ := moveFault?_eq_none_iff.1 hfault
    cases forewarning t tenant parent verbose with
    | error e => exact ⟨t, h.closure?, ht⟩
    | ok es =>
      exact ⟨_, h.after.closure?, ht.moved htenant (hparent.imp_left cell_eq_zero_iff.2)⟩

theorem inRange_repairAll (h : s.Holds t) (ht : t.InRange) : (repairAll.on s).2.InRange := by
  rw [repairAll_on h]
  exact ⟨_, h.after.closure?, ht.repaired⟩

/-- The repair of a pair keeps the table in range, also where it stops half way. -/
theorem inRange_repairPair (h : s.Holds t) (ht : t.InRange) :
    ((repairPair tenant parent).on s).2.InRange := by
  rw [repairPair_on h]
  cases hfault : pairFault? t tenant parent with
  | some e => exact ⟨t, h.closure?, ht⟩
  | none =>
    obtain ⟨htenant, hparent, -, -⟩ := pairFault?_eq_none_iff.1 hfault
    have hrooted := ht.rooted (TenantId.cell_range hparent) (TenantId.cell_range htenant)
    -- the self rows stay even if the parent edge cannot be read
    cases readDepth (rooted t parent.cell tenant.cell) parent tenant with
    | error e => exact ⟨_, h.after.closure?, hrooted⟩
    | ok existing =>
      exact ⟨_, h.after.closure?, hrooted.adopt (mem_ids_rooted.2 (.inr (.inr rfl)))
        (mem_ids_rooted.2 (.inr (.inl rfl)))⟩

end Hierarchy

/-- **A request keeps the ids in range**, even if it fails half-way: of the ids that it brings in it
    has made sure before. -/
theorem Request.inRange_work (r : Request) (h : s.InRange) : (r.work.on s).2.InRange := by
  obtain ⟨t, hdb, ht⟩ := h
  -- where statements cannot write nothing changes; elsewhere the operations are known as a whole
  rcases Scope.holds_or_barred hdb with hs | hbarred
  · cases r with
    | change c =>
      cases c with
      | insert parent id =>
        show ((insert parent id >>= fun _ => pure none).on s).2.InRange
        rw [Work.on_bind_pure]
        exact inRange_insert hs ht
      | move tenant parent verbose =>
        show ((move tenant parent verbose >>= fun _ => pure none).on s).2.InRange
        rw [Work.on_bind_pure]
        exact inRange_move hs ht
      | repairAll =>
        show ((repairAll >>= fun report => pure (some report)).on s).2.InRange
        rw [Work.on_bind_pure]
        exact inRange_repairAll hs ht
    | repairPair tenant parent =>
      show ((Hierarchy.repairPair tenant parent >>= fun report => pure (some report)).on
        s).2.InRange
      rw [Work.on_bind_pure]
      exact inRange_repairPair hs ht
  · exact ⟨t, by rw [(r.stepwise_work.kept fun _ => hbarred).1, hdb], ht⟩

/-- The scope after requests one after the other, of which any may fail: what a failure has written
    stays. -/
def Scope.afterAll (s : Scope) (rs : List Request) : Scope :=
  rs.foldl (fun s r => (r.work.on s).2) s

/-- **Any requests** leave the ids in range. -/
theorem Scope.inRange_afterAll (rs : List Request) (h : s.InRange) : (s.afterAll rs).InRange := by
  induction rs generalizing s with
  | nil => exact h
  | cons r rs ih => exact ih (r.inRange_work h)

/-! ### No aliasing -/

namespace Hierarchy

/-- **No two ids share a cell.**  A change with an id of the upper half, in either place, is refused
    for its ids, and a lookup of one comes to a fault of the store; neither depends on the rows of
    the table, nor does anything to them.  The ids of the lower half are bound to the numbers that
    read as them, and these are all the numbers that read as ids.  So from an empty table on, all
    numbers in rows are those of tenants. -/
theorem no_aliasing :
    (∀ a b : TenantId, 2 ^ 63 ≤ a.toNat ∨ 2 ^ 63 ≤ b.toNat →
      (∃ i, ∀ s, (insert a b).on s = (.error (.invalid i), s)) ∧
      (∀ verbose, ∃ i, ∀ s, (move a b verbose).on s = (.error (.invalid i), s)) ∧
      (∃ i, ∀ s, (repairPair a b).on s = (.error (.invalid i), s)) ∧ (depthBetween a b).Stops) ∧
    (∀ a : TenantId, 2 ^ 63 ≤ a.toNat → (isPresent a).Stops ∧ (parentOf a).Stops ∧
      (ancestors a).Stops ∧ (descendants a).Stops ∧ (children a).Stops) ∧
    (∀ a : TenantId, a.toNat < 2 ^ 63 → ∃ n : Int, Cell.bind a = .ok n ∧ n < 2 ^ 63 ∧
      ∀ column, Cell.id column n = .ok a) ∧
    (∀ n : Int, -2 ^ 63 ≤ n → n < 2 ^ 63 → ∀ column, ((∃ a, Cell.id column n = .ok a) ↔ 0 ≤ n) ∧
      ∀ a, Cell.id column n = .ok a → Cell.bind a = .ok n) ∧
    ∀ (s : Scope) (rs : List Request), s.database.closure? = some .empty →
      ∃ t, (s.afterAll rs).database.closure? = some t ∧ ∀ r ∈ t,
        (1 ≤ r.ancestor ∧ r.ancestor ≤ 2 ^ 63 - 1) ∧ 1 ≤ r.descendant ∧
          r.descendant ≤ 2 ^ 63 - 1 := by
  have hborder : ∀ {a : TenantId}, 2 ^ 63 ≤ a.toNat ↔ ¬a.Storable := by
    intro a
    rw [TenantId.storable_iff, not_lt]
  refine ⟨fun a b hids => ?_, fun a ha => ?_, fun a ha => ?_, fun n _ hn column => ?_,
    fun s rs h => ?_⟩
  -- each request screens its ids before anything is read, so it is enough that one check refuses
  · rw [hborder, hborder, ← not_and_or] at hids
    refine ⟨screens_insert.exists_refused fun hnone => ?_,
      fun verbose => screens_move.exists_refused fun hnone => ?_,
      screens_repairPair.exists_refused fun hnone => ?_, stops_depthBetween hids⟩
    · obtain ⟨⟨-, hb⟩, ha, -⟩ := Request.refusal?_insert_eq_none_iff.1 hnone
      exact hids ⟨ha, hb⟩
    · have hmove : (Request.change (.move a b verbose)).refusal? = none := hnone
      obtain ⟨⟨-, ha⟩, hb⟩ := Request.refusal?_move_eq_none_iff.1 hmove
      exact hids ⟨ha, hb⟩
    · obtain ⟨⟨-, ha⟩, ⟨-, hb⟩, -⟩ := Request.refusal?_repairPair_eq_none_iff.1 hnone
      exact hids ⟨ha, hb⟩
  · have hs := hborder.1 ha
    exact ⟨stops_isPresent hs, stops_parentOf hs, stops_relatives hs, stops_relatives hs,
      stops_children hs⟩
  · have hs := TenantId.storable_iff.2 ha
    exact ⟨a.cell, (TenantId.bind_id hs 0).1, TenantId.cell_lt_iff.2 hs,
      fun column => (TenantId.bind_id hs column).2⟩
  · exact ⟨TenantId.exists_id_iff hn, fun a ha => TenantId.id_bind ha⟩
  · obtain ⟨t, ht, hrange⟩ := Scope.inRange_afterAll rs ⟨_, h, Closure.inRange_empty⟩
    refine ⟨t, ht, fun r hr => ⟨hrange _ ?_, hrange _ ?_⟩⟩
    · exact Closure.mem_ids.2 ⟨r, hr, .inl rfl⟩
    · exact Closure.mem_ids.2 ⟨r, hr, .inr rfl⟩

/-- A table with a row for the number that comes of the smallest id of the upper half, if its
    highest bit is taken for a sign, and with one for the largest id of the lower half. -/
def brink : Closure :=
  (Closure.empty.fill [⟨-2 ^ 63, -2 ^ 63, 0⟩, ⟨2 ^ 63 - 1, 2 ^ 63 - 1, 0⟩]).closure

/-- The id is not found in this table, and nothing is put below the other one under its name. -/
theorem no_aliasing_brink :
    let s : Scope := { database := { table := some { closure := brink } } }
    (∃ fault, (isPresent (.ofNat (2 ^ 63))).on s = (.error (.store fault), s)) ∧
      (∃ i, (insert (.ofNat (2 ^ 63 - 1)) (.ofNat (2 ^ 63))).on s = (.error (.invalid i), s)) ∧
      (isPresent (.ofNat (2 ^ 63 - 1))).on s = (.ok true, s) := by
  intro s
  have hthere : (isPresent (.ofNat (2 ^ 63 - 1))).on s = (.ok (brink.mentions (2 ^ 63 - 1)), s) :=
    on_isPresent rfl (by decide)
  have hmentions : brink.mentions (2 ^ 63 - 1) = true := by decide +kernel
  obtain ⟨hchange, hlook, -⟩ := no_aliasing
  obtain ⟨⟨i, hinsert⟩, -⟩ := hchange (.ofNat (2 ^ 63 - 1)) (.ofNat (2 ^ 63)) (.inr (by decide))
  obtain ⟨fault, missing, hpresent⟩ := (hlook (.ofNat (2 ^ 63)) (by decide)).1
  exact ⟨⟨fault, hpresent s⟩, ⟨i, hinsert s⟩, hthere.trans (by rw [hmentions])⟩

end Hierarchy

end Tenancy
