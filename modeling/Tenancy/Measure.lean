namespace Tenancy

/-!
# Counts and sums that fall

A recursion over tables ends because a count or a sum over one list gets smaller: nothing in the
list counts for more than it did, and something counts for less.

* `countP_lt_of_mem` — fewer members have a property than have a wider one.
* `foldr_add_lt_of_mem` — a sum falls if a summand does.
-/

variable {α : Type} {l : List α} {x : α}

/-- Fewer members have a property than have a wider one, if there is a member that has only this
    one. -/
theorem countP_lt_of_mem {p q : α → Bool} (h : ∀ y, p y = true → q y = true) (hx : x ∈ l)
    (hq : q x = true) (hp : p x = false) : l.countP p < l.countP q := by
  obtain ⟨before, after, rfl⟩ := List.append_of_mem hx
  have hbefore : before.countP p ≤ before.countP q := List.countP_mono_left fun y _ => h y
  have hafter : after.countP p ≤ after.countP q := List.countP_mono_left fun y _ => h y
  simp only [List.countP_append, List.countP_cons, hp, hq, if_true, Bool.false_eq_true, if_false]
  omega

/-- A sum does not grow if no summand does. -/
theorem foldr_add_le {f g : α → Nat} (h : ∀ y, f y ≤ g y) (l : List α) :
    l.foldr (fun y n => f y + n) 0 ≤ l.foldr (fun y n => g y + n) 0 := by
  induction l with
  | nil => exact Nat.le_refl 0
  | cons y l ih => exact Nat.add_le_add (h y) ih

/-- A sum falls if a summand does and no other one grows. -/
theorem foldr_add_lt_of_mem {f g : α → Nat} (h : ∀ y, f y ≤ g y) (hx : x ∈ l) (hlt : f x < g x) :
    l.foldr (fun y n => f y + n) 0 < l.foldr (fun y n => g y + n) 0 := by
  induction hx with
  | head l => exact Nat.add_lt_add_of_lt_of_le hlt (foldr_add_le h l)
  | tail y _ ih => exact Nat.add_lt_add_of_le_of_lt (h y) ih

end Tenancy
