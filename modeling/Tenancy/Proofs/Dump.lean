import Tenancy.Admin.Answer
import Tenancy.Proofs.Agreement
import Tenancy.Proofs.Requests
import Tenancy.Proofs.RoundTrip

namespace Tenancy

/-!
# Dumps

A dump has all that is in the table, in both of its forms: there is a reader for each that gives the
rows back.  The one splits a text at line ends and tabs and reads numbers; the other reads a JSON
list of edges.  Since they are functions, tables with the same dump are the same.

* `Json.Form.listOfText?` — a list of records; `Json.Form.listOfText?_eq` reads what is written.
* `Row.listOfText?` — rows of numbers; `Admin.listOfText?_edges` reads what is written.
* `Admin.dump_lossless` — a dump can be had of every table that can be read, and gives its rows
  back.
-/

namespace Json

variable {α : Type} {form : Form α} {cs rest : List Char} {s : String} {a : α} {as : List α}

/-! ### Lists of records -/

namespace Form

/-- Reads the records of a list, of which there is at least one more. -/
def readRecords (form : Form α) (cs : List Char) : Except Fault (List α × List Char) :=
  match _ : form.read cs with
  | .error e => .error e
  | .ok (a, behind) =>
    match _ : skipBlanks behind with
    | [] => .error .cutOff
    | c :: rest =>
      if c = ']' then .ok ([a], rest)
      else if c = ',' then (fun p => (a :: p.1, p.2)) <$> form.readRecords rest
      else .error .malformed
termination_by cs.length
decreasing_by
  exact Nat.lt_trans (length_lt_of_skipBlanks ‹_›) (read_length_lt ‹_›)

/-- Reads a list of records. -/
def readList (form : Form α) (cs : List Char) : Except Fault (List α × List Char) :=
  match skipBlanks cs with
  | [] => .error .cutOff
  | '[' :: cs =>
    match skipBlanks cs with
    | ']' :: rest => .ok ([], rest)
    | _ => form.readRecords cs
  | c :: cs => do
    discard <| readScalar c cs
    .error .mismatch

/-- The list of records that a text holds. -/
def listOfText? (form : Form α) (s : String) : Except Fault (List α) := readWhole form.readList s

/-- The last record of a list is followed by the closing bracket. -/
theorem readRecords_last (h : form.read cs = .ok (a, ']' :: rest)) :
    form.readRecords cs = .ok ([a], rest) := by
  have hblanks : skipBlanks (']' :: rest) = ']' :: rest := skipBlanks_cons (by decide)
  rw [readRecords]
  split <;> rename_i hread <;> rw [h] at hread <;> cases hread
  split <;> rename_i hnext <;> rw [hblanks] at hnext <;> cases hnext
  exact if_pos rfl

/-- A comma leads to the next record. -/
theorem readRecords_comma (h : form.read cs = .ok (a, ',' :: rest)) :
    form.readRecords cs = (fun p => (a :: p.1, p.2)) <$> form.readRecords rest := by
  have hblanks : skipBlanks (',' :: rest) = ',' :: rest := skipBlanks_cons (by decide)
  rw [readRecords]
  split <;> rename_i hread <;> rw [h] at hread <;> cases hread
  split <;> rename_i hnext <;> rw [hblanks] at hnext <;> cases hnext
  exact (if_neg (by decide)).trans (if_pos rfl)

/-- Records are read one after the other, with commas between them. -/
theorem readRecords_intercalate {write : α → List Char}
    (h : ∀ a rest, form.read (write a ++ rest) = .ok (a, rest)) (a : α) (as : List α) :
    form.readRecords ([','].intercalate ((a :: as).map write) ++ [']']) = .ok (a :: as, []) := by
  induction as generalizing a with
  | nil =>
    rw [List.map_singleton, List.intercalate_singleton]
    exact readRecords_last (h a _)
  | cons b as ih =>
    have hread := h a (',' :: ([','].intercalate ((b :: as).map write) ++ [']']))
    rw [List.map_cons, List.map_cons, List.intercalate_cons_cons, ← List.map_cons,
      List.append_assoc, List.append_assoc, List.singleton_append, readRecords_comma hread, ih b]
    rfl

/-- **Lists are read as they are written,** if each of their records is. -/
theorem listOfText?_eq {write : α → Value}
    (h : ∀ a rest, form.read ((write a).render.toList ++ rest) = .ok (a, rest)) (as : List α) :
    form.listOfText? (Value.list (as.map write)).render = .ok as := by
  have hlist : ∀ cs, form.readList ('[' :: cs)
      = match skipBlanks cs with
        | ']' :: rest => .ok ([], rest)
        | _ => form.readRecords cs := by
    intro cs
    rw [readList, skipBlanks_cons (by decide)]
    rfl
  have htexts : (",".intercalate (renderItems (as.map write))).toList
      = [','].intercalate (as.map fun a => (write a).render.toList) := by
    rw [toList_intercalate_comma, renderItems_eq_map, List.map_map, List.map_map]
    rfl
  have hread : form.readList (Value.list (as.map write)).render.toList = .ok (as, []) := by
    rw [toList_render_list, hlist]
    cases as with
    | nil => rfl
    | cons a as =>
      -- no item begins with the end of the list
      have hitems := derives_renderItems ((a :: as).map write) (List.cons_ne_nil _ _)
      obtain ⟨c, cs, hfirst, hne⟩ := hitems.items_head [']']
      rw [hfirst, htexts]
      split
      · rename_i heq
        exact absurd (List.cons.inj heq).1 hne
      · exact readRecords_intercalate h a as
  rw [listOfText?, readWhole, hread]
  rfl

end Form

end Json

/-! ### Lines of numbers -/

namespace Row

/-- The row that a line of three numbers stands for. -/
def ofLine? (line : List Char) : Option Row :=
  match (line.splitOn '\t').map fun cell => (Text.readNat (UInt64.size - 1) cell).toOption with
  | [some ancestor, some descendant, some depth] => some ⟨ancestor, descendant, depth⟩
  | _ => none

/-- The rows that a text stands for, one on each line.  A text without a character has no lines. -/
def listOfText? (s : String) : Option (List Row) :=
  if s.toList = [] then some [] else (s.toList.splitOn '\n').mapM ofLine?

end Row

namespace Edge

variable {e : Edge} {es : List Edge} {c : Char} {n : Nat}

/-- The cells of the line for an edge. -/
def cells (e : Edge) : List (List Char) :=
  [Nat.toDigits 10 e.ancestor.toNat, Nat.toDigits 10 e.descendant.toNat,
    Nat.toDigits 10 e.depth.toNat]

/-- The line for an edge. -/
def line (e : Edge) : List Char := ['\t'].intercalate e.cells

/-- The cells of a line hold digits only, so neither tabs nor line ends. -/
theorem isDigit_of_mem_cells {cell : List Char} (hcell : cell ∈ e.cells) (hc : c ∈ cell) :
    c.isDigit = true := by
  have hdigit : ∀ {n : Nat}, c ∈ Nat.toDigits 10 n → c.isDigit = true := fun {n} hn =>
    (Text.isNumeral_toDigits n).2 c hn
  simp only [cells, List.mem_cons, List.not_mem_nil, or_false] at hcell
  rcases hcell with rfl | rfl | rfl <;> exact hdigit hc

/-- A line has digits and tabs. -/
theorem isDigit_or_of_mem_line (hc : c ∈ e.line) : c.isDigit = true ∨ c = '\t' := by
  have hdigit : ∀ {cell}, cell ∈ e.cells → c ∈ cell → c.isDigit = true ∨ c = '\t' :=
    fun hcell hc => .inl (isDigit_of_mem_cells hcell hc)
  rw [line, cells, List.intercalate_cons_cons, List.intercalate_cons_cons,
    List.intercalate_singleton] at hc
  simp only [List.mem_append, List.mem_singleton] at hc
  rcases hc with (hc | hc) | (hc | hc) | hc
  · exact hdigit (by simp [cells]) hc
  · exact .inr hc
  · exact hdigit (by simp [cells]) hc
  · exact .inr hc
  · exact hdigit (by simp [cells]) hc

/-- A line is not empty. -/
theorem line_ne_nil (e : Edge) : e.line ≠ [] := by
  rw [line, cells, List.intercalate_cons_cons, List.append_assoc]
  exact List.append_ne_nil_of_left_ne_nil Nat.toDigits_ne_nil _

/-- A line is read back as the row that it was written for. -/
theorem ofLine?_line (e : Edge) : Row.ofLine? e.line = some e.row := by
  have htab : ∀ cell ∈ e.cells, '\t' ∉ cell := fun cell hcell hc =>
    absurd (isDigit_of_mem_cells hcell hc) (by decide)
  have hsplit : e.line.splitOn '\t' = e.cells := List.splitOn_intercalate _ htab (by simp [cells])
  have hnumber : ∀ {n : Nat}, n < UInt64.size →
      (Text.readNat (UInt64.size - 1) (Nat.toDigits 10 n)).toOption = some n := by
    intro n hn
    rw [Text.readNat_toDigits (Nat.le_sub_one_of_lt hn)]
    rfl
  have hdepth : e.depth.toNat < UInt64.size := Nat.lt_trans e.depth.toNat_lt (by decide)
  rw [Row.ofLine?, hsplit, cells]
  simp only [List.map_cons, List.map_nil, hnumber e.ancestor.toNat_lt,
    hnumber e.descendant.toNat_lt, hnumber hdepth]
  rfl

end Edge

namespace Admin

open Json (Form Member Value objectText)

/-- A dump is the lines of its rows with line ends between them. -/
theorem toList_edges_text (es : List Edge) :
    (Answer.edges es).text.toList = ['\n'].intercalate (es.map Edge.line) := by
  have hline : ∀ e : Edge, (Answer.columns [e.ancestor.text, e.descendant.text,
      toString e.depth.toNat]).toList = e.line := by
    intro e
    show (String.intercalate "\t" _).toList = _
    rw [String.toList_intercalate]
    show ['\t'].intercalate [(toString _).toList, (toString _).toList, (toString _).toList] = _
    rw [Text.toList_toString, Text.toList_toString, Text.toList_toString]
    rfl
  show (String.intercalate "\n" _).toList = _
  rw [String.toList_intercalate, List.map_map]
  exact congrArg _ (List.map_congr_left fun e _ => hline e)

/-- **The text of a dump** has a line for each edge. -/
theorem listOfText?_edges (es : List Edge) :
    Row.listOfText? (Answer.edges es).text = some (es.map Edge.row) := by
  have hlines : (es.map Edge.line).mapM Row.ofLine? = some (es.map Edge.row) := by
    induction es with
    | nil => rfl
    | cons e es ih =>
      rw [List.map_cons, List.mapM_cons, Edge.ofLine?_line, ih]
      rfl
  rw [Row.listOfText?, toList_edges_text]
  cases es with
  | nil => rfl
  | cons e es =>
    have hend : ∀ l ∈ (e :: es).map Edge.line, '\n' ∉ l := by
      intro l hl hc
      obtain ⟨f, -, rfl⟩ := List.mem_map.1 hl
      rcases Edge.isDigit_or_of_mem_line hc with h | h <;> exact absurd h (by decide)
    have hsplit := List.splitOn_intercalate '\n' hend (List.cons_ne_nil _ _)
    -- a text that splits into a line with digits is not empty
    have hne : ['\n'].intercalate ((e :: es).map Edge.line) ≠ [] := by
      intro hnil
      rw [hnil, List.splitOn_nil] at hsplit
      exact e.line_ne_nil (List.cons.inj hsplit).1.symm
    rw [if_neg hne, hsplit, hlines]

/-! ### Lists of edges -/

/-- A record with its keys in alphabetical order has the same members. -/
theorem exists_render_sorted {α : Type} (form : Form α) (a : α) :
    ∃ ms : List Member, ms.Perm (form.members a) ∧
      (Answer.sorted (form.value a)).render = objectText ms := by
  rw [Form.value_eq]
  refine ⟨_, ?_, Json.render_record _⟩
  have hsorted := (List.mergeSort_perm ((form.entries a).map fun e => (e.1, e.2.value))
    fun p q => decide (p.1 ≤ q.1)).map fun p => Member.ofValue p.1 p.2
  rw [List.map_map] at hsorted
  exact hsorted

/-- The members of a record may be sorted by their names: the record is read all the same. -/
theorem read_sorted (e : Edge) (rest : List Char) :
    Edge.form.read ((Answer.sorted (Edge.form.value e)).render.toList ++ rest) = .ok (e, rest) := by
  obtain ⟨ms, hperm, htext⟩ := exists_render_sorted Edge.form e
  rw [htext]
  refine Form.read_mixed (Edge.takes_entries e) ⟨[], ?_, List.forall_mem_nil _⟩ fun _ =>
    Edge.ofFound?_entries
  rwa [List.append_nil]

/-- **The JSON of a dump** is a list of its edges. -/
theorem listOfText?_edges_json (es : List Edge) :
    Edge.form.listOfText? (Answer.edges es).json.render = .ok es :=
  Form.listOfText?_eq read_sorted es

/-! ### Dumps of stores -/

/-- The store has a connection to spare, and its table is `t`, whose rows can be read. -/
structure Shows (s : Store) (t : Closure) : Prop where
  connects : s.connectFault? = none
  table : s.database.closure? = some t
  legible : t.Legible

variable {s : Store} {t w : Closure}

/-- A dump lists the edges that the rows are read as. -/
theorem Shows.dump (h : Shows s t) (verbose : Bool) :
    ∃ es, (Command.run verbose .dump).on s = (.ok (.edges es), s) ∧ es.map Edge.row = t.rows := by
  let scope : Scope := { database := s.database, access := s.access }
  have htable : scope.database.closure? = some t := h.table
  obtain ⟨es, hes, hrows⟩ := h.legible.edges htable
  refine ⟨es, ?_, hrows⟩
  have hlook : (Store.look Hierarchy.edges).on s = (.ok es, s) := by
    rw [Store.look_on h.connects, hes]
    show (_, s.after s.database []) = _
    rw [Store.after, List.append_nil]
  show (Answer.edges <$> Store.look Hierarchy.edges).on s = _
  rw [map_eq_pure_bind, StoreWork.on_bind_ok hlook]
  rfl

/-- A table is known by its rows. -/
theorem eq_of_rows (h : t.rows = w.rows) : t = w := by
  rw [← t.foldl_put_rows, h, w.foldl_put_rows]

/-- **Nothing is lost in a dump.** If a store has a table whose ids and depths can be read, a dump
    of it succeeds, and its text, split into lines and cells, as well as its JSON, read as a list of
    edges, give the rows of the table; an empty table comes to an empty text and an empty list.  The
    rows are in the order of their ancestors and then of their descendants, and each row of the
    table is one of them.  So two tables are equal if their dumps are, be it the texts or the
    JSON. -/
theorem dump_lossless :
    (∀ (s : Store) (t : Closure) (verbose : Bool), Shows s t → ∃ dump : Answer,
      (Command.run verbose .dump).on s = (.ok dump, s) ∧
      Row.listOfText? (dump.render false) = some t.rows ∧
      List.map Edge.row <$> Edge.form.listOfText? (dump.render true) = .ok t.rows ∧
      (t = .empty → dump.render false = "" ∧ dump.render true = "[]")) ∧
    (∀ t : Closure, (∀ a d k, ⟨a, d, k⟩ ∈ t.rows ↔ t.depth? a d = some k) ∧
      t.rows.Pairwise fun q r =>
        q.ancestor < r.ancestor ∨ q.ancestor = r.ancestor ∧ q.descendant < r.descendant) ∧
    ∀ (s u : Store) (t w : Closure) (verbose noisy asJson : Bool) (dump other : Answer),
      Shows s t → Shows u w → ((Command.run verbose .dump).on s).1 = .ok dump →
      ((Command.run noisy .dump).on u).1 = .ok other → dump.render asJson = other.render asJson →
      t = w := by
  have htext : ∀ es, Row.listOfText? ((Answer.edges es).render false) = some (es.map Edge.row) :=
    listOfText?_edges
  have hjson : ∀ es, Edge.form.listOfText? ((Answer.edges es).render true) = .ok es :=
    listOfText?_edges_json
  refine ⟨fun s t verbose h => ?_, fun t => ⟨fun a d k => Closure.mem_rows, ?_⟩, ?_⟩
  · obtain ⟨es, hdump, hrows⟩ := h.dump verbose
    refine ⟨.edges es, hdump, by rw [htext, hrows], by rw [hjson, ← hrows]; rfl, ?_⟩
    rintro rfl
    obtain rfl : es = [] := List.map_eq_nil_iff.1 hrows
    exact ⟨rfl, by decide⟩
  · exact t.rows_ordered.imp Pair.compare_eq_lt_iff.1
  · intro s u t w verbose noisy asJson dump other ht hw hdump hother heq
    obtain ⟨es, hes, hrows⟩ := ht.dump verbose
    obtain ⟨fs, hfs, hrows'⟩ := hw.dump noisy
    rw [hes] at hdump
    rw [hfs] at hother
    cases hdump
    cases hother
    -- what is read from the one dump is read from the other
    apply eq_of_rows
    rw [← hrows, ← hrows']
    cases asJson with
    | false => exact Option.some.inj ((htext es).symm.trans ((congrArg _ heq).trans (htext fs)))
    | true =>
      have hedges := (hjson es).symm.trans ((congrArg _ heq).trans (hjson fs))
      rw [Except.ok.inj hedges]

/-- Rows with the largest id and the largest depth that can be read, and a row of the id 0. -/
def widestRows : List Row :=
  [⟨0, 0, 0⟩, ⟨0, 9223372036854775807, 4294967295⟩, ⟨9223372036854775807, 9223372036854775807, 0⟩]

/-- The table of these rows. -/
def widest : Closure := (Closure.empty.fill widestRows.reverse).closure

/-- The dump of a table with the largest numbers, and that of a new store, which is not the same in
    either form. -/
theorem dump_lossless_widest :
    let s : Store := { path := "tenants.db", database := { table := some { closure := widest } } }
    let u : Store := .initial
    ∃ dump other : Answer, (Command.run false .dump).on s = (.ok dump, s) ∧
      (Command.run true .dump).on u = (.ok other, u) ∧
      Row.listOfText? (dump.render false) = some widestRows ∧
      List.map Edge.row <$> Edge.form.listOfText? (dump.render true) = .ok widestRows ∧
      other.render false = "" ∧ other.render true = "[]" ∧
      ∀ asJson, dump.render asJson ≠ other.render asJson := by
  intro s u
  have hs : Shows s widest := ⟨rfl, rfl, by decide +kernel⟩
  have hu : Shows u .empty :=
    ⟨Store.ready_initial.connectFault?, Store.closure?_initial, by decide +kernel⟩
  have hrows : widest.rows = widestRows := by decide +kernel
  obtain ⟨dump, hdump, htext, hjson, -⟩ := dump_lossless.1 s widest false hs
  obtain ⟨other, hother, -, -, hempty⟩ := dump_lossless.1 u .empty true hu
  obtain ⟨hemptyText, hemptyJson⟩ := hempty rfl
  rw [hrows] at htext hjson
  refine ⟨dump, other, hdump, hother, htext, hjson, hemptyText, hemptyJson, fun asJson heq => ?_⟩
  have hsame : widest = .empty := dump_lossless.2.2 s u _ _ false true asJson dump other hs hu
    (congrArg Prod.fst hdump) (congrArg Prod.fst hother) heq
  rw [hsame] at hrows
  exact absurd hrows (by decide +kernel)

end Admin

end Tenancy
