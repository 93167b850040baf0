import Mathlib.Data.List.Sort

/-! # A feed that is read page by page

Rows with a numeric key become visible in any order. A reader asks for the rows above its cursor, in the order of the
keys and at most `limit` of them, and moves its cursor to the last row of the page.

`Run` is an infinite run of such a reader beside whatever adds the rows. A row is seen, once and for good, exactly if
it becomes visible while the cursor is still below it (`Run.complete_iff`).
-/

namespace Feed

variable {α : Type} {key : α → Nat}

structure Reader (α : Type) where
  cursor : Nat
  seen : List α

/-- The relation of `ORDER BY key`. -/
def Below (key : α → Nat) (a b : α) : Prop := key a ≤ key b

instance : DecidableRel (Below key) := fun a b => inferInstanceAs (Decidable (key a ≤ key b))
instance : Std.Total (Below key) := ⟨fun a b => Nat.le_total (key a) (key b)⟩
instance : IsTrans α (Below key) := ⟨fun _ _ _ => Nat.le_trans⟩

/-- `WHERE key > cursor ORDER BY key`. -/
def rest (key : α → Nat) (cursor : Nat) (rows : List α) : List α :=
  (rows.filter fun r => decide (cursor < key r)).insertionSort (Below key)

/-- `LIMIT limit`. -/
def page (key : α → Nat) (cursor limit : Nat) (rows : List α) : List α := (rest key cursor rows).take limit

/-- The cursor after a page. -/
def nextCursor (key : α → Nat) (cursor : Nat) (events : List α) : Nat := events.getLast?.elim cursor key

def Reader.read (key : α → Nat) (limit : Nat) (rows : List α) (r : Reader α) : Reader α :=
  let events := page key r.cursor limit rows
  ⟨nextCursor key r.cursor events, r.seen ++ events⟩

/-! ## One page -/

section Page
variable {cursor limit : Nat} {rows : List α} {e : α}

theorem mem_rest : e ∈ rest key cursor rows ↔ e ∈ rows ∧ cursor < key e := by
  rw [rest, List.mem_insertionSort, List.mem_filter, decide_eq_true_eq]

theorem pairwise_rest : (rest key cursor rows).Pairwise (Below key) := List.pairwise_insertionSort _ _

theorem nodup_rest (h : (rows.map key).Nodup) : ((rest key cursor rows).map key).Nodup :=
  ((List.perm_insertionSort _ _).map key).nodup_iff.2 (h.sublist (List.filter_sublist.map key))

theorem mem_of_mem_page (h : e ∈ page key cursor limit rows) : e ∈ rows ∧ cursor < key e :=
  mem_rest.1 (List.mem_of_mem_take h)

theorem pairwise_page : (page key cursor limit rows).Pairwise (Below key) :=
  pairwise_rest.sublist (List.take_sublist _ _)

theorem nodup_page (h : (rows.map key).Nodup) : ((page key cursor limit rows).map key).Nodup :=
  (nodup_rest h).sublist ((List.take_sublist _ _).map key)

/-- The cursor after a page is the old one, or the key of a row of the page that no other is above. -/
theorem page_cases (key : α → Nat) (cursor limit : Nat) (rows : List α) :
    page key cursor limit rows = [] ∧ nextCursor key cursor (page key cursor limit rows) = cursor ∨
      ∃ last ∈ page key cursor limit rows, nextCursor key cursor (page key cursor limit rows) = key last ∧
        ∀ e ∈ page key cursor limit rows, key e ≤ key last := by
  have hpairs : (page key cursor limit rows).Pairwise (Below key) := pairwise_page
  rcases List.eq_nil_or_concat (page key cursor limit rows) with hnil | ⟨before, last, hlast⟩
  · rw [hnil]
    exact .inl ⟨rfl, rfl⟩
  · rw [hlast, List.concat_eq_append] at hpairs ⊢
    refine .inr ⟨last, by simp, by simp [nextCursor], fun e he => ?_⟩
    rcases List.mem_append.1 he with he | he
    · exact (List.pairwise_append.1 hpairs).2.2 e he last (.head _)
    · rw [List.mem_singleton.1 he]

theorem key_le_nextCursor (h : e ∈ page key cursor limit rows) :
    key e ≤ nextCursor key cursor (page key cursor limit rows) := by
  rcases page_cases key cursor limit rows with ⟨hnil, -⟩ | ⟨last, -, hnext, hle⟩
  · rw [hnil] at h
    cases h
  · rw [hnext]
    exact hle e h

theorem le_nextCursor : cursor ≤ nextCursor key cursor (page key cursor limit rows) := by
  rcases page_cases key cursor limit rows with ⟨-, hnext⟩ | ⟨last, hlast, hnext, -⟩
  · exact hnext.ge
  · rw [hnext]
    exact (mem_of_mem_page hlast).2.le

/-- A row above the cursor is on the page, or the cursor stays below it. -/
theorem mem_page_or_lt (hrows : (rows.map key).Nodup) (he : e ∈ rows) (hcursor : cursor < key e) :
    e ∈ page key cursor limit rows ∨ nextCursor key cursor (page key cursor limit rows) < key e := by
  have hsplit : page key cursor limit rows ++ (rest key cursor rows).drop limit = rest key cursor rows :=
    List.take_append_drop limit _
  have hmem : e ∈ rest key cursor rows := mem_rest.2 ⟨he, hcursor⟩
  rw [← hsplit, List.mem_append] at hmem
  refine hmem.imp_right fun hlater => ?_
  rcases page_cases key cursor limit rows with ⟨-, hnext⟩ | ⟨last, hlast, hnext, -⟩
  · rwa [hnext]
  · -- the last row of the page comes before `e`, and has another key
    have hpairs : (rest key cursor rows).Pairwise (Below key) := pairwise_rest
    have hkeys : ((rest key cursor rows).map key).Nodup := nodup_rest hrows
    rw [← hsplit] at hpairs hkeys
    rw [List.map_append] at hkeys
    have hle : key last ≤ key e := (List.pairwise_append.1 hpairs).2.2 last hlast e hlater
    have hne : key last ≠ key e :=
      (List.nodup_append.1 hkeys).2.2 _ (List.mem_map_of_mem hlast) _ (List.mem_map_of_mem hlater)
    rw [hnext]
    omega

/-- A page that may have a row above the cursor moves it. -/
theorem lt_nextCursor (hlimit : 0 < limit) (he : e ∈ rows) (hcursor : cursor < key e) :
    cursor < nextCursor key cursor (page key cursor limit rows) := by
  rcases page_cases key cursor limit rows with ⟨hnil, -⟩ | ⟨last, hlast, hnext, -⟩
  · have hmem : e ∈ rest key cursor rows := mem_rest.2 ⟨he, hcursor⟩
    have hempty : rest key cursor rows = [] := by
      by_contra hne
      have hlength := List.length_pos_iff.2 hne
      have hzero := congrArg List.length hnil
      rw [page, List.length_take, List.length_nil] at hzero
      omega
    rw [hempty] at hmem
    cases hmem
  · rw [hnext]
    exact (mem_of_mem_page hlast).2

end Page

/-! ## Runs -/

/-- An infinite run: at each step the reader reads what is visible, or does not. It starts at the beginning, rows stay
visible once they are, keys are unique, and the reader reads again and again. -/
structure Run (key : α → Nat) where
  rows : Nat → List α
  limit : Nat → Option Nat
  reader : Nat → Reader α
  rows_zero : rows 0 = []
  reader_zero : reader 0 = ⟨0, []⟩
  step : ∀ n, reader (n + 1) = (limit n).elim (reader n) fun limit => (reader n).read key limit (rows n)
  grows : ∀ n, rows n ⊆ rows (n + 1)
  distinct : ∀ n, ((rows n).map key).Nodup
  fair : ∀ n, ∃ m ≥ n, ∃ l, 0 < l ∧ limit m = some l

namespace Run

variable (run : Run key) {e : α} {n m : Nat}

theorem rows_mono (h : n ≤ m) : run.rows n ⊆ run.rows m := by
  induction h with
  | refl => exact fun _ he => he
  | step _ ih => exact fun _ he => run.grows _ (ih he)

theorem cursor_step : (run.reader n).cursor ≤ (run.reader (n + 1)).cursor := by
  rw [run.step]
  cases run.limit n with
  | none => exact le_rfl
  | some limit => exact le_nextCursor

/-- What has been seen was visible, has no key twice, and lies below the cursor. -/
theorem seen_invariant (n : Nat) : (run.reader n).seen ⊆ run.rows n ∧ ((run.reader n).seen.map key).Nodup ∧
    ∀ e ∈ (run.reader n).seen, key e ≤ (run.reader n).cursor := by
  induction n with
  | zero => simp [run.reader_zero]
  | succ n ih =>
    obtain ⟨hrows, hnodup, hbelow⟩ := ih
    rw [run.step]
    cases run.limit n with
    | none => exact ⟨fun _ he => run.grows n (hrows he), hnodup, hbelow⟩
    | some limit =>
      refine ⟨fun e he => run.grows n ?_, ?_, fun e he => ?_⟩
      · rcases List.mem_append.1 he with he | he
        · exact hrows he
        · exact (mem_of_mem_page he).1
      · simp only [Option.elim_some, Reader.read, List.map_append]
        refine List.nodup_append.2 ⟨hnodup, nodup_page (run.distinct n), fun a ha b hb hab => ?_⟩
        obtain ⟨e, he, rfl⟩ := List.mem_map.1 ha
        obtain ⟨e', he', rfl⟩ := List.mem_map.1 hb
        have := hbelow e he
        have := (mem_of_mem_page he').2
        omega
      · rcases List.mem_append.1 he with he | he
        · exact (hbelow e he).trans le_nextCursor
        · exact key_le_nextCursor he

/-- A visible row above the cursor is seen in the next step, or still above the cursor. -/
theorem seen_or_above_step (he : e ∈ run.rows n) (h : e ∈ (run.reader n).seen ∨ (run.reader n).cursor < key e) :
    e ∈ (run.reader (n + 1)).seen ∨ (run.reader (n + 1)).cursor < key e := by
  rw [run.step]
  cases run.limit n with
  | none => exact h
  | some limit =>
    rcases h with h | h
    · exact .inl (List.mem_append_left _ h)
    · exact (mem_page_or_lt (run.distinct n) he h).imp_left (List.mem_append_right _)

theorem seen_or_above (he : e ∈ run.rows n) (h : (run.reader n).cursor < key e) (hm : n ≤ m) :
    e ∈ (run.reader m).seen ∨ (run.reader m).cursor < key e := by
  induction hm with
  | refl => exact .inr h
  | step hm ih => exact run.seen_or_above_step (run.rows_mono hm he) ih

/-- A row that is visible above the cursor is seen. The distance of the cursor from the row is what decreases. -/
theorem exists_seen (he : e ∈ run.rows n) (h : (run.reader n).cursor < key e) : ∃ m, e ∈ (run.reader m).seen := by
  induction hd : key e - (run.reader n).cursor using Nat.strong_induction_on generalizing n with
  | _ d ih =>
    obtain ⟨m, hm, limit, hlimit, hread⟩ := run.fair n
    rcases run.seen_or_above he h hm with hseen | habove
    · exact ⟨m, hseen⟩
    · have hmono : (run.reader n).cursor ≤ (run.reader m).cursor :=
        monotone_nat_of_le_succ (f := fun n => (run.reader n).cursor) (fun _ => run.cursor_step) hm
      have hvisible := run.rows_mono hm he
      have hmoves : (run.reader m).cursor < (run.reader (m + 1)).cursor := by
        rw [run.step, hread]
        exact lt_nextCursor hlimit hvisible habove
      rcases run.seen_or_above_step hvisible (.inr habove) with hseen | habove'
      · exact ⟨m + 1, hseen⟩
      · exact ih _ (by omega) (run.grows m hvisible) habove' rfl

/-- A row that is not seen by the time the cursor has passed it is never seen. -/
theorem not_seen (he : e ∉ (run.reader n).seen) (h : key e ≤ (run.reader n).cursor) (hm : n ≤ m) :
    e ∉ (run.reader m).seen ∧ key e ≤ (run.reader m).cursor := by
  induction hm with
  | refl => exact ⟨he, h⟩
  | @step m _ ih =>
    refine ⟨?_, ih.2.trans run.cursor_step⟩
    rw [run.step]
    cases run.limit m with
    | none => exact ih.1
    | some limit =>
      intro hseen
      rcases List.mem_append.1 hseen with hseen | hpage
      · exact ih.1 hseen
      · exact absurd (mem_of_mem_page hpage).2 (not_lt.2 ih.2)

theorem seen_mono (hm : n ≤ m) : (run.reader n).seen ⊆ (run.reader m).seen := by
  induction hm with
  | refl => exact fun _ he => he
  | @step m _ ih =>
    rw [run.step]
    cases run.limit m with
    | none => exact ih
    | some limit => exact fun _ he => List.mem_append_left _ (ih he)

/-- A row that has just become visible has not been seen. -/
theorem not_seen_of_new (he : e ∉ run.rows n) : e ∉ (run.reader (n + 1)).seen := by
  rw [run.step]
  cases run.limit n with
  | none => exact fun hseen => he ((run.seen_invariant n).1 hseen)
  | some limit =>
    intro hseen
    rcases List.mem_append.1 hseen with hseen | hpage
    · exact he ((run.seen_invariant n).1 hseen)
    · exact he (mem_of_mem_page hpage).1

/-- The reader sees every row, once and for good, exactly if every row becomes visible above its cursor. -/
theorem complete_iff [DecidableEq α] :
    (∀ n, ∀ e ∈ run.rows n, ∃ m, ∀ k ≥ m, (run.reader k).seen.count e = 1) ↔
      ∀ n, ∀ e ∈ run.rows (n + 1), e ∉ run.rows n → (run.reader (n + 1)).cursor < key e := by
  constructor
  · intro h n e he hnew
    by_contra hpassed
    obtain ⟨m, hm⟩ := h (n + 1) e he
    have hnever := (run.not_seen (run.not_seen_of_new hnew) (not_lt.1 hpassed) (le_max_right m (n + 1))).1
    have hcount := hm _ (le_max_left m (n + 1))
    rw [List.count_eq_zero.2 hnever] at hcount
    cases hcount
  · intro h n
    induction n with
    | zero =>
      intro e he
      rw [run.rows_zero] at he
      cases he
    | succ n ih =>
      intro e he
      by_cases hold : e ∈ run.rows n
      · exact ih e hold
      · obtain ⟨m, hm⟩ := run.exists_seen he (h n e he hold)
        exact ⟨m, fun k hk => List.count_eq_one_of_mem (run.seen_invariant k).2.1.of_map (run.seen_mono hk hm)⟩

end Run

end Feed
