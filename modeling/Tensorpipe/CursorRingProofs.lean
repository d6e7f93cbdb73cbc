import Mathlib.Data.Fin.Basic
import Mathlib.Data.List.Range
import Mathlib.Order.Fin.Basic
import Mathlib.Order.Interval.Finset.Nat

/-! # Cursors chasing each other round a ring

    A fixed number of cursors run along an unbounded tape, each behind the next, and
    the last at most one turn of `cap` cells ahead of the first.  A cursor may claim
    the cells up to its LIMIT: the next cursor, or, for the last one, the first
    cursor a turn later.

    The cells live in a memory of size `cap`, a position `p` at `p % cap`.

    * `InOrder.advance`: a cursor that moves within its limit keeps the order;
    * `InOrder.claims_disjoint`: what two cursors may claim never meets in memory;
    * `Shows`: the memory shows a stretch of the tape, and what reading, writing,
      moving on and appending do to it.

    Nothing here knows about bytes, transactions or machine integers. -/

namespace TpCursorRing

-- ── The order of the cursors ─────────────────────────────────────────────────

section Cursors

variable {n cap : Nat} {pos : Fin (n + 1) → Nat}

/-- Each cursor is behind the next, and the last is within a turn of the first. -/
structure InOrder (cap : Nat) (pos : Fin (n + 1) → Nat) : Prop where
  mono : Monotone pos
  turn : pos (Fin.last n) ≤ pos 0 + cap

/-- How far a cursor may go. -/
def limit (cap : Nat) (pos : Fin (n + 1) → Nat) (r : Fin (n + 1)) : Nat :=
  pos (r + 1) + (if r = Fin.last n then cap else 0)

theorem limit_last : limit cap pos (Fin.last n) = pos 0 + cap := by
  rw [limit, if_pos rfl, Fin.last_add_one]

theorem limit_of_ne {r : Fin (n + 1)} (h : r ≠ Fin.last n) :
    limit cap pos r = pos (r + 1) := by
  rw [limit, if_neg h, Nat.add_zero]

theorem InOrder.init (cap : Nat) : InOrder cap (fun _ : Fin (n + 1) => 0) :=
  ⟨fun _ _ _ => Nat.le_refl 0, Nat.zero_le _⟩

theorem succ_le_of_lt {r s : Fin (n + 1)} (h : r < s) : r ≠ Fin.last n ∧ r + 1 ≤ s := by
  have hne : r ≠ Fin.last n := Fin.ne_last_of_lt h
  refine ⟨hne, ?_⟩
  rw [Fin.le_iff_val_le_val, Fin.val_add_one, if_neg hne]
  exact h

/-- A cursor below another one cannot go past it. -/
theorem InOrder.limit_le (h : InOrder cap pos) {r s : Fin (n + 1)} (hrs : r < s) :
    limit cap pos r ≤ pos s := by
  obtain ⟨hne, hle⟩ := succ_le_of_lt hrs
  rw [limit_of_ne hne]
  exact h.mono hle

theorem InOrder.le_limit (h : InOrder cap pos) (r : Fin (n + 1)) :
    pos r ≤ limit cap pos r := by
  by_cases hr : r = Fin.last n
  · rw [hr, limit_last]
    exact h.turn
  · rw [limit_of_ne hr]
    refine h.mono ?_
    rw [Fin.le_iff_val_le_val, Fin.val_add_one, if_neg hr]
    exact Nat.le_succ _

/-- No cursor may claim more than a turn past the first. -/
theorem InOrder.limit_turn (h : InOrder cap pos) (r : Fin (n + 1)) :
    limit cap pos r ≤ pos 0 + cap := by
  by_cases hr : r = Fin.last n
  · rw [hr, limit_last]
  · rw [limit_of_ne hr]
    exact Nat.le_trans (h.mono (Fin.le_last _)) h.turn

/-- Moving a cursor within its limit. -/
theorem InOrder.advance (h : InOrder cap pos) {r : Fin (n + 1)} {k : Nat}
    (hk : pos r + k ≤ limit cap pos r) :
    InOrder cap (Function.update pos r (pos r + k)) := by
  have hup : ∀ s, pos s ≤ Function.update pos r (pos r + k) s := by
    intro s
    by_cases hs : s = r
    · subst hs
      rw [Function.update_self]
      exact Nat.le_add_right _ _
    · rw [Function.update_of_ne hs]
  constructor
  · intro s t hst
    by_cases hs : s = r
    · subst hs
      rw [Function.update_self]
      rcases Fin.lt_or_eq_of_le hst with hlt | rfl
      · rw [Function.update_of_ne (Fin.ne_of_gt hlt)]
        exact Nat.le_trans hk (h.limit_le hlt)
      · rw [Function.update_self]
    · rw [Function.update_of_ne hs]
      exact Nat.le_trans (h.mono hst) (hup t)
  · by_cases hl : Fin.last n = r
    · subst hl
      rw [Function.update_self]
      rw [limit_last] at hk
      exact Nat.le_trans hk (Nat.add_le_add_right (hup 0) cap)
    · rw [Function.update_of_ne hl]
      exact Nat.le_trans h.turn (Nat.add_le_add_right (hup 0) cap)

/-- When a cursor moves, the limit of the others can only grow. -/
theorem limit_mono {pos' : Fin (n + 1) → Nat} (h : ∀ s, pos s ≤ pos' s) (r : Fin (n + 1)) :
    limit cap pos r ≤ limit cap pos' r :=
  Nat.add_le_add_right (h _) _

/-- Positions within one turn have their own cells. -/
theorem cell_injective {base p q : Nat} (hp : base ≤ p ∧ p < base + cap)
    (hq : base ≤ q ∧ q < base + cap) (h : p % cap = q % cap) : p = q :=
  Nat.mod_injOn_Ico base cap (Finset.mem_coe.mpr (Finset.mem_Ico.mpr hp))
    (Finset.mem_coe.mpr (Finset.mem_Ico.mpr hq)) h

/-- A cursor may claim cells within the turn that starts at the first cursor. -/
theorem InOrder.claim_turn (h : InOrder cap pos) {r : Fin (n + 1)} {p : Nat}
    (hp : pos r ≤ p ∧ p < limit cap pos r) : pos 0 ≤ p ∧ p < pos 0 + cap :=
  ⟨Nat.le_trans (h.mono (Fin.zero_le r)) hp.1, Nat.lt_of_lt_of_le hp.2 (h.limit_turn r)⟩

/-- **Exclusion.**  What two cursors may claim never meets in memory. -/
theorem InOrder.claims_disjoint (h : InOrder cap pos) {r s : Fin (n + 1)} (hne : r ≠ s)
    {p q : Nat} (hp : pos r ≤ p ∧ p < limit cap pos r)
    (hq : pos s ≤ q ∧ q < limit cap pos s) : p % cap ≠ q % cap := by
  intro hcell
  have hpq : p = q := cell_injective (h.claim_turn hp) (h.claim_turn hq) hcell
  subst hpq
  rcases lt_or_gt_of_ne hne with hlt | hlt
  · exact Nat.lt_irrefl p (Nat.lt_of_lt_of_le hp.2 (Nat.le_trans (h.limit_le hlt) hq.1))
  · exact Nat.lt_irrefl p (Nat.lt_of_lt_of_le hq.2 (Nat.le_trans (h.limit_le hlt) hp.1))

end Cursors

-- ── Cells of consecutive positions ───────────────────────────────────────────

/-- The cells of `k` positions from `p` on. -/
def cells (cap p k : Nat) : List Nat := (List.range' p k).map (· % cap)

theorem cells_length (cap p k : Nat) : (cells cap p k).length = k := by
  rw [cells, List.length_map, List.length_range']

theorem cells_zero (cap p : Nat) : cells cap p 0 = [] := rfl

theorem cells_append (cap p k l : Nat) :
    cells cap p k ++ cells cap (p + k) l = cells cap p (k + l) := by
  rw [cells, cells, cells, ← List.map_append, List.range'_append_1]

theorem cells_succ (cap p k : Nat) : cells cap p (k + 1) = p % cap :: cells cap (p + 1) k :=
  rfl

theorem mem_cells {cap p k c : Nat} : c ∈ cells cap p k ↔ ∃ q, p ≤ q ∧ q < p + k ∧ q % cap = c := by
  rw [cells, List.mem_map]
  constructor
  · rintro ⟨q, hq, rfl⟩
    obtain ⟨h1, h2⟩ := List.mem_range'_1.mp hq
    exact ⟨q, h1, h2, rfl⟩
  · rintro ⟨q, h1, h2, rfl⟩
    exact ⟨q, List.mem_range'_1.mpr ⟨h1, h2⟩, rfl⟩

theorem cells_getElem? {cap p k j : Nat} (h : j < k) :
    (cells cap p k)[j]? = some ((p + j) % cap) := by
  rw [cells, List.getElem?_map, List.getElem?_range' h, Nat.one_mul]
  rfl

/-- Positions that do not cross the end of the memory have consecutive cells. -/
theorem cells_straight {cap p k : Nat} (h : p % cap + k ≤ cap) :
    cells cap p k = List.range' (p % cap) k := by
  induction k generalizing p with
  | zero => rfl
  | succ k ih =>
      rw [cells_succ, List.range'_succ]
      congr 1
      cases k with
      | zero => rfl
      | succ k =>
          have hmod : (p + 1) % cap = p % cap + 1 := by
            rw [Nat.add_mod_eq_add_mod_right 1 (Nat.mod_mod p cap).symm]
            exact Nat.mod_eq_of_lt (by omega)
          rw [ih (by omega), hmod]

/-- Positions that do cross it continue at the start. -/
theorem cells_wrapped {cap p k : Nat} (hcap : 0 < cap) (h : cap < p % cap + k) (hk : k ≤ cap) :
    cells cap p k
      = List.range' (p % cap) (cap - p % cap) ++ List.range' 0 (p % cap + k - cap) := by
  have hlt := Nat.mod_lt p hcap
  have hsplit : k = (cap - p % cap) + (p % cap + k - cap) := by omega
  have hzero : (p + (cap - p % cap)) % cap = 0 := by
    have hdvd : p + (cap - p % cap) = cap * (p / cap) + cap := by
      have := Nat.div_add_mod p cap
      omega
    rw [hdvd, Nat.add_mod_right, Nat.mul_mod_right]
  rw [show cells cap p k = cells cap p ((cap - p % cap) + (p % cap + k - cap)) by
    rw [← hsplit], ← cells_append]
  rw [cells_straight (by omega), cells_straight (by rw [hzero]; omega), hzero]

-- ── Memory ───────────────────────────────────────────────────────────────────

section Memory

variable {β : Type} {cap lo : Nat} {mem : Nat → β} {tape : List β}

/-- Copy values into these cells. -/
def store (mem : Nat → β) : List Nat → List β → Nat → β
  | a :: as, b :: bs => store (Function.update mem a b) as bs
  | _, _ => mem

/-- Overwrite a stretch of a tape. -/
def overwrite (tape : List β) (p : Nat) : List β → List β
  | [] => tape
  | b :: bs => overwrite (tape.set p b) (p + 1) bs

theorem overwrite_length (bs : List β) (p : Nat) (tape : List β) :
    (overwrite tape p bs).length = tape.length := by
  induction bs generalizing p tape with
  | nil => rfl
  | cons b bs ih => rw [overwrite, ih, List.length_set]

theorem overwrite_append {tail : List β} (bs : List β) {p : Nat} {tape : List β}
    (h : p + bs.length ≤ tape.length) :
    overwrite (tape ++ tail) p bs = overwrite tape p bs ++ tail := by
  induction bs generalizing p tape with
  | nil => rfl
  | cons b bs ih =>
      rw [List.length_cons] at h
      rw [overwrite, overwrite, List.set_append_left _ _ (by omega), ih]
      rw [List.length_set]
      omega

/-- What comes before is not touched. -/
theorem overwrite_take {lo : Nat} (bs : List β) {p : Nat} {tape : List β} (h : lo ≤ p) :
    (overwrite tape p bs).take lo = tape.take lo := by
  induction bs generalizing p tape with
  | nil => rfl
  | cons b bs ih => rw [overwrite, ih (by omega), List.take_set_of_le h]

/-- The memory shows the tape from `lo` on. -/
structure Shows (cap : Nat) (mem : Nat → β) (lo : Nat) (tape : List β) : Prop where
  cell : ∀ p, lo ≤ p → ∀ b, tape[p]? = some b → mem (p % cap) = b
  fits : tape.length ≤ lo + cap

/-- Reading a stretch of what is shown. -/
theorem Shows.read (h : Shows cap mem lo tape) {p k : Nat} (hp : lo ≤ p)
    (hk : p + k ≤ tape.length) : (cells cap p k).map mem = (tape.drop p).take k := by
  refine List.ext_getElem? (fun j => ?_)
  by_cases hj : j < k
  · rw [List.getElem?_map, cells_getElem? hj, List.getElem?_take_of_lt hj, List.getElem?_drop]
    have hlt : p + j < tape.length := by omega
    rw [List.getElem?_eq_getElem hlt, Option.map_some]
    rw [h.cell (p + j) (by omega) _ (List.getElem?_eq_getElem hlt)]
  · rw [List.getElem?_eq_none (by rw [List.length_map, cells_length]; omega),
      List.getElem?_eq_none (by rw [List.length_take]; omega)]

/-- Writing one cell of what is shown. -/
theorem Shows.set (h : Shows cap mem lo tape) {p : Nat} (hp : lo ≤ p) (hlt : p < tape.length)
    (b : β) : Shows cap (Function.update mem (p % cap) b) lo (tape.set p b) := by
  constructor
  · intro q hq c hc
    have hqlt : q < tape.length := by
      have := (List.getElem?_eq_some_iff.mp hc).1
      rwa [List.length_set] at this
    have hfits := h.fits
    rw [List.getElem?_set] at hc
    by_cases hqp : p = q
    · subst hqp
      rw [if_pos rfl, if_pos hlt] at hc
      rw [Function.update_self]
      exact Option.some.inj hc
    · rw [if_neg hqp] at hc
      have hne : q % cap ≠ p % cap :=
        fun hcell => hqp (cell_injective ⟨hp, by omega⟩ ⟨hq, by omega⟩ hcell.symm)
      rw [Function.update_of_ne hne]
      exact h.cell q hq c hc
  · rw [List.length_set]
    exact h.fits

/-- Writing a cell that nothing is shown in. -/
theorem Shows.beyond (h : Shows cap mem lo tape) {p : Nat} (hp : tape.length ≤ p)
    (hlo : lo ≤ p) (hlt : p < lo + cap) (b : β) :
    Shows cap (Function.update mem (p % cap) b) lo tape := by
  refine ⟨fun q hq c hc => ?_, h.fits⟩
  have hqlt := (List.getElem?_eq_some_iff.mp hc).1
  have hne : q % cap ≠ p % cap := by
    intro hcell
    have hqp : q = p := cell_injective ⟨hq, by omega⟩ ⟨hlo, hlt⟩ hcell
    omega
  rw [Function.update_of_ne hne]
  exact h.cell q hq c hc

/-- Copying over a stretch of what is shown. -/
theorem Shows.store (bs : List β) {p : Nat} {mem : Nat → β} {tape : List β}
    (h : Shows cap mem lo tape) (hp : lo ≤ p) (hk : p + bs.length ≤ tape.length) :
    Shows cap (store mem (cells cap p bs.length) bs) lo (overwrite tape p bs) := by
  induction bs generalizing p mem tape with
  | nil => exact h
  | cons b bs ih =>
      rw [List.length_cons] at hk ⊢
      rw [cells_succ, TpCursorRing.store, overwrite]
      refine ih (h.set hp (by omega) b) (by omega) ?_
      rw [List.length_set]
      omega

/-- Copying past what is shown. -/
theorem Shows.storeBeyond (bs : List β) {p : Nat} {mem : Nat → β}
    (h : Shows cap mem lo tape) (hp : tape.length ≤ p) (hlo : lo ≤ p)
    (hk : p + bs.length ≤ lo + cap) :
    Shows cap (TpCursorRing.store mem (cells cap p bs.length) bs) lo tape := by
  induction bs generalizing p mem with
  | nil => exact h
  | cons b bs ih =>
      rw [List.length_cons] at hk ⊢
      rw [cells_succ, TpCursorRing.store]
      exact ih (h.beyond hp hlo (by omega) b) (by omega) (by omega) (by omega)

/-- What was copied can be read back. -/
theorem store_read (bs : List β) {p : Nat} {mem : Nat → β} (hk : bs.length ≤ cap) :
    (cells cap p bs.length).map (store mem (cells cap p bs.length) bs) = bs := by
  have hkeep : ∀ (cs : List β) (q : Nat) (m : Nat → β) (c : Nat),
      (∀ j < cs.length, (q + j) % cap ≠ c) → store m (cells cap q cs.length) cs c = m c := by
    intro cs
    induction cs with
    | nil => intro q m c _; rfl
    | cons b cs ih =>
        intro q m c hne
        rw [List.length_cons, cells_succ, store, ih (q + 1)]
        · refine Function.update_of_ne ?_ _ _
          exact (hne 0 (by simp)).symm
        · intro j hj
          rw [show q + 1 + j = q + (j + 1) by omega]
          exact hne (j + 1) (by rw [List.length_cons]; omega)
  induction bs generalizing p mem with
  | nil => rfl
  | cons b bs ih =>
      rw [List.length_cons] at hk
      rw [List.length_cons, cells_succ, store, List.map_cons, ih (by omega)]
      congr 1
      rw [hkeep, Function.update_self]
      intro j hj hcell
      have hlow : p ≤ p ∧ p < p + cap := ⟨Nat.le_refl p, by omega⟩
      have hhigh : p ≤ p + 1 + j ∧ p + 1 + j < p + cap := ⟨by omega, by omega⟩
      have hqp := cell_injective hhigh hlow hcell
      omega

/-- Appending the values that the next cells hold. -/
theorem Shows.append (h : Shows cap mem lo tape) {k : Nat} (hk : tape.length + k ≤ lo + cap) :
    Shows cap mem lo (tape ++ (cells cap tape.length k).map mem) := by
  constructor
  · intro p hp b hb
    by_cases hlt : p < tape.length
    · rw [List.getElem?_append_left hlt] at hb
      exact h.cell p hp b hb
    · have hle := Nat.le_of_not_lt hlt
      rw [List.getElem?_append_right hle, List.getElem?_map] at hb
      by_cases hj : p - tape.length < k
      · rw [cells_getElem? hj, Nat.add_sub_cancel' hle] at hb
        exact Option.some.inj hb
      · rw [List.getElem?_eq_none (by rw [cells_length]; omega)] at hb
        exact nomatch hb
  · rw [List.length_append, List.length_map, cells_length]
    exact hk

/-- Copying the next values of the tape. -/
theorem Shows.extend (h : Shows cap mem lo tape) (bs : List β) (hlo : lo ≤ tape.length)
    (hk : tape.length + bs.length ≤ lo + cap) :
    Shows cap (TpCursorRing.store mem (cells cap tape.length bs.length) bs) lo (tape ++ bs) := by
  have hstored := (h.storeBeyond bs (Nat.le_refl _) hlo hk).append hk
  rwa [store_read bs (by omega)] at hstored

/-- Reading on within a tape of which only a part is shown yet. -/
theorem Shows.readNext (h : Shows cap mem lo tape) {whole taken left : List β}
    (hpart : tape <+: whole) (hwhole : taken ++ left = whole) (hlo : lo ≤ taken.length) {k : Nat}
    (hk : taken.length + k ≤ tape.length) :
    (cells cap taken.length k).map mem = left.take k ∧ k ≤ left.length := by
  obtain ⟨rest, rfl⟩ := hpart
  have hdrop : (tape ++ rest).drop taken.length = left := by
    rw [← hwhole, List.drop_left]
  rw [List.drop_append_of_le_length (by omega)] at hdrop
  have hlen : k ≤ (tape.drop taken.length).length := by
    rw [List.length_drop]
    omega
  rw [h.read hlo hk, ← hdrop, List.take_append_of_le_length hlen]
  refine ⟨rfl, Nat.le_trans hlen ?_⟩
  rw [List.length_append]
  exact Nat.le_add_right _ _

/-- Showing less. -/
theorem Shows.mono (h : Shows cap mem lo tape) {lo' : Nat} (hlo : lo ≤ lo') :
    Shows cap mem lo' tape :=
  ⟨fun p hp b hb => h.cell p (Nat.le_trans hlo hp) b hb,
    Nat.le_trans h.fits (Nat.add_le_add_right hlo cap)⟩

theorem Shows.nil (cap : Nat) (mem : Nat → β) (lo : Nat) : Shows cap mem lo [] :=
  ⟨(fun _ _ _ hb => nomatch hb), Nat.zero_le _⟩

end Memory

end TpCursorRing
