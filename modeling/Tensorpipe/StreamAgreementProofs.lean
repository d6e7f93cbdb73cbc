import Mathlib.Data.List.Basic
import Mathlib.Data.List.Infix
import Mathlib.Data.List.Nodup
import Mathlib.Tactic.Common

/-! # Two ends of a stream

    What one end has put into a stream and what the other end expects of it are two
    lists that must be the same as far as both go: the i-th entry of one meets the i-th
    entry of the other.  Which end is ahead is left open, and so is how far.

    `Agree` says so.  It is the same as one list being a beginning of the other
    (`agree_iff`), and therefore survives a filter: two ends that agree on everything
    agree on what concerns one lane only.  If two ends agree on their blocks they agree
    on the entries (`Agree.flatten`), and if no entry occurs twice, an end that has an
    entry at all has gone as far as the other end had when it had it (`Agree.reaches`).

    `Tally` is the other half of an end's books: of what it has issued, in order, what
    it still waits for.

    This file names no protocol. -/

namespace TpStream

variable {α β γ : Type} {l l' whole : List α}

/-- The two lists are the same as far as both go. -/
def Agree (l l' : List α) : Prop :=
  ∀ (i : Nat) (a b : α), l[i]? = some a → l'[i]? = some b → a = b

theorem getElem?_of_beginning (h : l <+: l') {k : Nat} {a : α} (hk : l[k]? = some a) :
    l'[k]? = some a := by
  obtain ⟨rest, rfl⟩ := h
  rw [List.getElem?_append_left (List.getElem?_eq_some_iff.mp hk).1]
  exact hk

theorem Agree.symm (h : Agree l l') : Agree l' l := by
  intro i a b ha hb
  exact (h i b a hb ha).symm

/-- Of two lists that agree, the shorter one begins the other. -/
theorem Agree.prefix_of_le (h : Agree l l') (hle : l.length ≤ l'.length) : l <+: l' := by
  rw [List.prefix_iff_getElem?]
  intro i hi
  have hi' : i < l'.length := Nat.lt_of_lt_of_le hi hle
  rw [List.getElem?_eq_getElem hi',
    h i l[i] l'[i] (List.getElem?_eq_getElem hi) (List.getElem?_eq_getElem hi')]

theorem agree_iff : Agree l l' ↔ l <+: l' ∨ l' <+: l := by
  constructor
  · intro h
    rcases Nat.le_total l.length l'.length with hle | hle
    · exact Or.inl (h.prefix_of_le hle)
    · exact Or.inr (h.symm.prefix_of_le hle)
  · rintro (h | h)
    · intro i a b ha hb
      exact Option.some.inj ((getElem?_of_beginning h ha).symm.trans hb)
    · intro i a b ha hb
      exact Option.some.inj (ha.symm.trans (getElem?_of_beginning h hb))

/-- Two beginnings of one list agree. -/
theorem agree_of_prefix (h : l <+: whole) (h' : l' <+: whole) : Agree l l' :=
  agree_iff.mpr (List.prefix_or_prefix_of_prefix h h')

/-- A list agrees with what begins, or continues, another one it begins. -/
theorem agree_of_around (h : l <+: whole) (h' : l' <+: whole ∨ whole <+: l') : Agree l l' := by
  rcases h' with hin | hover
  · exact agree_of_prefix h hin
  · exact agree_iff.mpr (Or.inl (h.trans hover))

theorem Agree.filterMap (h : Agree l l') (f : α → Option β) :
    Agree (l.filterMap f) (l'.filterMap f) := by
  rw [agree_iff] at h ⊢
  exact h.imp (fun hp => hp.filterMap f) (fun hp => hp.filterMap f)

theorem Agree.filter (h : Agree l l') (p : α → Bool) : Agree (l.filter p) (l'.filter p) := by
  rw [agree_iff] at h ⊢
  exact h.imp (fun hp => hp.filter p) (fun hp => hp.filter p)

theorem Agree.flatten {l l' : List (List α)} (h : Agree l l') :
    Agree l.flatten l'.flatten := by
  rw [agree_iff] at h ⊢
  exact h.imp (fun hp => hp.flatten) (fun hp => hp.flatten)

/-- Entries of one kind, each seen for what it is. -/
theorem filterMap_map_some {f : α → β} {k : β → Option γ} {h : α → γ}
    (hk : ∀ a, k (f a) = some (h a)) (l : List α) : (l.map f).filterMap k = l.map h := by
  rw [List.filterMap_map, ← List.filterMap_eq_map]
  refine congrArg (fun q => List.filterMap q l) ?_
  funext a
  exact hk a

/-- Where a kind is read off the entries that have one. -/
theorem getElem?_filterMap {f : α → Option β} {p : α → Bool} (hp : ∀ a, p a = (f a).isSome) :
    ∀ (l : List α) (i : Nat) (a : α), (l.filter p)[i]? = some a → (l.filterMap f)[i]? = f a := by
  intro l
  induction l with
  | nil =>
      intro i a h
      rw [List.filter_nil, List.getElem?_nil] at h
      exact absurd h (Option.some_ne_none a).symm
  | cons x rest ih =>
      intro i a h
      cases hf : f x with
      | none =>
          rw [List.filter_cons_of_neg (by simp [hp, hf])] at h
          rw [List.filterMap_cons_none hf]
          exact ih i a h
      | some y =>
          rw [List.filter_cons_of_pos (by simp [hp, hf])] at h
          rw [List.filterMap_cons_some hf]
          cases i with
          | zero =>
              obtain rfl := Option.some.inj h
              exact hf.symm
          | succ i => exact ih i a h

/-- Two ends that agree on the kinds of their entries, seen at the entries. -/
theorem Agree.kinds {l : List α} {l' : List β} {f : α → Option γ} {f' : β → Option γ}
    {p : α → Bool} {p' : β → Bool} (h : Agree (l.filterMap f) (l'.filterMap f'))
    (hp : ∀ a, p a = (f a).isSome) (hp' : ∀ b, p' b = (f' b).isSome) {i : Nat} {a : α} {b : β}
    (ha : (l.filter p)[i]? = some a) (hb : (l'.filter p')[i]? = some b) : f a = f' b := by
  have hsome : (f a).isSome = true :=
    (hp a).symm.trans (List.mem_filter.mp (List.mem_of_getElem? ha)).2
  have hsome' : (f' b).isSome = true :=
    (hp' b).symm.trans (List.mem_filter.mp (List.mem_of_getElem? hb)).2
  obtain ⟨x, hx⟩ := Option.isSome_iff_exists.mp hsome
  obtain ⟨y, hy⟩ := Option.isSome_iff_exists.mp hsome'
  rw [hx, hy]
  refine congrArg some (h i x y ?_ ?_)
  · rw [getElem?_filterMap hp l i a ha, hx]
  · rw [getElem?_filterMap hp' l' i b hb, hy]

/-- An entry that both ends have stands at the same place, if no entry stands at two. -/
theorem Agree.reaches (h : Agree l l') (hnodup : l.Nodup) {i : Nat} {a : α}
    (ha : l[i]? = some a) (hmem : a ∈ l') : i < l'.length := by
  by_contra hlt
  obtain ⟨j, hj⟩ := List.getElem?_of_mem hmem
  have hi : i < l.length := (List.getElem?_eq_some_iff.mp ha).1
  have hj' : j < l'.length := (List.getElem?_eq_some_iff.mp hj).1
  have hpre : l' <+: l := h.symm.prefix_of_le (by omega)
  have hsame : i = j :=
    (List.getElem?_inj hi hnodup).mp (ha.trans (getElem?_of_beginning hpre hj).symm)
  omega

/-- Entries that carry the number of their block are all different, if those of each
    block are. -/
theorem nodup_flatMap_zipIdx {f : α × Nat → List β} {l : List α} (number : β → Nat)
    (hblock : ∀ p ∈ l.zipIdx, (f p).Nodup)
    (hnumber : ∀ p ∈ l.zipIdx, ∀ b ∈ f p, number b = p.2) : (l.zipIdx.flatMap f).Nodup := by
  rw [List.nodup_flatMap]
  refine ⟨hblock, ?_⟩
  have hne : l.zipIdx.Pairwise (fun p q => p.2 ≠ q.2) := by
    have hmap : (l.zipIdx.map Prod.snd).Nodup := by
      rw [List.zipIdx_map_snd]
      exact List.nodup_range'
    exact List.pairwise_map.mp hmap
  refine hne.imp_of_mem ?_
  intro p q hp hq hpq b hbp hbq
  exact hpq ((hnumber p hp b hbp).symm.trans (hnumber q hq b hbq))

/-- The same for blocks of one entry each. -/
theorem nodup_map_zipIdx {f : α × Nat → β} {l : List α} (number : β → Nat)
    (hnumber : ∀ p, number (f p) = p.2) : (l.zipIdx.map f).Nodup := by
  have hblock : ∀ p ∈ l.zipIdx, ∀ b ∈ [f p], number b = p.2 := by
    intro p _ b hb
    obtain rfl := List.mem_singleton.mp hb
    exact hnumber p
  rw [List.map_eq_flatMap]
  exact nodup_flatMap_zipIdx number (fun _ _ => List.nodup_singleton _) hblock

-- ── What one end still waits for ─────────────────────────────────────────────

/-- What is pending of what was issued.  On the stream that `f` picks out, the first
    `taken` entries have come back, in order, and the rest is pending. -/
structure Tally (f : α → Option β) (taken : Nat) (pending issued : List α) : Prop where
  rest : pending.filterMap f = (issued.filterMap f).drop taken
  bound : taken ≤ (issued.filterMap f).length
  subset : pending ⊆ issued

theorem filterMap_erase_none [DecidableEq α] {f : α → Option β} {a : α} (hf : f a = none)
    (l : List α) : (l.erase a).filterMap f = l.filterMap f := by
  induction l with
  | nil => rfl
  | cons x xs ih =>
      by_cases hx : x = a
      · obtain rfl := hx
        rw [List.erase_cons_head, List.filterMap_cons_none hf]
      · rw [List.erase_cons_tail (by simpa using hx), List.filterMap_cons, List.filterMap_cons,
          ih]

/-- Erasing the only entry of the stream that looks like its first one. -/
theorem filterMap_erase_first [DecidableEq α] {f : α → Option β} {a : α} {b : β}
    {later : List β} (hf : f a = some b) (honly : ∀ x, f x = some b → x = a) :
    ∀ l : List α, l.filterMap f = b :: later → (l.erase a).filterMap f = later := by
  intro l
  induction l with
  | nil => exact fun h => absurd h.symm (List.cons_ne_nil b later)
  | cons x xs ih =>
      intro h
      by_cases hx : x = a
      · obtain rfl := hx
        rw [List.filterMap_cons_some hf] at h
        rw [List.erase_cons_head]
        exact (List.cons.inj h).2
      · rw [List.erase_cons_tail (by simpa using hx)]
        cases hfx : f x with
        | none =>
            rw [List.filterMap_cons_none hfx] at h ⊢
            exact ih h
        | some y =>
            rw [List.filterMap_cons_some hfx] at h
            exact absurd (honly x (hfx.trans (congrArg some (List.cons.inj h).1))) hx

namespace Tally

variable {f : α → Option β} {taken : Nat} {pending issued : List α} {a : α} {b : β}

theorem init (f : α → Option β) : Tally f 0 [] [] :=
  ⟨rfl, Nat.le_refl 0, List.Subset.refl []⟩

theorem issue (h : Tally f taken pending issued) (calls : List α) :
    Tally f taken (pending ++ calls) (issued ++ calls) where
  rest := by
    rw [List.filterMap_append, List.filterMap_append, List.drop_append_of_le_length h.bound,
      h.rest]
  bound := by
    rw [List.filterMap_append, List.length_append]
    exact Nat.le_trans h.bound (Nat.le_add_right _ _)
  subset := by
    intro x hx
    rcases List.mem_append.mp hx with hold | hnew
    · exact List.mem_append_left _ (h.subset hold)
    · exact List.mem_append_right _ hnew

/-- Something comes back that is not on the stream. -/
theorem erase_other [DecidableEq α] (h : Tally f taken pending issued) (hf : f a = none) :
    Tally f taken (pending.erase a) issued where
  rest := (filterMap_erase_none hf pending).trans h.rest
  bound := h.bound
  subset := fun _ hx => h.subset (List.mem_of_mem_erase hx)

/-- The oldest entry of the stream that is pending comes back. -/
theorem erase_oldest [DecidableEq α] (h : Tally f taken pending issued)
    (hb : (issued.filterMap f)[taken]? = some b) (hf : f a = some b)
    (honly : ∀ x, f x = some b → x = a) : Tally f (taken + 1) (pending.erase a) issued where
  rest := by
    refine filterMap_erase_first hf honly pending (h.rest.trans ?_)
    have hlt := (List.getElem?_eq_some_iff.mp hb).1
    rw [List.drop_eq_getElem_cons hlt]
    rw [List.getElem?_eq_getElem hlt] at hb
    exact congrArg (fun x => x :: _) (Option.some.inj hb)
  bound := (List.getElem?_eq_some_iff.mp hb).1
  subset := fun _ hx => h.subset (List.mem_of_mem_erase hx)

/-- Where a pending entry of the stream stands in it: among those not taken. -/
theorem place (h : Tally f taken pending issued) (ha : a ∈ pending) (hf : f a = some b) :
    ∃ i, taken ≤ i ∧ (issued.filterMap f)[i]? = some b := by
  have hmem : b ∈ pending.filterMap f := List.mem_filterMap.mpr ⟨a, ha, hf⟩
  rw [h.rest] at hmem
  obtain ⟨k, hk⟩ := List.getElem?_of_mem hmem
  rw [List.getElem?_drop] at hk
  exact ⟨taken + k, Nat.le_add_right _ _, hk⟩

end Tally

end TpStream
