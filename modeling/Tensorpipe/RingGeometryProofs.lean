import Mathlib.Tactic.Common
import Tensorpipe.RingBufferInvariantProofs

/-! # The areas of one access

    `accessContiguous` decides whether a grant wraps by comparing masked positions.  The
    addresses it hands out are known (`accessContiguous_spec`); here is how they come cut into
    areas.

    The idea of the proof: each area is not empty by the way it is computed, and an area that
    is not empty and whose addresses are all inside the data lies inside the data. -/

namespace TpRing

open TpCursorRing

-- ── One call ─────────────────────────────────────────────────────────────────

/-- One call of an instance whose reads of the two markers give `tail` and `head`: what it
    returns, and the size of the transaction after it. -/
def accessContiguousInTx {NumRoles : Nat} (header : RingBufferHeader NumRoles)
    (allowPartial : Bool) (size tail head : UInt64) (inTx : Bool) (txSize : UInt32) :
    Except Errno (List Buffer) × UInt32 :=
  if inTx = false then (.error .EINVAL, txSize)
  else if size = 0 then (.ok [], txSize)
  else accessContiguous header allowPartial size tail head txSize

section Steps

variable {n : Nat} {ι : Type} [DecidableEq ι] {roleIdx : ι → Fin (n + 2)}

/-- What an instance keeps of the outcome of a call of `accessContiguousInTx`. -/
def RingBufferRole.afterAccess (r : RingBufferRole) :
    Except Errno (List Buffer) × UInt32 → RingBufferRole
  | (.error e, txSize) => { r with call := .idle, result := .error e, txSize }
  | (.ok buffers, txSize) =>
      { r with
        call := .idle
        result := .ok buffers.length
        txSize
        granted := r.granted ++ buffers }

theorem accessContiguous_error {header : RingBufferHeader (n + 2)} {allowPartial : Bool}
    {size tail head : UInt64} {txSize txSize' : UInt32} {e : Errno}
    (h : accessContiguous header allowPartial size tail head txSize = (.error e, txSize')) :
    txSize' = txSize := by
  rw [accessContiguous] at h
  by_cases hfail : allowPartial = false ∧ head - tail - txSize.toUInt64 < size
  · rw [if_pos hfail] at h
    exact (Prod.mk.inj h).2.symm
  · rw [if_neg hfail] at h
    by_cases hnone : head - tail - txSize.toUInt64 = 0
    · rw [if_pos hnone] at h
      exact absurd ((Prod.mk.inj h).1) (by simp)
    · rw [if_neg hnone] at h
      dsimp only at h
      split_ifs at h <;> exact absurd ((Prod.mk.inj h).1) (by simp)

/-- A call that ends without looking at the markers. -/
theorem readTail_access {s : RingBuffer (n + 2) ι} {i : ι} {allowPartial : Bool} {size : UInt64}
    (head : UInt64) (hidle : (s.roles i).call = .idle)
    (hearly : (s.roles i).inTx = false ∨ size = 0) :
    s.step roleIdx (.accessContiguousInTx allowPartial size) i
      = some (s.setRole i ((s.roles i).afterAccess
          (accessContiguousInTx s.header allowPartial size (s.header.readMarker (roleIdx i)) head
            (s.roles i).inTx (s.roles i).txSize))) := by
  unfold RingBuffer.step
  rw [accessContiguousInTx]
  simp only [hidle]
  by_cases htx : (s.roles i).inTx = false
  · rw [if_pos htx]
    refine congrArg some ?_
    rw [RingBuffer.readTail, if_pos htx]
    rfl
  · obtain rfl := hearly.resolve_left htx
    rw [if_neg htx, if_pos rfl]
    refine congrArg some ?_
    rw [RingBuffer.readTail, if_neg htx, if_pos rfl]
    simp [RingBufferRole.afterAccess, RingBufferRole.return]

/-- A call that looks at both: what it does at the second look is what the call computes. -/
theorem grant_access {s s' : RingBuffer (n + 2) ι} {i : ι} {allowPartial : Bool}
    {size tail : UInt64} (htx : (s'.roles i).inTx = true) (hsize : size ≠ 0)
    (hcall : (s'.roles i).call = .tailRead .access allowPartial size tail)
    (h : s'.step roleIdx .resume i = some s) :
    s = s'.setRole i ((s'.roles i).afterAccess
      (accessContiguousInTx s'.header allowPartial size tail (s'.readHead (roleIdx i))
        (s'.roles i).inTx (s'.roles i).txSize)) := by
  unfold RingBuffer.step at h
  simp only [hcall, Option.some.injEq] at h
  subst h
  have hne : (s'.roles i).inTx ≠ false := by
    rw [htx]
    exact Bool.noConfusion
  rw [accessContiguousInTx, if_neg hne, if_neg hsize, RingBuffer.grant]
  rcases hres : accessContiguous s'.header allowPartial size tail (s'.readHead (roleIdx i))
    (s'.roles i).txSize with ⟨e | buffers, txSize⟩
  · rw [accessContiguous_error hres]
    rfl
  · dsimp only
    rw [if_pos (Or.inl rfl)]
    rfl

end Steps

-- ── How a grant is cut ───────────────────────────────────────────────────────

section Cut

variable {NumRoles : Nat} {header : RingBufferHeader NumRoles} {cap : Nat}

/-- A stretch of `granted` positions from `start` on, in at most two areas of the data. -/
structure Slice (cap start granted : Nat) (buffers : List Buffer) : Prop where
  count : buffers.length ≤ 2
  nonempty : ∀ b ∈ buffers, 0 < b.len.toNat
  inside : ∀ b ∈ buffers, b.ptr.toNat + b.len.toNat ≤ cap
  sum : (buffers.map (fun b => b.len.toNat)).sum = granted
  positions : addresses buffers = (List.range granted).map (fun k => (start + k) % cap)

theorem cells_eq_range (cap p k : Nat) :
    cells cap p k = (List.range k).map (fun j => (p + j) % cap) := by
  ext1 j
  by_cases hj : j < k
  · rw [cells_getElem? hj, List.getElem?_map, List.getElem?_range hj]
    rfl
  · have hlen : (cells cap p k).length ≤ j := by
      rw [cells_length]
      exact Nat.le_of_not_lt hj
    rw [List.getElem?_eq_none hlen, List.getElem?_eq_none]
    rw [List.length_map, List.length_range]
    exact Nat.le_of_not_lt hj

/-- An area that is not empty lies where its addresses lie. -/
theorem Buffer.inside_of_addresses {b : Buffer} (hpos : 0 < b.len.toNat)
    (h : ∀ a ∈ b.addresses, a < cap) : b.ptr.toNat + b.len.toNat ≤ cap := by
  have hlast : b.ptr.toNat + (b.len.toNat - 1) ∈ b.addresses := by
    rw [Buffer.addresses, List.mem_range'_1]
    omega
  have hlt := h _ hlast
  omega

theorem addresses_length (buffers : List Buffer) :
    (addresses buffers).length = (buffers.map (fun b => b.len.toNat)).sum := by
  rw [addresses, List.length_flatMap]
  refine congrArg List.sum (List.map_congr_left (fun b _ => ?_))
  rw [Buffer.addresses, List.length_range']

/-- Each area is computed so that it is not empty. -/
theorem accessContiguous_areas (hsz : Sized header cap) {allowPartial : Bool}
    {size tail head : UInt64} (hsize : size ≠ 0) {txSize txSize' : UInt32}
    {buffers : List Buffer}
    (h : accessContiguous header allowPartial size tail head txSize = (.ok buffers, txSize')) :
    buffers.length ≤ 2 ∧ ∀ b ∈ buffers, 0 < b.len.toNat := by
  rw [accessContiguous] at h
  by_cases hfail : allowPartial = false ∧ head - tail - txSize.toUInt64 < size
  · rw [if_pos hfail] at h
    exact absurd ((Prod.mk.inj h).1) (by simp)
  rw [if_neg hfail] at h
  by_cases havail : head - tail - txSize.toUInt64 = 0
  · rw [if_pos havail] at h
    obtain rfl := Except.ok.inj (Prod.mk.inj h).1
    exact ⟨Nat.zero_le 2, fun b hb => absurd hb List.not_mem_nil⟩
  rw [if_neg havail] at h
  have hgrant : (if head - tail - txSize.toUInt64 < size then head - tail - txSize.toUInt64
      else size) ≠ 0 := by
    split
    · exact havail
    · exact hsize
  dsimp only at h
  generalize (if head - tail - txSize.toUInt64 < size then head - tail - txSize.toUInt64
      else size) = granted at h hgrant
  rw [show tail + txSize.toUInt64 = UInt64.ofNat (tail + txSize.toUInt64).toNat from
    UInt64.ofNat_toNat.symm, hsz.masked] at h
  have hstart := Nat.mod_lt (tail + txSize.toUInt64).toNat hsz.pos
  generalize (tail + txSize.toUInt64).toNat % cap = start at h hstart
  generalize (UInt64.ofNat start + granted) &&& header.kDataModMask = stop at h
  by_cases hwrap : stop ≤ UInt64.ofNat start ∧ 0 < stop
  · rw [if_pos hwrap] at h
    obtain rfl := Except.ok.inj (Prod.mk.inj h).1
    refine ⟨Nat.le_refl 2, ?_⟩
    rintro b (_ | ⟨_, (_ | ⟨_, hb⟩)⟩)
    · -- the first area runs to the end of the data, and starts before it
      have hsmall := hsz.small
      rw [hsz.size, ← UInt64.ofNat_sub (Nat.le_of_lt hstart), toNat_ofNat_small (by omega)]
      omega
    · exact UInt64.lt_iff_toNat_lt.mp hwrap.2
    · exact absurd hb List.not_mem_nil
  · rw [if_neg hwrap] at h
    obtain rfl := Except.ok.inj (Prod.mk.inj h).1
    refine ⟨Nat.le_succ 1, ?_⟩
    rintro b (_ | ⟨_, hb⟩)
    · exact Nat.pos_of_ne_zero (fun h0 => hgrant (UInt64.toNat_inj.mp h0))
    · exact absurd hb List.not_mem_nil

theorem slice_of_cells {buffers : List Buffer} {start granted : Nat} (hcap : 0 < cap)
    (hareas : buffers.length ≤ 2 ∧ ∀ b ∈ buffers, 0 < b.len.toNat)
    (haddr : addresses buffers = cells cap start granted) : Slice cap start granted buffers := by
  refine ⟨hareas.1, hareas.2, ?_, ?_, ?_⟩
  · intro b hb
    refine Buffer.inside_of_addresses (hareas.2 b hb) (fun a ha => ?_)
    have hmem : a ∈ addresses buffers := List.mem_flatMap.mpr ⟨b, hb, ha⟩
    rw [haddr] at hmem
    obtain ⟨q, -, -, rfl⟩ := mem_cells.mp hmem
    exact Nat.mod_lt q hcap
  · rw [← addresses_length, haddr, cells_length]
  · rw [haddr, cells_eq_range]

theorem slice_nil (cap start : Nat) : Slice cap start 0 [] :=
  ⟨Nat.zero_le 2, fun _ hb => absurd hb List.not_mem_nil, fun _ hb => absurd hb List.not_mem_nil,
    rfl, rfl⟩

/-- How much a call that succeeds grants, when `avail` bytes are left. -/
def grantedSize (allowPartial : Bool) (size avail : Nat) : Nat :=
  if allowPartial = true then min size avail else size

/-- What a call does when `avail` bytes are left behind the `txSize` that the transaction at
    `tail` has been granted. -/
structure AccessSpec (cap : Nat) (allowPartial inTx : Bool) (size tail txSize avail : Nat)
    (result : Except Errno (List Buffer)) (txSize' : Nat) : Prop where
  failing : ∀ e, result = .error e ↔
    inTx = false ∧ e = .EINVAL
      ∨ inTx = true ∧ allowPartial = false ∧ avail < size ∧ e = .ENODATA
  slice : ∀ buffers, result = .ok buffers →
    Slice cap (tail + txSize) (grantedSize allowPartial size avail) buffers
      ∧ txSize' = txSize + grantedSize allowPartial size avail
  unchanged : (∃ e, result = .error e) ∨ result = .ok [] → txSize' = txSize
  within : txSize' ≤ txSize + avail

/-- Markers that are at most a turn apart, as positions. -/
theorem marker_gap (tail head : UInt64) :
    UInt64.ofNat (tail.toNat + (head - tail).toNat) = head := by
  rw [UInt64.ofNat_add, UInt64.ofNat_toNat, UInt64.ofNat_toNat, UInt64.add_comm,
    UInt64.sub_add_cancel]

theorem access_spec (hsz : Sized header cap) (allowPartial inTx : Bool)
    (size tail head : UInt64) (txSize : UInt32) (hgap : (head - tail).toNat ≤ cap)
    (htx : txSize.toNat ≤ (head - tail).toNat) :
    AccessSpec cap allowPartial inTx size.toNat tail.toNat txSize.toNat
      ((head - tail).toNat - txSize.toNat)
      (accessContiguousInTx header allowPartial size tail head inTx txSize).1
      (accessContiguousInTx header allowPartial size tail head inTx txSize).2.toNat := by
  rw [accessContiguousInTx]
  by_cases hin : inTx = false
  · rw [if_pos hin]
    refine ⟨fun e => ?_, fun buffers hok => (nomatch hok), fun _ => rfl, Nat.le_add_right _ _⟩
    constructor
    · intro h
      exact Or.inl ⟨hin, (Except.error.inj h).symm⟩
    · rintro (⟨-, rfl⟩ | ⟨htrue, -⟩)
      · rfl
      · exact absurd (hin.symm.trans htrue) Bool.false_ne_true
  · rw [if_neg hin]
    have hin' : inTx = true := by simpa using hin
    by_cases hzero : size = 0
    · rw [if_pos hzero]
      subst hzero
      have hnone : grantedSize allowPartial (0 : UInt64).toNat
          ((head - tail).toNat - txSize.toNat) = 0 := by
        rw [grantedSize]
        split
        · exact Nat.zero_min _
        · rfl
      refine ⟨fun e => ?_, fun buffers hok => ?_, fun _ => rfl, Nat.le_add_right _ _⟩
      · constructor
        · exact fun h => nomatch h
        · rintro (⟨hfalse, -⟩ | ⟨-, -, hlt, -⟩)
          · exact absurd hfalse hin
          · exact absurd hlt (Nat.not_lt_zero _)
      · obtain rfl := Except.ok.inj hok
        rw [hnone]
        exact ⟨slice_nil cap _, rfl⟩
    · rw [if_neg hzero]
      have hspec := accessContiguous_spec hsz allowPartial hzero
        (Nat.add_le_add_left htx tail.toNat) (Nat.add_le_add_left hgap tail.toNat)
      rw [marker_gap, UInt64.ofNat_toNat, Nat.add_sub_cancel_left] at hspec
      have hcap := hsz.small
      generalize havail : (head - tail).toNat - txSize.toNat = avail at *
      rcases hspec with ⟨hres, hpartial, hlt⟩ | ⟨buffers, hres, haddr, hpart⟩
      · rw [hres]
        refine ⟨fun e => ?_, fun buffers hok => (nomatch hok), fun _ => rfl, Nat.le_add_right _ _⟩
        constructor
        · intro h
          exact Or.inr ⟨hin', hpartial, hlt, (Except.error.inj h).symm⟩
        · rintro (⟨hfalse, -⟩ | ⟨-, -, -, rfl⟩)
          · exact absurd hfalse hin
          · rfl
      · have hsame : min size.toNat avail = grantedSize allowPartial size.toNat avail := by
          rw [grantedSize]
          by_cases hp : allowPartial = true
          · rw [if_pos hp]
          · rw [if_neg hp]
            exact Nat.min_eq_left (hpart.resolve_left hp)
        have hslice := slice_of_cells hsz.pos (accessContiguous_areas hsz hzero hres) haddr
        have hle : grantedSize allowPartial size.toNat avail ≤ avail := by
          rw [← hsame]
          exact Nat.min_le_right _ _
        rw [hsame] at hres hslice
        have hnew : (UInt32.ofNat (txSize.toNat + grantedSize allowPartial size.toNat avail)).toNat
            = txSize.toNat + grantedSize allowPartial size.toNat avail :=
          toNat_ofNat_small32 (by omega)
        rw [hres]
        dsimp only
        rw [hnew]
        refine ⟨fun e => ?_, fun buffers' hok => ?_, ?_, Nat.add_le_add_left hle _⟩
        · constructor
          · exact fun h => nomatch h
          · rintro (⟨hfalse, -⟩ | ⟨-, hfalse, hlt, -⟩)
            · exact absurd hfalse hin
            · refine absurd hlt (Nat.not_lt.mpr (hpart.resolve_left ?_))
              rw [hfalse]
              exact Bool.false_ne_true
        · obtain rfl := Except.ok.inj hok
          exact ⟨hslice, rfl⟩
        · rintro (⟨e, herror⟩ | hempty)
          · exact nomatch herror
          · obtain rfl := Except.ok.inj hempty
            rw [← hslice.sum]
            rfl

end Cut

/-- **The geometry of an access.**  For every size of ring that the header accepts, every two
    markers at most a turn apart and every amount within the gap that the transaction has been
    granted. -/
theorem accessContiguousInTx_geometry {NumRoles : Nat} {minDataByteSize : UInt64}
    (haccepted : (RingBufferHeader.make NumRoles minDataByteSize).Accepted)
    (allowPartial inTx : Bool) (size tail head : UInt64) (txSize : UInt32)
    (hgap : (head - tail).toNat
      ≤ (RingBufferHeader.make NumRoles minDataByteSize).kDataPoolByteSize.toNat)
    (htx : txSize.toNat ≤ (head - tail).toNat) :
    AccessSpec (RingBufferHeader.make NumRoles minDataByteSize).kDataPoolByteSize.toNat
      allowPartial inTx size.toNat tail.toNat txSize.toNat ((head - tail).toNat - txSize.toNat)
      (accessContiguousInTx (.make NumRoles minDataByteSize) allowPartial size tail head inTx
        txSize).1
      (accessContiguousInTx (.make NumRoles minDataByteSize) allowPartial size tail head inTx
        txSize).2.toNat := by
  obtain ⟨cap, -, hsz⟩ := sized_make haccepted
  have hcap : (RingBufferHeader.make NumRoles minDataByteSize).kDataPoolByteSize.toNat = cap := by
    rw [hsz.size, toNat_ofNat_small hsz.small]
  rw [hcap] at hgap ⊢
  exact access_spec hsz allowPartial inTx size tail head txSize hgap htx

/-- A full grant of a ring of eight bytes whose markers have wrapped. -/
theorem access_eight :
    AccessSpec 8 false true 8 (2 ^ 64 - 3) 0 8
      (accessContiguousInTx (.make 2 8) false 8 (-3) 5 true 0).1
      (accessContiguousInTx (.make 2 8) false 8 (-3) 5 true 0).2.toNat := by
  have haccepted : (RingBufferHeader.make 2 8).Accepted := ⟨by decide, by decide, by decide⟩
  exact accessContiguousInTx_geometry haccepted false true 8 (-3) 5 0 (by decide) (by decide)

end TpRing
