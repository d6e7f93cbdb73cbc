import Mathlib.Tactic.Common
import Tensorpipe.RingBufferProofs

/-! # The invariant of the ring buffer

    The markers are the unbounded cursors of `InOrder` modulo `2 ^ 64`, and because
    two of them are never more than one buffer apart the code's subtractions give the
    exact gaps (`accessContiguous_spec`).

    `RoleInv` is what an instance knows, wherever it is within a call; it survives
    every step of the others, since their markers only move up.  `RingInv` adds the
    tape: the data area shows what the last role produced, as the others left it. -/

namespace TpRing

open TpCursorRing

-- ── Machine arithmetic ───────────────────────────────────────────────────────

/-- Sizes are far from the limits of the machine integers. -/
theorem toNat_ofNat_small {a : Nat} (h : a < 2 ^ 31) : (UInt64.ofNat a).toNat = a :=
  UInt64.toNat_ofNat_of_lt (Nat.lt_trans h (by decide))

theorem toNat_ofNat_small32 {a : Nat} (h : a < 2 ^ 31) : (UInt32.ofNat a).toNat = a :=
  UInt32.toNat_ofNat_of_lt (Nat.lt_trans h (by decide))

/-- The header of a ring of `cap` bytes. -/
structure Sized {NumRoles : Nat} (header : RingBufferHeader NumRoles) (cap : Nat) : Prop where
  size : header.kDataPoolByteSize = UInt64.ofNat cap
  mask : header.kDataModMask = UInt64.ofNat (cap - 1)
  pow : cap.isPowerOfTwo
  small : cap < 2 ^ 31

theorem Sized.pos {NumRoles : Nat} {header : RingBufferHeader NumRoles} {cap : Nat}
    (h : Sized header cap) : 0 < cap :=
  Nat.pos_of_isPowerOfTwo h.pow

/-- What the header's checks accept is a power of two that an int can hold. -/
theorem sized_make {NumRoles : Nat} {minDataByteSize : UInt64}
    (h : (RingBufferHeader.make NumRoles minDataByteSize).Accepted) :
    ∃ cap, 2 ≤ cap ∧ Sized (RingBufferHeader.make NumRoles minDataByteSize) cap := by
  obtain ⟨htwo, hpow, hint⟩ := h
  generalize hsize : nextPow2 minDataByteSize = size
  have hmake : (RingBufferHeader.make NumRoles minDataByteSize).kDataPoolByteSize = size := hsize
  have hmask : (RingBufferHeader.make NumRoles minDataByteSize).kDataModMask = size - 1 := by
    rw [← hsize]
    rfl
  rw [hmake] at htwo hpow hint
  have htwo' : 2 ≤ size.toNat := UInt64.le_iff_toNat_le.mp htwo
  have hint' : size.toNat ≤ 2147483647 := UInt64.le_iff_toNat_le.mp hint
  have hone : UInt64.ofNat (size.toNat - 1) = size - 1 := by
    rw [UInt64.ofNat_sub (by omega), UInt64.ofNat_toNat]
    rfl
  refine ⟨size.toNat, htwo', hmake.trans UInt64.ofNat_toNat.symm, hmask.trans hone.symm, ?_,
    by omega⟩
  rw [isPow2, Bool.and_eq_true, beq_iff_eq, ← hone] at hpow
  have hand := congrArg UInt64.toNat hpow.2
  rw [UInt64.toNat_and, toNat_ofNat_small (by omega), Nat.and_comm] at hand
  exact (Nat.and_sub_one_eq_zero_iff_isPowerOfTwo (by omega)).mp hand

/-- Masking is taking the remainder, also of a counter that has wrapped. -/
theorem Sized.masked {NumRoles : Nat} {header : RingBufferHeader NumRoles} {cap : Nat}
    (h : Sized header cap) (p : Nat) :
    UInt64.ofNat p &&& header.kDataModMask = UInt64.ofNat (p % cap) := by
  obtain ⟨k, hk⟩ := h.pow
  rw [h.mask, ← UInt64.ofNat_and, hk, Nat.and_two_pow_sub_one_eq_mod]

/-- What is granted of `a` bytes, when a part of the request may do. -/
theorem ite_ofNat_lt {a : Nat} (ha : a < 2 ^ 31) (size : UInt64) :
    (if UInt64.ofNat a < size then UInt64.ofNat a else size)
      = UInt64.ofNat (min size.toNat a) := by
  have haNat := toNat_ofNat_small ha
  by_cases hlt : UInt64.ofNat a < size
  · have hltNat := UInt64.lt_iff_toNat_lt.mp hlt
    rw [haNat] at hltNat
    rw [if_pos hlt, Nat.min_eq_right (Nat.le_of_lt hltNat)]
  · have hleNat : size.toNat ≤ a := by
      rw [UInt64.lt_iff_toNat_lt, haNat] at hlt
      exact Nat.le_of_not_lt hlt
    rw [if_neg hlt, Nat.min_eq_left hleNat, UInt64.ofNat_toNat]

/-- The end of an area that starts inside the ring and is no longer than it. -/
theorem end_of_area {cap s k : Nat} (hs : s < cap) (hk : k ≤ cap) :
    (s + k) % cap = if s + k < cap then s + k else s + k - cap := by
  by_cases hlt : s + k < cap
  · rw [if_pos hlt, Nat.mod_eq_of_lt hlt]
  · rw [if_neg hlt, Nat.mod_eq_sub_mod (Nat.le_of_not_lt hlt)]
    by_cases hsame : s + k - cap < cap
    · exact Nat.mod_eq_of_lt hsame
    · omega

section Areas

variable {NumRoles : Nat} {header : RingBufferHeader NumRoles} {cap p k : Nat}

/-- The comparison of the two ends of an area tells whether it goes beyond the end of the data. -/
theorem Sized.wraps_iff (hsz : Sized header cap) {s : Nat} (hs : s < cap) (hkpos : 0 < k)
    (hk : k ≤ cap) :
    UInt64.ofNat ((s + k) % cap) ≤ UInt64.ofNat s ∧ 0 < UInt64.ofNat ((s + k) % cap)
      ↔ cap < s + k := by
  have hsmall := hsz.small
  have hstop := toNat_ofNat_small (Nat.lt_trans (Nat.mod_lt (s + k) hsz.pos) hsmall)
  have hstart := toNat_ofNat_small (Nat.lt_trans hs hsmall)
  have hzero : (0 : UInt64).toNat = 0 := rfl
  rw [UInt64.le_iff_toNat_le, UInt64.lt_iff_toNat_lt, hstop, hstart, hzero, end_of_area hs hk]
  by_cases hlt : s + k < cap
  · rw [if_pos hlt]
    omega
  · rw [if_neg hlt]
    omega

/-- An area that goes beyond the end of the data is granted in two parts. -/
theorem Sized.addresses_wrapped (hsz : Sized header cap) (hk : k ≤ cap)
    (hcross : cap < p % cap + k) :
    addresses [⟨UInt64.ofNat (p % cap), header.kDataPoolByteSize - UInt64.ofNat (p % cap)⟩,
      ⟨0, UInt64.ofNat ((p % cap + k) % cap)⟩] = cells cap p k := by
  have hsmall := hsz.small
  have hmod := Nat.mod_lt p hsz.pos
  have hlen : (header.kDataPoolByteSize - UInt64.ofNat (p % cap)).toNat = cap - p % cap := by
    rw [hsz.size, ← UInt64.ofNat_sub (Nat.le_of_lt hmod), toNat_ofNat_small (by omega)]
  rw [cells_wrapped hsz.pos hcross hk, addresses, List.flatMap_cons, List.flatMap_cons,
    List.flatMap_nil, List.append_nil, Buffer.addresses, Buffer.addresses, hlen,
    toNat_ofNat_small (Nat.lt_trans hmod hsmall),
    toNat_ofNat_small (Nat.lt_trans (Nat.mod_lt _ hsz.pos) hsmall), end_of_area hmod hk,
    if_neg (by omega)]
  rfl

/-- Any other area is granted in one part. -/
theorem Sized.addresses_straight (hsz : Sized header cap) (hk : k ≤ cap)
    (hstraight : p % cap + k ≤ cap) :
    addresses [⟨UInt64.ofNat (p % cap), UInt64.ofNat k⟩] = cells cap p k := by
  have hsmall := hsz.small
  have hmod := Nat.mod_lt p hsz.pos
  rw [cells_straight hstraight, addresses, List.flatMap_cons, List.flatMap_nil, List.append_nil,
    Buffer.addresses, toNat_ofNat_small (Nat.lt_trans hmod hsmall),
    toNat_ofNat_small (Nat.lt_of_le_of_lt hk hsmall)]

end Areas

/-- **The two marker reads.**  From the markers of the role and of the one it follows,
    `accessContiguous` grants exactly the next bytes of the tape: as many as asked
    for, or as many as there are if a part is allowed. -/
theorem accessContiguous_spec {NumRoles : Nat} {header : RingBufferHeader NumRoles} {cap : Nat}
    (hsz : Sized header cap) (allowPartial : Bool) {size : UInt64} (hsize : size ≠ 0)
    {m l : Nat} {txSize : UInt32} (hml : m + txSize.toNat ≤ l) (hlc : l ≤ m + cap) :
    accessContiguous header allowPartial size (UInt64.ofNat m) (UInt64.ofNat l) txSize
        = (.error .ENODATA, txSize) ∧ allowPartial = false ∧ l - m - txSize.toNat < size.toNat
    ∨ ∃ buffers, accessContiguous header allowPartial size (UInt64.ofNat m) (UInt64.ofNat l) txSize
        = (.ok buffers, UInt32.ofNat (txSize.toNat + min size.toNat (l - m - txSize.toNat)))
      ∧ addresses buffers
        = cells cap (m + txSize.toNat) (min size.toNat (l - m - txSize.toNat))
      ∧ (allowPartial = true ∨ size.toNat ≤ l - m - txSize.toNat) := by
  have hsmall := hsz.small
  have htx : txSize.toUInt64 = UInt64.ofNat txSize.toNat := (UInt64.ofNat_uInt32ToNat txSize).symm
  have hback : UInt32.ofNat txSize.toNat = txSize := UInt32.ofNat_toNat
  generalize txSize.toNat = t at *
  generalize ha : l - m - t = a
  have hacap : a ≤ cap := by omega
  have hasmall : a < 2 ^ 31 := Nat.lt_of_le_of_lt hacap hsmall
  -- the subtractions are exact
  have havail : UInt64.ofNat l - UInt64.ofNat m - txSize.toUInt64 = UInt64.ofNat a := by
    rw [htx, ← UInt64.ofNat_sub (by omega), ← UInt64.ofNat_sub (by omega), ha]
  have havailNat : (UInt64.ofNat a).toNat = a := toNat_ofNat_small hasmall
  simp only [accessContiguous, havail]
  by_cases hfail : allowPartial = false ∧ UInt64.ofNat a < size
  · rw [if_pos hfail]
    have hlt := UInt64.lt_iff_toNat_lt.mp hfail.2
    rw [havailNat] at hlt
    exact Or.inl ⟨rfl, hfail.1, hlt⟩
  · rw [if_neg hfail]
    have hpart : allowPartial = true ∨ size.toNat ≤ a := by
      by_cases hp : allowPartial = true
      · exact Or.inl hp
      · refine Or.inr (Nat.le_of_not_lt (fun hlt => hfail ⟨by simpa using hp, ?_⟩))
        rw [UInt64.lt_iff_toNat_lt, havailNat]
        exact hlt
    refine Or.inr ?_
    by_cases hzero : UInt64.ofNat a = 0
    · have ha0 : a = 0 := by
        rw [← havailNat, hzero]
        rfl
      refine ⟨[], ?_, ?_, hpart⟩
      · rw [if_pos hzero, ha0, Nat.min_zero, Nat.add_zero, hback]
      · rw [ha0, Nat.min_zero]
        rfl
    · rw [if_neg hzero]
      have hapos : 0 < a := by
        refine Nat.pos_of_ne_zero (fun ha0 => hzero ?_)
        rw [ha0]
        rfl
      have hspos : 0 < size.toNat := by
        refine Nat.pos_of_ne_zero (fun h0 => hsize ?_)
        exact UInt64.toNat_inj.mp h0
      have hmin := ite_ofNat_lt hasmall size
      have hkpos : 0 < min size.toNat a := Nat.lt_min.mpr ⟨hspos, hapos⟩
      have hkcap : min size.toNat a ≤ cap := Nat.le_trans (Nat.min_le_right ..) hacap
      generalize min size.toNat a = k at hmin hkpos hkcap ⊢
      have hstart : (UInt64.ofNat m + txSize.toUInt64) &&& header.kDataModMask
          = UInt64.ofNat ((m + t) % cap) := by
        rw [htx, ← UInt64.ofNat_add, hsz.masked]
      have hstop : (UInt64.ofNat ((m + t) % cap) + UInt64.ofNat k) &&& header.kDataModMask
          = UInt64.ofNat (((m + t) % cap + k) % cap) := by
        rw [← UInt64.ofNat_add, hsz.masked]
      have hnew : (txSize.toUInt64 + UInt64.ofNat k).toUInt32 = UInt32.ofNat (t + k) := by
        rw [htx, ← UInt64.ofNat_add, UInt64.toUInt32_ofNat']
      have hwraps := hsz.wraps_iff (Nat.mod_lt (m + t) hsz.pos) hkpos hkcap
      simp only [hmin, hstart, hstop, hnew]
      by_cases hcross : cap < (m + t) % cap + k
      · rw [if_pos (hwraps.mpr hcross)]
        exact ⟨_, rfl, hsz.addresses_wrapped hkcap hcross, hpart⟩
      · rw [if_neg (fun hwrap => hcross (hwraps.mp hwrap))]
        exact ⟨_, rfl, hsz.addresses_straight hkcap (Nat.le_of_not_lt hcross), hpart⟩

-- ── What an instance knows ───────────────────────────────────────────────────

/-- Whether an instance holds the flag of its role. -/
def RingBufferRole.holds (role : RingBufferRole) : Prop :=
  role.inTx = true ∨ role.call = .ending

section Roles

variable {n : Nat} {ι : Type} [DecidableEq ι] {roleIdx : ι → Fin (n + 2)}

/-- An instance of role `r`, anywhere within a call. -/
structure RoleInv (cap : Nat) (header : RingBufferHeader (n + 2)) (pos : Fin (n + 2) → Nat)
    (r : Fin (n + 2)) (role : RingBufferRole) : Prop where
  flag : role.holds → header.inTx r = true
  within : pos r + role.txSize.toNat ≤ limit cap pos r
  granted : addresses role.granted = cells cap (pos r) role.txSize.toNat
  closed : role.inTx = false → role.txSize = 0 ∧ (role.call = .idle ∨ role.call = .ending)
  tail : ∀ use allowPartial size tail, role.call = .tailRead use allowPartial size tail →
    tail = header.markers r ∧ size ≠ 0
      ∧ ∀ buffer, use = .write buffer → size.toNat ≤ buffer.length
  copying : ∀ use buffers, role.call = .copying use buffers →
    ∃ offset, offset + (addresses buffers).length = role.txSize.toNat
      ∧ addresses buffers = cells cap (pos r + offset) (addresses buffers).length
      ∧ ∀ buffer, use = .write buffer → (addresses buffers).length ≤ buffer.length
  ending : role.call = .ending → role.inTx = false

omit [DecidableEq ι] in
/-- The steps of the others only raise markers, and touch no flag of this role. -/
theorem RoleInv.frame {cap : Nat} {header header' : RingBufferHeader (n + 2)}
    {pos pos' : Fin (n + 2) → Nat} {r : Fin (n + 2)} {role : RingBufferRole}
    (h : RoleInv cap header pos r role) (hflag : role.holds → header'.inTx r = true)
    (hup : ∀ q, pos q ≤ pos' q)
    (hmine : role.holds → pos' r = pos r ∧ header'.markers r = header.markers r)
    (horder : InOrder cap pos') :
    RoleInv cap header' pos' r role := by
  by_cases hholds : role.inTx = true
  · obtain ⟨hpos, hmarker⟩ := hmine (Or.inl hholds)
    refine ⟨hflag, ?_, ?_, h.closed, ?_, ?_, h.ending⟩
    · rw [hpos]
      exact Nat.le_trans h.within (limit_mono hup r)
    · rw [hpos]
      exact h.granted
    · intro use allowPartial size tail hcall
      rw [hmarker]
      exact h.tail use allowPartial size tail hcall
    · intro use buffers hcall
      rw [hpos]
      exact h.copying use buffers hcall
  · have hclosed := h.closed (by simpa using hholds)
    have hzero : role.txSize.toNat = 0 := by rw [hclosed.1]; rfl
    have hgranted : addresses role.granted = [] := by
      rw [h.granted, hzero, cells_zero]
    refine ⟨hflag, ?_, ?_, h.closed, ?_, ?_, h.ending⟩
    · rw [hzero]
      exact horder.le_limit r
    · rw [hgranted, hzero, cells_zero]
    · intro use allowPartial size tail hcall
      rcases hclosed.2 with hidle | hidle
      · exact nomatch hidle.symm.trans hcall
      · exact nomatch hidle.symm.trans hcall
    · intro use buffers hcall
      rcases hclosed.2 with hidle | hidle
      · exact nomatch hidle.symm.trans hcall
      · exact nomatch hidle.symm.trans hcall

-- ── The invariant ────────────────────────────────────────────────────────────

/-- The ring buffer and its history. -/
structure RingInv (roleIdx : ι → Fin (n + 2)) (cap : Nat) (s : RingBuffer (n + 2) ι)
    (h : History (n + 2)) : Prop where
  sized : Sized s.header cap
  markers : ∀ r, s.header.markers r = UInt64.ofNat (h.pos r)
  order : InOrder cap h.pos
  roles : ∀ i, RoleInv cap s.header h.pos (roleIdx i) (s.roles i)
  exclusive : ∀ i j, roleIdx i = roleIdx j → (s.roles i).holds → (s.roles j).holds → i = j
  owner : ∀ r, s.header.inTx r = true → ∃ i, roleIdx i = r ∧ (s.roles i).holds
  committed : ∀ r, h.committed r = cells cap 0 (h.pos r)
  produced : h.produced.length = h.pos (Fin.last (n + 1))
  writes : ∀ w ∈ h.writes, w.1 + w.2.length ≤ h.produced.length
  shows : Shows cap s.data (h.pos 0) h.left
  consumed : h.consumed = h.left.take (h.pos 0)

theorem History.left_length (h : History (n + 2)) : h.left.length = h.produced.length := by
  have hgen : ∀ (ws : List (Nat × List UInt8)) (tape : List UInt8),
      (ws.foldl (fun tape w => overwrite tape w.1 w.2) tape).length = tape.length := by
    intro ws
    induction ws with
    | nil => intro tape; rfl
    | cons w ws ih =>
        intro tape
        rw [List.foldl_cons, ih, overwrite_length]
  exact hgen h.writes h.produced

/-- What is produced later does not meet the writes so far. -/
theorem overwrites_append (ws : List (Nat × List UInt8)) (tape bytes : List UInt8)
    (hws : ∀ w ∈ ws, w.1 + w.2.length ≤ tape.length) :
    ws.foldl (fun tape w => overwrite tape w.1 w.2) (tape ++ bytes)
      = ws.foldl (fun tape w => overwrite tape w.1 w.2) tape ++ bytes := by
  induction ws generalizing tape with
  | nil => rfl
  | cons w ws ih =>
      rw [List.foldl_cons, List.foldl_cons, overwrite_append w.2 (hws w (by simp)), ih]
      intro v hv
      rw [overwrite_length]
      exact hws v (by simp [hv])

-- ── Steps that move no marker ────────────────────────────────────────────────

section Steps

variable {cap : Nat} {s : RingBuffer (n + 2) ι} {h : History (n + 2)} {i : ι}

/-- An instance changes its own state and perhaps flags, but no marker. -/
theorem RingInv.headerStep (hinv : RingInv roleIdx cap s h) {header : RingBufferHeader (n + 2)}
    {role : RingBufferRole} (hsized : Sized header cap)
    (hmarkers : header.markers = s.header.markers)
    (hflags : ∀ j ≠ i, (s.roles j).holds → header.inTx (roleIdx j) = true)
    (hrole : RoleInv cap header h.pos (roleIdx i) role)
    (hexclusive : role.holds → ∀ j ≠ i, roleIdx j = roleIdx i → ¬ (s.roles j).holds)
    (howner : ∀ r, header.inTx r = true → (r = roleIdx i ∧ role.holds)
      ∨ ∃ j ≠ i, roleIdx j = r ∧ (s.roles j).holds) :
    RingInv roleIdx cap (RingBuffer.setRole { s with header := header } i role) h := by
  have hroles : ∀ j, j ≠ i →
      (RingBuffer.setRole { s with header := header } i role).roles j = s.roles j :=
    fun j hj => RingBuffer.setRole_ne _ role hj
  have hself : (RingBuffer.setRole { s with header := header } i role).roles i = role :=
    RingBuffer.setRole_self _ i role
  refine ⟨hsized, ?_, hinv.order, ?_, ?_, ?_, hinv.committed, hinv.produced, hinv.writes,
    hinv.shows, hinv.consumed⟩
  · intro r
    show header.markers r = _
    rw [hmarkers]
    exact hinv.markers r
  · intro j
    by_cases hj : j = i
    · subst hj
      rw [hself]
      exact hrole
    · rw [hroles j hj]
      refine (hinv.roles j).frame (hflags j hj) (fun _ => Nat.le_refl _) ?_ hinv.order
      intro _
      exact ⟨rfl, congrFun hmarkers _⟩
  · intro j k hjk hj hk
    by_cases hji : j = i
    · by_cases hki : k = i
      · rw [hji, hki]
      · exfalso
        rw [hji, hself] at hj
        rw [hroles k hki] at hk
        exact hexclusive hj k hki (by rw [← hjk, hji]) hk
    · rw [hroles j hji] at hj
      by_cases hki : k = i
      · exfalso
        rw [hki, hself] at hk
        exact hexclusive hk j hji (by rw [hjk, hki]) hj
      · rw [hroles k hki] at hk
        exact hinv.exclusive j k hjk hj hk
  · intro r hr
    rcases howner r hr with ⟨rfl, hholds⟩ | ⟨j, hj, hjr, hholds⟩
    · refine ⟨i, rfl, ?_⟩
      rw [hself]
      exact hholds
    · refine ⟨j, hjr, ?_⟩
      rw [hroles j hj]
      exact hholds

/-- An instance changes only its own state. -/
theorem RingInv.setRole (hinv : RingInv roleIdx cap s h) {role : RingBufferRole}
    (hrole : RoleInv cap s.header h.pos (roleIdx i) role)
    (hholds : role.holds ↔ (s.roles i).holds) :
    RingInv roleIdx cap (s.setRole i role) h := by
  refine hinv.headerStep hinv.sized rfl (fun j _ hj => (hinv.roles j).flag hj) hrole ?_ ?_
  · intro hr j hj hji hjh
    exact hj (hinv.exclusive j i hji hjh (hholds.mp hr))
  · intro r hr
    obtain ⟨j, hjr, hjh⟩ := hinv.owner r hr
    by_cases hj : j = i
    · subst hj
      exact Or.inl ⟨hjr.symm, hholds.mpr hjh⟩
    · exact Or.inr ⟨j, hj, hjr, hjh⟩

/-- Returning from a call, with the transaction as it is. -/
theorem RoleInv.return {header : RingBufferHeader (n + 2)} {pos : Fin (n + 2) → Nat}
    {r : Fin (n + 2)} {role : RingBufferRole} (hrole : RoleInv cap header pos r role)
    (hending : role.call ≠ .ending) (result : Except Errno Nat) :
    RoleInv cap header pos r (role.return result)
      ∧ ((role.return result).holds ↔ role.holds) := by
  have hholds : (role.return result).holds ↔ role.holds := by
    constructor
    · rintro (hin | hend)
      · exact Or.inl hin
      · exact nomatch hend
    · rintro (hin | hend)
      · exact Or.inl hin
      · exact absurd hend hending
  refine ⟨⟨fun hh => hrole.flag (hholds.mp hh), hrole.within, hrole.granted, ?_, ?_, ?_, ?_⟩,
    hholds⟩
  · intro hin
    exact ⟨(hrole.closed hin).1, Or.inl rfl⟩
  · intro use allowPartial size tail hcall
    exact nomatch hcall
  · intro use buffers hcall
    exact nomatch hcall
  · intro hcall
    exact nomatch hcall

theorem RingInv.return (hinv : RingInv roleIdx cap s h) (hending : (s.roles i).call ≠ .ending)
    (result : Except Errno Nat) :
    RingInv roleIdx cap (s.setRole i ((s.roles i).return result)) h := by
  obtain ⟨hrole, hholds⟩ := (hinv.roles i).return hending result
  exact hinv.setRole hrole hholds

theorem RingInv.startTx (hinv : RingInv roleIdx cap s h)
    (hending : (s.roles i).call ≠ .ending) :
    RingInv roleIdx cap (s.startTx roleIdx i) h := by
  rw [RingBuffer.startTx]
  by_cases hin : (s.roles i).inTx = true
  · rw [if_pos hin]
    exact hinv.return hending _
  · rw [if_neg hin]
    have hrole := hinv.roles i
    have hfalse : (s.roles i).inTx = false := by simpa using hin
    dsimp only [RingBufferHeader.beginTransaction]
    by_cases htaken : s.header.inTx (roleIdx i) = true
    · rw [if_pos htaken]
      have hsame : ({ s.header with inTx := Function.update s.header.inTx (roleIdx i) true } :
          RingBufferHeader (n + 2)) = s.header := by
        rw [← htaken, Function.update_eq_self]
      rw [hsame]
      exact hinv.return hending _
    · rw [if_neg htaken]
      have hflags : ∀ j, (s.roles j).holds → roleIdx j ≠ roleIdx i := by
        intro j hj heq
        have hflag := (hinv.roles j).flag hj
        rw [heq] at hflag
        exact htaken hflag
      refine hinv.headerStep ⟨hinv.sized.size, hinv.sized.mask, hinv.sized.pow, hinv.sized.small⟩
        rfl ?_ ?_ ?_ ?_
      · intro j hj hh
        exact (Function.update_of_ne (hflags j hh) _ _).trans ((hinv.roles j).flag hh)
      · refine ⟨fun _ => Function.update_self _ _ _, hrole.within, hrole.granted, ?_, ?_, ?_, ?_⟩
        · intro hno
          exact nomatch hno
        · intro use allowPartial size tail hcall
          exact nomatch hcall
        · intro use buffers hcall
          exact nomatch hcall
        · intro hcall
          exact nomatch hcall
      · intro _ j hj heq hh
        exact hflags j hh heq
      · intro r hr
        by_cases hri : r = roleIdx i
        · exact Or.inl ⟨hri, Or.inl rfl⟩
        · obtain ⟨j, rfl, hjh⟩ := hinv.owner r ((Function.update_of_ne hri _ _).symm.trans hr)
          exact Or.inr ⟨j, fun heq => hri (congrArg roleIdx heq), rfl, hjh⟩

/-- The flag of a role is cleared by the one instance that holds it. -/
theorem RingInv.release (hinv : RingInv roleIdx cap s h) (hholds : (s.roles i).holds)
    {role : RingBufferRole} (hin : role.inTx = false) (hcall : role.call = .idle)
    (hsize : role.txSize = 0) (hgranted : addresses role.granted = []) :
    RingInv roleIdx cap (RingBuffer.setRole
      { s with header := s.header.endTransaction (roleIdx i) } i role) h := by
  have hnot : ¬ role.holds := by
    rintro (hno | hno)
    · exact nomatch hno.symm.trans hin
    · exact nomatch hno.symm.trans hcall
  have hzero : role.txSize.toNat = 0 := by
    rw [hsize]
    rfl
  refine hinv.headerStep ⟨hinv.sized.size, hinv.sized.mask, hinv.sized.pow, hinv.sized.small⟩
    rfl ?_ ?_ (fun hh => absurd hh hnot) ?_
  · intro j hj hh
    have hne : roleIdx j ≠ roleIdx i := fun heq => hj (hinv.exclusive j i heq hh hholds)
    exact (Function.update_of_ne hne _ _).trans ((hinv.roles j).flag hh)
  · refine ⟨fun hh => absurd hh hnot, ?_, ?_, fun _ => ⟨hsize, Or.inl hcall⟩, ?_, ?_, ?_⟩
    · rw [hzero]
      exact hinv.order.le_limit _
    · rw [hgranted, hzero]
      rfl
    · intro use allowPartial size tail hno
      exact nomatch hcall.symm.trans hno
    · intro use buffers hno
      exact nomatch hcall.symm.trans hno
    · intro hno
      exact nomatch hcall.symm.trans hno
  · intro r hr
    by_cases hri : r = roleIdx i
    · rw [hri] at hr
      exact nomatch (Function.update_self _ _ _).symm.trans hr
    · obtain ⟨j, rfl, hjh⟩ := hinv.owner r ((Function.update_of_ne hri _ _).symm.trans hr)
      exact Or.inr ⟨j, fun heq => hri (congrArg roleIdx heq), rfl, hjh⟩

theorem RingInv.endCommit (hinv : RingInv roleIdx cap s h)
    (hcall : (s.roles i).call = .ending) :
    RingInv roleIdx cap (s.endCommit roleIdx i) h := by
  have hin := (hinv.roles i).ending hcall
  obtain ⟨hsize, -⟩ := (hinv.roles i).closed hin
  refine hinv.release (Or.inr hcall) hin rfl hsize ?_
  show addresses (s.roles i).granted = []
  rw [(hinv.roles i).granted, hsize]
  rfl

theorem RingInv.cancelTx (hinv : RingInv roleIdx cap s h)
    (hending : (s.roles i).call ≠ .ending) :
    RingInv roleIdx cap (s.cancelTx roleIdx i) h := by
  rw [RingBuffer.cancelTx]
  by_cases hin : (s.roles i).inTx = false
  · rw [if_pos hin]
    exact hinv.return hending _
  · rw [if_neg hin]
    exact hinv.release (Or.inl (by simpa using hin)) rfl rfl rfl rfl

theorem RingInv.readTail (hinv : RingInv roleIdx cap s h) {use : Use} {allowPartial : Bool}
    {size : UInt64} (hending : (s.roles i).call ≠ .ending)
    (huse : ∀ buffer, use = .write buffer → size.toNat ≤ buffer.length) :
    RingInv roleIdx cap (s.readTail roleIdx use allowPartial size i) h := by
  rw [RingBuffer.readTail]
  by_cases hin : (s.roles i).inTx = false
  · rw [if_pos hin]
    exact hinv.return hending _
  · rw [if_neg hin]
    by_cases hsize : size = 0
    · rw [if_pos hsize]
      exact hinv.return hending _
    · rw [if_neg hsize]
      have hrole := hinv.roles i
      have hopen : (s.roles i).inTx = true := by simpa using hin
      refine hinv.setRole ⟨fun _ => hrole.flag (Or.inl hopen), hrole.within, hrole.granted,
        ?_, ?_, ?_, ?_⟩ ⟨fun _ => Or.inl hopen, fun _ => Or.inl hopen⟩
      · intro hno
        exact nomatch hno.symm.trans hopen
      · intro use' allowPartial' size' tail' hcall
        obtain ⟨rfl, rfl, rfl, rfl⟩ := Call.tailRead.inj hcall
        exact ⟨rfl, hsize, huse⟩
      · intro use' buffers hcall
        exact nomatch hcall
      · intro hcall
        exact nomatch hcall

omit [DecidableEq ι] in
/-- The limit that a role reads is the unbounded one, modulo the width of a marker. -/
theorem RingInv.readHead (hinv : RingInv roleIdx cap s h) (r : Fin (n + 2)) :
    s.readHead r = UInt64.ofNat (limit cap h.pos r) := by
  rw [RingBuffer.readHead, RingBufferHeader.readMarker, hinv.markers, limit, UInt64.ofNat_add,
    hinv.sized.size]
  by_cases hr : r = Fin.last (n + 1)
  · rw [if_pos hr, if_pos (by rw [hr]; rfl)]
  · rw [if_neg hr, if_neg]
    · rfl
    · intro hval
      refine hr (Fin.ext ?_)
      rw [Fin.val_last]
      omega

theorem RingInv.grant (hinv : RingInv roleIdx cap s h) {use : Use} {allowPartial : Bool}
    {size tail : UInt64} (hcall : (s.roles i).call = .tailRead use allowPartial size tail) :
    RingInv roleIdx cap (s.grant roleIdx use allowPartial size tail i) h := by
  have hrole := hinv.roles i
  have hending : (s.roles i).call ≠ .ending := by
    rw [hcall]
    exact nofun
  obtain ⟨htail, hsize, huse⟩ := hrole.tail use allowPartial size tail hcall
  have hopen : (s.roles i).inTx = true := by
    by_contra hno
    rcases (hrole.closed (by simpa using hno)).2 with hidle | hidle
    · exact nomatch hidle.symm.trans hcall
    · exact nomatch hidle.symm.trans hcall
  have hsmall := hinv.sized.small
  have hturn : limit cap h.pos (roleIdx i) ≤ h.pos (roleIdx i) + cap :=
    Nat.le_trans (hinv.order.limit_turn _)
      (Nat.add_le_add_right (hinv.order.mono (Fin.zero_le _)) cap)
  rw [RingBuffer.grant]
  dsimp only
  rw [htail, hinv.markers, hinv.readHead]
  rcases accessContiguous_spec hinv.sized allowPartial hsize hrole.within hturn with
    ⟨heq, -⟩ | ⟨buffers, heq, haddr, -⟩
  · rw [heq]
    exact hinv.return hending _
  · rw [heq]
    dsimp only
    generalize hk : min size.toNat (limit cap h.pos (roleIdx i) - h.pos (roleIdx i)
      - (s.roles i).txSize.toNat) = k at haddr
    have hle := hrole.within
    have htx : (UInt32.ofNat ((s.roles i).txSize.toNat + k)).toNat
        = (s.roles i).txSize.toNat + k := toNat_ofNat_small32 (by omega)
    -- the transaction now covers the new areas too
    have hnext : ∀ call, (∀ use' allowPartial' size' tail',
          call ≠ .tailRead use' allowPartial' size' tail') → call ≠ .ending →
        (∀ use' buffers', call = .copying use' buffers' → use' = use ∧ buffers' = buffers) →
        ∀ result, RoleInv cap s.header h.pos (roleIdx i)
          { s.roles i with
            txSize := UInt32.ofNat ((s.roles i).txSize.toNat + k)
            granted := (s.roles i).granted ++ buffers
            call := call
            result := result } := by
      intro call hnotail hnoend hcopy result
      refine ⟨fun _ => hrole.flag (Or.inl hopen), ?_, ?_, ?_, ?_, ?_, ?_⟩
      · show h.pos (roleIdx i) + (UInt32.ofNat ((s.roles i).txSize.toNat + k)).toNat ≤ _
        rw [htx]
        omega
      · show addresses ((s.roles i).granted ++ buffers)
          = cells cap _ (UInt32.ofNat ((s.roles i).txSize.toNat + k)).toNat
        rw [htx, ← cells_append, addresses, List.flatMap_append]
        exact congrArg₂ _ hrole.granted haddr
      · intro hno
        exact nomatch hno.symm.trans hopen
      · intro use' allowPartial' size' tail' hno
        exact absurd hno (hnotail use' allowPartial' size' tail')
      · intro use' buffers' hcopying
        obtain ⟨rfl, rfl⟩ := hcopy use' buffers' hcopying
        refine ⟨(s.roles i).txSize.toNat, ?_, ?_, ?_⟩
        · rw [haddr, cells_length]
          exact htx.symm
        · rw [haddr, cells_length]
        · intro buffer hwrite
          rw [haddr, cells_length, ← hk]
          exact Nat.le_trans (Nat.min_le_left _ _) (huse buffer hwrite)
      · intro hno
        exact absurd hno hnoend
    have hheld : ∀ {role : RingBufferRole}, role.inTx = (s.roles i).inTx →
        (role.holds ↔ (s.roles i).holds) :=
      fun heq => ⟨fun _ => Or.inl hopen, fun _ => Or.inl (heq.trans hopen)⟩
    by_cases hdone : use = .access ∨ buffers = []
    · rw [if_pos hdone]
      exact hinv.setRole (hnext .idle nofun nofun nofun _) (hheld rfl)
    · rw [if_neg hdone]
      refine hinv.setRole (hnext (.copying use buffers) nofun nofun ?_ _) (hheld rfl)
      intro use' buffers' hcopying
      obtain ⟨rfl, rfl⟩ := Call.copying.inj hcopying
      exact ⟨rfl, rfl⟩

-- ── Writes to the data ───────────────────────────────────────────────────────

omit [DecidableEq ι] in
/-- Writing within an open transaction. -/
theorem RingInv.write (hinv : RingInv roleIdx cap s h) (i : ι) (offset : Nat)
    (bytes : List UInt8) (hoffset : offset + bytes.length ≤ (s.roles i).txSize.toNat) :
    RingInv roleIdx cap
      { s with data := store s.data (cells cap (h.pos (roleIdx i) + offset) bytes.length) bytes }
      (h.write (roleIdx i) offset bytes) := by
  have hwithin := (hinv.roles i).within
  have hzero : h.pos 0 ≤ h.pos (roleIdx i) := hinv.order.mono (Fin.zero_le _)
  have hlength : h.left.length = h.pos (Fin.last (n + 1)) := h.left_length.trans hinv.produced
  rw [History.write]
  by_cases hlast : (roleIdx i).val + 1 = n + 2
  · rw [if_pos hlast]
    have hr : roleIdx i = Fin.last (n + 1) := Fin.ext (by rw [Fin.val_last]; omega)
    rw [hr] at hwithin hzero ⊢
    rw [limit_last] at hwithin
    refine ⟨hinv.sized, hinv.markers, hinv.order, hinv.roles, hinv.exclusive, hinv.owner,
      hinv.committed, hinv.produced, hinv.writes, ?_, hinv.consumed⟩
    refine hinv.shows.storeBeyond bytes ?_ ?_ ?_
    · rw [hlength]
      exact Nat.le_add_right _ _
    · omega
    · omega
  · rw [if_neg hlast]
    have hlt : roleIdx i < Fin.last (n + 1) := by
      rw [Fin.lt_def, Fin.val_last]
      have := (roleIdx i).isLt
      omega
    have hbound := hinv.order.limit_le hlt
    have hleft : History.left { h with
        writes := h.writes ++ [(h.pos (roleIdx i) + offset, bytes)] }
        = overwrite h.left (h.pos (roleIdx i) + offset) bytes := by
      rw [History.left, List.foldl_append]
      rfl
    refine ⟨hinv.sized, hinv.markers, hinv.order, hinv.roles, hinv.exclusive, hinv.owner,
      hinv.committed, hinv.produced, ?_, ?_, ?_⟩
    · intro w hw
      rcases List.mem_append.mp hw with hw | hw
      · exact hinv.writes w hw
      · rw [List.mem_singleton.mp hw, hinv.produced]
        show h.pos (roleIdx i) + offset + bytes.length ≤ _
        omega
    · rw [hleft]
      refine hinv.shows.store bytes ?_ ?_
      · omega
      · rw [hlength]
        omega
    · rw [hleft, overwrite_take bytes
        (show h.pos 0 ≤ h.pos (roleIdx i) + offset by omega)]
      exact hinv.consumed

theorem RingInv.copy (hinv : RingInv roleIdx cap s h) {use : Use} {buffers : List Buffer}
    (hcall : (s.roles i).call = .copying use buffers) :
    RingInv roleIdx cap (s.copy use buffers i) (s.track roleIdx .resume i h) := by
  obtain ⟨offset, hoffset, haddr, huse⟩ := (hinv.roles i).copying use buffers hcall
  have hending : (s.roles i).call ≠ .ending := by
    rw [hcall]
    exact nofun
  cases use with
  | access =>
      unfold RingBuffer.track
      simp only [RingBuffer.copy, hcall]
      exact hinv.return hending _
  | read =>
      unfold RingBuffer.track
      simp only [RingBuffer.copy, hcall]
      obtain ⟨hrole, hholds⟩ := (hinv.roles i).return hending (.ok (addresses buffers).length)
      refine hinv.setRole ⟨hrole.flag, hrole.within, hrole.granted, hrole.closed, hrole.tail,
        hrole.copying, hrole.ending⟩ hholds
  | write buffer =>
      have hlen : (buffer.take (addresses buffers).length).length = (addresses buffers).length := by
        rw [List.length_take, Nat.min_eq_left (huse buffer rfl)]
      have hwrite := hinv.write i offset (buffer.take (addresses buffers).length) (by omega)
      rw [hlen, ← haddr] at hwrite
      unfold RingBuffer.track
      simp only [RingBuffer.copy, hcall]
      rw [show (s.roles i).txSize.toNat - (addresses buffers).length = offset by omega]
      exact hwrite.return hending _

omit [DecidableEq ι] in
theorem RingInv.poke (hinv : RingInv roleIdx cap s h) {offset : Nat} {byte : UInt8}
    {s' : RingBuffer (n + 2) ι} (hcall : (s.roles i).call = .idle)
    (hpoke : s.poke offset byte i = some s') :
    RingInv roleIdx cap s' (s.track roleIdx (.poke offset byte) i h) := by
  rw [RingBuffer.poke] at hpoke
  by_cases hin : (s.roles i).inTx = false
  · rw [if_pos hin] at hpoke
    exact nomatch hpoke
  · rw [if_neg hin, (hinv.roles i).granted] at hpoke
    unfold RingBuffer.track
    simp only [hcall]
    by_cases hlt : offset < (s.roles i).txSize.toNat
    · rw [cells_getElem? hlt] at hpoke
      obtain rfl := Option.some.inj hpoke
      exact hinv.write i offset [byte] hlt
    · rw [List.getElem?_eq_none (by rw [cells_length]; omega)] at hpoke
      exact nomatch hpoke

-- ── Commit ───────────────────────────────────────────────────────────────────

omit [DecidableEq ι] in
/-- The tape after a commit of `k` bytes by role `r`: it grows if the last role
    committed, and what role 0 committed is consumed. -/
theorem RingInv.commit_tape (hinv : RingInv roleIdx cap s h) {r : Fin (n + 2)} {k : Nat}
    (hk : h.pos r + k ≤ limit cap h.pos r) :
    let h' := h.commit r (cells cap (h.pos r) k) ((cells cap (h.pos r) k).map s.data)
    h'.produced.length = h'.pos (Fin.last (n + 1))
      ∧ (∀ w ∈ h'.writes, w.1 + w.2.length ≤ h'.produced.length)
      ∧ Shows cap s.data (h'.pos 0) h'.left ∧ h'.consumed = h'.left.take (h'.pos 0) := by
  have hlength : h.left.length = h.pos (Fin.last (n + 1)) := h.left_length.trans hinv.produced
  have hfirst : h.pos 0 ≤ h.pos (Fin.last (n + 1)) := hinv.order.mono (Fin.zero_le _)
  intro h'
  have hpos : ∀ q, h'.pos q = Function.update h.pos r (h.pos r + k) q := by
    intro q
    show Function.update h.pos r (h.pos r + (cells cap (h.pos r) k).length) q = _
    rw [cells_length]
  have hconsumed : h'.consumed = if r.val = 0 then
      h.consumed ++ (cells cap (h.pos r) k).map s.data else h.consumed := rfl
  by_cases hlast : r = Fin.last (n + 1)
  · subst hlast
    have hzero : (0 : Fin (n + 2)) ≠ Fin.last (n + 1) := by
      intro heq
      exact absurd (congrArg Fin.val heq) (by rw [Fin.val_last]; exact nofun)
    rw [limit_last] at hk
    have hproduced : h'.produced = h.produced
        ++ (cells cap (h.pos (Fin.last (n + 1))) k).map s.data := if_pos rfl
    have hleft : h'.left = h.left ++ (cells cap h.left.length k).map s.data := by
      rw [History.left, hproduced, hlength]
      exact overwrites_append h.writes _ _ hinv.writes
    have hpos0 : h'.pos 0 = h.pos 0 := by rw [hpos, Function.update_of_ne hzero]
    refine ⟨?_, ?_, ?_, ?_⟩
    · rw [hproduced, hpos, Function.update_self, List.length_append, hinv.produced,
        List.length_map, cells_length]
    · intro w hw
      rw [hproduced, List.length_append]
      exact Nat.le_trans (hinv.writes w hw) (Nat.le_add_right _ _)
    · rw [hpos0, hleft]
      exact hinv.shows.append (by rw [hlength]; exact hk)
    · rw [hpos0, hleft, List.take_append_of_le_length (by rw [hlength]; exact hfirst), hconsumed,
        if_neg (fun hval => hzero (Fin.ext hval.symm))]
      exact hinv.consumed
  · have hlt : r < Fin.last (n + 1) := lt_of_le_of_ne (Fin.le_last r) hlast
    have hbound := hinv.order.limit_le hlt
    have hproduced : h'.produced = h.produced := by
      refine if_neg (fun hval => hlast (Fin.ext ?_))
      rw [Fin.val_last]
      omega
    have hleft : h'.left = h.left := by
      rw [History.left, hproduced]
      rfl
    refine ⟨?_, ?_, ?_, ?_⟩
    · rw [hproduced, hpos, Function.update_of_ne (Ne.symm hlast)]
      exact hinv.produced
    · rw [hproduced]
      exact hinv.writes
    · rw [hleft, hpos]
      refine hinv.shows.mono ?_
      by_cases hr : 0 = r
      · rw [← hr, Function.update_self]
        exact Nat.le_add_right _ _
      · rw [Function.update_of_ne hr]
    · rw [hleft, hpos]
      by_cases hr : 0 = r
      · subst hr
        rw [Function.update_self, List.take_add, ← hinv.consumed,
          ← hinv.shows.read (Nat.le_refl _) (by rw [hlength]; omega), hconsumed]
        exact if_pos rfl
      · rw [Function.update_of_ne hr, hconsumed, if_neg (fun hval => hr (Fin.ext hval.symm))]
        exact hinv.consumed

/-- Committing: the marker moves over what was granted. -/
theorem RingInv.commitTx (hinv : RingInv roleIdx cap s h) (hcall : (s.roles i).call = .idle) :
    RingInv roleIdx cap (s.commitTx roleIdx i) (s.track roleIdx .commitTx i h) := by
  unfold RingBuffer.track
  simp only [RingBuffer.commitTx, hcall]
  by_cases hin : (s.roles i).inTx = false
  · rw [if_pos hin, if_neg (by rw [hin]; exact nofun)]
    exact hinv.return (by rw [hcall]; exact nofun) _
  · have hopen : (s.roles i).inTx = true := by simpa using hin
    rw [if_neg hin, if_pos hopen]
    have hrole := hinv.roles i
    obtain ⟨h1, h2, h3, h4⟩ := hinv.commit_tape hrole.within
    rw [hrole.granted]
    have horder := hinv.order.advance hrole.within
    have hpos : (h.commit (roleIdx i) (cells cap (h.pos (roleIdx i)) (s.roles i).txSize.toNat)
        ((cells cap (h.pos (roleIdx i)) (s.roles i).txSize.toNat).map s.data)).pos
        = Function.update h.pos (roleIdx i)
          (h.pos (roleIdx i) + (s.roles i).txSize.toNat) := by
      show Function.update h.pos (roleIdx i) (h.pos (roleIdx i) + (cells cap _ _).length) = _
      rw [cells_length]
    have hup : ∀ q, h.pos q ≤ Function.update h.pos (roleIdx i)
        (h.pos (roleIdx i) + (s.roles i).txSize.toNat) q := by
      intro q
      by_cases hq : q = roleIdx i
      · rw [hq, Function.update_self]
        exact Nat.le_add_right _ _
      · rw [Function.update_of_ne hq]
    refine ⟨⟨hinv.sized.size, hinv.sized.mask, hinv.sized.pow, hinv.sized.small⟩, ?_, ?_, ?_, ?_,
      ?_, ?_, h1, h2, h3, h4⟩
    · intro r
      show Function.update s.header.markers (roleIdx i) _ r = _
      rw [hpos]
      by_cases hr : r = roleIdx i
      · rw [hr, Function.update_self, Function.update_self, hinv.markers, UInt64.ofNat_add,
          UInt64.ofNat_uInt32ToNat]
      · rw [Function.update_of_ne hr, Function.update_of_ne hr, hinv.markers]
    · rw [hpos]
      exact horder
    · intro j
      rw [hpos]
      by_cases hj : j = i
      · subst hj
        rw [RingBuffer.setRole_self]
        refine ⟨fun _ => hrole.flag (Or.inl hopen), horder.le_limit _, rfl,
          fun _ => ⟨rfl, Or.inr rfl⟩, ?_, ?_, fun _ => rfl⟩
        · intro use allowPartial size tail hno
          exact nomatch hno
        · intro use buffers hno
          exact nomatch hno
      · rw [RingBuffer.setRole_ne _ _ hj]
        refine (hinv.roles j).frame (hinv.roles j).flag hup ?_ horder
        intro hh
        have hne : roleIdx j ≠ roleIdx i :=
          fun heq => hj (hinv.exclusive j i heq hh (Or.inl hopen))
        exact ⟨Function.update_of_ne hne _ _, Function.update_of_ne hne _ _⟩
    · intro j k hjk hj hk
      have hbefore : ∀ m, RingBufferRole.holds ((RingBuffer.setRole
          { s with header := s.header.incMarker (roleIdx i) (s.roles i).txSize.toUInt64 } i
          { s.roles i with txSize := 0, inTx := false, granted := [], call := .ending }).roles m) →
          (s.roles m).holds := by
        intro m hm
        by_cases hmi : m = i
        · rw [hmi]
          exact Or.inl hopen
        · rwa [RingBuffer.setRole_ne _ _ hmi] at hm
      exact hinv.exclusive j k hjk (hbefore j hj) (hbefore k hk)
    · intro r hr
      obtain ⟨j, hjr, hjh⟩ := hinv.owner r hr
      refine ⟨j, hjr, ?_⟩
      by_cases hj : j = i
      · subst hj
        rw [RingBuffer.setRole_self]
        exact Or.inr rfl
      · rw [RingBuffer.setRole_ne _ _ hj]
        exact hjh
    · intro r
      show Function.update h.committed (roleIdx i) _ r = _
      rw [hpos]
      by_cases hr : r = roleIdx i
      · rw [hr, Function.update_self, Function.update_self, hinv.committed, ← cells_append,
          Nat.zero_add]
      · rw [Function.update_of_ne hr, Function.update_of_ne hr, hinv.committed]

-- ── Runs ─────────────────────────────────────────────────────────────────────

/-- What a step of an instance can be.  A call that accesses the data begins with the read of the
    own marker, which the history does not record, and whoever writes has the bytes he asks for. -/
inductive StepOf (roleIdx : ι → Fin (n + 2)) (s : RingBuffer (n + 2) ι) (i : ι) :
    Action → RingBuffer (n + 2) ι → Prop where
  | startTx (hcall : (s.roles i).call = .idle) :
      StepOf roleIdx s i .startTx (s.startTx roleIdx i)
  | commitTx (hcall : (s.roles i).call = .idle) :
      StepOf roleIdx s i .commitTx (s.commitTx roleIdx i)
  | cancelTx (hcall : (s.roles i).call = .idle) :
      StepOf roleIdx s i .cancelTx (s.cancelTx roleIdx i)
  | readTail (action : Action) (use : Use) (allowPartial : Bool) (size : UInt64)
      (hcall : (s.roles i).call = .idle) (htrack : ∀ h, s.track roleIdx action i h = h)
      (huse : ∀ buffer, use = .write buffer → size.toNat ≤ buffer.length) :
      StepOf roleIdx s i action (s.readTail roleIdx use allowPartial size i)
  | poke (offset : Nat) (byte : UInt8) (s' : RingBuffer (n + 2) ι)
      (hcall : (s.roles i).call = .idle) (hpoke : s.poke offset byte i = some s') :
      StepOf roleIdx s i (.poke offset byte) s'
  | grant (use : Use) (allowPartial : Bool) (size tail : UInt64)
      (hcall : (s.roles i).call = .tailRead use allowPartial size tail) :
      StepOf roleIdx s i .resume (s.grant roleIdx use allowPartial size tail i)
  | copy (use : Use) (buffers : List Buffer) (hcall : (s.roles i).call = .copying use buffers) :
      StepOf roleIdx s i .resume (s.copy use buffers i)
  | endCommit (hcall : (s.roles i).call = .ending) :
      StepOf roleIdx s i .resume (s.endCommit roleIdx i)

/-- A step of an instance that is not in a call. -/
theorem stepOf_idle {action : Action} {s' : RingBuffer (n + 2) ι}
    (hcall : (s.roles i).call = .idle) (hstep : s.step roleIdx action i = some s') :
    StepOf roleIdx s i action s' := by
  unfold RingBuffer.step at hstep
  cases action with
  | startTx =>
      simp only [hcall, Option.some.injEq] at hstep
      exact hstep ▸ .startTx hcall
  | commitTx =>
      simp only [hcall, Option.some.injEq] at hstep
      exact hstep ▸ .commitTx hcall
  | cancelTx =>
      simp only [hcall, Option.some.injEq] at hstep
      exact hstep ▸ .cancelTx hcall
  | accessContiguousInTx allowPartial size =>
      simp only [hcall, Option.some.injEq] at hstep
      refine hstep ▸ .readTail _ .access allowPartial size hcall (fun h => ?_) nofun
      simp only [RingBuffer.track, hcall]
  | incMarkerInTx size =>
      simp only [hcall, Option.some.injEq] at hstep
      refine hstep ▸ .readTail _ .access false size hcall (fun h => ?_) nofun
      simp only [RingBuffer.track, hcall]
  | readInTx allowPartial size =>
      simp only [hcall, Option.some.injEq] at hstep
      refine hstep ▸ .readTail _ .read allowPartial size hcall (fun h => ?_) nofun
      simp only [RingBuffer.track, hcall]
  | writeInTx allowPartial buffer =>
      simp only [hcall, Option.some.injEq] at hstep
      refine hstep ▸ .readTail _ (.write buffer) allowPartial _ hcall (fun h => ?_) ?_
      · simp only [RingBuffer.track, hcall]
      · intro buffer' heq
        obtain rfl := Use.write.inj heq
        rw [UInt64.toNat_ofNat']
        exact Nat.mod_le _ _
  | resume =>
      simp only [hcall] at hstep
      exact nomatch hstep
  | poke offset byte =>
      simp only [hcall] at hstep
      exact .poke offset byte s' hcall hstep

/-- **Inversion of a step**, by the state of the call. -/
theorem stepOf {action : Action} {s' : RingBuffer (n + 2) ι}
    (hstep : s.step roleIdx action i = some s') : StepOf roleIdx s i action s' := by
  cases hcall : (s.roles i).call with
  | idle => exact stepOf_idle hcall hstep
  | tailRead use allowPartial size tail =>
      unfold RingBuffer.step at hstep
      cases action with
      | resume =>
          simp only [hcall, Option.some.injEq] at hstep
          exact hstep ▸ .grant use allowPartial size tail hcall
      | _ =>
          simp only [hcall] at hstep
          exact nomatch hstep
  | copying use buffers =>
      unfold RingBuffer.step at hstep
      cases action with
      | resume =>
          simp only [hcall, Option.some.injEq] at hstep
          exact hstep ▸ .copy use buffers hcall
      | _ =>
          simp only [hcall] at hstep
          exact nomatch hstep
  | ending =>
      unfold RingBuffer.step at hstep
      cases action with
      | resume =>
          simp only [hcall, Option.some.injEq] at hstep
          exact hstep ▸ .endCommit hcall
      | _ =>
          simp only [hcall] at hstep
          exact nomatch hstep

/-- **One step.** -/
theorem RingInv.step (hinv : RingInv roleIdx cap s h) {action : Action}
    {s' : RingBuffer (n + 2) ι} (hstep : s.step roleIdx action i = some s') :
    RingInv roleIdx cap s' (s.track roleIdx action i h) := by
  have hending : (s.roles i).call = .idle → (s.roles i).call ≠ .ending := fun hcall => by
    rw [hcall]
    exact nofun
  cases stepOf hstep with
  | startTx hcall =>
      unfold RingBuffer.track
      simp only [hcall]
      exact hinv.startTx (hending hcall)
  | commitTx hcall => exact hinv.commitTx hcall
  | cancelTx hcall =>
      unfold RingBuffer.track
      simp only [hcall]
      exact hinv.cancelTx (hending hcall)
  | readTail _ use allowPartial size hcall htrack huse =>
      rw [htrack]
      exact hinv.readTail (hending hcall) huse
  | poke offset byte _ hcall hpoke => exact hinv.poke hcall hpoke
  | grant use allowPartial size tail hcall =>
      unfold RingBuffer.track
      simp only [hcall]
      exact hinv.grant hcall
  | copy use buffers hcall => exact hinv.copy hcall
  | endCommit hcall =>
      unfold RingBuffer.track
      simp only [hcall]
      exact hinv.endCommit hcall

omit [DecidableEq ι] in
theorem ringInv_make {minDataByteSize : UInt64} (data : Nat → UInt8)
    (hsized : Sized (RingBufferHeader.make (n + 2) minDataByteSize) cap) :
    RingInv roleIdx cap (RingBuffer.make (n + 2) minDataByteSize data) {} := by
  refine ⟨hsized, fun r => rfl, InOrder.init cap, ?_, ?_, (fun _ hr => nomatch hr),
    fun r => rfl, rfl, ?_, ?_, rfl⟩
  · intro i
    refine ⟨?_, ?_, rfl, fun _ => ⟨rfl, Or.inl rfl⟩, ?_, ?_, ?_⟩
    · rintro (hno | hno)
      · exact nomatch hno
      · exact nomatch hno
    · exact (InOrder.init cap).le_limit (roleIdx i)
    · intro use allowPartial size tail hno
      exact nomatch hno
    · intro use buffers hno
      exact nomatch hno
    · intro hno
      exact nomatch hno
  · rintro i j - (hno | hno)
    · exact nomatch hno
    · exact nomatch hno
  · intro w hw
    exact nomatch hw
  · exact Shows.nil cap data 0

/-- **Every run.** -/
theorem reachable_ringInv (hs : s.Reachable roleIdx h) :
    ∃ cap, 2 ≤ cap ∧ RingInv roleIdx cap s h := by
  induction hs with
  | make minDataByteSize data haccepted =>
      obtain ⟨cap, htwo, hsized⟩ := sized_make haccepted
      exact ⟨cap, htwo, ringInv_make data hsized⟩
  | step action i _ hstep ih =>
      obtain ⟨cap, htwo, hinv⟩ := ih
      exact ⟨cap, htwo, hinv.step hstep⟩

-- ── Markers ──────────────────────────────────────────────────────────────────

theorem startTx_markers : (s.startTx roleIdx i).header.markers = s.header.markers := by
  rw [RingBuffer.startTx]
  dsimp only [RingBufferHeader.beginTransaction]
  by_cases hin : (s.roles i).inTx = true
  · rw [if_pos hin]
    rfl
  · rw [if_neg hin]
    by_cases htaken : s.header.inTx (roleIdx i) = true
    · rw [if_pos htaken]
      rfl
    · rw [if_neg htaken]
      rfl

theorem cancelTx_markers : (s.cancelTx roleIdx i).header.markers = s.header.markers := by
  rw [RingBuffer.cancelTx]
  by_cases hin : (s.roles i).inTx = false
  · rw [if_pos hin]
    rfl
  · rw [if_neg hin]
    rfl

theorem readTail_markers (use : Use) (allowPartial : Bool) (size : UInt64) :
    (s.readTail roleIdx use allowPartial size i).header.markers = s.header.markers := by
  rw [RingBuffer.readTail]
  by_cases hin : (s.roles i).inTx = false
  · rw [if_pos hin]
    rfl
  · rw [if_neg hin]
    by_cases hsize : size = 0
    · rw [if_pos hsize]
      rfl
    · rw [if_neg hsize]
      rfl

theorem grant_markers (use : Use) (allowPartial : Bool) (size tail : UInt64) :
    (s.grant roleIdx use allowPartial size tail i).header.markers = s.header.markers := by
  rw [RingBuffer.grant]
  dsimp only
  split
  · rfl
  · split
    · rfl
    · rfl

omit [DecidableEq ι] in
theorem poke_markers {offset : Nat} {byte : UInt8} {s' : RingBuffer (n + 2) ι}
    (hpoke : s.poke offset byte i = some s') : s'.header.markers = s.header.markers := by
  rw [RingBuffer.poke] at hpoke
  split at hpoke
  · exact nomatch hpoke
  · split at hpoke
    · exact nomatch hpoke
    · exact Option.some.inj hpoke ▸ rfl

/-- Only a commit with an open transaction moves a marker. -/
theorem step_markers {action : Action} {s' : RingBuffer (n + 2) ι}
    (hstep : s.step roleIdx action i = some s')
    (hno : action = .commitTx → (s.roles i).inTx = false) :
    s'.header.markers = s.header.markers := by
  cases stepOf hstep with
  | startTx hcall => exact startTx_markers
  | commitTx hcall =>
      rw [RingBuffer.commitTx, if_pos (hno rfl)]
      rfl
  | cancelTx hcall => exact cancelTx_markers
  | readTail _ use allowPartial size hcall htrack huse => exact readTail_markers use allowPartial size
  | poke offset byte _ hcall hpoke => exact poke_markers hpoke
  | grant use allowPartial size tail hcall => exact grant_markers use allowPartial size tail
  | copy use buffers hcall =>
      cases use with
      | access => rfl
      | read => rfl
      | write buffer => rfl
  | endCommit hcall => rfl

end Steps

-- ── What every run guarantees ────────────────────────────────────────────────

/-- What holds of a ring buffer of `size` bytes and its history at any moment. -/
structure RingGuarantee (roleIdx : ι → Fin (n + 2)) (size : Nat) (s : RingBuffer (n + 2) ι)
    (h : History (n + 2)) : Prop where
  /-- Counted without bound, each marker is behind the next, the last within a buffer
      of the first; the header holds them modulo `2 ^ 64`. -/
  order : Monotone h.pos ∧ h.pos (Fin.last (n + 1)) ≤ h.pos 0 + size
  markers : ∀ r, (s.header.readMarker r).toNat = h.pos r % 2 ^ 64
  /-- The machine subtractions give the exact gaps, also where a call has read the
      first marker some time ago. -/
  gaps : ∀ r, (s.readHead r - s.header.readMarker r).toNat = limit size h.pos r - h.pos r
  avail : ∀ i use allowPartial asked tail,
    (s.roles i).call = .tailRead use allowPartial asked tail →
    (s.readHead (roleIdx i) - tail - (s.roles i).txSize.toUInt64).toNat
      = limit size h.pos (roleIdx i) - h.pos (roleIdx i) - (s.roles i).txSize.toNat
  /-- At most one instance of a role has an open transaction, and what was granted to
      different roles does not overlap. -/
  alone : ∀ i j, roleIdx i = roleIdx j → (s.roles i).inTx = true → (s.roles j).inTx = true →
    i = j
  disjoint : ∀ i j, roleIdx i ≠ roleIdx j →
    (addresses (s.roles i).granted).Disjoint (addresses (s.roles j).granted)
  /-- The addresses a role has committed run on without gap or overlap. -/
  adjacent : ∀ r, h.committed r = (List.range (h.pos r)).map (· % size)
  /-- What the last role produced and role 0 has not yet passed is in the data as the
      other roles left it; a read copies it; role 0 consumes it in order. -/
  produced : h.produced.length = h.pos (Fin.last (n + 1))
  held : ∀ p b, h.pos 0 ≤ p → h.left[p]? = some b → s.data (p % size) = b
  reads : ∀ i buffers, (s.roles i).call = .copying .read buffers →
    roleIdx i ≠ Fin.last (n + 1) → (addresses buffers).map s.data
      = (h.left.drop (h.pos (roleIdx i) + ((s.roles i).txSize.toNat - (addresses buffers).length))
          ).take (addresses buffers).length
  consumed : h.consumed = h.left.take (h.pos 0)
  /-- A cancelled transaction and a failed call leave every marker as it is. -/
  cancelled : ∀ i s', s.step roleIdx .cancelTx i = some s' →
    s'.header.markers = s.header.markers
  failed : ∀ action i s' e, s.step roleIdx action i = some s' → (s'.roles i).call = .idle →
    (s'.roles i).result = .error e → s'.header.markers = s.header.markers

/-- **The ring buffer invariant.**  For any number of roles from two on, any size the
    header accepts, any number of instances and any interleaving of their steps. -/
theorem ring_buffer_invariant {s : RingBuffer (n + 2) ι} {h : History (n + 2)}
    (hs : s.Reachable roleIdx h) :
    2 ≤ s.header.kDataPoolByteSize.toNat ∧ s.header.kDataPoolByteSize.toNat.isPowerOfTwo
    ∧ RingGuarantee roleIdx s.header.kDataPoolByteSize.toNat s h := by
  obtain ⟨cap, htwo, hinv⟩ := reachable_ringInv hs
  have hsmall := hinv.sized.small
  have hsize : s.header.kDataPoolByteSize.toNat = cap := by
    rw [hinv.sized.size, toNat_ofNat_small hsmall]
  have hturn : ∀ r, limit cap h.pos r ≤ h.pos r + cap := by
    intro r
    refine Nat.le_trans (hinv.order.limit_turn r) ?_
    exact Nat.add_le_add_right (hinv.order.mono (Fin.zero_le r)) cap
  rw [hsize]
  refine ⟨htwo, hinv.sized.pow, ⟨hinv.order.mono, hinv.order.turn⟩, ?_, ?_, ?_, ?_, ?_, ?_,
    hinv.produced, fun p b hp hb => hinv.shows.cell p hp b hb, ?_, hinv.consumed, ?_, ?_⟩
  · intro r
    rw [RingBufferHeader.readMarker, hinv.markers, UInt64.toNat_ofNat']
  · intro r
    have hle := hinv.order.le_limit r
    have hgap := hturn r
    rw [hinv.readHead, RingBufferHeader.readMarker, hinv.markers, ← UInt64.ofNat_sub hle,
      toNat_ofNat_small (by omega)]
  · intro i use allowPartial asked tail hcall
    have hrole := hinv.roles i
    have hle := hrole.within
    have hgap := hturn (roleIdx i)
    rw [(hrole.tail use allowPartial asked tail hcall).1, hinv.readHead, hinv.markers,
      ← UInt64.ofNat_uInt32ToNat, ← UInt64.ofNat_sub (by omega), ← UInt64.ofNat_sub (by omega),
      toNat_ofNat_small (by omega)]
  · intro i j hij hi hj
    exact hinv.exclusive i j hij (Or.inl hi) (Or.inl hj)
  · intro i j hij c hci hcj
    rw [(hinv.roles i).granted] at hci
    rw [(hinv.roles j).granted] at hcj
    obtain ⟨p, hp1, hp2, rfl⟩ := mem_cells.mp hci
    obtain ⟨q, hq1, hq2, hcell⟩ := mem_cells.mp hcj
    exact hinv.order.claims_disjoint hij
      ⟨hp1, Nat.lt_of_lt_of_le hp2 (hinv.roles i).within⟩
      ⟨hq1, Nat.lt_of_lt_of_le hq2 (hinv.roles j).within⟩ hcell.symm
  · intro r
    rw [hinv.committed r, cells, List.range_eq_range']
  · intro i buffers hcall hne
    obtain ⟨offset, hoffset, haddr, -⟩ := (hinv.roles i).copying .read buffers hcall
    have hwithin := (hinv.roles i).within
    have hlt : roleIdx i < Fin.last (n + 1) := lt_of_le_of_ne (Fin.le_last _) hne
    have hbound := hinv.order.limit_le hlt
    have hzero : h.pos 0 ≤ h.pos (roleIdx i) := hinv.order.mono (Fin.zero_le _)
    have hlength : h.left.length = h.pos (Fin.last (n + 1)) := h.left_length.trans hinv.produced
    rw [show (s.roles i).txSize.toNat - (addresses buffers).length = offset by omega]
    have hread := hinv.shows.read (p := h.pos (roleIdx i) + offset)
      (k := (addresses buffers).length) (by omega) (by omega)
    rwa [← haddr] at hread
  · intro i s' hstep
    exact step_markers hstep (by simp)
  · intro action i s' e hstep hidle _
    refine step_markers hstep ?_
    rintro rfl
    by_contra hopen
    have hcall : (s.roles i).call = .idle := by
      cases hc : (s.roles i).call with
      | idle => rfl
      | _ =>
          unfold RingBuffer.step at hstep
          simp only [hc] at hstep
          exact absurd hstep (by simp)
    unfold RingBuffer.step at hstep
    simp only [hcall, Option.some.injEq] at hstep
    rw [← hstep, RingBuffer.commitTx, if_neg hopen, RingBuffer.setRole_self] at hidle
    exact absurd hidle (by simp)

/-- Several steps, one after the other. -/
def RingBuffer.steps (roleIdx : ι → Fin (n + 2)) :
    List (ι × Action) → RingBuffer (n + 2) ι × History (n + 2) →
    Option (RingBuffer (n + 2) ι × History (n + 2))
  | [], x => some x
  | (i, action) :: rest, (s, h) =>
      match s.step roleIdx action i with
      | none => none
      | some s' => RingBuffer.steps roleIdx rest (s', s.track roleIdx action i h)

theorem RingBuffer.Reachable.steps {l : List (ι × Action)} {s s' : RingBuffer (n + 2) ι}
    {h h' : History (n + 2)} (hs : s.Reachable roleIdx h)
    (hl : RingBuffer.steps roleIdx l (s, h) = some (s', h')) : s'.Reachable roleIdx h' := by
  induction l generalizing s h with
  | nil =>
      obtain ⟨rfl, rfl⟩ := Prod.mk.inj (Option.some.inj hl)
      exact hs
  | cons a rest ih =>
      obtain ⟨i, action⟩ := a
      rw [RingBuffer.steps] at hl
      cases hstep : s.step roleIdx action i with
      | none =>
          rw [hstep] at hl
          exact nomatch hl
      | some t =>
          rw [hstep] at hl
          exact ih (hs.step action i hstep) hl

end Roles

/-- A producer and a consumer take turns on four bytes; the second write wraps. -/
def sampleTurns : List (Fin 2 × Action) :=
  [(1, .startTx), (1, .writeInTx false [1, 2, 3]), (1, .resume), (1, .resume), (1, .commitTx),
    (1, .resume), (0, .startTx), (0, .readInTx false 2), (0, .resume), (0, .resume),
    (0, .commitTx), (1, .startTx), (0, .resume), (1, .writeInTx false [4, 5, 6]), (0, .startTx),
    (1, .resume), (0, .readInTx true 4), (1, .resume), (1, .commitTx), (0, .resume),
    (0, .resume), (0, .commitTx)]

/-- A ring of four bytes after some turns of both roles. -/
def sampleRing : Option (RingBuffer 2 (Fin 2) × History 2) :=
  RingBuffer.steps id sampleTurns (RingBuffer.make 2 3 (fun _ => 0), {})

/-- The consumer gets the six bytes in order. -/
theorem ring_buffer_invariant_wrapped :
    ∃ s h, sampleRing = some (s, h) ∧ h.consumed = [1, 2, 3, 4, 5, 6]
      ∧ RingGuarantee id 4 s h := by
  have haccepted : (RingBufferHeader.make 2 3).Accepted :=
    ⟨by decide +kernel, by decide +kernel, by decide +kernel⟩
  have hrun : sampleRing.map (fun x => (x.2.consumed, x.1.header.kDataPoolByteSize.toNat))
      = some ([1, 2, 3, 4, 5, 6], 4) := by decide +kernel
  obtain ⟨⟨s, h⟩, hsome, hvalues⟩ := Option.map_eq_some_iff.mp hrun
  obtain ⟨hconsumed, hsize⟩ := Prod.mk.inj hvalues
  have hreach : s.Reachable id h :=
    (RingBuffer.Reachable.make 3 (fun _ => 0) haccepted).steps hsome
  have hring := (ring_buffer_invariant hreach).2.2
  rw [show s.header.kDataPoolByteSize.toNat = 4 from hsize] at hring
  exact ⟨s, h, hsome, hconsumed, hring⟩

end TpRing
