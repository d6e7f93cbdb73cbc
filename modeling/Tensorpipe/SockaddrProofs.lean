import Tensorpipe.TextProofs

/-! # Socket addresses as text

    `createInetSockAddr` cuts its text into an address and a port by the first brackets,
    periods and colons, reads the port and lets the library convert the address.  The uv and
    the ibv transport do the same up to the functions that convert.

    `Cut` lists the ways in which a text can be put together of an address and a port; every
    text is cut in one of them (`cut_split`), and in no other (`Cut.split`).  What is read then
    depends on the two parts alone (`createInetSockAddr_eq`). -/

namespace TpSockaddr

open TpText

/-- The exceptions of the two functions.  `TP_THROW_EINVAL` throws the type that `stoi` throws
    when there is no number; a failure to print is thrown by `TP_THROW_UV_IF` or
    `TP_THROW_SYSTEM_IF`. -/
inductive Exception
  | read (error : ReadError)
  | runtime
  | system
  deriving DecidableEq, Repr

/-- `TP_THROW_EINVAL`. -/
def invalidArgument : Exception := .read .invalidArgument

/-- A port in network byte order. -/
def htons (port : UInt16) : UInt16 :=
  UInt16.ofNat (port.toNat % 256 * 256 + port.toNat / 256)

theorem htons_htons (port : UInt16) : htons (htons port) = port := by
  have hlt : port.toNat < 65536 := port.toNat_lt
  have hswap : ∀ n : UInt16, (htons n).toNat = n.toNat % 256 * 256 + n.toNat / 256 := by
    intro n
    have hn : n.toNat < 65536 := n.toNat_lt
    have hswapped : n.toNat % 256 * 256 + n.toNat / 256 < 65536 := by omega
    rw [htons, UInt16.toNat_ofNat_of_lt' hswapped]
  refine UInt16.toNat_inj.mp ?_
  rw [hswap, hswap]
  omega

/-- `addr_`, by its family: the port is stored in network byte order. -/
inductive Sockaddr (A4 A6 : Type)
  | inet (sin_addr : A4) (sin_port : UInt16)
  | inet6 (sin6_addr : A6) (sin6_scope_id : UInt32) (sin6_port : UInt16)
  | other (ss_family : UInt16)
  deriving DecidableEq, Repr

variable {A4 A6 : Type}

-- ── The address text and the port text ───────────────────────────────────────

/-- What stands between the first brackets, and behind them after a colon. -/
def bracketed (str : List Char) : List Char × List Char :=
  match str.idxOf? '[', str.idxOf? ']' with
  | some start, some stop =>
      if start < stop then
        ((str.drop (start + 1)).take (stop - (start + 1)),
          if str[stop + 1]? = some ':' then str.drop (stop + 2) else [])
      else ([], [])
  | _, _ => ([], [])

/-- What stands on either side of the first colon, in a text with a period. -/
def dotted (str portStr : List Char) : List Char × List Char :=
  match str.idxOf? '.', str.idxOf? ':' with
  | some _, some colon => (str.take colon, str.drop (colon + 1))
  | _, _ => ([], portStr)

/-- `addrStr` and `portStr`: three attempts, each made when `addrStr` is still empty. -/
def splitAddress (str : List Char) : List Char × List Char :=
  let first := bracketed str
  let second := if first.1 = [] then dotted str first.2 else first
  if second.1 = [] then (str, second.2) else second

/-- The port, 0 when there is no text for it. -/
def parsePort (portStr : List Char) : Except Exception UInt16 :=
  if portStr = [] then .ok 0
  else
    match stoi portStr with
    | .error e => .error (.read e)
    | .ok port =>
        if port < 0 ∨ 65535 < port then .error invalidArgument
        else .ok (UInt16.ofNat port.toNat)

/-- `createInetSockAddr`, over the conversions of the two families. -/
def createInetSockAddr (ip4 ip6 : List Char → UInt16 → Option (Sockaddr A4 A6))
    (str : List Char) : Except Exception (Sockaddr A4 A6) := do
  let (addrStr, portStr) := splitAddress str
  let port ← parsePort portStr
  match ip4 addrStr port with
  | some addr => .ok addr
  | none =>
      match ip6 addrStr port with
      | some addr => .ok addr
      | none => .error invalidArgument

/-- `str`, over the printing functions, which give nothing when they fail. -/
def str (name4 : A4 → Option (List Char)) (name6 : A6 → Option (List Char))
    (ifName : UInt32 → Option (List Char)) (failed : Exception) :
    Sockaddr A4 A6 → Except Exception (List Char)
  | .inet addr port =>
      match name4 addr with
      | none => .error failed
      | some text => .ok (text ++ ':' :: decimal (htons port).toNat)
  | .inet6 addr scope port =>
      match name6 addr with
      | none => .error failed
      | some text =>
          if 0 < scope then
            match ifName scope with
            | none => .error failed
            | some name =>
                .ok ('[' :: (text ++ '%' :: name) ++ ']' :: ':' :: decimal (htons port).toNat)
          else .ok ('[' :: text ++ ']' :: ':' :: decimal (htons port).toNat)
  | .other _ => .error invalidArgument

-- ── The two transports ───────────────────────────────────────────────────────

/-- What the uv transport calls. -/
structure UvLibrary (A4 A6 : Type) where
  ip4Addr : List Char → UInt16 → Option (Sockaddr A4 A6)
  ip6Addr : List Char → UInt16 → Option (Sockaddr A4 A6)
  ip4Name : A4 → Option (List Char)
  ip6Name : A6 → Option (List Char)
  ifIndextoiid : UInt32 → Option (List Char)

/-- What the ibv transport calls. -/
structure InetLibrary (A4 A6 : Type) where
  pton4 : List Char → Option A4
  pton6 : List Char → Option A6
  ntop4 : A4 → Option (List Char)
  ntop6 : A6 → Option (List Char)
  /-- 0 for a name that no interface has. -/
  ifNametoindex : List Char → UInt32
  ifIndextoname : UInt32 → Option (List Char)

/-- `Sockaddr::createInetSockAddr` of uv. -/
def UvLibrary.createInetSockAddr (lib : UvLibrary A4 A6) :
    List Char → Except Exception (Sockaddr A4 A6) :=
  TpSockaddr.createInetSockAddr (fun addrStr => lib.ip4Addr (cStr addrStr))
    (fun addrStr => lib.ip6Addr (cStr addrStr))

/-- `Sockaddr::str` of uv. -/
def UvLibrary.str (lib : UvLibrary A4 A6) : Sockaddr A4 A6 → Except Exception (List Char) :=
  TpSockaddr.str lib.ip4Name lib.ip6Name lib.ifIndextoiid .runtime

/-- The address in front of the first `%`, and the index of the interface named behind it. -/
def InetLibrary.scopedAddr (lib : InetLibrary A4 A6) (addrStr : List Char) : Option (A6 × UInt32) :=
  match addrStr.idxOf? '%' with
  | none => (lib.pton6 (cStr addrStr)).map fun addr => (addr, 0)
  | some interfacePos =>
      (lib.pton6 (cStr (addrStr.take interfacePos))).map fun addr =>
        (addr, lib.ifNametoindex (cStr (addrStr.drop (interfacePos + 1))))

/-- `Sockaddr::createInetSockAddr` of ibv. -/
def InetLibrary.createInetSockAddr (lib : InetLibrary A4 A6) :
    List Char → Except Exception (Sockaddr A4 A6) :=
  TpSockaddr.createInetSockAddr
    (fun addrStr port => (lib.pton4 (cStr addrStr)).map fun addr => .inet addr (htons port))
    (fun addrStr port =>
      (lib.scopedAddr addrStr).map fun addr => .inet6 addr.1 addr.2 (htons port))

/-- `Sockaddr::str` of ibv. -/
def InetLibrary.str (lib : InetLibrary A4 A6) : Sockaddr A4 A6 → Except Exception (List Char) :=
  TpSockaddr.str lib.ntop4 lib.ntop6 lib.ifIndextoname .system

-- ── How a text is cut ────────────────────────────────────────────────────────

/-- Nothing in the text and no closing bracket in the address: the brackets around the address
    are the first ones of both kinds. -/
structure FirstBrackets (before addr : List Char) : Prop where
  no_open : '[' ∉ before
  no_close : ']' ∉ before
  closes : ']' ∉ addr

/-- A text without a bracket and one of the other kind behind it, by the first of each. -/
inductive Unpaired : List Char → Prop
  | no_open {str} (h : '[' ∉ str) : Unpaired str
  | no_close {str} (h : ']' ∉ str) : Unpaired str
  | reversed {before after} (hopen : '[' ∉ before) (hclose : ']' ∉ before) :
      Unpaired (before ++ ']' :: after)

/-- The port behind a closing bracket: what follows a colon, if that comes next. -/
inductive Behind : List Char → List Char → Prop
  | nothing {after} (h : after.head? ≠ some ':') : Behind after []
  | port {port} : Behind (':' :: port) port

theorem Behind.eq {after port : List Char} (h : Behind after port) :
    (if after.head? = some ':' then after.tail else []) = port := by
  cases h with
  | nothing h => rw [if_neg h]
  | port => rfl

theorem behind_exists (after : List Char) : ∃ port, Behind after port := by
  by_cases h : after.head? = some ':'
  · obtain ⟨port, rfl⟩ := List.head?_eq_some_iff.mp h
    exact ⟨port, Behind.port⟩
  · exact ⟨[], Behind.nothing h⟩

/-- Without a pair of brackets nothing is taken from between brackets. -/
theorem bracketed_unpaired {str : List Char} (h : Unpaired str) : bracketed str = ([], []) := by
  cases h with
  | no_open h => rw [bracketed, List.idxOf?_eq_none_iff.mpr h]
  | no_close h =>
      rw [bracketed, List.idxOf?_eq_none_iff.mpr h]
      cases str.idxOf? '[' <;> rfl
  | @reversed before after hopen hclose =>
      rw [bracketed, idxOf?_append_cons hclose]
      cases hstart : (before ++ ']' :: after).idxOf? '[' with
      | none => rfl
      | some start =>
          -- an opening bracket in front of the closing one would be in `before`
          have hnot : ¬start < before.length := by
            intro hlt
            obtain ⟨_, hfound, -⟩ := List.idxOf?_eq_some_iff.mp hstart
            rw [List.getElem_append_left hlt] at hfound
            exact hopen (hfound ▸ List.getElem_mem hlt)
          exact if_neg hnot

/-- What the first brackets stand around, and what follows a colon behind them. -/
theorem bracketed_cut {before addr after port : List Char} (h : FirstBrackets before addr)
    (hport : Behind after port) :
    bracketed (before ++ ('[' :: addr ++ ']' :: after)) = (addr, port) := by
  have hopen := idxOf?_append_cons h.no_open (addr ++ ']' :: after)
  have hnot : ']' ∉ before ++ '[' :: addr := by
    rw [List.mem_append, List.mem_cons, not_or, not_or]
    exact ⟨h.no_close, by decide, h.closes⟩
  have hclose := idxOf?_append_cons hnot after
  have hstr : before ++ ('[' :: addr ++ ']' :: after)
      = (before ++ '[' :: addr) ++ ']' :: after := (List.append_assoc _ _ _).symm
  have hlength : (before ++ '[' :: addr).length = before.length + 1 + addr.length := by
    rw [List.length_append, List.length_cons]
    omega
  have hlt : before.length < (before ++ '[' :: addr).length := by omega
  have hnext : ((before ++ '[' :: addr) ++ ']' :: after)[(before ++ '[' :: addr).length + 1]?
      = after.head? := by
    rw [List.getElem?_append_right (Nat.le_add_right _ 1), Nat.add_sub_cancel_left,
      List.getElem?_cons_succ, List.head?_eq_getElem?]
  have hrest : ((before ++ '[' :: addr) ++ ']' :: after).drop
      ((before ++ '[' :: addr).length + 2) = after.tail := by
    rw [List.drop_append, List.drop_eq_nil_of_le (Nat.le_add_right _ 2),
      Nat.add_sub_cancel_left, List.nil_append, List.drop_succ_cons, List.drop_one]
  have haddr : ((before ++ '[' :: (addr ++ ']' :: after)).drop (before.length + 1)).take
      ((before ++ '[' :: addr).length - (before.length + 1)) = addr := by
    rw [List.drop_append, List.drop_eq_nil_of_le (Nat.le_add_right _ 1),
      Nat.add_sub_cancel_left, List.nil_append, List.drop_succ_cons, List.drop_zero, hlength,
      Nat.add_sub_cancel_left, List.take_left]
  rw [List.cons_append, bracketed, hopen]
  rw [← List.cons_append, hstr, hclose]
  simp only [if_pos hlt, hnext, hrest, ← hport.eq]
  rw [← hstr, List.cons_append, haddr]

/-- A text with a period and a colon is cut at its first colon. -/
theorem dotted_cut {addr port : List Char} (hcolon : ':' ∉ addr)
    (hperiod : '.' ∈ addr ++ ':' :: port) (portStr : List Char) :
    dotted (addr ++ ':' :: port) portStr = (addr, port) := by
  obtain ⟨period, hfound⟩ := Option.isSome_iff_exists.mp (List.isSome_idxOf?.mpr hperiod)
  have hlater : (addr ++ ':' :: port).drop (addr.length + 1) = port := by
    rw [List.drop_append, List.drop_eq_nil_of_le (Nat.le_succ _), Nat.add_sub_cancel_left,
      List.nil_append, List.drop_succ_cons, List.drop_zero]
  simp only [dotted, hfound, idxOf?_append_cons hcolon, List.take_left, hlater]

/-- A text without a period, or without a colon, is not. -/
theorem dotted_none {str : List Char} (h : '.' ∉ str ∨ ':' ∉ str) (portStr : List Char) :
    dotted str portStr = ([], portStr) := by
  rcases h with hperiod | hcolon
  · rw [dotted, List.idxOf?_eq_none_iff.mpr hperiod]
  · rw [dotted, List.idxOf?_eq_none_iff.mpr hcolon]
    cases str.idxOf? '.' <;> rfl

/-- A text whose first brackets hold nothing. -/
inductive Unbracketed : List Char → Prop
  | unpaired {str} (h : Unpaired str) : Unbracketed str
  | empty {before after} (h : FirstBrackets before []) :
      Unbracketed (before ++ '[' :: ']' :: after)

theorem Unbracketed.eq_nil {str : List Char} (h : Unbracketed str) : (bracketed str).1 = [] := by
  cases h with
  | unpaired h => rw [bracketed_unpaired h]
  | @empty before after h =>
      obtain ⟨port, hport⟩ := behind_exists after
      exact congrArg Prod.fst (bracketed_cut h hport)

/-- **How a text is put together of an address and a port**, as it is cut: by the first
    brackets; if these hold nothing, by the first colon of a text with a period; else the whole
    text is the address.  In the second and the third case the text in front of the colon, or
    between the brackets, is empty, and the whole text is the address besides. -/
inductive Cut : List Char → List Char → List Char → Prop
  | bracketed {before addr after port} (h : FirstBrackets before addr) (hne : addr ≠ [])
      (hport : Behind after port) : Cut (before ++ ('[' :: addr ++ ']' :: after)) addr port
  | dotted {addr port} (hne : addr ≠ []) (hcolon : ':' ∉ addr)
      (hperiod : '.' ∈ addr ++ ':' :: port) (h : Unbracketed (addr ++ ':' :: port)) :
      Cut (addr ++ ':' :: port) addr port
  | colon_first {port} (hperiod : '.' ∈ port) (h : Unbracketed (':' :: port)) :
      Cut (':' :: port) (':' :: port) port
  | empty_brackets {before after port} (h : FirstBrackets before []) (hport : Behind after port)
      (hnone : '.' ∉ before ++ '[' :: ']' :: after ∨ ':' ∉ before ++ '[' :: ']' :: after) :
      Cut (before ++ '[' :: ']' :: after) (before ++ '[' :: ']' :: after) port
  | whole {str} (h : Unpaired str) (hnone : '.' ∉ str ∨ ':' ∉ str) : Cut str str []

/-- The first attempt that finds an address ends the search. -/
theorem splitAddress_of_first {str addr port : List Char} (h : bracketed str = (addr, port))
    (hne : addr ≠ []) : splitAddress str = (addr, port) := by
  rw [splitAddress, h]
  simp only [if_neg hne]

theorem splitAddress_of_second {str addr port first : List Char}
    (hfirst : bracketed str = ([], first)) (h : dotted str first = (addr, port)) :
    splitAddress str = (if addr = [] then str else addr, port) := by
  rw [splitAddress, hfirst]
  simp only [if_true, h]
  split <;> rfl

theorem Unbracketed.eq {str : List Char} (h : Unbracketed str) :
    bracketed str = ([], (bracketed str).2) := Prod.ext h.eq_nil rfl

/-- The cut that describes a text is the one that is made. -/
theorem Cut.split {str addr port : List Char} (h : Cut str addr port) :
    splitAddress str = (addr, port) := by
  cases h with
  | bracketed h hne hport => exact splitAddress_of_first (bracketed_cut h hport) hne
  | dotted hne hcolon hperiod h =>
      rw [splitAddress_of_second h.eq (dotted_cut hcolon hperiod _), if_neg hne]
  | colon_first hperiod h =>
      exact splitAddress_of_second h.eq
        (@dotted_cut [] _ List.not_mem_nil (List.mem_cons_of_mem _ hperiod) _)
  | empty_brackets h hport hnone =>
      exact splitAddress_of_second (bracketed_cut h hport) (dotted_none hnone _)
  | whole h hnone =>
      exact splitAddress_of_second (bracketed_unpaired h) (dotted_none hnone _)

/-- A text in brackets, and a port behind a colon. -/
theorem splitAddress_bracketed {addr after port : List Char} (hne : addr ≠ []) (h : ']' ∉ addr)
    (hport : Behind after port) : splitAddress ('[' :: addr ++ ']' :: after) = (addr, port) :=
  (@Cut.bracketed [] _ _ _ ⟨List.not_mem_nil, List.not_mem_nil, h⟩ hne hport).split

/-- A text with a period is cut at its first colon. -/
theorem splitAddress_dotted {addr port : List Char} (hbracket : '[' ∉ addr ++ ':' :: port)
    (hcolon : ':' ∉ addr) (hperiod : '.' ∈ addr ++ ':' :: port) :
    splitAddress (addr ++ ':' :: port)
      = (if addr = [] then addr ++ ':' :: port else addr, port) :=
  splitAddress_of_second (bracketed_unpaired (Unpaired.no_open hbracket))
    (dotted_cut hcolon hperiod _)

theorem parsePort_of_digits {portStr : List Char} {n : Nat} (h : Digits portStr n)
    (hn : n ≤ 65535) : parsePort portStr = .ok (UInt16.ofNat n) := by
  have hread : stoi portStr = .ok (n : Int) := stoi_of_digits h (by omega)
  have hrange : ¬((n : Int) < 0 ∨ 65535 < (n : Int)) := by omega
  rw [parsePort, if_neg h.ne_nil, hread]
  simp only [if_neg hrange, Int.toNat_natCast]

/-- The texts that are taken for a port: an empty one, and one that begins with a number of 16
    bits, whatever stands around that. -/
inductive PortText : List Char → Prop
  | none : PortText []
  | number {blanks sign digits rest n} (h : NumberText blanks sign digits rest n)
      (hn : n ≤ 65535) (hsign : sign = ['-'] → n = 0) :
      PortText (numberText blanks sign digits rest)

theorem PortText.parse {portStr : List Char} (h : PortText portStr) :
    ∃ port, parsePort portStr = .ok port := by
  cases h with
  | none => exact ⟨0, rfl⟩
  | @number blanks sign digits rest n h hn hsign =>
      have hvalue : ∃ value : Int, stoi (numberText blanks sign digits rest) = .ok value ∧
          ¬(value < 0 ∨ 65535 < value) := by
        rw [stoi_number h]
        by_cases hneg : sign = ['-']
        · have hzero := hsign hneg
          simp only [if_pos hneg]
          exact ⟨-(n : Int), if_neg (by omega), by omega⟩
        · simp only [if_neg hneg]
          exact ⟨n, if_neg (by omega), by omega⟩
      obtain ⟨value, hread, hrange⟩ := hvalue
      rw [parsePort, if_neg (numberText_ne_nil h), hread]
      exact ⟨_, if_neg hrange⟩

/-- The two functions that convert, as conversions of a bare address that store the port. -/
structure Converts (ip4 ip6 : List Char → UInt16 → Option (Sockaddr A4 A6))
    (text4 : List Char → Option A4) (text6 : List Char → Option (A6 × UInt32)) : Prop where
  four : ∀ s port, ip4 s port = (text4 s).map fun addr => .inet addr (htons port)
  six : ∀ s port, ip6 s port = (text6 s).map fun addr => .inet6 addr.1 addr.2 (htons port)

/-- The address that a text is converted to, IPv4 first. -/
def convert (text4 : List Char → Option A4) (text6 : List Char → Option (A6 × UInt32))
    (addrStr : List Char) (port : UInt16) : Option (Sockaddr A4 A6) :=
  match text4 addrStr with
  | some addr => some (.inet addr (htons port))
  | none => (text6 addrStr).map fun addr => .inet6 addr.1 addr.2 (htons port)

section Reads

variable {ip4 ip6 : List Char → UInt16 → Option (Sockaddr A4 A6)}
  {text4 : List Char → Option A4} {text6 : List Char → Option (A6 × UInt32)}
  (hconverts : Converts ip4 ip6 text4 text6)

include hconverts

/-- The whole function on the two texts. -/
theorem createInetSockAddr_eq {str addrStr portStr : List Char}
    (hsplit : splitAddress str = (addrStr, portStr)) :
    createInetSockAddr ip4 ip6 str
      = (parsePort portStr).bind fun port =>
          match convert text4 text6 addrStr port with
          | some addr => .ok addr
          | none => .error invalidArgument := by
  rw [createInetSockAddr, hsplit]
  refine congrArg (Except.bind (parsePort portStr)) (funext ?_)
  intro port
  rw [hconverts.four, hconverts.six, convert]
  cases text4 addrStr with
  | some addr => rfl
  | none => cases text6 addrStr <;> rfl

theorem createInetSockAddr_ok {str addrStr portStr : List Char} {port : UInt16}
    {addr : Sockaddr A4 A6} (hsplit : splitAddress str = (addrStr, portStr))
    (hport : parsePort portStr = .ok port)
    (haddr : convert text4 text6 addrStr port = some addr) :
    createInetSockAddr ip4 ip6 str = .ok addr := by
  rw [createInetSockAddr_eq hconverts hsplit, hport]
  simp only [Except.bind, haddr]

end Reads

end TpSockaddr
